import BusClient.Proofs.Json.Skipping
import BusClient.Proofs.Json.Yield
import BusClient.Proofs.Message.Reading

/-!
# What the fields of a message accept

A field of a fixed type accepts some values and refuses all others. A reader `Judges` the texts
of a value by a verdict: it takes what the verdict names from each of them, or finds a fault in
each of them. The verdicts of the fields make the verdict of an object of two fields, in which the
order of the members does not matter and what has another name is passed over, and of the same
two fields in a list.
-/

namespace BusClient.Json

variable {α β γ σ : Type}

/-! ## Verdicts -/

/-- What comes of a text whose verdict this is: the value it names, with this left over, or a
fault if it names none. -/
def Judged {whole : Bytes} (result : Except Fault (Found α whole)) (rest : Bytes) :
    Option α → Prop
  | some value => ∃ h, result = .ok ⟨value, rest, h⟩
  | none => ∃ fault, result = .error fault

/-- The reader comes to this verdict about each of these texts. -/
def Judges (reader : Reader α) (layout : Bytes → Prop) (verdict : Option α) : Prop :=
  ∀ blanks text rest, Blanks blanks → layout text → Delimited rest →
    Judged (reader (blanks ++ (text ++ rest))) rest verdict

/-- What is taken has that value for its verdict. -/
theorem Takes.judges {reader : Reader α} {layout : Bytes → Prop} {value : α}
    (ht : Takes reader layout value) : Judges reader layout (some value) := ht

/-- No blanks need to stand in front. -/
theorem Judges.judged {reader : Reader α} {layout : Bytes → Prop} {verdict : Option α}
    (hj : Judges reader layout verdict) {text rest : Bytes} (hl : layout text)
    (hr : Delimited rest) : Judged (reader (text ++ rest)) rest verdict :=
  hj [] text rest .nil hl hr

/-- A reader that changes what another one has read changes its verdict. -/
theorem Judges.map {reader : Reader α} {reader' : Reader β} {layout : Bytes → Prop}
    {verdict : Option α} {f : α → β} (hj : Judges reader layout verdict)
    (hm : ∀ text, reader' text =
      match reader text with
      | .error fault => .error fault
      | .ok found => .ok (found.map f)) : Judges reader' layout (verdict.map f) := by
  intro blanks text rest hb hl hr
  have h := hj blanks text rest hb hl hr
  rw [hm]
  cases verdict with
  | none =>
    obtain ⟨fault, h⟩ := h
    exact ⟨fault, by rw [h]⟩
  | some value =>
    obtain ⟨hs, h⟩ := h
    exact ⟨hs, by rw [h]; rfl⟩

/-- What is read first passes its verdict on to what is read or checked next. -/
theorem Judged.bind {whole whole' mid rest : Bytes} {result : Except Fault (Found α whole)}
    {result' : Except Fault (Found β whole')} {verdict : Option α} {next : α → Option β}
    (hj : Judged result mid verdict)
    (he : ∀ fault, result = .error fault → result' = .error fault)
    (ho : ∀ value h, result = .ok ⟨value, mid, h⟩ → Judged result' rest (next value)) :
    Judged result' rest (verdict.bind next) := by
  cases verdict with
  | none =>
    obtain ⟨fault, hf⟩ := hj
    exact ⟨fault, he fault hf⟩
  | some value =>
    obtain ⟨h, hf⟩ := hj
    exact ho value h hf

/-- What is read is checked as a whole. -/
theorem Judged.checked {whole rest : Bytes} {result : Except Fault (Found α whole)}
    {result' : Except Fault (Found β whole)} {verdict : Option α} {check : α → Except Cause β}
    (hj : Judged result rest verdict)
    (he : ∀ fault, result = .error fault → result' = .error fault)
    (ho : ∀ value h, result = .ok ⟨value, rest, h⟩ → result' =
      match check value with
      | .error cause => .error (.before cause rest)
      | .ok b => .ok ⟨b, rest, h⟩) :
    Judged result' rest (verdict.bind fun value => (check value).toOption) := by
  refine hj.bind he fun value h hf => ?_
  have hc := ho value h hf
  cases hv : check value with
  | error cause =>
    rw [hv] at hc
    exact ⟨_, hc⟩
  | ok b =>
    rw [hv] at hc
    exact ⟨h, hc⟩

/-- What is judged behind the front of a text is judged in the whole text. -/
theorem Judged.beyond {inner whole rest : Bytes} {result : Except Fault (Found α inner)}
    {result' : Except Fault (Found α whole)} {verdict : Option α} (hj : Judged result rest verdict)
    (h : inner.length < whole.length)
    (he : ∀ fault, result = .error fault → result' = .error fault)
    (ho : ∀ found, result = .ok found → result' = .ok (found.beyond h)) :
    Judged result' rest verdict := by
  have hb : Judged result' rest (verdict.bind some) :=
    hj.bind he fun value h' hf => ⟨Nat.lt_trans h' h, ho _ hf⟩
  rwa [Option.bind_fun_some] at hb

/-- A result has a value exactly if it is that value. -/
theorem toOption_eq_some_iff {ε : Type} {result : Except ε α} {value : α} :
    result.toOption = some value ↔ result = .ok value := by
  cases result <;> simp [Except.toOption]

/-- A result has no value exactly if it is an error. -/
theorem toOption_eq_none_iff {ε : Type} {result : Except ε α} :
    result.toOption = none ↔ ∃ error, result = .error error := by
  cases result <;> simp [Except.toOption]

/-- Of a whole text with blanks around it comes what its verdict names. -/
theorem Judges.toOption_readAll {reader : Reader α} {layout : Bytes → Prop} {verdict : Option α}
    (hj : Judges reader layout verdict) {blanks text blanks' : Bytes} (hb : Blanks blanks)
    (hb' : Blanks blanks') (hl : layout text) :
    (readAll reader (blanks ++ (text ++ blanks'))).toOption = verdict := by
  have h := hj blanks text blanks' hb hl hb'.delimited
  cases verdict with
  | some value => exact toOption_eq_some_iff.mpr (readAll_of_reads h hb')
  | none =>
    obtain ⟨fault, hf⟩ := h
    exact toOption_eq_none_iff.mpr ⟨_, by simp only [readAll, hf]; rfl⟩

/-! ## Fields -/

/-- What the first byte of a text tells about the value. -/
structure Opens (value : Value) (b : UInt8) : Prop where
  blank : isBlank b = false
  quote : b = 0x22 → ∃ text, value = .string text
  bracket : b = 0x5b → ∃ items, value = .array items
  brace : b = 0x7b → ∃ members, value = .object members
  number : b = 0x2d ∨ Digit.isByte b = true → ∃ n, value = .number n

/-- A word opens like no other value. -/
theorem opens_word {value : Value} {b : UInt8} {word : Bytes} (hw : (value, b, word) ∈ words) :
    Opens value b := by
  simp only [words, List.mem_cons, Prod.mk.injEq, List.not_mem_nil, or_false] at hw
  rcases hw with ⟨-, rfl, -⟩ | ⟨-, rfl, -⟩ | ⟨-, rfl, -⟩ <;> constructor <;> simp +decide

/-- A digit opens a number only. -/
theorem opens_digit (n : Number) (d : Digit) : Opens (.number n) d.byte := by
  have hd : ∀ d : Digit, isBlank d.byte = false ∧ d.byte ≠ 0x22 ∧ d.byte ≠ 0x5b ∧
      d.byte ≠ 0x7b := by decide
  obtain ⟨hb, hq, hl, ho⟩ := hd d
  exact ⟨hb, fun h => absurd h hq, fun h => absurd h hl, fun h => absurd h ho, fun _ => ⟨n, rfl⟩⟩

/-- The first byte of a value is behind the blanks in front of it. -/
theorem Layout.opens {value : Value} {text : Bytes} (hl : Layout value text) :
    ∃ b more, text = b :: more ∧ Opens value b := by
  cases hl with
  | null =>
    obtain ⟨b, word, ht, hw⟩ := ofText_null
    exact ⟨b, word, ht, opens_word hw⟩
  | bool truth =>
    obtain ⟨b, word, ht, hw⟩ := ofText_bool truth
    exact ⟨b, word, ht, opens_word hw⟩
  | number n =>
    rcases number_opens n with ⟨-, ht⟩ | ⟨-, ht, d, more, hd⟩
    · exact ⟨0x2d, _, ht, by constructor <;> simp +decide⟩
    · exact ⟨d.byte, more, ht.trans hd, opens_digit n d⟩
  | string text => exact ⟨0x22, _, rfl, by constructor <;> simp +decide⟩
  | @array items => exact ⟨0x5b, _, rfl, by constructor <;> simp +decide⟩
  | @object members => exact ⟨0x7b, _, rfl, by constructor <;> simp +decide⟩

/-- The first byte of a value is the first one behind the blanks. -/
theorem skipBlanks_layout {value : Value} {blanks text : Bytes} (hb : Blanks blanks)
    (hl : Layout value text) (rest : Bytes) :
    ∃ b more h, skipBlanks (blanks ++ (text ++ rest)) = ⟨(), b :: more, h⟩ ∧ Opens value b := by
  obtain ⟨b, more, rfl, ho⟩ := hl.opens
  obtain ⟨h, hs⟩ := skipBlanks_cons hb ho.blank (more ++ rest)
  exact ⟨b, more ++ rest, h, hs, ho⟩

/-- The code that a number gives: it is spelled as an integer of thirty-two bits and is not the
negative zero. -/
def Number.code? (n : Number) : Option Int32 :=
  if n.negative ∧ n.whole = 0 then none else n.int32?

/-- The items of a value that is a list. -/
def Value.items? : Value → Option (List Value)
  | .array items => some items
  | _ => none

/-- The code of a value that is a number. -/
def Value.code? (value : Value) : Option Int32 := value.number?.bind Number.code?

theorem Value.text?_eq_some_iff {value : Value} {text : String} :
    value.text? = some text ↔ value = .string text := by
  cases value <;> simp [text?]

theorem Value.items?_eq_some_iff {value : Value} {items : List Value} :
    value.items? = some items ↔ value = .array items := by
  cases value <;> simp [items?]

theorem Value.code?_eq_some_iff {value : Value} {code : Int32} :
    value.code? = some code ↔ ∃ n, value = .number n ∧ n.code? = some code := by
  cases value <;> simp [code?, number?]

/-- A number is a field exactly if it gives a code. -/
theorem Number.field_judged (n : Number) (rest : Bytes) :
    match n.code? with
    | some code => n.field rest = .ok code
    | none => ∃ fault, n.field rest = .error fault := by
  have h64 : Int64.minValue.toInt = -9223372036854775808 := by decide
  have h32 : Int32.minValue.toInt = -2147483648 := by decide
  have h32' : Int32.maxValue.toInt = 2147483647 := by decide
  have hs : (UInt64.size : Int) = 18446744073709551616 := by decide
  cases hi : n.integer? with
  | none =>
    have hw : n.code? = none := by simp [code?, int32?, hi]
    rw [hw]
    exact ⟨_, by simp only [field, hi]; rfl⟩
  | some value =>
    have hz : n.negative = true → (value = 0 ↔ n.whole = 0) := by
      intro hn
      simp only [integer?, hn, if_true] at hi
      split at hi
      · cases hi
        omega
      · cases hi
    by_cases hx : n.negative = true ∧ (value = 0 ∨ value < Int64.minValue.toInt) ∨
        (UInt64.size : Int) ≤ value
    · have hw : n.code? = none := by
        unfold code?
        split
        · rfl
        next hnz =>
          have hout : ¬ (Int32.minValue.toInt ≤ value ∧ value ≤ Int32.maxValue.toInt) := by
            rcases hx with ⟨hn, h0 | hl⟩ | hu
            · exact absurd ⟨hn, (hz hn).mp h0⟩ hnz
            · omega
            · omega
          simp only [int32?, hi, Option.bind_eq_bind, Option.bind_some, if_neg hout]
      rw [hw]
      exact ⟨_, by simp only [field, hi, if_pos hx]; rfl⟩
    · have hnz : ¬ (n.negative = true ∧ n.whole = 0) := by
        rintro ⟨hn, h0⟩
        exact hx (.inl ⟨hn, .inl ((hz hn).mpr h0)⟩)
      rw [code?, if_neg hnz]
      simp only [field, hi, if_neg hx]
      cases n.int32? with
      | some word => rfl
      | none => exact ⟨_, rfl⟩

/-- A text field accepts the strings. -/
theorem readText_judges (wanted : String) (value : Value) :
    Judges (readText wanted) (Layout value) value.text? := by
  cases hv : value.text? with
  | some text =>
    cases value <;> cases hv
    exact (readText_takes wanted text).judges
  | none =>
    intro blanks text rest hb hl _
    obtain ⟨b, more, h, hs, ho⟩ := skipBlanks_layout hb hl rest
    have hq : b ≠ 0x22 := by
      intro he
      obtain ⟨text, rfl⟩ := ho.quote he
      cases hv
    exact ⟨unwanted wanted (b :: more), by simp only [readText, hs, if_neg hq]⟩

/-- An integer field accepts the numbers that give a code. -/
theorem readInt32_judges (value : Value) : Judges readInt32 (Layout value) value.code? := by
  intro blanks text rest hb hl hr
  cases hv : value.number? with
  | some n =>
    cases value <;> cases hv
    cases hl
    have hf := n.field_judged rest
    obtain ⟨h, hn⟩ := readInt32_number n hb hr
    rw [hn, Value.code?, Value.number?, Option.bind_some]
    cases hc : n.code? with
    | some code =>
      rw [hc] at hf
      exact ⟨h, by rw [hf]⟩
    | none =>
      rw [hc] at hf
      obtain ⟨fault, hf⟩ := hf
      exact ⟨fault, by rw [hf]⟩
  | none =>
    obtain ⟨b, more, h, hs, ho⟩ := skipBlanks_layout hb hl rest
    have hn : ¬ (b = 0x2d ∨ Digit.isByte b = true) := by
      intro he
      obtain ⟨n, rfl⟩ := ho.number he
      cases hv
    rw [not_or] at hn
    rw [Value.code?, hv, Option.bind_none]
    exact ⟨unwanted "i32" (b :: more), by
      simp only [readInt32, hs, if_neg hn.1, if_neg hn.2]⟩

/-- A list field accepts the lists. -/
theorem readValueList_judges (depth : Nat) {value : Value} (hr : Reached (depth + 1) value) :
    Judges (readValueList depth) (Layout value) value.items? := by
  cases hv : value.items? with
  | some items =>
    cases value <;> cases hv
    have hi := reached_array_iff.mp hr
    exact (readValueList_takes (fun v hm => (hi v hm).1)
      (depthOfItems_le_iff.mpr fun v hm => (hi v hm).2)).judges
  | none =>
    intro blanks text rest hb hl _
    obtain ⟨b, more, h, hs, ho⟩ := skipBlanks_layout hb hl rest
    have hq : b ≠ 0x5b := by
      intro he
      obtain ⟨items, rfl⟩ := ho.bracket he
      cases hv
    exact ⟨unwanted "a sequence" (b :: more), by simp only [readValueList, hs, if_neg hq]⟩

/-- What stands behind a colon is judged as it is without. -/
theorem readAfterColon_judges {reader : Reader α} {layout : Bytes → Prop} {verdict : Option α}
    (hj : Judges reader layout verdict) :
    Judges (readAfterColon reader) (AfterColon layout) verdict := by
  cases verdict with
  | some value => exact (readAfterColon_takes hj).judges
  | none =>
    rintro front _ rest hf ⟨blanks, blanks', part, hb, hb', hp, rfl⟩ hr
    obtain ⟨fault, hv⟩ := hj blanks' part rest hb' hp hr
    obtain ⟨h, hs⟩ := skipBlanks_cons (hf.append hb) (b := 0x3a) (by decide)
      (blanks' ++ (part ++ rest))
    have he : front ++ (blanks ++ 0x3a :: (blanks' ++ part) ++ rest) =
        front ++ blanks ++ 0x3a :: (blanks' ++ (part ++ rest)) := by
      simp only [List.append_assoc, List.cons_append]
    rw [he]
    exact ⟨fault, by simp only [readAfterColon, readColon, hs, if_true, hv]⟩

/-! ## Two fields by name -/

/-- The verdict about a field that need not be there. -/
def optional (decode : Value → Option α) : Option Value → Option (Option α)
  | none => some none
  | some value => (decode value).map some

theorem optional_eq_some_iff {decode : Value → Option α} {value : Option Value} {a : Option α} :
    optional decode value = some a ↔ value = none ∧ a = none ∨
      ∃ v x, value = some v ∧ decode v = some x ∧ a = some x := by
  cases value with
  | none => simp [optional, eq_comm]
  | some v => simp [optional, eq_comm]

/-- The members of an object are read for two fields; what has another name is passed over. -/
structure TwoFields (member : σ → String → Reader σ) (known : Option α → Option β → σ)
    (p : Value → Prop) (name name' : String) (decode : Value → Option α)
    (decode' : Value → Option β) : Prop where
  ne : name ≠ name'
  first : ∀ {value}, p value → ∀ b, Judges (member (known none b) name)
    (AfterColon (Layout value)) ((decode value).map fun a => known (some a) b)
  second : ∀ {value}, p value → ∀ a, Judges (member (known a none) name')
    (AfterColon (Layout value)) ((decode' value).map fun b => known a (some b))
  other : ∀ {other value}, other ≠ name → other ≠ name' → ∀ a b,
    Takes (member (known a b) other) (AfterColon (Layout value)) (known a b)

/-- The loop comes to the verdict of what stands behind a member, if that is read, and stops there
otherwise. -/
theorem readMembers_member_judged {member : σ → String → Reader σ}
    {whole front text mid rest : Bytes} {first : Bool} {known : σ} {name : String}
    {step verdict : Option σ} (hn : Reads (readName? first) text (some name) front)
    (hm : Judged (member known name front) mid step)
    (hs : ∀ known', step = some known' → ∀ h' : mid.length ≤ whole.length,
      Judged (readMembers member whole false known' mid h') rest verdict)
    (hv : step = none → verdict = none) (h : text.length ≤ whole.length) :
    Judged (readMembers member whole first known text h) rest verdict := by
  cases step with
  | none =>
    rw [hv rfl]
    obtain ⟨hf, hn⟩ := hn
    obtain ⟨fault, hm⟩ := hm
    refine ⟨fault, ?_⟩
    rw [readMembers]
    simp only [hn, hm]
  | some known' =>
    have hlen := Nat.lt_trans hm.choose hn.choose
    rw [readMembers_member hn hm h (Nat.le_trans (Nat.le_of_lt hlen) h)]
    exact hs known' rfl _

namespace Members

theorem get?_cons (m : String × Value) (rest : Members) (name : String) :
    get? (m :: rest) name = if m.1 = name then some m.2 else rest.get? name := by
  by_cases h : m.1 = name <;> simp [get?, h]

theorem get?_eq_none {members : Members} {name : String} (h : name ∉ members.names) :
    members.get? name = none := by
  cases hv : members.get? name with
  | none => rfl
  | some value => exact absurd (has_iff.mp (has_of_get? hv)) h

/-- The verdict about two fields of an object, when some of them are known before. -/
def fields? (known : Option α → Option β → σ) (name name' : String)
    (decode : Value → Option α) (decode' : Value → Option β) (a : Option α) (b : Option β)
    (members : Members) : Option σ :=
  (optional decode (members.get? name)).bind fun a' =>
    (optional decode' (members.get? name')).map fun b' => known (a'.or a) (b'.or b)

/-- When nothing is known before, it is the verdicts about both. -/
theorem fields?_bind (known : Option α → Option β → σ) (name name' : String)
    (decode : Value → Option α) (decode' : Value → Option β) (members : Members)
    (next : σ → Option γ) :
    (members.fields? known name name' decode decode' none none).bind next =
      (optional decode (members.get? name)).bind fun a =>
        (optional decode' (members.get? name')).bind fun b => next (known a b) := by
  simp only [fields?, Option.or_none, Option.bind_assoc, Option.bind_map]
  rfl

end Members

section

variable {member : σ → String → Reader σ} {known : Option α → Option β → σ} {p : Value → Prop}
  {name name' : String} {decode : Value → Option α} {decode' : Value → Option β}
  {members : Members}

/-- The members of an object of two fields are judged by what they hold under the two names. -/
theorem readMembers_judged (hf : TwoFields member known p name name' decode decode')
    {whole text : Bytes} {first : Bool} (hp : Parts (Member Layout) 0x7d first members text)
    (hn : members.names.Nodup) (hv : ∀ m ∈ members, p m.2) {a : Option α} {b : Option β}
    (ha : a = none ∨ name ∉ members.names) (hb : b = none ∨ name' ∉ members.names) (rest : Bytes)
    (h : (text ++ rest).length ≤ whole.length) :
    Judged (readMembers member whole first (known a b) (text ++ rest) h) rest
      (members.fields? known name name' decode decode' a b) := by
  -- Member by member; a field that is known does not come again, since the names differ.
  revert h
  induction hp generalizing a b with
  | @close first blanks hbl =>
    rw [List.append_assoc, List.singleton_append]
    exact readMembers_end (readName?_close first hbl rest)
  | @part first m more lead text tail hl hm hr ih =>
    obtain ⟨after, rfl, hc⟩ := hm.cases_name
    obtain ⟨hvm, hvr⟩ := List.forall_mem_cons.mp hv
    obtain ⟨hnm, hnr⟩ := List.nodup_cons.mp hn
    have hd := hr.delimited (by decide) rest
    have hq := readName?_lead hl m.1 (after ++ (tail ++ rest))
    rw [List.append_assoc, List.append_assoc, List.append_assoc]
    by_cases h₁ : m.1 = name
    · have ha : a = none := ha.resolve_right fun h => h (h₁ ▸ List.mem_cons_self)
      have hb : b = none ∨ name' ∉ Members.names more :=
        hb.imp_right fun h h' => h (List.mem_cons_of_mem _ h')
      have hg := Members.get?_eq_none hnm
      subst ha h₁
      refine readMembers_member_judged hq ((hf.first hvm b).judged hc hd) ?_ ?_
      · intro known' hk h'
        obtain ⟨x, hx, rfl⟩ := Option.map_eq_some_iff.mp hk
        have hi := ih hnr hvr (a := some x) (.inr hnm) hb h'
        simpa [Members.fields?, Members.get?_cons, hf.ne, optional, hg, hx] using hi
      · intro hk
        rw [Option.map_eq_none_iff] at hk
        simp [Members.fields?, Members.get?_cons, optional, hk]
    by_cases h₂ : m.1 = name'
    · have hb : b = none := hb.resolve_right fun h => h (h₂ ▸ List.mem_cons_self)
      have ha : a = none ∨ name ∉ Members.names more :=
        ha.imp_right fun h h' => h (List.mem_cons_of_mem _ h')
      have hg := Members.get?_eq_none hnm
      subst hb h₂
      refine readMembers_member_judged hq ((hf.second hvm a).judged hc hd) ?_ ?_
      · intro known' hk h'
        obtain ⟨x, hx, rfl⟩ := Option.map_eq_some_iff.mp hk
        have hi := ih hnr hvr (b := some x) ha (.inr hnm) h'
        simpa [Members.fields?, Members.get?_cons, h₁, optional, hg, hx] using hi
      · intro hk
        rw [Option.map_eq_none_iff] at hk
        simp [Members.fields?, Members.get?_cons, h₁, optional, hk]
    · refine readMembers_member_judged hq ((hf.other h₁ h₂ a b).judges.judged hc hd) ?_ ?_
      · intro known' hk h'
        cases hk
        have hi := ih hnr hvr (ha.imp_right fun h h' => h (List.mem_cons_of_mem _ h'))
          (hb.imp_right fun h h' => h (List.mem_cons_of_mem _ h')) h'
        simpa [Members.fields?, Members.get?_cons, h₁, h₂] using hi
      · intro hk
        cases hk

/-- An object of two fields is judged by what it holds under their names. -/
theorem readObject_judged (hf : TwoFields member known p name name' decode decode')
    {text : Bytes} (hp : Parts (Member Layout) 0x7d true members text)
    (hn : members.names.Nodup) (hv : ∀ m ∈ members, p m.2) (rest : Bytes) :
    Judged (readObject member (known none none) (text ++ rest)) rest
      (members.fields? known name name' decode decode' none none) :=
  readMembers_judged hf hp hn hv (.inl rfl) (.inl rfl) rest (length_le_self _)

/-- What is made of the two fields of an object is judged by what is made of their verdicts. -/
theorem readObject_checked (check : σ → Except Cause γ)
    (hf : TwoFields member known p name name' decode decode')
    {text : Bytes} (hp : Parts (Member Layout) 0x7d true members text)
    (hn : members.names.Nodup) (hv : ∀ m ∈ members, p m.2) {rest : Bytes}
    {result : Except Fault (Found γ (text ++ rest))}
    (he : ∀ fault, readObject member (known none none) (text ++ rest) = .error fault →
      result = .error fault)
    (ho : ∀ state h, readObject member (known none none) (text ++ rest) = .ok ⟨state, rest, h⟩ →
      result =
        match check state with
        | .error cause => .error (.before cause rest)
        | .ok made => .ok ⟨made, rest, h⟩) :
    Judged result rest ((optional decode (members.get? name)).bind fun a =>
      (optional decode' (members.get? name')).bind fun b => (check (known a b)).toOption) := by
  have hb := Members.fields?_bind known name name' decode decode' members
    fun state => (check state).toOption
  rw [← hb]
  exact (readObject_judged hf hp hn hv rest).checked he ho

end

/-! ## Fields in a list -/

section

variable {first : Bool} {items : List Value} {text : Bytes}

/-- The next field of a list is judged by the next item, and the further items are left. -/
theorem readItem?_judged {reader : Reader α} {decode : Value → Option α}
    (hp : Parts Layout 0x5d first items text)
    (hj : ∀ item ∈ items.head?, Judges reader (Layout item) (decode item)) (rest : Bytes) :
    match optional decode items.head? with
    | some value => ∃ tail h, Parts Layout 0x5d false items.tail tail ∧
        readItem? first reader (text ++ rest) = .ok ⟨value, tail ++ rest, h⟩
    | none => ∃ fault, readItem? first reader (text ++ rest) = .error fault := by
  cases hp with
  | @close _ blanks hb =>
    obtain ⟨h, hs⟩ := itemStart_close first hb rest
    rw [List.append_assoc, List.singleton_append]
    have hc : Parts Layout 0x5d false [] [0x5d] := .close Blanks.nil
    exact ⟨[0x5d], h, hc, by simp only [readItem?, hs]; rfl⟩
  | @part _ item more lead text tail hl ha hr =>
    obtain ⟨h, hs⟩ := itemStart_lead hl ha.opensItem (tail ++ rest)
    have hv := (hj item rfl).judged ha (hr.delimited (by decide) rest)
    rw [List.append_assoc, List.append_assoc]
    simp only [List.head?_cons, optional]
    cases hd : decode item with
    | none =>
      rw [hd] at hv
      obtain ⟨fault, hv⟩ := hv
      exact ⟨fault, by simp only [readItem?, hs, hv]⟩
    | some value =>
      rw [hd] at hv
      obtain ⟨h', hv⟩ := hv
      exact ⟨tail, Nat.le_trans (Nat.le_of_lt h') h, hr, by simp only [readItem?, hs, hv]; rfl⟩

/-- A list ends where no items are left. -/
theorem readListEnd_judged (hp : Parts Layout 0x5d false items text) (rest : Bytes) :
    Judged (readListEnd (text ++ rest)) rest (if items = [] then some () else none) := by
  cases hp with
  | close hb =>
    obtain ⟨h, hs⟩ := skipBlanks_cons hb (b := 0x5d) (by decide) rest
    rw [List.append_assoc, List.singleton_append]
    exact ⟨h, by simp only [readListEnd, hs, if_true]⟩
  | @part _ item more lead text tail hl ha hr =>
    cases hl with
    | @next blanks blanks' hb hb' =>
      obtain ⟨b, inner, rfl, hn, -⟩ := ha.opensItem
      obtain ⟨h, hs⟩ := skipBlanks_cons hb (b := 0x2c) (by decide)
        (blanks' ++ b :: (inner ++ (tail ++ rest)))
      obtain ⟨h', hs'⟩ := skipBlanks_cons hb' hn (inner ++ (tail ++ rest))
      have he : blanks ++ 0x2c :: blanks' ++ (b :: inner ++ tail) ++ rest =
          blanks ++ 0x2c :: (blanks' ++ b :: (inner ++ (tail ++ rest))) := by
        simp only [List.append_assoc, List.cons_append]
      rw [he, if_neg (List.cons_ne_nil _ _)]
      exact ⟨_, by simp +decide only [readListEnd, hs, hs', if_false, if_true]; rfl⟩

/-- Two fields of a list are read one after the other, up to the first that is refused, and then
the list must end. -/
theorem readItem?_twice {reader : Reader α} {reader' : Reader β} {decode : Value → Option α}
    {decode' : Value → Option β} (hp : Parts Layout 0x5d true items text)
    (hj : ∀ item ∈ items, Judges reader (Layout item) (decode item))
    (hj' : ∀ item ∈ items, Judges reader' (Layout item) (decode' item)) (rest : Bytes) :
    (optional decode items.head? = none ∧
        ∃ fault, readItem? true reader (text ++ rest) = .error fault) ∨
      ∃ a mid h, optional decode items.head? = some a ∧
        readItem? true reader (text ++ rest) = .ok ⟨a, mid, h⟩ ∧
        ((optional decode' items.tail.head? = none ∧
            ∃ fault, readItem? false reader' mid = .error fault) ∨
          ∃ b left h', optional decode' items.tail.head? = some b ∧
            readItem? false reader' mid = .ok ⟨b, left, h'⟩ ∧
            Judged (readListEnd left) rest (if items.tail.tail = [] then some () else none)) := by
  have h₁ := readItem?_judged hp (fun item hi => hj item (List.mem_of_mem_head? hi)) rest
  cases hd : optional decode items.head? with
  | none =>
    rw [hd] at h₁
    exact .inl ⟨rfl, h₁⟩
  | some a =>
    rw [hd] at h₁
    obtain ⟨tail, h, ht, h₁⟩ := h₁
    refine .inr ⟨a, tail ++ rest, h, rfl, h₁, ?_⟩
    have h₂ := readItem?_judged ht
      (fun item hi => hj' item (List.mem_of_mem_tail (List.mem_of_mem_head? hi))) rest
    cases he : optional decode' items.tail.head? with
    | none =>
      rw [he] at h₂
      exact .inl ⟨rfl, h₂⟩
    | some b =>
      rw [he] at h₂
      obtain ⟨tail', h', ht', h₂⟩ := h₂
      exact .inr ⟨b, tail' ++ rest, h', rfl, h₂, readListEnd_judged ht' rest⟩

end

end BusClient.Json
