import BusClient.Json.Reader
import BusClient.Proofs.Json.Scan

/-!
# Reading what a document is laid out as

A reader `Takes` a value from a set of texts if it reads the value from each of them, whatever
blanks stand in front and whatever delimited bytes stand behind. The loops for lists and for
objects are treated once for any kind of part: a list is read if its items are taken, an object
if its members take what is known through a chain of `Steps`. `readValue_takes` puts them
together: a readable value is taken from all its layouts by every reader that may nest deep
enough.
-/

namespace BusClient.Json

variable {α σ : Type}

/-- The value is read from each of these texts, up to its end. -/
def Takes (reader : Reader α) (layout : Bytes → Prop) (value : α) : Prop :=
  ∀ blanks text rest, Blanks blanks → layout text → Delimited rest →
    Reads reader (blanks ++ (text ++ rest)) value rest

/-- No blanks need to stand in front. -/
theorem Takes.reads {reader : Reader α} {layout : Bytes → Prop} {value : α}
    (ht : Takes reader layout value) {text rest : Bytes} (hl : layout text)
    (hr : Delimited rest) : Reads reader (text ++ rest) value rest :=
  ht [] text rest .nil hl hr

/-- A reader that changes what another one has read takes what that makes of the value. -/
theorem Takes.map {β : Type} {reader : Reader α} {reader' : Reader β} {layout : Bytes → Prop}
    {value : α} {f : α → β} (ht : Takes reader layout value)
    (hm : ∀ {text : Bytes} {found : Found α text}, reader text = .ok found →
      reader' text = .ok (found.map f)) : Takes reader' layout (f value) := by
  intro blanks text rest hb hl hr
  obtain ⟨h, hv⟩ := ht blanks text rest hb hl hr
  exact ⟨h, hm hv⟩

/-! ## Blanks and marks -/

theorem Blanks.append {a b : Bytes} (ha : Blanks a) (hb : Blanks b) : Blanks (a ++ b) := by
  intro c hc
  rcases List.mem_append.mp hc with h | h
  · exact ha c h
  · exact hb c h

/-- Blanks in front of a byte that is none are passed over. -/
theorem skipBlanks_cons {blanks : Bytes} (hb : Blanks blanks) {b : UInt8}
    (hn : isBlank b = false) (rest : Bytes) :
    ∃ h, skipBlanks (blanks ++ b :: rest) = ⟨(), b :: rest, h⟩ :=
  skipBlanks_append hb (.cons hn rest)

/-- Behind blanks and its opening quote a string is read. -/
theorem skipBlanks_quoted {blanks : Bytes} (hb : Blanks blanks) (text : String) (rest : Bytes) :
    ∃ inner h, skipBlanks (blanks ++ (quoted text ++ rest)) = ⟨(), 0x22 :: inner, h⟩ ∧
      Reads readString inner text rest := by
  obtain ⟨h, hs⟩ := skipBlanks_cons hb (b := 0x22) (by decide)
    (text.toList.flatMap written ++ 0x22 :: rest)
  rw [quoted_append]
  exact ⟨_, h, hs, readString_quoted text rest⟩

/-- No blank goes on with a number. -/
theorem goesOn_of_isBlank {b : UInt8} (h : isBlank b = true) : goesOn b = false := by
  simp only [isBlank, Bool.or_eq_true, beq_iff_eq] at h
  rcases h with ((rfl | rfl) | rfl) | rfl <;> decide

/-- What ends in nothing but blanks is delimited. -/
theorem Blanks.delimited {blanks : Bytes} (hb : Blanks blanks) : Delimited blanks :=
  fun b h => goesOn_of_isBlank (hb b (List.mem_of_head? h))

/-- Nothing but a mark can follow blanks in front of a delimited rest. -/
theorem Delimited.of_blanks {blanks : Bytes} (hb : Blanks blanks) {b : UInt8}
    (hg : goesOn b = false) (rest : Bytes) : Delimited (blanks ++ b :: rest) := by
  cases blanks with
  | nil => exact .cons hg rest
  | cons c blanks => exact .cons (goesOn_of_isBlank (hb c List.mem_cons_self)) _

/-- A part behind which a list or an object goes on is delimited. -/
theorem Parts.delimited {part : α → Bytes → Prop} {close : UInt8} {items : List α} {text : Bytes}
    (h : Parts part close false items text) (hc : goesOn close = false) (rest : Bytes) :
    Delimited (text ++ rest) := by
  cases h with
  | close hb =>
    rw [List.append_assoc]
    exact .of_blanks hb hc rest
  | part hl _ _ =>
    cases hl with
    | next hb _ =>
      rw [List.append_assoc, List.append_assoc, List.cons_append]
      exact .of_blanks hb (by decide) _

/-! ## Lists -/

/-- A text that opens with neither a blank nor the closing bracket of a list. -/
def OpensItem (text : Bytes) : Prop :=
  ∃ b more, text = b :: more ∧ isBlank b = false ∧ b ≠ 0x5d

theorem itemStart_close (first : Bool) {blanks : Bytes} (hb : Blanks blanks) (rest : Bytes) :
    ∃ h, itemStart first (blanks ++ 0x5d :: rest) = .ok ⟨false, 0x5d :: rest, h⟩ := by
  obtain ⟨h, hs⟩ := skipBlanks_cons hb (b := 0x5d) (by decide) rest
  exact ⟨h, by simp only [itemStart, hs, if_true]⟩

/-- An item starts behind what stands in front of it. -/
theorem itemStart_lead {first : Bool} {lead text : Bytes} (hl : Lead first lead)
    (ho : OpensItem text) (rest : Bytes) :
    ∃ h, itemStart first (lead ++ (text ++ rest)) = .ok ⟨true, text ++ rest, h⟩ := by
  obtain ⟨b, more, rfl, hn, hc⟩ := ho
  cases hl with
  | first hb =>
    obtain ⟨h, hs⟩ := skipBlanks_cons hb hn (more ++ rest)
    exact ⟨h, by simp only [List.cons_append, itemStart, hs, if_neg hc, if_true]⟩
  | @next blanks blanks' hb hb' =>
    obtain ⟨h', hs'⟩ := skipBlanks_cons hb' hn (more ++ rest)
    obtain ⟨h, hs⟩ := skipBlanks_cons hb (b := 0x2c) (by decide) (blanks' ++ b :: (more ++ rest))
    rw [List.append_assoc, List.cons_append]
    refine ⟨Nat.le_trans h' (Nat.le_of_lt h), ?_⟩
    simp +decide only [List.cons_append, itemStart, hs, hs', hc, if_false, if_true]

theorem readListEnd_close (rest : Bytes) : Reads readListEnd (0x5d :: rest) () rest := by
  obtain ⟨h, hs⟩ := skipBlanks_cons Blanks.nil (b := 0x5d) (by decide) rest
  refine ⟨Nat.lt_succ_self _, ?_⟩
  simp only [List.nil_append] at hs
  simp only [readListEnd, hs, if_true]

section

variable {item : Reader α} {whole front text rest : Bytes} {first : Bool} {done : List α}

/-- The loop ends with the items so far where the list ends. -/
theorem readItems_end (hs : ∃ h, itemStart first text = .ok ⟨false, front, h⟩)
    (he : Reads readListEnd front () rest) (h : text.length ≤ whole.length) :
    ∃ h', readItems item whole first done text h = .ok ⟨done.reverse, rest, h'⟩ := by
  obtain ⟨hf, hs⟩ := hs
  obtain ⟨hr, he⟩ := he
  refine ⟨by omega, ?_⟩
  rw [readItems]
  simp only [hs, he]

/-- The loop goes on behind an item. -/
theorem readItems_item {a : α} (hs : ∃ h, itemStart first text = .ok ⟨true, front, h⟩)
    (ha : Reads item front a rest) (h : text.length ≤ whole.length)
    (h' : rest.length ≤ whole.length) :
    readItems item whole first done text h = readItems item whole false (a :: done) rest h' := by
  obtain ⟨hf, hs⟩ := hs
  obtain ⟨hr, ha⟩ := ha
  rw [readItems]
  simp only [hs, ha]

end

/-- The items of a list are read up to its closing bracket if each of them is taken. -/
theorem readItems_parts {item : Reader α} {part : α → Bytes → Prop} {whole text : Bytes}
    {first : Bool} {items : List α} (ho : ∀ a text, part a text → OpensItem text)
    (hp : Parts part 0x5d first items text) (ht : ∀ a ∈ items, Takes item (part a) a)
    (done : List α) (rest : Bytes) (h : (text ++ rest).length ≤ whole.length) :
    ∃ h', readItems item whole first done (text ++ rest) h =
      .ok ⟨done.reverse ++ items, rest, h'⟩ := by
  -- Item by item along the layout; what has been read stands in `done`, the last one first.
  revert h
  induction hp generalizing done with
  | @close first blanks hb =>
    rw [List.append_assoc, List.singleton_append, List.append_nil]
    exact readItems_end (itemStart_close first hb rest) (readListEnd_close rest)
  | @part first a more lead text tail hl ha hr ih =>
    obtain ⟨hta, htm⟩ := List.forall_mem_cons.mp ht
    rw [List.append_assoc, List.append_assoc]
    intro h
    have h' : (tail ++ rest).length ≤ whole.length := by
      simp only [List.length_append] at h ⊢
      omega
    have hi := hta.reads ha (hr.delimited (by decide) rest)
    rw [readItems_item (itemStart_lead hl (ho a text ha) _) hi h h', List.append_cons,
      ← List.reverse_cons]
    exact ih htm (a :: done) h'

/-- A list whose items are taken is read, when its opening bracket has been read. -/
theorem readList_parts {item : Reader α} {part : α → Bytes → Prop} {text : Bytes}
    {items : List α} (ho : ∀ a text, part a text → OpensItem text)
    (hp : Parts part 0x5d true items text) (ht : ∀ a ∈ items, Takes item (part a) a)
    (rest : Bytes) : Reads (readList item) (text ++ rest) items rest :=
  readItems_parts ho hp ht [] rest (length_le_self _)

/-! ## Objects -/

theorem readName?_close (first : Bool) {blanks : Bytes} (hb : Blanks blanks) (rest : Bytes) :
    Reads (readName? first) (blanks ++ 0x7d :: rest) none rest := by
  obtain ⟨h, hs⟩ := skipBlanks_cons hb (b := 0x7d) (by decide) rest
  exact ⟨h, by simp only [readName?, hs, if_true]⟩

/-- A name is read behind what stands in front of it. -/
theorem readName?_lead {first : Bool} {lead : Bytes} (hl : Lead first lead) (name : String)
    (rest : Bytes) :
    Reads (readName? first) (lead ++ (quoted name ++ rest)) (some name) rest := by
  cases hl with
  | first hb =>
    obtain ⟨inner, h, hs, hn, hr⟩ := skipBlanks_quoted hb name rest
    refine ⟨Nat.lt_trans hn h, ?_⟩
    simp +decide only [readName?, hs, hr, if_false, if_true]
    rfl
  | @next blanks blanks' hb hb' =>
    obtain ⟨inner, h', hs', hn, hr⟩ := skipBlanks_quoted hb' name rest
    obtain ⟨h, hs⟩ := skipBlanks_cons hb (b := 0x2c) (by decide)
      (blanks' ++ (quoted name ++ rest))
    rw [List.append_assoc, List.cons_append]
    refine ⟨Nat.lt_trans hn (Nat.lt_trans h' h), ?_⟩
    simp +decide only [readName?, hs, hs', hr, if_false, if_true]
    rfl

/-- A colon and a part, with blanks between and in front. -/
def AfterColon (layout : Bytes → Prop) (text : Bytes) : Prop :=
  ∃ blanks blanks' part, Blanks blanks ∧ Blanks blanks' ∧ layout part ∧
    text = blanks ++ 0x3a :: (blanks' ++ part)

/-- What is taken is also taken behind a colon. -/
theorem readAfterColon_takes {reader : Reader α} {layout : Bytes → Prop} {a : α}
    (ht : Takes reader layout a) : Takes (readAfterColon reader) (AfterColon layout) a := by
  rintro front _ rest hf ⟨blanks, blanks', part, hb, hb', hp, rfl⟩ hr
  obtain ⟨h', hv⟩ := ht blanks' part rest hb' hp hr
  have hs := skipBlanks_cons (hf.append hb) (b := 0x3a) (by decide) (blanks' ++ (part ++ rest))
  rw [List.append_assoc] at hs
  obtain ⟨h, hs⟩ := hs
  rw [List.append_assoc, List.cons_append, List.append_assoc]
  refine ⟨Nat.lt_trans h' h, ?_⟩
  simp only [readAfterColon, readColon, hs, if_true, hv]
  rfl

/-- Members that are read one after the other change what is known step by step. -/
inductive Steps (part : α → Bytes → Prop) (member : σ → String → Reader σ) :
    σ → List (String × α) → σ → Prop
  | done (known : σ) : Steps part member known [] known
  | step {known known' known'' : σ} {name : String} {a : α} {rest : List (String × α)}
      (ht : Takes (member known name) (AfterColon (part a)) known')
      (hs : Steps part member known' rest known'') :
      Steps part member known ((name, a) :: rest) known''

/-- A member is its name and what comes from the colon on. -/
theorem Member.cases_name {part : α → Bytes → Prop} {m : String × α} {text : Bytes}
    (h : Member part m text) :
    ∃ after, text = quoted m.1 ++ after ∧ AfterColon (part m.2) after := by
  cases h with
  | intro hb hb' ha => exact ⟨_, rfl, _, _, _, hb, hb', ha, rfl⟩

section

variable {member : σ → String → Reader σ} {whole front text rest : Bytes} {first : Bool}
  {known known' : σ}

/-- The loop ends with what is known where the object ends. -/
theorem readMembers_end (hn : Reads (readName? first) text none rest)
    (h : text.length ≤ whole.length) :
    ∃ h', readMembers member whole first known text h = .ok ⟨known, rest, h'⟩ := by
  obtain ⟨hr, hn⟩ := hn
  refine ⟨by omega, ?_⟩
  rw [readMembers]
  simp only [hn]

/-- The loop goes on behind a member. -/
theorem readMembers_member {name : String} (hn : Reads (readName? first) text (some name) front)
    (hm : Reads (member known name) front known' rest) (h : text.length ≤ whole.length)
    (h' : rest.length ≤ whole.length) :
    readMembers member whole first known text h =
      readMembers member whole false known' rest h' := by
  obtain ⟨hf, hn⟩ := hn
  obtain ⟨hr, hm⟩ := hm
  rw [readMembers]
  simp only [hn, hm]

end

/-- The members of an object are read up to its closing brace, step by step. -/
theorem readMembers_parts {member : σ → String → Reader σ} {part : α → Bytes → Prop}
    {whole text : Bytes} {first : Bool} {members : List (String × α)} {known known' : σ}
    (hp : Parts (Member part) 0x7d first members text)
    (hs : Steps part member known members known') (rest : Bytes)
    (h : (text ++ rest).length ≤ whole.length) :
    ∃ h', readMembers member whole first known (text ++ rest) h = .ok ⟨known', rest, h'⟩ := by
  -- Member by member along the layout, with the step that each of them takes.
  revert h
  induction hp generalizing known with
  | @close first blanks hb =>
    cases hs
    rw [List.append_assoc, List.singleton_append]
    exact readMembers_end (readName?_close first hb rest)
  | @part first m more lead text tail hl ha hr ih =>
    obtain ⟨after, rfl, hc⟩ := ha.cases_name
    cases hs with
    | step ht hs =>
      rw [List.append_assoc, List.append_assoc, List.append_assoc]
      intro h
      have h' : (tail ++ rest).length ≤ whole.length := by
        simp only [List.length_append] at h ⊢
        omega
      have hm := ht.reads hc (hr.delimited (by decide) rest)
      rw [readMembers_member (readName?_lead hl _ _) hm h h']
      exact ih hs h'

/-- An object whose members take what is known through steps is read, when its opening brace has
been read. -/
theorem readObject_parts {member : σ → String → Reader σ} {part : α → Bytes → Prop}
    {text : Bytes} {members : List (String × α)} {start known : σ}
    (hp : Parts (Member part) 0x7d true members text)
    (hs : Steps part member start members known) (rest : Bytes) :
    Reads (readObject member start) (text ++ rest) known rest :=
  readMembers_parts hp hs rest (length_le_self _)

/-! ## Values -/

/-- A pair is kept if its value is taken. -/
theorem readPair_takes {reader : Reader Value} {layout : Bytes → Prop} {value : Value}
    (ht : Takes reader layout value) (done : List (String × Value)) (name : String) :
    Takes (readPair reader done name) (AfterColon layout) ((name, value) :: done) := by
  refine (readAfterColon_takes ht).map (f := fun v => (name, v) :: done) ?_
  intro text found hv
  simp only [readPair, hv]

/-- The pairs of an object pile up, the last one first. -/
theorem readPair_steps {reader : Reader Value} {members : Members}
    (ht : ∀ m ∈ members, Takes reader (Layout m.2) m.2) (done : List (String × Value)) :
    Steps Layout (readPair reader) done members (members.reverse ++ done) := by
  induction members generalizing done with
  | nil => exact .done done
  | cons m rest ih =>
    obtain ⟨htm, htr⟩ := List.forall_mem_cons.mp ht
    rw [List.reverse_cons, List.append_assoc, List.singleton_append]
    exact .step (readPair_takes htm done m.1) (ih htr _)

/-- An object is read as it stands if its names differ, the reserved one does not open it, and
its values are taken. -/
theorem readFreeObject_parts {reader : Reader Value} {members : Members} {text : Bytes}
    (hn : members.names.Nodup) (hk : members.names.head? ≠ some Value.reservedName)
    (hp : Parts (Member Layout) 0x7d true members text)
    (ht : ∀ m ∈ members, Takes reader (Layout m.2) m.2) (rest : Bytes) :
    Reads (readFreeObject reader) (text ++ rest) (.object members) rest := by
  cases hp with
  | @close _ blanks hb =>
    obtain ⟨h, hc⟩ := readName?_close true hb rest
    rw [List.append_assoc, List.singleton_append]
    refine ⟨h, ?_⟩
    simp only [readFreeObject, hc]
  | @part _ m more lead text tail hl ha hr =>
    obtain ⟨name, value⟩ := m
    obtain ⟨after, rfl, hc⟩ := ha.cases_name
    obtain ⟨htm, htr⟩ := List.forall_mem_cons.mp ht
    have hname : name ≠ Value.reservedName := fun he => hk (congrArg some he)
    obtain ⟨h₁, hn₁⟩ := readName?_lead hl name (after ++ (tail ++ rest))
    obtain ⟨h₂, hp₂⟩ := (readPair_takes htm [] name).reads hc (hr.delimited (by decide) rest)
    obtain ⟨h₃, hm₃⟩ := readMembers_parts hr (readPair_steps htr [(name, value)]) rest
      (length_le_self _)
    have hpairs : Members.ofPairs (more.reverse ++ [(name, value)]).reverse =
        (name, value) :: more := by
      rw [List.reverse_append, List.reverse_reverse, List.reverse_singleton,
        List.singleton_append]
      exact Members.ofPairs_eq_self hn
    rw [List.append_assoc, List.append_assoc, List.append_assoc]
    refine ⟨Nat.lt_trans h₃ (Nat.lt_trans h₂ h₁), ?_⟩
    simp only [readFreeObject, hn₁, if_neg hname, hp₂, hm₃, hpairs, Found.map, Found.beyond]

/-- The values that are words, each with the first byte of its word and the others. -/
def words : List (Value × UInt8 × Bytes) :=
  [(.null, 0x6e, [0x75, 0x6c, 0x6c]), (.bool true, 0x74, [0x72, 0x75, 0x65]),
    (.bool false, 0x66, [0x61, 0x6c, 0x73, 0x65])]

theorem ofText_null : ∃ b word, Bytes.ofText "null" = b :: word ∧ (.null, b, word) ∈ words :=
  ⟨0x6e, [0x75, 0x6c, 0x6c], by decide, by simp [words]⟩

theorem ofText_bool (truth : Bool) : ∃ b word,
    Bytes.ofText (if truth then "true" else "false") = b :: word ∧
      (.bool truth, b, word) ∈ words := by
  cases truth with
  | false => exact ⟨0x66, [0x61, 0x6c, 0x73, 0x65], by decide, by simp [words]⟩
  | true => exact ⟨0x74, [0x72, 0x75, 0x65], by decide, by simp [words]⟩

/-- A word opens with a byte of its own. -/
theorem words_open {value : Value} {b : UInt8} {word : Bytes} (hw : (value, b, word) ∈ words) :
    isBlank b = false ∧ b ≠ 0x5d := by
  simp only [words, List.mem_cons, Prod.mk.injEq, List.not_mem_nil, or_false] at hw
  rcases hw with ⟨-, rfl, -⟩ | ⟨-, rfl, -⟩ | ⟨-, rfl, -⟩ <;> decide

/-- A word is read as its value. -/
theorem readValue_word {value : Value} {b : UInt8} {word : Bytes}
    (hw : (value, b, word) ∈ words) (depth : Nat) {blanks : Bytes} (hb : Blanks blanks)
    (rest : Bytes) : Reads (readValue depth) (blanks ++ b :: (word ++ rest)) value rest := by
  obtain ⟨h, hs⟩ := skipBlanks_cons hb (words_open hw).1 (word ++ rest)
  obtain ⟨h', hr⟩ := readWord_append word rest
  refine ⟨Nat.lt_of_le_of_lt h' h, ?_⟩
  unfold readValue
  simp only [hs]
  simp only [words, List.mem_cons, Prod.mk.injEq, List.not_mem_nil, or_false] at hw
  rcases hw with ⟨rfl, rfl, rfl⟩ | ⟨rfl, rfl, rfl⟩ | ⟨rfl, rfl, rfl⟩ <;>
    simp +decide only [if_true, if_false, hr, Maybe.map, Maybe.beyond]

/-- A number is read digit for digit. -/
theorem readValue_number (n : Number) (depth : Nat) {blanks rest : Bytes} (hb : Blanks blanks)
    (hr : Delimited rest) :
    Reads (readValue depth) (blanks ++ (Bytes.ofText n.text ++ rest)) (.number n) rest := by
  rcases readNumber_text n hr with ⟨more, ht, h', hn⟩ | ⟨d, more, ht, h', hn⟩
  · obtain ⟨h, hs⟩ := skipBlanks_cons hb (b := 0x2d) (by decide) (more ++ rest)
    rw [ht, List.cons_append]
    refine ⟨Nat.lt_trans h' h, ?_⟩
    unfold readValue
    simp [hs, hn, Found.map, Found.beyond]
  · obtain ⟨hnl, htr, hfa, hmi, -, hbl⟩ := byte_opens_number d
    obtain ⟨h, hs⟩ := skipBlanks_cons hb hbl (more ++ rest)
    rw [ht, List.cons_append]
    refine ⟨Nat.lt_of_lt_of_le h' h, ?_⟩
    unfold readValue
    simp [hs, hn, hnl, htr, hfa, hmi, Found.map, Found.inLonger]

/-- A string is read as the text that it quotes. -/
theorem readValue_string (text : String) (depth : Nat) {blanks : Bytes} (hb : Blanks blanks)
    (rest : Bytes) :
    Reads (readValue depth) (blanks ++ (quoted text ++ rest)) (.string text) rest := by
  obtain ⟨inner, h, hs, hn, hr⟩ := skipBlanks_quoted hb text rest
  have hd : Digit.isByte 0x22 = false := by decide
  refine ⟨Nat.lt_trans hn h, ?_⟩
  unfold readValue
  simp [hs, hr, hd, Found.map, Found.beyond]

/-- No value opens with a blank or with the closing bracket of a list. -/
theorem Layout.opensItem {value : Value} {text : Bytes} (h : Layout value text) :
    OpensItem text := by
  cases h with
  | null =>
    obtain ⟨b, word, ht, hw⟩ := ofText_null
    exact ⟨b, word, ht, words_open hw⟩
  | bool truth =>
    obtain ⟨b, word, ht, hw⟩ := ofText_bool truth
    exact ⟨b, word, ht, words_open hw⟩
  | number n =>
    rcases readNumber_text n (Ends.nil goesOn) with ⟨more, ht, -⟩ | ⟨d, more, ht, -⟩
    · exact ⟨0x2d, more, ht, by decide⟩
    · obtain ⟨-, -, -, -, hc, hb⟩ := byte_opens_number d
      exact ⟨d.byte, more, ht, hb, hc⟩
  | string text => exact ⟨0x22, _, rfl, by decide⟩
  | array _ => exact ⟨0x5b, _, rfl, by decide⟩
  | object _ => exact ⟨0x7b, _, rfl, by decide⟩

/-- A list is read one level deeper than its items. -/
theorem readValue_array {items : List Value} {text : Bytes}
    (hp : Parts Layout 0x5d true items text) {depth : Nat}
    (ht : ∀ item ∈ items, Takes (readValue depth) (Layout item) item) {blanks : Bytes}
    (hb : Blanks blanks) (rest : Bytes) :
    Reads (readValue (depth + 1)) (blanks ++ 0x5b :: (text ++ rest)) (.array items) rest := by
  obtain ⟨h', hi⟩ := readList_parts (fun _ _ => Layout.opensItem) hp ht rest
  obtain ⟨h, hs⟩ := skipBlanks_cons hb (b := 0x5b) (by decide) (text ++ rest)
  have hd : Digit.isByte 0x5b = false := by decide
  refine ⟨Nat.lt_trans h' h, ?_⟩
  unfold readValue
  simp [hs, hi, hd, Found.map, Found.beyond]

/-- An object is read one level deeper than its values. -/
theorem readValue_object {members : Members} {text : Bytes} (hn : members.names.Nodup)
    (hk : members.names.head? ≠ some Value.reservedName)
    (hp : Parts (Member Layout) 0x7d true members text) {depth : Nat}
    (ht : ∀ m ∈ members, Takes (readValue depth) (Layout m.2) m.2) {blanks : Bytes}
    (hb : Blanks blanks) (rest : Bytes) :
    Reads (readValue (depth + 1)) (blanks ++ 0x7b :: (text ++ rest)) (.object members) rest := by
  obtain ⟨h', ho⟩ := readFreeObject_parts hn hk hp ht rest
  obtain ⟨h, hs⟩ := skipBlanks_cons hb (b := 0x7b) (by decide) (text ++ rest)
  have hd : Digit.isByte 0x7b = false := by decide
  refine ⟨Nat.lt_trans h' h, ?_⟩
  unfold readValue
  simp [hs, ho, hd, Found.beyond]

/-- A readable value is read from each of its layouts if the reader may nest as deep as it does:
no digit, no character, no item and no member is lost or moved. -/
theorem readValue_takes (depth : Nat) {value : Value} (hr : Readable value)
    (hd : value.depth ≤ depth) : Takes (readValue depth) (Layout value) value := by
  -- By induction on the depth: the parts of a value are one level less deep.
  induction depth using Nat.strongRecOn generalizing value with
  | ind depth ih =>
    intro blanks text rest hb hl he
    cases hl with
    | null =>
      obtain ⟨b, word, ht, hw⟩ := ofText_null
      rw [ht]
      exact readValue_word hw depth hb rest
    | bool truth =>
      obtain ⟨b, word, ht, hw⟩ := ofText_bool truth
      rw [ht]
      exact readValue_word hw depth hb rest
    | number n => exact readValue_number n depth hb he
    | string text => exact readValue_string text depth hb rest
    | array hp =>
      cases hr with
      | array hr =>
        rw [Value.depth] at hd
        obtain ⟨below, rfl⟩ : ∃ below, depth = below + 1 := ⟨depth - 1, by omega⟩
        refine readValue_array hp (fun item hi => ?_) hb rest
        have hle := depthOfItems_le_iff.mp (Nat.le_of_succ_le_succ hd) item hi
        exact ih below (Nat.lt_succ_self _) (hr item hi) hle
    | object hp =>
      cases hr with
      | object hn hk hr =>
        rw [Value.depth] at hd
        obtain ⟨below, rfl⟩ : ∃ below, depth = below + 1 := ⟨depth - 1, by omega⟩
        refine readValue_object hn hk hp (fun m hm => ?_) hb rest
        have hle := depthOfMembers_le_iff.mp (Nat.le_of_succ_le_succ hd) m hm
        exact ih below (Nat.lt_succ_self _) (hr m hm) hle

/-- A text behind which only blanks are left is read as a whole. -/
theorem readAll_of_reads {reader : Reader α} {value : α} {text blanks : Bytes}
    (hr : Reads reader text value blanks) (hb : Blanks blanks) :
    readAll reader text = .ok value := by
  obtain ⟨h, hr⟩ := hr
  have hs := skipBlanks_append hb (Ends.nil isBlank)
  rw [List.append_nil] at hs
  obtain ⟨h', hs⟩ := hs
  simp only [readAll, hr, hs]

/-- A whole text from which a value is taken is read as that value. -/
theorem readAll_of_takes {reader : Reader α} {layout : Bytes → Prop} {value : α} {text : Bytes}
    (ht : Takes reader layout value) (hl : layout text) : readAll reader text = .ok value := by
  have hr := ht.reads hl (Ends.nil goesOn)
  rw [List.append_nil] at hr
  exact readAll_of_reads hr .nil

/-- A value comes back from the line that it is printed as. -/
theorem ofText_compact {value : Value} (hr : Readable value) (hd : value.depth ≤ maxDepth) :
    Value.ofText value.compact = .ok value :=
  readAll_of_takes (readValue_takes maxDepth hr hd) (compact_layout value)

end BusClient.Json
