import BusClient.Proofs.Json.Spelling

/-!
# Settled tokens

Reading a text settles two things about its tokens. The exponent of a number has one spelling, and
an object that the reserved name opens stands for the number that its text spells. `settled` does
both to a sequence of tokens, and `repeats` finds out from the tokens alone whether some object
names a member twice. What a front of the tokens amounts to is said up to any rest: a value, the
further items of a list, or the further members of an object.
-/

namespace BusClient.Json

/-! ## Settling -/

/-- A number in its new spelling, and any other token as it is. -/
def Token.respelled : Token → Token
  | .number spelling => .number (respell spelling)
  | token => token

/-- An object of the reserved name becomes a number with the spelling that its text gives. -/
def collapse : List Token → List Token
  | .mark b :: .text name :: .mark c :: .text string :: .mark d :: rest =>
    if b = 0x7b ∧ name = Value.reservedName ∧ c = 0x3a ∧ d = 0x7d then
      .number (.ofText string) :: collapse rest
    else .mark b :: collapse (.text name :: .mark c :: .text string :: .mark d :: rest)
  | token :: rest => token :: collapse rest
  | [] => []

/-- The tokens as they are after reading. -/
def settled (ts : List Token) : List Token := (collapse ts).map Token.respelled

/-- Whether a colon comes next. -/
def colonNext : List Token → Bool
  | .mark b :: _ => b == 0x3a
  | _ => false

/-- Whether a member of this name comes later in the object in which the tokens start, so many
containers further out. -/
def again (name : String) : (depth : Nat) → List Token → Bool
  | _, [] => false
  | depth, .mark b :: rest =>
    if b = 0x7b ∨ b = 0x5b then again name (depth + 1) rest
    else if b = 0x7d ∨ b = 0x5d then
      match depth with
      | 0 => false
      | depth + 1 => again name depth rest
    else again name depth rest
  | depth, .text string :: rest =>
    depth == 0 && colonNext rest && string == name || again name depth rest
  | depth, .word _ :: rest => again name depth rest
  | depth, .number _ :: rest => again name depth rest

/-- Whether some object names a member twice. -/
def repeats : List Token → Bool
  | [] => false
  | .text string :: rest => colonNext rest && again string 0 rest || repeats rest
  | .mark _ :: rest => repeats rest
  | .word _ :: rest => repeats rest
  | .number _ :: rest => repeats rest

section

variable {t : Token} {ts : List Token}

/-- Nothing but an object of the reserved name collapses. -/
theorem collapse_cons (h : t = .mark 0x7b → ts.head? ≠ some (.text Value.reservedName)) :
    collapse (t :: ts) = t :: collapse ts := by
  rw [collapse.eq_def]
  split
  next b name c string d rest he =>
    obtain ⟨rfl, rfl⟩ := List.cons.inj he
    split
    next hr =>
      obtain ⟨rfl, rfl, -⟩ := hr
      exact absurd rfl (h rfl)
    · rfl
  next he =>
    obtain ⟨rfl, rfl⟩ := List.cons.inj he
    rfl
  next he => cases he

/-- Nothing but an object of the reserved name is more than a respelled token. -/
theorem settled_cons (h : t = .mark 0x7b → ts.head? ≠ some (.text Value.reservedName)) :
    settled (t :: ts) = t.respelled :: settled ts := by
  rw [settled, collapse_cons h, List.map_cons, settled]

/-- An object of the reserved name becomes a number. -/
theorem settled_reserved (string : String) :
    settled (.mark 0x7b :: .text Value.reservedName :: .mark 0x3a :: .text string ::
      .mark 0x7d :: ts) = .number (respell (.ofText string)) :: settled ts := by
  simp [settled, collapse, Token.respelled]

/-- Where no object has the reserved name, nothing collapses. -/
theorem collapse_eq_self
    (h : ∀ front rest, ts ≠ front ++ .mark 0x7b :: .text Value.reservedName :: rest) :
    collapse ts = ts := by
  induction ts with
  | nil => rfl
  | cons t ts ih =>
    rw [collapse_cons, ih]
    · intro front rest he
      exact h (t :: front) rest (by rw [he, List.cons_append])
    · rintro rfl hh
      obtain ⟨rest, rfl⟩ := List.head?_eq_some_iff.mp hh
      exact h [] rest rfl

end

/-! ## What tokens amount to -/

/-- The tokens are those of a value up to the rest, once they are settled. -/
structure Spends (ts spent rest : List Token) : Prop where
  settles : settled ts = spent ++ settled rest
  passes : ∀ name depth, again name depth ts = again name depth rest
  keeps : repeats ts = false → repeats rest = false

/-- The tokens go on to the end of a container, and then comes the rest. -/
structure Closes (ts spent rest : List Token) : Prop where
  settles : settled ts = spent ++ settled rest
  passes : ∀ name depth, again name (depth + 1) ts = again name depth rest
  keeps : repeats ts = false → repeats rest = false

/-- The tokens go on with these members to the end of an object. -/
structure ClosesObject (first : Bool) (members : Members) (ts rest : List Token) : Prop where
  closes : Closes ts (joined 0x7d first (members.map tokensOfMember)) rest
  named : ∀ name, again name 0 ts = decide (name ∈ members.names)
  distinct : repeats ts = false → members.names.Nodup

section

variable {ts us spent rest : List Token}

theorem settled_nil : settled [] = [] := rfl

/-- No mark but an opening brace is more than itself. -/
theorem settled_mark {b : UInt8} (hb : b ≠ 0x7b) :
    settled (.mark b :: ts) = .mark b :: settled ts :=
  settled_cons fun h => absurd (Token.mark.inj h) hb

/-- A string is kept. -/
theorem settled_text (string : String) :
    settled (.text string :: ts) = .text string :: settled ts :=
  settled_cons fun h => nomatch h

/-- Inside a container the names of the outer ones are further out. -/
theorem again_opened {b : UInt8} (hb : b = 0x7b ∨ b = 0x5b) (name : String) (depth : Nat) :
    again name depth (.mark b :: ts) = again name (depth + 1) ts := by
  rw [again.eq_def]
  simp only [if_pos hb]

/-- Behind a container they are less far out. -/
theorem again_closed {b : UInt8} (hb : b = 0x7d ∨ b = 0x5d) (name : String) (depth : Nat) :
    again name (depth + 1) (.mark b :: ts) = again name depth ts := by
  have hn : ¬ (b = 0x7b ∨ b = 0x5b) := by rcases hb with rfl | rfl <;> decide
  rw [again.eq_def]
  simp only [if_neg hn, if_pos hb]

/-- Commas and colons stand inside a container. -/
theorem again_between {b : UInt8} (hb : b = 0x2c ∨ b = 0x3a) (name : String) (depth : Nat) :
    again name depth (.mark b :: ts) = again name depth ts := by
  have hn : ¬ (b = 0x7b ∨ b = 0x5b) := by rcases hb with rfl | rfl <;> decide
  have hc : ¬ (b = 0x7d ∨ b = 0x5d) := by rcases hb with rfl | rfl <;> decide
  rw [again.eq_def]
  simp only [if_neg hn, if_neg hc]

theorem spends_word (spelling : Bytes) :
    Spends (.word spelling :: ts) [.word spelling] ts where
  settles := settled_cons fun h => nomatch h
  passes _ _ := rfl
  keeps h := h

theorem spends_number (spelling : Bytes) :
    Spends (.number spelling :: ts) [.number (respell spelling)] ts where
  settles := settled_cons fun h => nomatch h
  passes _ _ := rfl
  keeps h := h

/-- A string is no name if no colon follows. -/
theorem spends_text (string : String) (hc : colonNext ts = false) :
    Spends (.text string :: ts) [.text string] ts where
  settles := settled_text string
  passes name depth := by simp [again, hc]
  keeps h := by simpa [repeats, hc] using h

/-- An object of the reserved name is a number. -/
theorem spends_reserved (string : String) :
    Spends (.mark 0x7b :: .text Value.reservedName :: .mark 0x3a :: .text string ::
      .mark 0x7d :: ts) [.number (respell (.ofText string))] ts where
  settles := settled_reserved string
  passes name depth := by
    rw [again_opened (.inl rfl), again, again_between (.inr rfl), again, again_closed (.inl rfl)]
    simp
  keeps h := by
    simp only [repeats, Bool.or_eq_false_iff] at h
    exact h.2.2

/-- A list ends with its bracket. -/
theorem closes_list (first : Bool) : Closes (.mark 0x5d :: ts) (joined 0x5d first []) ts where
  settles := by
    rw [settled_mark (by decide), joined, List.singleton_append]
  passes name depth := again_closed (.inr rfl) name depth
  keeps h := h

/-- An item comes in front of the others, with a comma in front if it is not the first one. -/
theorem Spends.item {first : Bool} {more : List (List Token)} (hs : Spends ts spent us)
    (hc : Closes us (joined 0x5d false more) rest) :
    Closes ((if first then [] else [.mark 0x2c]) ++ ts) (joined 0x5d first (spent :: more))
      rest := by
  have hsettles : settled ts = spent ++ joined 0x5d false more ++ settled rest := by
    rw [hs.settles, hc.settles, List.append_assoc]
  cases first with
  | true =>
    refine ⟨hsettles, fun name depth => ?_, fun h => hc.keeps (hs.keeps h)⟩
    rw [if_pos rfl, List.nil_append, hs.passes, hc.passes]
  | false =>
    rw [if_neg (by decide), List.singleton_append]
    refine ⟨?_, fun name depth => ?_, fun h => hc.keeps (hs.keeps h)⟩
    · rw [settled_mark (by decide), hsettles]
      rfl
    · rw [again_between (.inl rfl), hs.passes, hc.passes]

/-- A list is the value of its items. -/
theorem Closes.list {parts : List (List Token)} (hc : Closes ts (joined 0x5d true parts) rest) :
    Spends (.mark 0x5b :: ts) (.mark 0x5b :: joined 0x5d true parts) rest where
  settles := by
    rw [settled_mark (by decide), hc.settles]
    rfl
  passes name depth := by rw [again_opened (.inr rfl), hc.passes]
  keeps := hc.keeps

/-- An object ends with its brace. -/
theorem closesObject_end (first : Bool) : ClosesObject first [] (.mark 0x7d :: ts) ts where
  closes :=
    { settles := by
        rw [settled_mark (by decide), List.map_nil, joined, List.singleton_append]
      passes := again_closed (.inl rfl)
      keeps := fun h => h }
  named name := by simp +decide [again, Members.names]
  distinct _ := List.nodup_nil

/-- A member comes in front of the others. -/
theorem ClosesObject.first {value : Value} {more : Members} (name : String)
    (hc : ClosesObject false more us rest) (hs : Spends ts value.tokens us) :
    ClosesObject true ((name, value) :: more) (.text name :: .mark 0x3a :: ts) rest where
  closes :=
    { settles := by
        rw [settled_text, settled_mark (by decide), hs.settles, hc.closes.settles, List.map_cons,
          joined, tokensOfMember, List.append_assoc]
        rfl
      passes := fun other depth => by
        rw [again, again_between (.inr rfl), hs.passes, hc.closes.passes]
        rfl
      keeps := fun h => by
        simp only [repeats, Bool.or_eq_false_iff] at h
        exact hc.closes.keeps (hs.keeps h.2) }
  named other := by
    have hn : Members.names ((name, value) :: more) = name :: Members.names more := rfl
    rw [again, again_between (.inr rfl), hs.passes, hc.named, hn]
    by_cases he : name = other
    · simp [colonNext, he]
    · simp [colonNext, he, Ne.symm he]
  distinct h := by
    simp only [repeats, colonNext, Bool.or_eq_false_iff] at h
    have hn : name ∉ more.names := by
      have ha := h.1
      rw [again_between (.inr rfl), hs.passes, hc.named] at ha
      simpa using ha
    exact List.nodup_cons.mpr ⟨hn, hc.distinct (hs.keeps h.2)⟩

/-- A further member comes behind a comma. -/
theorem ClosesObject.next {m : String × Value} {more : Members}
    (hc : ClosesObject true (m :: more) ts rest) :
    ClosesObject false (m :: more) (.mark 0x2c :: ts) rest where
  closes :=
    { settles := by
        rw [settled_mark (by decide), hc.closes.settles]
        rfl
      passes := fun other depth => by rw [again_between (.inl rfl), hc.closes.passes]
      keeps := hc.closes.keeps }
  named other := by rw [again_between (.inl rfl), hc.named]
  distinct := hc.distinct

/-- An object with different names, which the reserved one does not open, is the value of its
members. -/
theorem ClosesObject.object {members : Members} (hc : ClosesObject true members ts rest)
    (hn : ts.head? ≠ some (.text Value.reservedName)) :
    Spends (.mark 0x7b :: ts) (Value.object members).tokens rest where
  settles := by
    rw [settled_cons fun _ => hn, hc.closes.settles, Value.tokens, memberTokens_eq_map]
    rfl
  passes name depth := by rw [again_opened (.inl rfl), hc.closes.passes]
  keeps := hc.closes.keeps

end

end BusClient.Json
