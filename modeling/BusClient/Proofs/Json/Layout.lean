import BusClient.Json.Printer
import BusClient.Json.Scan

/-!
# The texts of a document

A document has many texts, because blanks may stand between its parts. `Layout` relates a value
to each of them whose strings are escaped as the printer escapes them. A list or an object opens
with its bracket, and `Parts` lays out what follows up to the closing one, so that lists, objects
and messages of a fixed shape share one relation. The line that the printer writes is a layout.

A value is `Readable` if reading a text can yield it: no name occurs twice in an object, and the
reserved name opens none.
-/

namespace BusClient.Json

/-! ## Layouts -/

/-- Bytes that may stand between the parts. -/
def Blanks (text : Bytes) : Prop := ∀ b ∈ text, isBlank b = true

theorem Blanks.nil : Blanks [] := List.forall_mem_nil _

/-- The bytes that a character of a string is written as. -/
def written (c : Char) : Bytes := .ofText (writeChar "" c)

/-- The bytes of a text between quotes. -/
def quoted (text : String) : Bytes := 0x22 :: (text.toList.flatMap written ++ [0x22])

/-- What stands in front of a part: blanks, and in front of all but the first one a comma. -/
inductive Lead : (first : Bool) → Bytes → Prop
  | first {blanks : Bytes} (hb : Blanks blanks) : Lead true blanks
  | next {blanks blanks' : Bytes} (hb : Blanks blanks) (hb' : Blanks blanks') :
      Lead false (blanks ++ 0x2c :: blanks')

/-- What follows the opening bracket, or a part behind it: the other parts and the closing
bracket. -/
inductive Parts {α : Type} (part : α → Bytes → Prop) (close : UInt8) :
    (first : Bool) → List α → Bytes → Prop
  | close {first : Bool} {blanks : Bytes} (hb : Blanks blanks) :
      Parts part close first [] (blanks ++ [close])
  | part {first : Bool} {a : α} {more : List α} {lead text rest : Bytes} (hl : Lead first lead)
      (ha : part a text) (hr : Parts part close false more rest) :
      Parts part close first (a :: more) (lead ++ (text ++ rest))

/-- A member: its name, a colon and what it holds. -/
inductive Member {α : Type} (part : α → Bytes → Prop) : String × α → Bytes → Prop
  | intro {name : String} {a : α} {blanks blanks' text : Bytes} (hb : Blanks blanks)
      (hb' : Blanks blanks') (ha : part a text) :
      Member part (name, a) (quoted name ++ (blanks ++ 0x3a :: (blanks' ++ text)))

/-- A text of a value. -/
inductive Layout : Value → Bytes → Prop
  | null : Layout .null (.ofText "null")
  | bool (b : Bool) : Layout (.bool b) (.ofText (if b then "true" else "false"))
  | number (n : Number) : Layout (.number n) (.ofText n.text)
  | string (text : String) : Layout (.string text) (quoted text)
  | array {items : List Value} {text : Bytes} (h : Parts Layout 0x5d true items text) :
      Layout (.array items) (0x5b :: text)
  | object {members : Members} {text : Bytes} (h : Parts (Member Layout) 0x7d true members text) :
      Layout (.object members) (0x7b :: text)

section

variable {α : Type} {part : α → Bytes → Prop} {close : UInt8} {a : α} {more : List α}
  {text rest : Bytes}

/-- The first part may stand right behind the bracket. -/
theorem Parts.first_tight (ha : part a text) (hr : Parts part close false more rest) :
    Parts part close true (a :: more) (text ++ rest) := by
  have h := Parts.part (.first Blanks.nil) ha hr
  exact h

/-- A further part may stand right behind the comma, and the comma right behind a part. -/
theorem Parts.next_tight (ha : part a text) (hr : Parts part close false more rest) :
    Parts part close false (a :: more) (0x2c :: (text ++ rest)) := by
  have h := Parts.part (.next Blanks.nil Blanks.nil) ha hr
  exact h

/-- The colon may stand right between a name and what it holds. -/
theorem Member.tight (name : String) (ha : part a text) :
    Member part (name, a) (quoted name ++ 0x3a :: text) := by
  have h : Member part (name, a) _ := Member.intro Blanks.nil Blanks.nil ha
  exact h

end

/-- A text with parts contains a text of each of them. -/
theorem Parts.exists_part {α : Type} {part : α → Bytes → Prop} {close : UInt8} {first : Bool}
    {items : List α} {text : Bytes} (h : Parts part close first items text) {a : α}
    (ha : a ∈ items) : ∃ inner, part a inner ∧ inner.length ≤ text.length := by
  induction h with
  | close => exact absurd ha List.not_mem_nil
  | part _ hp _ ih =>
    rcases List.mem_cons.mp ha with rfl | ha
    · refine ⟨_, hp, ?_⟩
      simp only [List.length_append]
      omega
    · obtain ⟨inner, hi, hle⟩ := ih ha
      refine ⟨inner, hi, ?_⟩
      simp only [List.length_append]
      omega

/-- A text of an object contains, and is longer than, a text of what each member holds. -/
theorem Layout.exists_member {members : Members} {text : Bytes}
    (h : Layout (.object members) text) {name : String} {value : Value}
    (hm : (name, value) ∈ members) : ∃ inner, Layout value inner ∧ inner.length < text.length := by
  cases h with
  | object hp =>
    obtain ⟨_, ⟨_, _, hl⟩, hle⟩ := hp.exists_part hm
    refine ⟨_, hl, ?_⟩
    simp only [List.length_append, List.length_cons] at hle ⊢
    omega

/-! ## What reading can yield -/

mutual

/-- How many lists and objects stand inside one another in a value. -/
def Value.depth : Value → Nat
  | .array items => depthOfItems items + 1
  | .object members => depthOfMembers members + 1
  | _ => 0

/-- The depth of the deepest item. -/
def depthOfItems : List Value → Nat
  | [] => 0
  | item :: rest => max item.depth (depthOfItems rest)

/-- The depth of the deepest value of a member. -/
def depthOfMembers : List (String × Value) → Nat
  | [] => 0
  | (_, value) :: rest => max value.depth (depthOfMembers rest)

end

/-- All items are within a depth if the deepest one is. -/
theorem depthOfItems_le_iff {items : List Value} {depth : Nat} :
    depthOfItems items ≤ depth ↔ ∀ item ∈ items, item.depth ≤ depth := by
  induction items with
  | nil => simp [depthOfItems]
  | cons item rest ih => rw [depthOfItems, Nat.max_le, List.forall_mem_cons, ih]

/-- All values of members are within a depth if the deepest one is. -/
theorem depthOfMembers_le_iff {members : Members} {depth : Nat} :
    depthOfMembers members ≤ depth ↔ ∀ m ∈ members, m.2.depth ≤ depth := by
  induction members with
  | nil => simp [depthOfMembers]
  | cons m rest ih =>
    obtain ⟨name, value⟩ := m
    rw [depthOfMembers, Nat.max_le, List.forall_mem_cons, ih]

/-- A value that reading can yield. -/
inductive Readable : Value → Prop
  | null : Readable .null
  | bool (b : Bool) : Readable (.bool b)
  | number (n : Number) : Readable (.number n)
  | string (text : String) : Readable (.string text)
  | array {items : List Value} (h : ∀ item ∈ items, Readable item) : Readable (.array items)
  | object {members : Members} (hn : members.names.Nodup)
      (hr : members.names.head? ≠ some Value.reservedName)
      (h : ∀ m ∈ members, Readable m.2) : Readable (.object members)

/-- An object of one member is readable if that member holds a readable value. -/
theorem Readable.single {name : String} {value : Value} (hn : name ≠ Value.reservedName)
    (hr : Readable value) : Readable (.object [(name, value)]) :=
  .object (List.pairwise_singleton _ name) (mt Option.some.inj hn)
    (List.forall_mem_singleton.mpr hr)

/-! ## The printed line is a layout -/

/-- A character is appended to what has been written. -/
theorem ofText_writeChar (out : String) (c : Char) :
    Bytes.ofText (writeChar out c) = Bytes.ofText out ++ written c := by
  unfold written writeChar
  split
  case h_8 =>
    split
    · simp only [Bytes.ofText_push, Bytes.ofText_append, Bytes.ofText_empty, List.nil_append,
        List.append_assoc]
    · simp only [Bytes.ofText_push, Bytes.ofText_empty, List.nil_append]
  all_goals simp only [Bytes.ofText_push, Bytes.ofText_empty, List.nil_append, List.append_assoc]

theorem ofText_writeChars (out : String) (cs : List Char) :
    Bytes.ofText (writeChars out cs) = Bytes.ofText out ++ cs.flatMap written := by
  induction cs generalizing out with
  | nil => simp [writeChars]
  | cons c rest ih => rw [writeChars, ih, ofText_writeChar, List.flatMap_cons, List.append_assoc]

/-- Brackets, commas, colons and quotes are single bytes. -/
theorem utf8EncodeChar_mark :
    String.utf8EncodeChar '[' = [0x5b] ∧ String.utf8EncodeChar ']' = [0x5d] ∧
      String.utf8EncodeChar '\x7b' = [0x7b] ∧ String.utf8EncodeChar '\x7d' = [0x7d] ∧
      String.utf8EncodeChar ',' = [0x2c] ∧ String.utf8EncodeChar ':' = [0x3a] ∧
      String.utf8EncodeChar '"' = [0x22] := by
  decide

/-- A string is appended between its quotes. -/
theorem ofText_writeString (out text : String) :
    Bytes.ofText (writeString out text) = Bytes.ofText out ++ quoted text := by
  simp [writeString, ofText_writeChars, quoted, utf8EncodeChar_mark]

mutual

/-- A value is appended in one of its layouts. -/
theorem writeCompact_layout (out : String) : (value : Value) →
    ∃ text, Bytes.ofText (writeCompact out value) = Bytes.ofText out ++ text ∧ Layout value text
  | .null => ⟨_, Bytes.ofText_append out "null", .null⟩
  | .bool b => ⟨_, Bytes.ofText_append out _, .bool b⟩
  | .number n => ⟨_, Bytes.ofText_append out _, .number n⟩
  | .string text => ⟨_, ofText_writeString out text, .string text⟩
  | .array items => by
    obtain ⟨text, ht, hp⟩ := writeCompactItems_parts (out.push '[') items
    refine ⟨0x5b :: (text ++ [0x5d]), ?_, .array hp⟩
    simp [writeCompact, ht, utf8EncodeChar_mark]
  | .object members => by
    obtain ⟨text, ht, hp⟩ := writeCompactMembers_parts (out.push '\x7b') members
    refine ⟨0x7b :: (text ++ [0x7d]), ?_, .object hp⟩
    simp [writeCompact, ht, utf8EncodeChar_mark]

/-- The items of a list are appended up to the closing bracket. -/
theorem writeCompactItems_parts (out : String) : (items : List Value) →
    ∃ text, Bytes.ofText (writeCompactItems out items) = Bytes.ofText out ++ text ∧
      Parts Layout 0x5d true items (text ++ [0x5d])
  | [] => ⟨[], by simp [writeCompactItems], .close Blanks.nil⟩
  | value :: rest => by
    obtain ⟨text, ht, hl⟩ := writeCompact_layout out value
    obtain ⟨more, hm, hp⟩ := writeCompactTail_parts (writeCompact out value) rest
    refine ⟨text ++ more, by rw [writeCompactItems, hm, ht, List.append_assoc], ?_⟩
    rw [List.append_assoc]
    exact .first_tight hl hp

/-- The items that follow the first one are appended up to the closing bracket. -/
theorem writeCompactTail_parts (out : String) : (items : List Value) →
    ∃ text, Bytes.ofText (writeCompactTail out items) = Bytes.ofText out ++ text ∧
      Parts Layout 0x5d false items (text ++ [0x5d])
  | [] => ⟨[], by simp [writeCompactTail], .close Blanks.nil⟩
  | value :: rest => by
    obtain ⟨text, ht, hl⟩ := writeCompact_layout (out.push ',') value
    obtain ⟨more, hm, hp⟩ := writeCompactTail_parts (writeCompact (out.push ',') value) rest
    refine ⟨0x2c :: (text ++ more), ?_, ?_⟩
    · simp [writeCompactTail, hm, ht, utf8EncodeChar_mark]
    · rw [List.cons_append, List.append_assoc]
      exact .next_tight hl hp

/-- The members of an object are appended up to the closing brace. -/
theorem writeCompactMembers_parts (out : String) : (members : List (String × Value)) →
    ∃ text, Bytes.ofText (writeCompactMembers out members) = Bytes.ofText out ++ text ∧
      Parts (Member Layout) 0x7d true members (text ++ [0x7d])
  | [] => ⟨[], by simp [writeCompactMembers], .close Blanks.nil⟩
  | (name, value) :: rest => by
    obtain ⟨text, ht, hl⟩ := writeCompact_layout ((writeString out name).push ':') value
    obtain ⟨more, hm, hp⟩ := writeCompactMoreMembers_parts
      (writeCompact ((writeString out name).push ':') value) rest
    refine ⟨quoted name ++ 0x3a :: text ++ more, ?_, ?_⟩
    · simp [writeCompactMembers, hm, ht, ofText_writeString, utf8EncodeChar_mark]
    · rw [List.append_assoc]
      exact .first_tight (.tight name hl) hp

/-- The members that follow the first one are appended up to the closing brace. -/
theorem writeCompactMoreMembers_parts (out : String) : (members : List (String × Value)) →
    ∃ text, Bytes.ofText (writeCompactMoreMembers out members) = Bytes.ofText out ++ text ∧
      Parts (Member Layout) 0x7d false members (text ++ [0x7d])
  | [] => ⟨[], by simp [writeCompactMoreMembers], .close Blanks.nil⟩
  | (name, value) :: rest => by
    obtain ⟨text, ht, hl⟩ :=
      writeCompact_layout ((writeString (out.push ',') name).push ':') value
    obtain ⟨more, hm, hp⟩ := writeCompactMoreMembers_parts
      (writeCompact ((writeString (out.push ',') name).push ':') value) rest
    refine ⟨0x2c :: (quoted name ++ 0x3a :: text ++ more), ?_, ?_⟩
    · simp [writeCompactMoreMembers, hm, ht, ofText_writeString, utf8EncodeChar_mark]
    · rw [List.cons_append, List.append_assoc]
      exact .next_tight (.tight name hl) hp

end

/-- The line that a value is printed as is one of its layouts. -/
theorem compact_layout (value : Value) : Layout value (.ofText value.compact) := by
  obtain ⟨text, ht, hl⟩ := writeCompact_layout "" value
  rw [Bytes.ofText_empty, List.nil_append] at ht
  rw [Value.compact, ht]
  exact hl

end BusClient.Json
