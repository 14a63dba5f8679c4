import BusClient.Proofs.Json.Yield

/-!
# Indented texts

The indented text of a value is a layout of it, too: line breaks and indentation stand where
blanks may stand, and nowhere else. A readable value therefore comes back from the text that
`Value.indented` writes, whatever it nests and however its numbers are spelled.
-/

namespace BusClient.Json

/-- The bytes of a line break and of the indentation at a level. -/
def lineBreak : (level : Nat) → Bytes
  | 0 => [0x0a]
  | level + 1 => lineBreak level ++ [0x20, 0x20]

theorem Blanks.space : Blanks [0x20] := List.forall_mem_singleton.mpr (by decide)

theorem Blanks.lineBreak (level : Nat) : Blanks (lineBreak level) := by
  induction level with
  | zero => exact List.forall_mem_singleton.mpr (by decide)
  | succ level ih => exact ih.append (Blanks.space.append Blanks.space)

/-- A line break is appended. -/
theorem ofText_writeBreak (out : String) (level : Nat) :
    Bytes.ofText (writeBreak out level) = Bytes.ofText out ++ lineBreak level := by
  induction level with
  | zero =>
    have hc : String.utf8EncodeChar '\n' = [0x0a] := by decide
    rw [writeBreak, Bytes.ofText_push, hc, lineBreak]
  | succ level ih =>
    have hi : Bytes.ofText "  " = [0x20, 0x20] := by decide
    rw [writeBreak, Bytes.ofText_append, ih, hi, lineBreak, List.append_assoc]

theorem ofText_colon : Bytes.ofText ": " = [0x3a, 0x20] := by decide

/-- A member may have a blank behind its colon. -/
theorem Member.spaced {α : Type} {part : α → Bytes → Prop} {a : α} {text : Bytes} (name : String)
    (ha : part a text) : Member part (name, a) (quoted name ++ ([0x3a, 0x20] ++ text)) := by
  have h : Member part (name, a) _ := Member.intro Blanks.nil Blanks.space ha
  exact h

section

variable {α : Type} {part : α → Bytes → Prop} {close : UInt8} {a : α} {more : List α}
  {text rest : Bytes}

/-- The first part may stand on a line of its own. -/
theorem Parts.first_line (level : Nat) (ha : part a text) (hr : Parts part close false more rest) :
    Parts part close true (a :: more) (lineBreak level ++ (text ++ rest)) :=
  .part (.first (.lineBreak level)) ha hr

/-- A further part may stand on a line of its own behind the comma. -/
theorem Parts.next_line (level : Nat) (ha : part a text) (hr : Parts part close false more rest) :
    Parts part close false (a :: more) (0x2c :: (lineBreak level ++ (text ++ rest))) := by
  have h := Parts.part (.next Blanks.nil (.lineBreak level)) ha hr
  exact h

end

mutual

/-- A value is appended in one of its layouts, whatever the level. -/
theorem writeIndented_layout (level : Nat) (out : String) : (value : Value) →
    ∃ text, Bytes.ofText (writeIndented level out value) = Bytes.ofText out ++ text ∧
      Layout value text
  | .null => ⟨_, Bytes.ofText_append out "null", .null⟩
  | .bool b => ⟨_, Bytes.ofText_append out _, .bool b⟩
  | .number n => ⟨_, Bytes.ofText_append out _, .number n⟩
  | .string text => ⟨_, ofText_writeString out text, .string text⟩
  | .array [] => ⟨[0x5b, 0x5d], by
      have hc : Bytes.ofText "[]" = [0x5b, 0x5d] := by decide
      rw [writeIndented, Bytes.ofText_append, hc], .array (.close Blanks.nil)⟩
  | .array (item :: rest) => by
    obtain ⟨text, ht, hl⟩ :=
      writeIndented_layout (level + 1) (writeBreak (out.push '[') (level + 1)) item
    obtain ⟨more, hm, hp⟩ := writeIndentedTail_parts (level + 1)
      (writeIndented (level + 1) (writeBreak (out.push '[') (level + 1)) item) rest
    have hr := Parts.first_line (level + 1) hl (hp (.lineBreak level))
    refine ⟨_, ?_, .array hr⟩
    simp [writeIndented, ofText_writeBreak, hm, ht, utf8EncodeChar_mark]
  | .object [] => ⟨[0x7b, 0x7d], by simp [writeIndented, utf8EncodeChar_mark],
      .object (.close Blanks.nil)⟩
  | .object ((name, value) :: rest) => by
    obtain ⟨text, ht, hl⟩ := writeIndented_layout (level + 1)
      (writeString (writeBreak (out.push '\x7b') (level + 1)) name ++ ": ") value
    obtain ⟨more, hm, hp⟩ := writeIndentedMembers_parts (level + 1)
      (writeIndented (level + 1)
        (writeString (writeBreak (out.push '\x7b') (level + 1)) name ++ ": ") value) rest
    have hr := Parts.first_line (level + 1) (.spaced name hl) (hp (.lineBreak level))
    refine ⟨_, ?_, .object hr⟩
    simp [writeIndented, ofText_writeBreak, ofText_writeString, ofText_colon, hm, ht,
      utf8EncodeChar_mark]

/-- The items that follow the first one are appended, and the list may end behind any blanks. -/
theorem writeIndentedTail_parts (level : Nat) (out : String) : (items : List Value) →
    ∃ text, Bytes.ofText (writeIndentedTail level out items) = Bytes.ofText out ++ text ∧
      ∀ {blanks : Bytes}, Blanks blanks →
        Parts Layout 0x5d false items (text ++ (blanks ++ [0x5d]))
  | [] => ⟨[], by simp [writeIndentedTail], .close⟩
  | value :: rest => by
    obtain ⟨text, ht, hl⟩ := writeIndented_layout level (writeBreak (out.push ',') level) value
    obtain ⟨more, hm, hp⟩ := writeIndentedTail_parts level
      (writeIndented level (writeBreak (out.push ',') level) value) rest
    refine ⟨0x2c :: (lineBreak level ++ (text ++ more)), ?_, fun hb => ?_⟩
    · simp [writeIndentedTail, ofText_writeBreak, hm, ht, utf8EncodeChar_mark]
    · rw [List.cons_append, List.append_assoc, List.append_assoc]
      exact .next_line level hl (hp hb)

/-- The members that follow the first one are appended, and the object may end behind any
blanks. -/
theorem writeIndentedMembers_parts (level : Nat) (out : String) :
    (members : List (String × Value)) →
    ∃ text, Bytes.ofText (writeIndentedMembers level out members) = Bytes.ofText out ++ text ∧
      ∀ {blanks : Bytes}, Blanks blanks →
        Parts (Member Layout) 0x7d false members (text ++ (blanks ++ [0x7d]))
  | [] => ⟨[], by simp [writeIndentedMembers], .close⟩
  | (name, value) :: rest => by
    obtain ⟨text, ht, hl⟩ := writeIndented_layout level
      (writeString (writeBreak (out.push ',') level) name ++ ": ") value
    obtain ⟨more, hm, hp⟩ := writeIndentedMembers_parts level
      (writeIndented level (writeString (writeBreak (out.push ',') level) name ++ ": ") value) rest
    refine ⟨0x2c :: (lineBreak level ++ ((quoted name ++ ([0x3a, 0x20] ++ text)) ++ more)), ?_,
      fun hb => ?_⟩
    · simp [writeIndentedMembers, ofText_writeBreak, ofText_writeString, ofText_colon, hm, ht,
        utf8EncodeChar_mark]
    · rw [List.cons_append, List.append_assoc, List.append_assoc]
      exact .next_line level (.spaced name hl) (hp hb)

end

/-- The indented text of a value is one of its layouts. -/
theorem indented_layout (value : Value) : Layout value (.ofText value.indented) := by
  obtain ⟨text, ht, hl⟩ := writeIndented_layout 0 "" value
  rw [Bytes.ofText_empty, List.nil_append] at ht
  rw [Value.indented, ht]
  exact hl

/-- A value comes back from the lines that it is printed as. -/
theorem ofText_indented {value : Value} (hr : Readable value) (hd : value.depth ≤ maxDepth) :
    Value.ofText value.indented = .ok value :=
  readAll_of_takes (readValue_takes maxDepth hr hd) (indented_layout value)

end BusClient.Json
