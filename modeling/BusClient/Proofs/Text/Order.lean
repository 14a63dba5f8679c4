import BusClient.Text.Bytes

/-!
# The order of texts

Texts are ordered by their first different characters, and characters by their code points. The
bytes of UTF-8 keep that order: the first byte in which two texts differ is smaller in the smaller
one.
-/

namespace BusClient.Bytes

/-- The bytes of a smaller character are smaller, whatever follows either of them. -/
theorem utf8EncodeChar_append_lt {c d : Char} (h : c < d) (x y : Bytes) :
    String.utf8EncodeChar c ++ x < String.utf8EncodeChar d ++ y := by
  have hlt : c.val.toNat < d.val.toNat := h
  have hd : d.val.toNat < 1114112 := by
    have hv := d.valid
    simp only [UInt32.isValidChar, Nat.isValidChar] at hv
    omega
  simp only [String.utf8EncodeChar]
  generalize c.val.toNat = m at hlt
  generalize d.val.toNat = n at hlt hd
  -- The first byte tells how many there are, and more of them for larger characters; characters
  -- with as many bytes differ in the digits that the bytes hold.
  repeat' split
  all_goals
    simp only [List.cons_append, List.nil_append, List.cons_lt_cons_iff, UInt8.lt_iff_toNat_lt,
      ← UInt8.toNat_inj, UInt8.toNat_ofNat']
    simp (disch := omega) only [Nat.mod_eq_of_lt]
    omega

/-- Behind the same front the rests decide. -/
theorem append_lt_append_iff (front : Bytes) {x y : Bytes} : front ++ x < front ++ y ↔ x < y := by
  induction front with
  | nil => rfl
  | cons b front ih =>
    simp only [List.cons_append, List.cons_lt_cons_iff, ih]
    simp

/-- Smaller texts have smaller bytes. -/
theorem ofText_lt_of_lt {a b : String} (h : a < b) : ofText a < ofText b := by
  rw [ofText_eq_flatMap, ofText_eq_flatMap]
  have h : List.Lex (· < ·) a.toList b.toList := String.lt_iff.mp h
  generalize a.toList = cs at h
  generalize b.toList = ds at h
  induction h with
  | @nil d ds =>
    rw [List.flatMap_nil, List.flatMap_cons]
    cases he : String.utf8EncodeChar d with
    | nil => exact absurd he String.utf8EncodeChar_ne_nil
    | cons byte more => exact List.nil_lt_cons _ _
  | rel h =>
    rw [List.flatMap_cons, List.flatMap_cons]
    exact utf8EncodeChar_append_lt h _ _
  | cons _ ih =>
    rw [List.flatMap_cons, List.flatMap_cons]
    exact (append_lt_append_iff _).mpr ih

end BusClient.Bytes
