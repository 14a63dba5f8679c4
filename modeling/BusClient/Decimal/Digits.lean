/-!
# Decimal digits

Numbers are written in the ten decimal digits, most significant first. `value_digits` says that
the digits of a natural number read back as that number.
-/

namespace BusClient

/-- A decimal digit. -/
abbrev Digit := Fin 10

namespace Digit

/-- The digit zero. -/
def zero : Digit := 0

/-- The character of a digit. -/
def char (d : Digit) : Char := Nat.digitChar d.val

/-- The byte of a digit. -/
def byte (d : Digit) : UInt8 := 0x30 + UInt8.ofNat d.val

/-- A byte that is one of the ten digits. -/
def isByte (b : UInt8) : Bool := 0x30 ≤ b && b ≤ 0x39

/-- The digit that a byte shows, if it is one. -/
def ofByte (b : UInt8) : Digit := Fin.ofNat 10 (b.toNat - 48)

@[simp] theorem isByte_byte (d : Digit) : isByte d.byte = true := by
  revert d; decide

@[simp] theorem ofByte_byte (d : Digit) : ofByte d.byte = d := by
  revert d; decide

end Digit

namespace Decimal

/-- The digits of a natural number; zero has the one digit `0`. -/
def digits (n : Nat) : List Digit :=
  (Nat.toDigits 10 n).map fun c => Fin.ofNat 10 (c.toNat - 48)

/-- The number that starts with the digits of `start` and goes on with the given ones. -/
def extend (start : Nat) (ds : List Digit) : Nat :=
  ds.foldl (fun n d => n * 10 + d.val) start

/-- The number that the digits write. -/
def value (ds : List Digit) : Nat := extend 0 ds

/-- The text of digits. -/
def spell (ds : List Digit) : String := String.ofList (ds.map Digit.char)

theorem extend_append (start : Nat) (ds es : List Digit) :
    extend start (ds ++ es) = extend (extend start ds) es :=
  List.foldl_append

/-- One digit more multiplies by ten and adds. -/
theorem digits_snoc {n : Nat} (hn : 0 < n) (d : Digit) :
    digits (n * 10 + d.val) = digits n ++ [d] := by
  have h := Nat.toDigits_append_toDigits (b := 10) (by decide) hn d.isLt
  rw [Nat.mul_comm, digits, digits, ← h, List.map_append, Nat.toDigits_of_lt_base d.isLt]
  simp only [List.map_cons, List.map_nil, Nat.toNat_digitChar_of_lt_ten d.isLt]
  congr 1
  clear h
  revert d; decide

theorem digits_digit (d : Digit) : digits d.val = [d] := by
  rw [digits, Nat.toDigits_of_lt_base d.isLt]
  revert d; decide

/-- The digits of a number read back as the number. -/
theorem value_digits (n : Nat) : value (digits n) = n := by
  induction n using Nat.strongRecOn with
  | ind n ih =>
    by_cases h : n < 10
    · have := digits_digit ⟨n, h⟩
      simp only at this
      simp [this, value, extend]
    · have hq : 0 < n / 10 := by omega
      have hd := digits_snoc hq ⟨n % 10, by omega⟩
      have hn : n / 10 * 10 + n % 10 = n := by omega
      simp only [hn] at hd
      have hi := ih (n / 10) (by omega)
      rw [value] at hi
      rw [hd, value, extend_append, hi]
      simpa [extend] using hn

/-- Digits that follow a number other than zero are the digits of the longer number. -/
theorem digits_extend {n : Nat} (hn : 0 < n) (ds : List Digit) :
    digits (extend n ds) = digits n ++ ds := by
  induction ds generalizing n with
  | nil => simp [extend]
  | cons d ds ih =>
    have h := ih (n := n * 10 + d.val) (by omega)
    rw [digits_snoc hn] at h
    simpa [extend] using h

/-- A number whose first digit is not zero has exactly the digits that it was written with. -/
theorem digits_value_cons {d : Digit} (hd : 0 < d.val) (ds : List Digit) :
    digits (value (d :: ds)) = d :: ds := by
  have h := digits_extend hd ds
  rw [digits_digit] at h
  simpa [value, extend] using h

/-- The digits of a number begin with zero only for zero itself. -/
theorem digits_eq (n : Nat) : (n = 0 ∧ digits n = [0]) ∨
    ∃ d ds, digits n = d :: ds ∧ 0 < d.val := by
  induction n using Nat.strongRecOn with
  | ind n ih =>
    by_cases h : n < 10
    · have hd := digits_digit ⟨n, h⟩
      by_cases hz : n = 0
      · subst hz
        exact .inl ⟨rfl, hd⟩
      · exact .inr ⟨⟨n, h⟩, [], hd, Nat.pos_of_ne_zero hz⟩
    · have hq : 0 < n / 10 := by omega
      have hd := digits_snoc hq ⟨n % 10, by omega⟩
      have hn : n / 10 * 10 + n % 10 = n := by omega
      simp only [hn] at hd
      rcases ih (n / 10) (by omega) with ⟨hz, _⟩ | ⟨d, ds, he, hp⟩
      · omega
      · exact .inr ⟨d, ds ++ [⟨n % 10, Nat.mod_lt n (by decide)⟩], by simp [hd, he], hp⟩

end Decimal

end BusClient
