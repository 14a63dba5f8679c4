import BusClient.Decimal.Digits

/-!
# Numbers as they are spelled

A number of a document is kept digit for digit: its size is unbounded and nothing is rounded.
Only the exponent has one spelling, with a small `e` and always a sign. `integer?` gives the
value of the numbers that are spelled without fraction and exponent, and the conversions to
machine words succeed exactly on those of them that lie in range.
-/

namespace BusClient.Json

/-- The exponent of a number: a sign and at least one digit, leading zeros included. -/
structure Exponent where
  negative : Bool
  first : Digit
  more : List Digit
  deriving DecidableEq, Repr

/-- A number as it is spelled. The digits before the point have no superfluous zero, so they are
kept as the natural number that they write; a number without a point has no fraction digits. -/
structure Number where
  negative : Bool
  whole : Nat
  fraction : List Digit
  exponent : Option Exponent
  deriving DecidableEq, Repr

namespace Number

/-- The number that an integer is written as. -/
def ofInt (n : Int) : Number := ⟨n < 0, n.natAbs, [], none⟩

/-- The number that a natural number is written as. -/
def ofNat (n : Nat) : Number := ⟨false, n, [], none⟩

/-- The value of a number that is spelled without fraction and exponent. -/
def integer? (n : Number) : Option Int :=
  if n.fraction = [] ∧ n.exponent = none then
    some (if n.negative then -(n.whole : Int) else n.whole)
  else
    none

/-- A number spelled as an integer that fits sixty-four bits with a sign. -/
def int64? (n : Number) : Option Int64 := do
  let value ← n.integer?
  if Int64.minValue.toInt ≤ value ∧ value ≤ Int64.maxValue.toInt then some (Int64.ofInt value)
  else none

/-- A number spelled as an integer that fits thirty-two bits with a sign. -/
def int32? (n : Number) : Option Int32 := do
  let value ← n.integer?
  if Int32.minValue.toInt ≤ value ∧ value ≤ Int32.maxValue.toInt then some (Int32.ofInt value)
  else none

/-- A number spelled as an integer without a sign that fits thirty-two bits: a minus sign is
refused even before a zero. -/
def uint32? (n : Number) : Option UInt32 := do
  let value ← n.integer?
  if n.negative = false ∧ value < UInt32.size then some (UInt32.ofNat value.toNat) else none

/-- The text of an exponent. -/
def Exponent.text (e : Exponent) : String :=
  "e" ++ (if e.negative then "-" else "+") ++ Decimal.spell (e.first :: e.more)

/-- The text of a number. -/
def text (n : Number) : String :=
  (if n.negative then "-" else "") ++ Decimal.spell (Decimal.digits n.whole) ++
    (if n.fraction = [] then "" else "." ++ Decimal.spell n.fraction) ++
    (match n.exponent with
      | none => ""
      | some e => Exponent.text e)

theorem integer?_ofInt (n : Int) : (ofInt n).integer? = some n := by
  simp only [ofInt, integer?, and_self, if_true, Option.some.injEq, decide_eq_true_eq]
  split <;> omega

theorem integer?_ofNat (n : Nat) : (ofNat n).integer? = some (n : Int) := by
  simp [ofNat, integer?]

end Number

end BusClient.Json
