import BusClient.Decimal.Shortest

/-!
# The double nearest to a decimal

A decimal is rounded once, in exact arithmetic, to the nearest double, a tie to the one with an
even significand. What is too large for a double becomes infinite.
-/

namespace BusClient.Decimal

/-- The exponent of the first binary digit of a positive fraction. -/
def leadingBit (num den : Nat) : Int :=
  let estimate : Int := (Nat.log2 num : Int) - (Nat.log2 den : Int)
  if den * Nat.pow 2 estimate.toNat ≤ num * Nat.pow 2 (-estimate).toNat then estimate
  else estimate - 1

/-- The double with this significand, unless it is too large. -/
def Real.ofParts (negative : Bool) (significand : Nat) (exponent : Int) : Real :=
  if significand = 0 then .zero negative
  else if 971 < exponent then .infinite negative
  else .finite negative
    ⟨significand, exponent, significand == leastNormal && decide (-1074 < exponent)⟩

/-- The double nearest to a positive fraction. -/
def Real.nearest (negative : Bool) (num den : Nat) : Real :=
  let exponent := max (leadingBit num den - 52) (-1074)
  let significand :=
    roundDiv .even (num * Nat.pow 2 (-exponent).toNat) (den * Nat.pow 2 exponent.toNat)
  if significand = 2 * leastNormal then .ofParts negative leastNormal (exponent + 1)
  else .ofParts negative significand exponent

/-- The double nearest to `coefficient * 10 ^ exponent`. A first digit beyond the four hundredth
place on either side of the point decides alone. -/
def Real.ofDecimal (negative : Bool) (coefficient : Nat) (exponent : Int) : Real :=
  if coefficient = 0 then .zero negative
  else
    let lead := exponent + (digits coefficient).length
    if 400 < lead then .infinite negative
    else if lead < -400 then .zero negative
    else .nearest negative (coefficient * Nat.pow 10 exponent.toNat) (Nat.pow 10 (-exponent).toNat)

end BusClient.Decimal
