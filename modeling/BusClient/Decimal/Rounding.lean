/-!
# Rounding a quotient

A quotient of natural numbers is rounded to the nearer of the two whole numbers around it. Which
of them a tie goes to is a choice of its own.
-/

namespace BusClient.Decimal

/-- Where a number goes that lies midway between two neighbours. -/
inductive Tie
  /-- To the even neighbour. -/
  | even
  /-- To the larger neighbour. -/
  | up
  deriving DecidableEq, Repr

/-- Whether a tie goes down to `below`. -/
def Tie.keeps (below : Nat) : Tie → Bool
  | even => below % 2 == 0
  | up => false

/-- Divides and rounds to the nearest whole number. -/
def roundDiv (tie : Tie) (num den : Nat) : Nat :=
  let below := num / den
  let twice := 2 * (num % den)
  if twice < den then below
  else if den < twice then below + 1
  else if tie.keeps below then below else below + 1

end BusClient.Decimal
