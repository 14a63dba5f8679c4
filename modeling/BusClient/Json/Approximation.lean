import BusClient.Decimal.Shortest
import BusClient.Json.Number

/-!
# The double near a number

Where only machine integers are of use, a message shows any other number by a double near it. The
digits that fit sixty-four bits are kept, the others only move the point, and the kept digits are
multiplied or divided by a power of ten. A number too large for a double has no approximation.
-/

namespace BusClient.Json

/-- The kept digits of a number and the power of ten that they are scaled by. -/
structure Scaling where
  kept : Nat
  exponent : Int
  deriving DecidableEq, Repr

namespace Scaling

/-- Whether one digit more still fits sixty-four bits. -/
def fits (kept : Nat) (d : Digit) : Bool := kept * 10 + d.val < UInt64.size

/-- Keeps digits before the point as long as they fit; the others scale up. -/
def addWhole (kept : Nat) : List Digit → Scaling
  | [] => ⟨kept, 0⟩
  | d :: ds =>
    if fits kept d then addWhole (kept * 10 + d.val) ds else ⟨kept, (d :: ds).length⟩

/-- Keeps digits after the point as long as they fit; the others are dropped. -/
def addFraction (s : Scaling) : List Digit → Scaling
  | [] => s
  | d :: ds =>
    if fits s.kept d then addFraction ⟨s.kept * 10 + d.val, s.exponent - 1⟩ ds else s

/-- The kept digits, and where the point is before the exponent counts. -/
def ofNumber (n : Number) : Scaling :=
  (addWhole 0 (Decimal.digits n.whole)).addFraction n.fraction

end Scaling

/-- Exponents are counted up to the largest integer of thirty-two bits. -/
def exponentBound : Nat := 2147483647

/-- The value of exponent digits, or the number of digits after the one that passes the bound. -/
def exponentValue (value : Nat) : List Digit → Except Nat Nat
  | [] => .ok value
  | d :: ds =>
    let next := value * 10 + d.val
    if exponentBound < next then .error ds.length else exponentValue next ds

/-- Multiplies or divides by a power of ten; `none` if the product is not finite. Division goes in
steps, since the powers of ten are known up to the 308th only. -/
def scale : (steps : Nat) → Float → Int → Option Float
  | 0, x, _ => some x
  | steps + 1, x, exponent =>
    if exponent.natAbs ≤ 308 then
      let power := Float.ofScientific 1 false exponent.natAbs
      if 0 ≤ exponent then
        let product := x * power
        if product.isInf then none else some product
      else some (x / power)
    else if x == 0.0 then some x
    else if 0 ≤ exponent then none
    else scale steps (x / 1e308) (exponent + 308)

/-- A double near a number, or its failure. -/
inductive Approximation
  | near (x : Float)
  /-- The number is too large, which was known when so many digits were still to come. -/
  | tooLarge (unread : Nat)

/-- The double near a number. -/
def Number.approximation (n : Number) : Approximation :=
  let s := Scaling.ofNumber n
  let signed (x : Float) : Float := if n.negative then -x else x
  let scaled (exponent : Int) : Approximation :=
    match scale 4 s.kept.toUInt64.toFloat (max (-1200) (min 1200 exponent)) with
    | some x => .near (signed x)
    | none => .tooLarge 0
  match n.exponent with
  | none => scaled s.exponent
  | some e =>
    match exponentValue e.first.val e.more with
    | .ok value => scaled (if e.negative then s.exponent - value else s.exponent + value)
    | .error unread =>
      if s.kept ≠ 0 ∧ e.negative = false then .tooLarge unread else .near (signed 0.0)

/-- The text of a double near a number, in a message. -/
def shownFloat (x : Float) : String := (Decimal.Real.ofFloat x).text .bounded

end BusClient.Json
