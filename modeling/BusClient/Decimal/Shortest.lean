import BusClient.Decimal.Digits
import BusClient.Decimal.Rounding

/-!
# The shortest decimal of a binary fraction

A finite double is `m * 2 ^ q`. It is shown with the fewest digits that read back as the same
double: for one digit, two digits, and so on, the two neighbours of the value on that decimal
grid are tested in exact arithmetic, and the first grid with a hit wins. A `Style` says where
positional notation ends and which of two equally near hits is taken.
-/

namespace BusClient.Decimal

/-- A positive binary fraction `significand * 2 ^ exponent`. -/
structure Binary where
  significand : Nat
  exponent : Int
  /-- Whether the next smaller double lies only half as far away as the next larger one. -/
  lowerGapHalved : Bool
  deriving DecidableEq, Repr

/-- A positive decimal `coefficient * 10 ^ exponent`. -/
structure Scaled where
  coefficient : Nat
  exponent : Int
  deriving DecidableEq, Repr

namespace Binary

/-- Four times the significand, so that the ends of the rounding interval are whole, as a
fraction over a power of ten: `value * 10 ^ (-exponent10)` is `numerator / denominator`. -/
def fractionOver (x : Binary) (quarters : Nat) (exponent10 : Int) : Nat × Nat :=
  (quarters * Nat.pow 2 (x.exponent - 2).toNat * Nat.pow 10 (-exponent10).toNat,
    Nat.pow 2 (2 - x.exponent).toNat * Nat.pow 10 exponent10.toNat)

/-- Whether `candidate * 10 ^ exponent10` rounds to the double: it lies between the ends of its
interval, and the ends themselves count for an even significand. -/
def readsBack (x : Binary) (candidate : Nat) (exponent10 : Int) : Bool :=
  let low := x.fractionOver (4 * x.significand - (if x.lowerGapHalved then 1 else 2)) exponent10
  let high := x.fractionOver (4 * x.significand + 2) exponent10
  if x.significand % 2 = 0 then
    low.1 ≤ candidate * low.2 && candidate * high.2 ≤ high.1
  else
    low.1 < candidate * low.2 && candidate * high.2 < high.1

/-- The grid point that stands for the double on the grid of `10 ^ exponent10`: of two that read
back the nearer one, and of two equally near ones the one that `tie` says. -/
def onGrid? (tie : Tie) (x : Binary) (exponent10 : Int) : Option Nat :=
  let (num, den) := x.fractionOver (4 * x.significand) exponent10
  let below := num / den
  let above := below + 1
  match x.readsBack below exponent10, x.readsBack above exponent10 with
  | true, false => some below
  | false, true => some above
  | false, false => none
  | true, true => some (roundDiv tie num den)

/-- The exponent of the first decimal digit, found from an estimate that is at most one off. -/
def leading (x : Binary) : Int :=
  let estimate := ((Nat.log2 x.significand : Int) + x.exponent) * 30103 / 100000
  let reaches (e : Int) : Bool := let (num, den) := x.fractionOver (4 * x.significand) e; den ≤ num
  if reaches (estimate + 1) then estimate + 1
  else if reaches estimate then estimate
  else estimate - 1

/-- Tries the grids with `count`, `count + 1`, … digits after the first, `fuel` of them. -/
def search (tie : Tie) (x : Binary) (lead : Int) : (fuel count : Nat) → Scaled
  | 0, count => ⟨(x.fractionOver (4 * x.significand) (lead - count)).1, lead - count⟩
  | fuel + 1, count =>
    match x.onGrid? tie (lead - count) with
    | some coefficient => ⟨coefficient, lead - count⟩
    | none => x.search tie lead fuel (count + 1)

/-- The shortest decimal that reads back; seventeen digits always suffice. -/
def shortest (tie : Tie) (x : Binary) : Scaled := x.search tie x.leading 17 0

end Binary

/-- What a double is. -/
inductive Real
  | nan
  | infinite (negative : Bool)
  | zero (negative : Bool)
  | finite (negative : Bool) (size : Binary)
  deriving DecidableEq, Repr

/-- A significand of fifty-three binary digits is at least this one. -/
def leastNormal : Nat := Nat.pow 2 52

/-- Takes a double apart. -/
def Real.ofFloat (x : Float) : Real :=
  let bits := x.toBits
  let negative : Bool := bits >>> 63 == 1
  let biased : Nat := (bits >>> 52 &&& 0x7ff).toNat
  let fraction : Nat := (bits &&& 0xfffffffffffff).toNat
  if biased = 2047 then
    if fraction = 0 then .infinite negative else .nan
  else if biased = 0 then
    if fraction = 0 then .zero negative else .finite negative ⟨fraction, -1074, false⟩
  else
    .finite negative
      ⟨leastNormal + fraction, (biased : Int) - 1075, fraction == 0 && decide (1 < biased)⟩

/-- How a double is spelled. Positional notation is used for a first digit whose exponent is
neither below `lowest` nor above `highest`; no bound means that there is no other notation. Of two
equally near shortest decimals `tie` chooses. -/
structure Style where
  lowest : Option Int
  highest : Option Int
  tie : Tie
  deriving DecidableEq, Repr

/-- Positional notation from a hundred-thousandth up to sixteen digits, a tie to the even one. -/
def Style.bounded : Style := ⟨some (-5), some 15, .even⟩

/-- Positional notation throughout, a tie up. -/
def Style.positional : Style := ⟨none, none, .up⟩

/-- Whether a decimal whose first digit has this exponent is written positionally. -/
def Style.isPositional (style : Style) (lead : Int) : Bool :=
  style.lowest.all (· ≤ lead) && style.highest.all (lead ≤ ·)

/-- Drops the zeros at the end of digits. -/
def stripZeros (ds : List Digit) : List Digit :=
  (ds.reverse.dropWhile (· == Digit.zero)).reverse

/-- The text of a positive decimal; a whole one ends in a point and a zero. -/
def Scaled.text (style : Style) (x : Scaled) : String :=
  let all := digits x.coefficient
  let lead : Int := x.exponent + all.length - 1
  let ds := stripZeros all
  if style.isPositional lead then
    if lead < 0 then
      "0." ++ spell (List.replicate (-lead - 1).toNat Digit.zero) ++ spell ds
    else
      let whole := (lead + 1).toNat
      let padded := ds ++ List.replicate (whole - ds.length) Digit.zero
      let rest := padded.drop whole
      spell (padded.take whole) ++ "." ++ (if rest.isEmpty then "0" else spell rest)
  else
    let mantissa := match ds with
      | [] => "0"
      | [d] => spell [d]
      | d :: more => spell [d] ++ "." ++ spell more
    let sign := if lead < 0 then "-" else "+"
    mantissa ++ "e" ++ sign ++ toString lead.natAbs

/-- The text of a double. -/
def Real.text (style : Style) : Real → String
  | .nan => "NaN"
  | .infinite negative => (if negative then "-" else "") ++ "inf"
  | .zero negative => (if negative then "-" else "") ++ "0.0"
  | .finite negative size => (if negative then "-" else "") ++ (size.shortest style.tie).text style

end BusClient.Decimal
