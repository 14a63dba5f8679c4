import BusClient.Decimal.Nearest
import BusClient.Toml.Text

/-!
# Integers and floats

A number is told by all its characters together. Integers are decimal, with an optional sign, or
hexadecimal, octal or binary without one, and fit sixty-four bits with a sign. Floats have a
fraction, an exponent or both. A single underscore may stand between two digits.
-/

namespace BusClient.Toml

/-- The value of a digit in a base up to sixteen. -/
def digitIn? (base : Nat) (c : Char) : Option Nat :=
  match hexValue? c with
  | some d => if d < base then some d else none
  | none => none

/-- The values of one or more digits, with single underscores between them. -/
def digitsIn? (base : Nat) : List Char → Option (List Nat)
  | [] => none
  | [c] => (digitIn? base c).map ([·])
  | c :: '_' :: rest => do
    let d ← digitIn? base c
    let ds ← digitsIn? base rest
    some (d :: ds)
  | c :: rest => do
    let d ← digitIn? base c
    let ds ← digitsIn? base rest
    some (d :: ds)

/-- The number that digits write. -/
def valueIn (base : Nat) (ds : List Nat) : Nat := ds.foldl (fun n d => n * base + d) 0

/-- Whether a sign is a minus, and what follows it. -/
def splitSign : List Char → Bool × List Char
  | '+' :: rest => (false, rest)
  | '-' :: rest => (true, rest)
  | token => (false, token)

/-- Decimal digits without a superfluous zero in front. -/
def wholeDigits? (token : List Char) : Option (List Nat) :=
  match digitsIn? 10 token with
  | some (0 :: _ :: _) => none
  | ds => ds

/-- An integer that fits sixty-four bits with a sign. -/
def inRange? (n : Int) : Option Int :=
  if Int64.minValue.toInt ≤ n ∧ n ≤ Int64.maxValue.toInt then some n else none

/-- The integer that a token writes. -/
def integer? (token : List Char) : Option Int :=
  let unsigned (base : Nat) (digits : List Char) : Option Int :=
    (digitsIn? base digits).bind fun ds => inRange? (valueIn base ds)
  match token with
  | '0' :: 'x' :: digits => unsigned 16 digits
  | '0' :: 'o' :: digits => unsigned 8 digits
  | '0' :: 'b' :: digits => unsigned 2 digits
  | token =>
    match splitSign token with
    | (negative, digits) =>
      (wholeDigits? digits).bind fun ds =>
        let n : Int := valueIn 10 ds
        inRange? (if negative then -n else n)

/-- The characters of decimal digits. -/
def isDigitOrUnderscore (c : Char) : Bool := c.isDigit || c == '_'

/-- The exponent that the end of a token writes; an empty end means zero. -/
def exponent? : List Char → Option Int
  | [] => some 0
  | c :: rest =>
    if c = 'e' ∨ c = 'E' then
      match splitSign rest with
      | (negative, digits) =>
        (digitsIn? 10 digits).map fun ds =>
          let n : Int := valueIn 10 ds
          if negative then -n else n
    else none

/-- The decimal that a token without a sign writes, if it has a fraction or an exponent: its
digits as one number, and the power of ten that they are scaled by. -/
def decimal? (token : List Char) : Option (Nat × Int) := do
  let whole ← wholeDigits? (token.takeWhile isDigitOrUnderscore)
  match token.dropWhile isDigitOrUnderscore with
  | [] => none
  | '.' :: rest =>
    let fraction ← digitsIn? 10 (rest.takeWhile isDigitOrUnderscore)
    let exponent ← exponent? (rest.dropWhile isDigitOrUnderscore)
    some (valueIn 10 (whole ++ fraction), exponent - fraction.length)
  | rest =>
    let exponent ← exponent? rest
    some (valueIn 10 whole, exponent)

/-- The float that a token writes. A positive number that is too large is refused. -/
def float? (token : List Char) : Option Decimal.Real :=
  match splitSign token with
  | (negative, body) =>
    if body = ['i', 'n', 'f'] then some (.infinite negative)
    else if body = ['n', 'a', 'n'] then some .nan
    else
      match decimal? body with
      | none => none
      | some (coefficient, exponent) =>
        let x := Decimal.Real.ofDecimal negative coefficient exponent
        if x = .infinite false then none else some x

end BusClient.Toml
