import BusClient.Toml.Value

/-!
# Dates and times

A moment is a day, a time of day, or both, and a moment with both may have an offset. Its normal
text has a capital `T` between the two, a capital `Z` for no offset by name, and no more digits
of a second than needed, nine at most.
-/

namespace BusClient.Toml

/-- The value of a decimal digit. -/
def decimalDigit? (c : Char) : Option Nat := if c.isDigit then some (c.toNat - 48) else none

/-- A number of two digits. -/
def twoDigits? (a b : Char) : Option Nat := do
  let x ← decimalDigit? a
  let y ← decimalDigit? b
  some (10 * x + y)

/-- Years with a twenty-ninth of February. -/
def isLeapYear (year : Nat) : Bool := year % 4 == 0 && (year % 100 != 0 || year % 400 == 0)

/-- The number of days of a month. -/
def daysIn (year month : Nat) : Nat :=
  if month = 2 then (if isLeapYear year then 29 else 28)
  else if month ∈ [4, 6, 9, 11] then 30
  else 31

/-- The day at the front of a token, as text, and the rest. -/
def splitDate? : List Char → Option (List Char × List Char)
  | a :: b :: c :: d :: '-' :: e :: f :: '-' :: g :: h :: rest => do
    let century ← twoDigits? a b
    let year ← twoDigits? c d
    let month ← twoDigits? e f
    let day ← twoDigits? g h
    if 1 ≤ month ∧ month ≤ 12 ∧ 1 ≤ day ∧ day ≤ daysIn (100 * century + year) month then
      some ([a, b, c, d, '-', e, f, '-', g, h], rest)
    else none
  | _ => none

/-- The text of a fraction of a second: nine digits at most, without zeros at the end. -/
def fractionText (digits : List Char) : List Char :=
  match ((digits.take 9).reverse.dropWhile (· == '0')).reverse with
  | [] => []
  | ds => '.' :: ds

/-- The time of day at the front of a token, as text, and the rest. -/
def splitTime? : List Char → Option (List Char × List Char)
  | a :: b :: ':' :: c :: d :: ':' :: e :: f :: rest => do
    let hour ← twoDigits? a b
    let minute ← twoDigits? c d
    let second ← twoDigits? e f
    if hour ≤ 23 ∧ minute ≤ 59 ∧ second ≤ 60 then
      let whole := [a, b, ':', c, d, ':', e, f]
      match rest with
      | '.' :: more =>
        let digits := more.takeWhile Char.isDigit
        if digits = [] then none
        else some (whole ++ fractionText digits, more.dropWhile Char.isDigit)
      | rest => some (whole, rest)
    else none
  | _ => none

/-- The text of an offset. No offset at all may be given; a zero offset has a plus sign. -/
def offset? : List Char → Option (List Char)
  | [] => some []
  | ['Z'] => some ['Z']
  | ['z'] => some ['Z']
  | [sign, a, b, ':', c, d] => do
    let hour ← twoDigits? a b
    let minute ← twoDigits? c d
    if (sign = '+' ∨ sign = '-') ∧ hour ≤ 23 ∧ minute ≤ 59 then
      some [if hour = 0 ∧ minute = 0 then '+' else sign, a, b, ':', c, d]
    else none
  | _ => none

/-- Characters that may stand between a day and a time of day. -/
def isDelimiter (c : Char) : Bool := c == 'T' || c == 't' || c == ' '

/-- The moment that a token writes. -/
def moment? (token : List Char) : Option Moment :=
  match splitDate? token with
  | some (date, []) => some ⟨String.ofList date⟩
  | some (date, c :: rest) =>
    if isDelimiter c then do
      let (time, rest) ← splitTime? rest
      let offset ← offset? rest
      some ⟨String.ofList (date ++ 'T' :: time ++ offset)⟩
    else none
  | none =>
    match splitTime? token with
    | some (time, []) => some ⟨String.ofList time⟩
    | _ => none

end BusClient.Toml
