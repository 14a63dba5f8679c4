import BusClient.Json.Fault
import BusClient.Json.Number
import BusClient.Text.Found

/-!
# The smallest parts of a document

A reader looks at the front of a text and either says what it found and what is left, or names
the fault. This module reads the parts that have no parts: blanks, fixed words,
numbers and strings.
-/

namespace BusClient.Json

/-- Reads a value at the front of a text. -/
abbrev Reader (α : Type) := (text : Bytes) → Except Fault (Found α text)

/-! ## Blanks and words -/

/-- Space, tab, line feed and carriage return may stand between the parts. -/
def isBlank (b : UInt8) : Bool := b == 0x20 || b == 0x09 || b == 0x0a || b == 0x0d

/-- Passes over the blanks at the front. -/
def skipBlanks (text : Bytes) : Maybe Unit text := skipWhile isBlank text

/-- Reads the given bytes; the byte that differs is passed over before the fault is named. -/
def readWord : (word text : Bytes) → Except Fault (Maybe Unit text)
  | [], _ => .ok (.nothing ())
  | _ :: _, [] => .error (.before .endInValue [])
  | c :: word, b :: text =>
    if b = c then
      match readWord word text with
      | .error fault => .error fault
      | .ok maybe => .ok maybe.behind.toMaybe
    else
      .error (.before .expectedWord text)

/-! ## Numbers -/

/-- The digits at the front. -/
def takeDigits (text : Bytes) : Maybe (List Digit) text :=
  (takeWhile Digit.isByte text).map (List.map Digit.ofByte)

/-- The digits before the point: a zero stands alone. -/
def readWhole : Reader Nat
  | [] => .error (.before .endInValue [])
  | b :: text =>
    if b = 0x30 then
      match text with
      | [] => .ok (.single 0)
      | c :: more =>
        if Digit.isByte c then .error (.about .invalidNumber (c :: more)) else .ok (.single 0)
    else if Digit.isByte b then
      .ok (((takeDigits text).map fun ds => Decimal.value (Digit.ofByte b :: ds)).behind)
    else
      .error (.before .invalidNumber text)

/-- The digits after a point, if there is one: at least one digit must follow it. -/
def readFraction : (text : Bytes) → Except Fault (Maybe (List Digit) text)
  | [] => .ok (.nothing [])
  | b :: text =>
    if b = 0x2e then
      match takeDigits text with
      | ⟨[], [], _⟩ => .error (.about .endInValue [])
      | ⟨[], c :: rest, _⟩ => .error (.about .invalidNumber (c :: rest))
      | digits => .ok digits.behind.toMaybe
    else
      .ok (.nothing [])

/-- The sign of an exponent: a missing one means plus. -/
def readExponentSign : (text : Bytes) → Maybe Bool text
  | [] => .nothing false
  | b :: _ =>
    if b = 0x2b then (Found.single false).toMaybe
    else if b = 0x2d then (Found.single true).toMaybe
    else .nothing false

/-- The exponent, if there is one. -/
def readExponent : (text : Bytes) → Except Fault (Maybe (Option Exponent) text)
  | [] => .ok (.nothing none)
  | b :: text =>
    if b = 0x65 || b = 0x45 then
      match readExponentSign text with
      | ⟨_, [], _⟩ => .error (.before .endInValue [])
      | ⟨negative, c :: text', h⟩ =>
        if Digit.isByte c then
          let exponent := (takeDigits text').map fun ds => some ⟨negative, Digit.ofByte c, ds⟩
          .ok ((exponent.beyond h).behind.toMaybe)
        else
          .error (.before .invalidNumber text')
    else
      .ok (.nothing none)

/-- Reads a number whose sign has been read. -/
def readNumber (negative : Bool) : Reader Number := fun text =>
  match readWhole text with
  | .error fault => .error fault
  | .ok ⟨whole, rest₁, h₁⟩ =>
    match readFraction rest₁ with
    | .error fault => .error fault
    | .ok ⟨fraction, rest₂, h₂⟩ =>
      match readExponent rest₂ with
      | .error fault => .error fault
      | .ok exponent =>
        let number := exponent.map fun e => ⟨negative, whole, fraction, e⟩
        .ok ((number.inLonger h₂).beyond h₁)

/-! ## Strings -/

/-- The value of a hexadecimal digit. -/
def hexDigit? (b : UInt8) : Option Nat :=
  if Digit.isByte b then some (b.toNat - 0x30)
  else if 0x61 ≤ b && b ≤ 0x66 then some (b.toNat - 0x61 + 10)
  else if 0x41 ≤ b && b ≤ 0x46 then some (b.toNat - 0x41 + 10)
  else none

/-- Reads four hexadecimal digits; all four places are passed over before a wrong one is named. -/
def readHex : Reader Nat
  | a :: b :: c :: d :: rest =>
    match hexDigit? a, hexDigit? b, hexDigit? c, hexDigit? d with
    | some w, some x, some y, some z =>
      .ok ⟨((w * 16 + x) * 16 + y) * 16 + z, rest, by simp only [List.length_cons]; omega⟩
    | _, _, _, _ => .error (.before .invalidEscape rest)
  | _ => .error (.before .endInString [])

/-- Code units that open a pair. -/
def isHighSurrogate (n : Nat) : Bool := 0xd800 ≤ n && n ≤ 0xdbff

/-- Code units that close a pair. -/
def isLowSurrogate (n : Nat) : Bool := 0xdc00 ≤ n && n ≤ 0xdfff

/-- Reads the code unit that must follow the first one of a pair. -/
def readLowSurrogate : Reader Nat
  | [] => .error (.before .endInString [])
  | b :: text =>
    if b = 0x5c then
      match text with
      | [] => .error (.before .endInString [])
      | c :: text' =>
        if c = 0x75 then
          match readHex text' with
          | .error fault => .error fault
          | .ok low =>
            if isLowSurrogate low.value then .ok low.behind.behind
            else .error (.before .loneSurrogate low.rest)
        else
          .error (.before .unpairedSurrogate text')
    else
      .error (.before .unpairedSurrogate text)

/-- Reads the code point that follows `\u`. -/
def readCodePoint : Reader Char := fun text =>
  match readHex text with
  | .error fault => .error fault
  | .ok ⟨unit, rest, h⟩ =>
    if isLowSurrogate unit then
      .error (.before .loneSurrogate rest)
    else if isHighSurrogate unit then
      match readLowSurrogate rest with
      | .error fault => .error fault
      | .ok low =>
        let pair := low.map fun low =>
          Char.ofNat (0x10000 + (unit - 0xd800) * 0x400 + (low - 0xdc00))
        .ok (pair.beyond h)
    else
      .ok ⟨Char.ofNat unit, rest, h⟩

/-- The character that a single letter after a backslash stands for. -/
def escapeLetter? (b : UInt8) : Option UInt8 :=
  if b = 0x22 then some 0x22
  else if b = 0x5c then some 0x5c
  else if b = 0x2f then some 0x2f
  else if b = 0x62 then some 0x08
  else if b = 0x66 then some 0x0c
  else if b = 0x6e then some 0x0a
  else if b = 0x72 then some 0x0d
  else if b = 0x74 then some 0x09
  else none

/-- Reads what follows a backslash, as the bytes that it stands for. -/
def readEscape : Reader Bytes
  | [] => .error (.before .endInString [])
  | b :: text =>
    match escapeLetter? b with
    | some c => .ok (.single [c])
    | none =>
      if b = 0x75 then
        match readCodePoint text with
        | .error fault => .error fault
        | .ok c => .ok (c.map String.utf8EncodeChar).behind
      else
        .error (.before .invalidEscape text)

/-- Appends bytes one by one. -/
def pushAll (done : ByteArray) (bytes : Bytes) : ByteArray := bytes.foldl ByteArray.push done

/-- Reads a string up to its closing quote and undoes the escapes. -/
def readStringBytes (whole : Bytes) (done : ByteArray) :
    (text : Bytes) → text.length ≤ whole.length → Except Fault (Found ByteArray whole)
  | [], _ => .error (.before .endInString [])
  | b :: text, h =>
    if b = 0x22 then
      .ok ⟨done, text, h⟩
    else if b = 0x5c then
      match readEscape text with
      | .error fault => .error fault
      | .ok ⟨bytes, rest, hr⟩ =>
        readStringBytes whole (pushAll done bytes) rest
          (Nat.le_trans (Nat.le_of_lt hr) (Nat.le_of_succ_le h))
    else if b < 0x20 then
      .error (.before .controlCharacter text)
    else
      readStringBytes whole (done.push b) text (Nat.le_of_succ_le h)
termination_by text => text.length
decreasing_by
  all_goals simp only [List.length_cons]; omega

/-- Bytes that continue a character of several bytes. -/
def isContinuation (b : UInt8) : Bool := 0x80 ≤ b && b ≤ 0xbf

/-- What is left after a well-formed character in UTF-8. -/
def dropCharacter? : Bytes → Option Bytes
  | [] => none
  | a :: rest =>
    if a < 0x80 then some rest
    else
      match rest with
      | [] => none
      | b :: rest =>
        if 0xc2 ≤ a && a ≤ 0xdf then
          if isContinuation b then some rest else none
        else
          match rest with
          | [] => none
          | c :: rest =>
            if 0xe0 ≤ a && a ≤ 0xef then
              if isContinuation b && isContinuation c && (a != 0xe0 || 0xa0 ≤ b) &&
                  (a != 0xed || b ≤ 0x9f) then
                some rest
              else none
            else
              match rest with
              | [] => none
              | d :: rest =>
                if 0xf0 ≤ a && a ≤ 0xf4 && isContinuation b && isContinuation c &&
                    isContinuation d && (a != 0xf0 || 0x90 ≤ b) && (a != 0xf4 || b ≤ 0x8f) then
                  some rest
                else none

/-- What is left from the first byte on that starts no well-formed character, among the first
`fuel` characters. -/
def fromIllFormed : (fuel : Nat) → Bytes → Bytes
  | 0, text => text
  | fuel + 1, text =>
    match dropCharacter? text with
    | some rest => fromIllFormed fuel rest
    | none => text

/-- Reads a string whose opening quote has been read. That the bytes it stands for are not UTF-8
is noticed behind the closing quote; the fault is placed as far in front of that as there are such
bytes from the first ill-formed one on. -/
def readString : Reader String := fun text =>
  match readStringBytes text ByteArray.empty text (length_le_self text) with
  | .error fault => .error fault
  | .ok ⟨bytes, rest, h⟩ =>
    match String.fromUTF8? bytes with
    | some string => .ok ⟨string, rest, h⟩
    | none =>
      let decoded := bytes.data.toList
      let illFormed := fromIllFormed decoded.length decoded
      .error ⟨.invalidCodePoint, .before (illFormed.length + rest.length)⟩

end BusClient.Json
