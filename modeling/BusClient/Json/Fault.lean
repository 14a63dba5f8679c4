import BusClient.Finding
import BusClient.Text.Bytes

/-!
# What can be wrong with a document

A fault is a cause and the site where it was noticed. While a text is read the site counts the
bytes that are still to come, so that a reader need not know where it started;
`Fault.locate` turns it into a line and a column of the whole text.
-/

namespace BusClient.Json

/-- Why a text is not the document that was wanted. -/
inductive Cause
  | endInList
  | endInObject
  | endInString
  | endInValue
  | expectedColon
  | expectedListSeparator
  | expectedObjectSeparator
  | expectedWord
  | expectedValue
  | invalidEscape
  | invalidNumber
  | numberOutOfRange
  | invalidCodePoint
  | controlCharacter
  | nameNotString
  | loneSurrogate
  | unpairedSurrogate
  | trailingComma
  | trailingCharacters
  | tooDeep
  | wrongType (found : Finding) (wanted : String)
  | wrongValue (found : Finding) (wanted : String)
  | wrongLength (length : Nat) (wanted : String)
  | unknownVariant (name : String) (wanted : String)
  | missingField (name : String)
  | duplicateField (name : String)
  deriving DecidableEq, Repr

/-- The words for a cause. -/
def Cause.words : Cause → String
  | endInList => "EOF while parsing a list"
  | endInObject => "EOF while parsing an object"
  | endInString => "EOF while parsing a string"
  | endInValue => "EOF while parsing a value"
  | expectedColon => "expected `:`"
  | expectedListSeparator => "expected `,` or `]`"
  | expectedObjectSeparator => "expected `,` or `\x7d`"
  | expectedWord => "expected ident"
  | expectedValue => "expected value"
  | invalidEscape => "invalid escape"
  | invalidNumber => "invalid number"
  | numberOutOfRange => "number out of range"
  | invalidCodePoint => "invalid unicode code point"
  | controlCharacter => "control character (\\u0000-\\u001F) found while parsing a string"
  | nameNotString => "key must be a string"
  | loneSurrogate => "lone leading surrogate in hex escape"
  | unpairedSurrogate => "unexpected end of hex escape"
  | trailingComma => "trailing comma"
  | trailingCharacters => "trailing characters"
  | tooDeep => "recursion limit exceeded"
  | wrongType found wanted => "invalid type: " ++ found.words ++ ", expected " ++ wanted
  | wrongValue found wanted => "invalid value: " ++ found.words ++ ", expected " ++ wanted
  | wrongLength length wanted =>
    "invalid length " ++ toString length ++ ", expected " ++ wanted
  | unknownVariant name wanted => "unknown variant `" ++ name ++ "`, expected " ++ wanted
  | missingField name => "missing field `" ++ name ++ "`"
  | duplicateField name => "duplicate field `" ++ name ++ "`"

/-- Where a fault was noticed. -/
inductive Site
  /-- In front of so many bytes that were still to come. -/
  | before (left : Nat)
  /-- At the first of so many bytes that were still to come, or at the end if there was none. -/
  | about (left : Nat)
  /-- At a place of another text that the document contains. -/
  | inner (place : Bytes.Place)
  /-- Nowhere in particular. -/
  | unknown
  deriving DecidableEq, Repr

/-- A fault that stopped the reading of a text. -/
structure Fault where
  cause : Cause
  site : Site
  deriving DecidableEq, Repr

namespace Fault

/-- A fault noticed in front of the bytes to come: what is wrong has been read. -/
def before (cause : Cause) (rest : Bytes) : Fault := ⟨cause, .before rest.length⟩

/-- A fault about the next byte, which has not been read. -/
def about (cause : Cause) (rest : Bytes) : Fault := ⟨cause, .about rest.length⟩

end Fault

/-- What is wrong with a whole text, and at which place of it. -/
structure Defect where
  cause : Cause
  place : Option Bytes.Place
  deriving DecidableEq, Repr

/-- The place of a site in the whole text: that of the next byte is behind that byte. -/
def Site.place? (text : Bytes) : Site → Option Bytes.Place
  | before left => some (text.placeBefore left)
  | about left => some (text.placeBefore (left - 1))
  | inner place => some place
  | unknown => none

/-- The place of a fault in the whole text. -/
def Fault.locate (text : Bytes) (fault : Fault) : Defect :=
  ⟨fault.cause, fault.site.place? text⟩

/-- The message for a defect. -/
def Defect.message (defect : Defect) : String :=
  defect.cause.words ++
    match defect.place with
    | none => ""
    | some place => " at line " ++ toString place.line ++ " column " ++ toString place.column

end BusClient.Json
