import BusClient.Text.Found

/-!
# Blanks, comments and line ends

A reader of a configuration text either finds what it looks for at the front of the text or finds
nothing; why a text is not well formed is not said.
-/

namespace BusClient.Toml

/-- Reads a value at the front of a text. -/
abbrev Reader (α : Type) := (text : List Char) → Option (Found α text)

/-- Reads something that may be empty at the front of a text. -/
abbrev Passer (α : Type) := (text : List Char) → Option (Maybe α text)

/-- Space and tab separate the parts of a line. -/
def isBlank (c : Char) : Bool := c == ' ' || c == '\t'

/-- All but control characters may stand in comments and between quotes; a tab may, too. -/
def isPlain (c : Char) : Bool := c == '\t' || (0x20 ≤ c.val && c.val != 0x7f)

/-- Passes over blanks. -/
def skipBlanks (text : List Char) : Maybe Unit text := skipWhile isBlank text

/-- A line ends in a line feed, perhaps with a carriage return in front. -/
def readNewline : Reader Unit
  | '\n' :: _ => some (.single ())
  | '\r' :: '\n' :: _ => some (Found.single ()).behind
  | _ => none

/-- Passes over a comment, if there is one, up to the end of its line. -/
def skipComment (text : List Char) : Maybe Unit text :=
  match text with
  | '#' :: rest => (skipWhile isPlain rest).behind.toMaybe
  | _ => .nothing ()

/-- Passes over the rest of a line that holds nothing more than blanks and a comment; the last
line may end with the text. -/
def readLineEnd : Passer Unit := fun text =>
  match skipBlanks text with
  | ⟨_, rest₁, h₁⟩ =>
    match skipComment rest₁ with
    | ⟨_, [], _⟩ => some ⟨(), [], Nat.zero_le _⟩
    | ⟨_, c :: rest₂, h₂⟩ =>
      match readNewline (c :: rest₂) with
      | none => none
      | some newline => some ((newline.inLonger h₂).inLonger h₁).toMaybe

/-- Passes over blanks, comments and line ends, which may stand between the items of a list. -/
def skipLines (text : List Char) : Maybe Unit text :=
  match skipBlanks text with
  | ⟨_, rest₁, h₁⟩ =>
    match skipComment rest₁ with
    | ⟨_, rest₂, h₂⟩ =>
      match readNewline rest₂ with
      | none => Maybe.inLonger ⟨(), rest₂, h₂⟩ h₁
      | some ⟨_, rest₃, h₃⟩ =>
        ((((skipLines rest₃).beyond h₃).inLonger h₂).inLonger h₁).toMaybe
termination_by text.length
decreasing_by exact Nat.lt_of_lt_of_le h₃ (Nat.le_trans h₂ h₁)

end BusClient.Toml
