import BusClient.Json.Value

/-!
# Writing documents

A document is written on one line without blanks, or indented by two spaces a level with one
item or member a line. Both forms append to what has been written, and a number is written as it
is spelled.
-/

namespace BusClient.Json

/-- The lower-case hexadecimal digit of a number below sixteen. -/
def hexChar (n : Nat) : Char := Nat.digitChar n

/-- Appends one character of a string: quotes, backslashes and control characters are escaped. -/
def writeChar (out : String) (c : Char) : String :=
  match c with
  | '"' => (out.push '\\').push '"'
  | '\\' => (out.push '\\').push '\\'
  | '\x08' => (out.push '\\').push 'b'
  | '\x0c' => (out.push '\\').push 'f'
  | '\n' => (out.push '\\').push 'n'
  | '\r' => (out.push '\\').push 'r'
  | '\t' => (out.push '\\').push 't'
  | c =>
    if c.val < 0x20 then
      (((out ++ "\\u00").push (hexChar (c.toNat / 16))).push (hexChar (c.toNat % 16)))
    else
      out.push c

/-- Appends the characters of a string. -/
def writeChars (out : String) : List Char → String
  | [] => out
  | c :: rest => writeChars (writeChar out c) rest

/-- Appends a string between quotes. -/
def writeString (out : String) (text : String) : String :=
  (writeChars (out.push '"') text.toList).push '"'

mutual

/-- Appends a value on one line. -/
def writeCompact (out : String) : Value → String
  | .null => out ++ "null"
  | .bool b => out ++ (if b then "true" else "false")
  | .number n => out ++ n.text
  | .string text => writeString out text
  | .array items => (writeCompactItems (out.push '[') items).push ']'
  | .object members => (writeCompactMembers (out.push '\x7b') members).push '\x7d'

/-- Appends the items of a list with commas between them. -/
def writeCompactItems (out : String) : List Value → String
  | [] => out
  | value :: rest => writeCompactTail (writeCompact out value) rest

/-- Appends the items that follow the first one, each after a comma. -/
def writeCompactTail (out : String) : List Value → String
  | [] => out
  | value :: rest => writeCompactTail (writeCompact (out.push ',') value) rest

/-- Appends the members of an object with commas between them. -/
def writeCompactMembers (out : String) : List (String × Value) → String
  | [] => out
  | (name, value) :: rest =>
    writeCompactMoreMembers (writeCompact ((writeString out name).push ':') value) rest

/-- Appends the members that follow the first one, each after a comma. -/
def writeCompactMoreMembers (out : String) : List (String × Value) → String
  | [] => out
  | (name, value) :: rest =>
    writeCompactMoreMembers
      (writeCompact ((writeString (out.push ',') name).push ':') value) rest

end

/-- Appends the line break and the indentation in front of a part at this level. -/
def writeBreak (out : String) : (level : Nat) → String
  | 0 => out.push '\n'
  | level + 1 => writeBreak out level ++ "  "

mutual

/-- Appends a value whose first line stands at this level. -/
def writeIndented (level : Nat) (out : String) : Value → String
  | .null => out ++ "null"
  | .bool b => out ++ (if b then "true" else "false")
  | .number n => out ++ n.text
  | .string text => writeString out text
  | .array [] => out ++ "[]"
  | .array (item :: rest) =>
    (writeBreak
      (writeIndentedTail (level + 1)
        (writeIndented (level + 1) (writeBreak (out.push '[') (level + 1)) item) rest)
      level).push ']'
  | .object [] => (out.push '\x7b').push '\x7d'
  | .object ((name, value) :: rest) =>
    (writeBreak
      (writeIndentedMembers (level + 1)
        (writeIndented (level + 1)
          (writeString (writeBreak (out.push '\x7b') (level + 1)) name ++ ": ") value) rest)
      level).push '\x7d'

/-- Appends the items that follow the first one, each after a comma and on a line of its own. -/
def writeIndentedTail (level : Nat) (out : String) : List Value → String
  | [] => out
  | value :: rest =>
    writeIndentedTail level (writeIndented level (writeBreak (out.push ',') level) value) rest

/-- Appends the members that follow the first one, each after a comma and on a line of its own. -/
def writeIndentedMembers (level : Nat) (out : String) : List (String × Value) → String
  | [] => out
  | (name, value) :: rest =>
    writeIndentedMembers level
      (writeIndented level
        (writeString (writeBreak (out.push ',') level) name ++ ": ") value) rest

end

/-- The text of a value on one line. -/
def Value.compact (value : Value) : String := writeCompact "" value

/-- The text of a value with one item or member a line. -/
def Value.indented (value : Value) : String := writeIndented 0 "" value

end BusClient.Json
