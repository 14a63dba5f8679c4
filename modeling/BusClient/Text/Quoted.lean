import BusClient.Text.Hidden

/-!
# Quoted texts in messages

A text that a message quotes stands between double quotes. A quote and a backslash are escaped,
and so is every character that would not show: the usual ones by a letter, the others by their
code point.
-/

namespace BusClient.Quoted

/-- The lower-case hexadecimal digits of a number, without leading zeros. -/
def hex (n : Nat) : String := String.ofList (Nat.toDigits 16 n)

/-- The text of one character between the quotes. -/
def escape (c : Char) : String :=
  match c with
  | '"' => "\\\""
  | '\\' => "\\\\"
  | '\t' => "\\t"
  | '\n' => "\\n"
  | '\r' => "\\r"
  | '\x00' => "\\0"
  | c => if Hidden.isHidden c then "\\u\x7b" ++ hex c.toNat ++ "\x7d" else c.toString

/-- A text between quotes. -/
def quote (text : String) : String :=
  "\"" ++ String.join (text.toList.map escape) ++ "\""

end BusClient.Quoted
