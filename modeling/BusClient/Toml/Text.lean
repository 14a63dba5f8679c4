import BusClient.Toml.Scan

/-!
# Quoted texts

A text stands between double quotes, with escapes, or between single quotes, as it is. Three
quotes open a text that may run over several lines: a line end right after them does not count,
each line end inside counts as a line feed, and one or two quotes may stand in front of the
closing three.
-/

namespace BusClient.Toml

/-- The value of a hexadecimal digit. -/
def hexValue? (c : Char) : Option Nat :=
  if '0' ≤ c ∧ c ≤ '9' then some (c.toNat - 48)
  else if 'a' ≤ c ∧ c ≤ 'f' then some (c.toNat - 87)
  else if 'A' ≤ c ∧ c ≤ 'F' then some (c.toNat - 55)
  else none

/-- Reads exactly so many hexadecimal digits. -/
def readHex (value : Nat) : (count : Nat) → Passer Nat
  | 0, _ => some (.nothing value)
  | _ + 1, [] => none
  | count + 1, c :: text =>
    match hexValue? c with
    | none => none
    | some d =>
      match readHex (value * 16 + d) count text with
      | none => none
      | some n => some n.behind.toMaybe

/-- The character with a code point, if it is one. -/
def char? (n : Nat) : Option Char := if n.isValidChar then some (Char.ofNat n) else none

/-- Reads a character given by so many hexadecimal digits. -/
def readCodePoint (count : Nat) : Passer Char := fun text =>
  match readHex 0 count text with
  | none => none
  | some ⟨n, rest, h⟩ =>
    match char? n with
    | none => none
    | some c => some ⟨c, rest, h⟩

/-- The character that a single letter after a backslash stands for. -/
def escapeLetter? (c : Char) : Option Char :=
  match c with
  | 'b' => some '\x08'
  | 't' => some '\t'
  | 'n' => some '\n'
  | 'f' => some '\x0c'
  | 'r' => some '\r'
  | '"' => some '"'
  | '\\' => some '\\'
  | _ => none

/-- Reads what follows a backslash. -/
def readEscape : Reader Char
  | [] => none
  | c :: text =>
    match escapeLetter? c with
    | some d => some (.single d)
    | none =>
      let count := if c = 'u' then 4 else 8
      if c = 'u' ∨ c = 'U' then
        match readCodePoint count text with
        | none => none
        | some d => some d.behind
      else none

/-- Reads a text on one line up to its closing quote; `escapes` says whether a backslash is
special. -/
def readLine (whole : List Char) (quote : Char) (escapes : Bool) (done : String) :
    (text : List Char) → text.length ≤ whole.length → Option (Found String whole)
  | [], _ => none
  | c :: text, h =>
    if c = quote then some ⟨done, text, h⟩
    else if escapes && c == '\\' then
      match readEscape text with
      | none => none
      | some ⟨d, rest, hr⟩ =>
        readLine whole quote escapes (done.push d) rest
          (Nat.le_trans (Nat.le_of_lt hr) (Nat.le_of_succ_le h))
    else if isPlain c then
      readLine whole quote escapes (done.push c) text (Nat.le_of_succ_le h)
    else none
termination_by text => text.length
decreasing_by
  all_goals simp only [List.length_cons]; omega

/-- Blanks and line ends, which a backslash at the end of a line passes over. -/
def skipBreak (text : List Char) : Maybe Unit text :=
  match skipBlanks text with
  | ⟨_, rest₁, h₁⟩ =>
    match readNewline rest₁ with
    | none => ⟨(), rest₁, h₁⟩
    | some ⟨_, rest₂, h₂⟩ => (((skipBreak rest₂).beyond h₂).inLonger h₁).toMaybe
termination_by text.length
decreasing_by exact Nat.lt_of_lt_of_le h₂ h₁

/-- Reads what follows a backslash in a text of several lines: nothing, where only blanks stand
between the backslash and the end of its line. -/
def readLongEscape : Reader (Option Char) := fun text =>
  match skipBlanks text with
  | ⟨_, rest₁, h₁⟩ =>
    match readNewline rest₁ with
    | some ⟨_, rest₂, h₂⟩ =>
      some ((((skipBreak rest₂).map fun _ => none).beyond h₂).inLonger h₁)
    | none =>
      match readEscape text with
      | none => none
      | some found => some (found.map some)

/-- What is left after three closing quotes, and how many quotes in front of them belong to the
text: at most two. -/
def closing? (quote : Char) (text : List Char) : Option (Nat × List Char) :=
  let run := (text.takeWhile (· == quote)).length
  if run < 3 then none
  else
    let extra := min (run - 3) 2
    some (extra, text.drop (extra + 3))

theorem closing?_shorter {quote : Char} {text rest : List Char} {extra : Nat}
    (h : closing? quote text = some (extra, rest)) : rest.length < text.length := by
  simp only [closing?] at h
  split at h
  · exact absurd h (by simp)
  · rename_i hrun
    simp only [Option.some.injEq, Prod.mk.injEq] at h
    have hle : (text.takeWhile (· == quote)).length ≤ text.length :=
      (List.takeWhile_sublist _).length_le
    rw [← h.2, List.length_drop]
    omega

/-- Reads a text of several lines up to its three closing quotes. -/
def readLong (whole : List Char) (quote : Char) (escapes : Bool) (done : String)
    (text : List Char) (h : text.length ≤ whole.length) : Option (Found String whole) :=
  match hc : closing? quote text with
  | some (extra, rest) =>
    some ⟨extra.repeat (·.push quote) done, rest,
      Nat.lt_of_lt_of_le (closing?_shorter hc) h⟩
  | none =>
    match readNewline text with
    | some ⟨_, rest, hr⟩ =>
      readLong whole quote escapes (done.push '\n') rest
        (Nat.le_trans (Nat.le_of_lt hr) h)
    | none =>
      match text with
      | [] => none
      | c :: more =>
        if escapes && c == '\\' then
          match readLongEscape more with
          | none => none
          | some ⟨d, rest, hr⟩ =>
            readLong whole quote escapes (d.elim done done.push) rest
              (Nat.le_trans (Nat.le_of_lt hr) (Nat.le_of_succ_le h))
        else if isPlain c then
          readLong whole quote escapes (done.push c) more (Nat.le_of_succ_le h)
        else none
termination_by text.length
decreasing_by
  · exact hr
  · simp only [List.length_cons]; omega
  · simp only [List.length_cons]; omega

/-- Passes over a line end at the front, if there is one. -/
def skipNewline (text : List Char) : Maybe Unit text :=
  match readNewline text with
  | none => .nothing ()
  | some newline => newline.toMaybe

/-- Only double quotes give a meaning to a backslash. -/
def hasEscapes (quote : Char) : Bool := quote == '"'

/-- A text on one line whose opening quote has been read. -/
def readShortText (quote : Char) : Reader String := fun text =>
  readLine text quote (hasEscapes quote) "" text (length_le_self text)

/-- A text whose opening quote has been read; two more quotes open a text of several lines. -/
def readText (quote : Char) : Reader String := fun text =>
  match text with
  | a :: b :: rest =>
    if a = quote ∧ b = quote then
      match skipNewline rest with
      | ⟨_, rest', h⟩ =>
        match readLong rest' quote (hasEscapes quote) "" rest' (length_le_self rest') with
        | none => none
        | some found => some (found.inLonger h).behind.behind
    else readShortText quote (a :: b :: rest)
  | text => readShortText quote text

end BusClient.Toml
