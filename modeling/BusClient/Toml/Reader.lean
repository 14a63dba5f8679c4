import BusClient.Toml.Moment
import BusClient.Toml.Number
import BusClient.Toml.Table

/-!
# Reading configuration texts

A text is a sequence of lines, each an assignment, a header, or empty up to a comment. Only the
items of a list may stand on lines of their own. How deep lists and tables nest as values is
bounded, and so is the length of a path.
-/

namespace BusClient.Toml

/-! ## Keys -/

/-- Characters of keys that need no quotes. -/
def isBare (c : Char) : Bool := c.isAlphanum || c == '_' || c == '-'

/-- The two quotes. -/
def isQuote (c : Char) : Bool := c == '"' || c == '\x27'

/-- Reads a single key. -/
def readKey : Reader Key
  | [] => none
  | c :: rest =>
    let mark := rest.length + 1
    if isQuote c then
      match readShortText c rest with
      | none => none
      | some name => some (name.map fun name => ⟨name, mark⟩).behind
    else if isBare c then
      some ((takeWhile isBare rest).map fun cs => ⟨String.ofList (c :: cs), mark⟩).behind
    else none

/-- The greatest number of keys in a path. -/
def maxKeys : Nat := 79

/-- Reads keys with dots between them; `done` holds the keys so far, the last one first. -/
def readKeys (whole : List Char) (done : List Key) (text : List Char)
    (h : text.length ≤ whole.length) : Option (Found Path whole) :=
  match skipBlanks text with
  | ⟨_, rest₁, h₁⟩ =>
    match readKey rest₁ with
    | none => none
    | some ⟨key, rest₂, h₂⟩ =>
      have shorter : rest₂.length < text.length := Nat.lt_of_lt_of_le h₂ h₁
      let path : Option Path :=
        if done.length < maxKeys then some ⟨done.reverse, key⟩ else none
      match skipBlanks rest₂ with
      | ⟨_, [], _⟩ =>
        path.map fun path => ⟨path, [], Nat.lt_of_le_of_lt (Nat.zero_le _)
          (Nat.lt_of_lt_of_le shorter h)⟩
      | ⟨_, c :: rest₃, h₃⟩ =>
        have le : rest₃.length < text.length := Nat.lt_trans (Nat.lt_of_succ_le h₃) shorter
        if c = '.' then
          readKeys whole (key :: done) rest₃ (Nat.le_trans (Nat.le_of_lt le) h)
        else
          path.map fun path =>
            ⟨path, c :: rest₃, Nat.lt_of_le_of_lt h₃ (Nat.lt_of_lt_of_le shorter h)⟩
termination_by text.length

/-- Reads a path. Blanks may stand around its keys. -/
def readPath : Reader Path := fun text => readKeys text [] text (length_le_self text)

/-! ## Values -/

/-- Characters of words, numbers and moments. -/
def isTokenChar (c : Char) : Bool :=
  c.isAlphanum || c == '_' || c == '-' || c == '+' || c == '.' || c == ':'

/-- Whether a token is a whole day. -/
def isDate (token : List Char) : Bool :=
  match splitDate? token with
  | some (_, []) => true
  | _ => false

/-- Reads the characters of a word, a number or a moment. A space may stand between a day and a
time of day. -/
def readToken : Reader (List Char)
  | [] => none
  | c :: text =>
    if isTokenChar c then
      match takeWhile isTokenChar text with
      | ⟨cs, ' ' :: d :: rest, h⟩ =>
        if isDate (c :: cs) && d.isDigit then
          let time := (takeWhile isTokenChar (d :: rest)).map fun ds => c :: cs ++ ' ' :: ds
          some (time.beyond h).behind
        else some (Maybe.behind ⟨c :: cs, ' ' :: d :: rest, h⟩)
      | found => some (found.map (c :: ·)).behind
    else none

/-- The value that a token writes. -/
def tokenValue? (token : List Char) : Option Value :=
  if token = ['t', 'r', 'u', 'e'] then some (.boolean true)
  else if token = ['f', 'a', 'l', 's', 'e'] then some (.boolean false)
  else
    match moment? token with
    | some m => some (.moment m)
    | none =>
      match float? token with
      | some x => some (.float x)
      | none => (integer? token).map .integer

/-- Reads the items of a list up to its closing bracket; a comma may follow the last one. `done`
holds the items so far, the last one first. -/
def readItems (value : Reader Value) (whole : List Char) (done : Items) (text : List Char)
    (h : text.length ≤ whole.length) : Option (Found Items whole) :=
  match skipLines text with
  | ⟨_, [], _⟩ => none
  | ⟨_, c :: rest₁, h₁⟩ =>
    if c = ']' then some ⟨done.reverse, rest₁, Nat.lt_of_lt_of_le h₁ h⟩
    else
      match value (c :: rest₁) with
      | none => none
      | some ⟨v, rest₂, h₂⟩ =>
        have shorter : rest₂.length < text.length := Nat.lt_of_lt_of_le h₂ h₁
        match skipLines rest₂ with
        | ⟨_, [], _⟩ => none
        | ⟨_, d :: rest₃, h₃⟩ =>
          have le : rest₃.length < text.length :=
            Nat.lt_trans (Nat.lt_of_succ_le h₃) shorter
          let done := (rest₁.length + 1, v) :: done
          if d = ']' then some ⟨done.reverse, rest₃, Nat.lt_of_lt_of_le le h⟩
          else if d = ',' then
            readItems value whole done rest₃ (Nat.le_trans (Nat.le_of_lt le) h)
          else none
termination_by text.length

/-- Reads a path, an equals sign and a value. -/
def readAssignment (value : Reader Value) : Reader Assignment := fun text =>
  match readPath text with
  | some ⟨path, '=' :: rest₁, h₁⟩ =>
    match skipBlanks rest₁ with
    | ⟨_, rest₂, h₂⟩ =>
      match value rest₂ with
      | none => none
      | some found =>
        let assignment := found.map fun v => ⟨path, rest₂.length, v⟩
        some ((assignment.inLonger h₂).behind.beyond h₁)
  | _ => none

/-- Reads the assignments of a table that is written as a value up to its closing brace; `done`
holds those so far, the last one first. -/
def readAssignments (value : Reader Value) (whole : List Char) (done : List Assignment)
    (text : List Char) (h : text.length ≤ whole.length) :
    Option (Found (List Assignment) whole) :=
  match readAssignment value text with
  | none => none
  | some ⟨assignment, rest₁, h₁⟩ =>
    match skipBlanks rest₁ with
    | ⟨_, [], _⟩ => none
    | ⟨_, c :: rest₂, h₂⟩ =>
      have le : rest₂.length < text.length := Nat.lt_trans (Nat.lt_of_succ_le h₂) h₁
      if c = '\x7d' then
        some ⟨(assignment :: done).reverse, rest₂, Nat.lt_of_lt_of_le le h⟩
      else if c = ',' then
        readAssignments value whole (assignment :: done) rest₂
          (Nat.le_trans (Nat.le_of_lt le) h)
      else none
termination_by text.length

/-- Reads a table whose opening brace has been read. -/
def readInline (value : Reader Value) : Reader Value := fun text =>
  match skipBlanks text with
  | ⟨_, [], _⟩ => none
  | ⟨_, c :: rest, h⟩ =>
    if c = '\x7d' then some ⟨.table .inline [], rest, h⟩
    else
      match readAssignments value text [] (c :: rest) h with
      | none => none
      | some ⟨assignments, rest', h'⟩ =>
        match addAll assignments .inline [] with
        | none => none
        | some entries => some ⟨.table .inline entries, rest', h'⟩

/-- Reads a value in which so many lists and tables may be nested. -/
def readValue : (depth : Nat) → Reader Value
  | _, [] => none
  | depth, c :: text =>
    if isQuote c then
      match readText c text with
      | none => none
      | some string => some (string.map .string).behind
    else if c = '[' then
      match depth with
      | 0 => none
      | depth + 1 =>
        match readItems (readValue depth) text [] text (length_le_self text) with
        | none => none
        | some items => some (items.map (.list .inline)).behind
    else if c = '\x7b' then
      match depth with
      | 0 => none
      | depth + 1 =>
        match readInline (readValue depth) text with
        | none => none
        | some table => some table.behind
    else
      match readToken (c :: text) with
      | none => none
      | some ⟨token, rest, h⟩ =>
        match tokenValue? token with
        | none => none
        | some v => some ⟨v, rest, h⟩

/-- How many lists and tables may stand inside one another as values. -/
def maxDepth : Nat := 79

/-! ## Statements -/

/-- A line that is not empty. -/
inductive Statement
  | assignment (a : Assignment)
  | header (opening : Opening) (path : Path) (mark : Mark)

/-- Reads a header: a path between single or double brackets. -/
def readHeader : Reader Statement := fun text =>
  match text with
  | '[' :: '[' :: rest =>
    match readPath rest with
    | some ⟨path, ']' :: ']' :: rest', h⟩ =>
      some ⟨.header .item path text.length, rest', by simp only [List.length_cons] at *; omega⟩
    | _ => none
  | '[' :: rest =>
    match readPath rest with
    | some ⟨path, ']' :: rest', h⟩ =>
      some ⟨.header .table path text.length, rest', by simp only [List.length_cons] at *; omega⟩
    | _ => none
  | _ => none

/-- Reads a statement, which has this first character, up to the end of its line. -/
def readStatement (first : Char) : Reader Statement := fun text =>
  let statement : Option (Found Statement text) :=
    if first = '[' then readHeader text
    else (readAssignment (readValue maxDepth) text).map (·.map .assignment)
  match statement with
  | none => none
  | some ⟨statement, rest, h⟩ =>
    match readLineEnd rest with
    | none => none
    | some lineEnd => some ((lineEnd.map fun _ => statement).beyond h)

/-- Reads a line, which may be empty. -/
def readStatement? : Reader (Option Statement)
  | [] => none
  | c :: text =>
    if c = '#' then
      match skipWhile isPlain text with
      | ⟨_, rest, h⟩ =>
        match readLineEnd rest with
        | none => none
        | some lineEnd => some ((lineEnd.map fun _ => none).inLonger h).behind
    else
      match readNewline (c :: text) with
      | some newline => some (newline.map fun _ => none)
      | none =>
        match readStatement c (c :: text) with
        | none => none
        | some found => some (found.map some)

/-- Reads the statements of a text; `done` holds those so far, the last one first. -/
def readStatements (done : List Statement) (text : List Char) : Option (List Statement) :=
  match skipBlanks text with
  | ⟨_, [], _⟩ => some done.reverse
  | ⟨_, c :: rest, h⟩ =>
    match readStatement? (c :: rest) with
    | none => none
    | some ⟨statement, rest', h'⟩ =>
      have : rest'.length < text.length := Nat.lt_of_lt_of_le h' h
      readStatements (statement.toList ++ done) rest'
termination_by text.length

/-- The assignments in front of the first header, and the sections that headers open. -/
def divide : List Statement → List Assignment × List Section
  | [] => ([], [])
  | .assignment a :: rest =>
    match divide rest with
    | (own, sections) => (a :: own, sections)
  | .header opening path mark :: rest =>
    match divide rest with
    | (own, sections) => ([], ⟨opening, path, mark, own⟩ :: sections)

/-- The text without a byte order mark in front. -/
def withoutOrderMark : List Char → List Char
  | '\ufeff' :: rest => rest
  | text => text

/-- The table that a text writes, if it is well formed. -/
def Entries.ofText? (text : List Char) : Option Entries :=
  match readStatements [] (withoutOrderMark text) with
  | none => none
  | some statements =>
    match divide statements with
    | (first, sections) => assemble first sections

/-! ## Places -/

/-- A place in a text: lines and the characters of a line count from one. -/
structure Place where
  line : Nat
  column : Nat
  deriving DecidableEq, Repr

/-- The place after one more character. -/
def Place.advance (place : Place) (c : Char) : Place :=
  if c = '\n' then ⟨place.line + 1, 1⟩ else ⟨place.line, place.column + 1⟩

/-- The place of a spot in a text. -/
def Mark.place (text : List Char) (mark : Mark) : Place :=
  (text.take (text.length - mark)).foldl Place.advance ⟨1, 1⟩

end BusClient.Toml
