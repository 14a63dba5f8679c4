import BusClient.Json.Scan
import BusClient.Json.Value

/-!
# Reading documents

Lists and objects are read by loops over a reader for their parts, so that the same loops serve
documents of any shape and messages of a fixed one. A document may nest a bounded number of
lists and objects; the bound is what the recursion descends on.
-/

namespace BusClient.Json

/-! ## Lists -/

/-- Where the next item of a list starts, or nothing if the list ends here. The closing bracket
is left in place. -/
def itemStart (first : Bool) (text : Bytes) : Except Fault (Maybe Bool text) :=
  match skipBlanks text with
  | ⟨_, [], _⟩ => .error (.about .endInList [])
  | ⟨_, b :: rest, h⟩ =>
    if b = 0x5d then .ok ⟨false, b :: rest, h⟩
    else if first then .ok ⟨true, b :: rest, h⟩
    else if b = 0x2c then
      match skipBlanks rest with
      | ⟨_, [], _⟩ => .error (.about .endInValue [])
      | ⟨_, c :: more, h'⟩ =>
        if c = 0x5d then .error (.about .trailingComma (c :: more))
        else .ok ⟨true, c :: more, Nat.le_trans h' (Nat.le_of_succ_le h)⟩
    else .error (.about .expectedListSeparator (b :: rest))

/-- The end of a list whose items have all been read. -/
def readListEnd : Reader Unit := fun text =>
  match skipBlanks text with
  | ⟨_, [], _⟩ => .error (.about .endInList [])
  | ⟨_, b :: rest, h⟩ =>
    if b = 0x5d then .ok ⟨(), rest, h⟩
    else if b = 0x2c then
      match skipBlanks rest with
      | ⟨_, [], _⟩ => .error (.about .trailingCharacters [])
      | ⟨_, c :: more, _⟩ =>
        .error (.about (if c = 0x5d then .trailingComma else .trailingCharacters) (c :: more))
    else .error (.about .trailingCharacters (b :: rest))

/-- Reads the items of a list up to its closing bracket; `done` holds the items so far, the last
one first. -/
def readItems {α : Type} (item : Reader α) (whole : Bytes) (first : Bool) (done : List α)
    (text : Bytes) (h : text.length ≤ whole.length) : Except Fault (Found (List α) whole) :=
  match itemStart first text with
  | .error fault => .error fault
  | .ok ⟨false, rest, hr⟩ =>
    match readListEnd rest with
    | .error fault => .error fault
    | .ok ⟨_, rest', hr'⟩ =>
      .ok ⟨done.reverse, rest', Nat.lt_of_lt_of_le hr' (Nat.le_trans hr h)⟩
  | .ok ⟨true, rest, hr⟩ =>
    match item rest with
    | .error fault => .error fault
    | .ok ⟨value, rest', hr'⟩ =>
      readItems item whole false (value :: done) rest'
        (Nat.le_trans (Nat.le_of_lt hr') (Nat.le_trans hr h))
termination_by text.length
decreasing_by exact Nat.lt_of_lt_of_le hr' hr

/-- Reads a list whose opening bracket has been read. -/
def readList {α : Type} (item : Reader α) : Reader (List α) := fun text =>
  readItems item text true [] text (length_le_self text)

/-! ## Objects -/

/-- Reads the name of the next member, or the closing brace. -/
def readName? (first : Bool) : Reader (Option String) := fun text =>
  match skipBlanks text with
  | ⟨_, [], _⟩ => .error (.about .endInObject [])
  | ⟨_, b :: rest, h⟩ =>
    if b = 0x7d then .ok ⟨none, rest, h⟩
    else if first then
      if b = 0x22 then
        match readString rest with
        | .error fault => .error fault
        | .ok name => .ok ((name.map some).beyond h)
      else .error (.about .nameNotString (b :: rest))
    else if b = 0x2c then
      match skipBlanks rest with
      | ⟨_, [], _⟩ => .error (.about .endInValue [])
      | ⟨_, c :: more, hm⟩ =>
        if c = 0x22 then
          match readString more with
          | .error fault => .error fault
          | .ok name => .ok (((name.map some).beyond hm).beyond h)
        else
          .error (.about (if c = 0x7d then .trailingComma else .nameNotString) (c :: more))
    else .error (.about .expectedObjectSeparator (b :: rest))

/-- Reads the colon between a name and its value. -/
def readColon : Reader Unit := fun text =>
  match skipBlanks text with
  | ⟨_, [], _⟩ => .error (.about .endInObject [])
  | ⟨_, b :: rest, h⟩ =>
    if b = 0x3a then .ok ⟨(), rest, h⟩
    else .error (.about .expectedColon (b :: rest))

/-- Reads the colon and the value of a member. -/
def readAfterColon {α : Type} (value : Reader α) : Reader α := fun text =>
  match readColon text with
  | .error fault => .error fault
  | .ok ⟨_, rest, h⟩ =>
    match value rest with
    | .error fault => .error fault
    | .ok found => .ok (found.beyond h)

/-- Reads the members of an object up to its closing brace. What is known so far is handed
through; `member` gets it together with the name of the next member, and reads from the colon
on. -/
def readMembers {σ : Type} (member : σ → String → Reader σ) (whole : Bytes) (first : Bool)
    (known : σ) (text : Bytes) (h : text.length ≤ whole.length) :
    Except Fault (Found σ whole) :=
  match readName? first text with
  | .error fault => .error fault
  | .ok ⟨none, rest, hr⟩ => .ok ⟨known, rest, Nat.lt_of_lt_of_le hr h⟩
  | .ok ⟨some name, rest, hr⟩ =>
    match member known name rest with
    | .error fault => .error fault
    | .ok ⟨known', rest', hr'⟩ =>
      readMembers member whole false known' rest'
        (Nat.le_trans (Nat.le_of_lt (Nat.lt_trans hr' hr)) h)
termination_by text.length
decreasing_by exact Nat.lt_trans hr' hr

/-- Reads an object whose opening brace has been read. -/
def readObject {σ : Type} (member : σ → String → Reader σ) (start : σ) : Reader σ := fun text =>
  readMembers member text true start text (length_le_self text)

/-! ## What stands here instead -/

/-- Whether a number counts as an integer in a message: it fits sixty-four bits, without a sign
if it has none, and is not the negative zero. -/
def Number.finding (n : Number) : Finding :=
  match n.integer? with
  | some value =>
    if n.negative then
      if Int64.minValue.toInt ≤ value ∧ value ≠ 0 then .integer value else .number
    else if value < UInt64.size then .integer value
    else .number
  | none => .number

/-- The fault of finding something other than what was wanted. A scalar is read before the fault
is named, a list or an object is not. -/
def unwanted (wanted : String) (text : Bytes) : Fault :=
  match text with
  | [] => .about .expectedValue []
  | b :: rest =>
    let word (w : Bytes) (found : Finding) : Fault :=
      match readWord w rest with
      | .error fault => fault
      | .ok ⟨_, rest', _⟩ => .before (.wrongType found wanted) rest'
    let number (negative : Bool) (digits : Bytes) : Fault :=
      match readNumber negative digits with
      | .error fault => fault
      | .ok ⟨n, rest', _⟩ => .before (.wrongType n.finding wanted) rest'
    if b = 0x6e then word [0x75, 0x6c, 0x6c] .null
    else if b = 0x74 then word [0x72, 0x75, 0x65] (.bool true)
    else if b = 0x66 then word [0x61, 0x6c, 0x73, 0x65] (.bool false)
    else if b = 0x2d then number true rest
    else if Digit.isByte b then number false text
    else if b = 0x22 then
      match readString rest with
      | .error fault => fault
      | .ok ⟨string, rest', _⟩ => .before (.wrongType (.string string) wanted) rest'
    else if b = 0x5b then .before (.wrongType .sequence wanted) text
    else if b = 0x7b then .before (.wrongType .map wanted) text
    else .about .expectedValue text

/-- Reads a text where a text is wanted. -/
def readText (wanted : String) : Reader String := fun text =>
  match skipBlanks text with
  | ⟨_, [], _⟩ => .error (.about .endInValue [])
  | ⟨_, b :: rest, h⟩ =>
    if b = 0x22 then
      match readString rest with
      | .error fault => .error fault
      | .ok string => .ok (string.beyond h)
    else .error (unwanted wanted (b :: rest))

/-! ## Documents -/

/-- Reads a number with its sign. -/
def readSigned : Reader Number
  | [] => .error (.about .endInValue [])
  | b :: rest =>
    if b = 0x2d then
      match readNumber true rest with
      | .error fault => .error fault
      | .ok number => .ok number.behind
    else if Digit.isByte b then readNumber false (b :: rest)
    else .error (.about .invalidNumber (b :: rest))

/-- The number that a text spells, all of it. Bytes that are left over are named before a fault
inside the number. -/
def Number.ofBytes (text : Bytes) : Except Defect Number :=
  match readSigned text with
  | .ok ⟨n, [], _⟩ => .ok n
  | .ok ⟨_, b :: rest, _⟩ => .error ((Fault.about .invalidNumber (b :: rest)).locate text)
  | .error ⟨cause, site⟩ =>
    match site with
    | .before (left + 1) => .error (Fault.locate text ⟨.invalidNumber, .about (left + 1)⟩)
    | site => .error (Fault.locate text ⟨cause, site⟩)

/-- Reads the number that the reserved name announces: the text of its member must spell a
number, and no other member may follow. -/
def readReserved : Reader Value := fun text =>
  match readAfterColon (readText "string containing a number") text with
  | .error fault => .error fault
  | .ok ⟨spelling, rest, h⟩ =>
    match Number.ofBytes (.ofText spelling) with
    | .error defect =>
      .error ⟨defect.cause, match defect.place with
        | some place => .inner place
        | none => .unknown⟩
    | .ok n =>
      match skipBlanks rest with
      | ⟨_, [], _⟩ => .error (.about .endInObject [])
      | ⟨_, b :: rest', h'⟩ =>
        if b = 0x7d then
          let number : Found Value rest := ⟨.number n, rest', h'⟩
          .ok (number.beyond h)
        else
          .error (.about (if b = 0x2c then .trailingComma else .trailingCharacters)
            (b :: rest'))

/-- Reads a member with a free name; the pairs so far are kept with the last one first. -/
def readPair (value : Reader Value) (done : List (String × Value)) (name : String) :
    Reader (List (String × Value)) := fun text =>
  match readAfterColon value text with
  | .error fault => .error fault
  | .ok found => .ok (found.map fun v => (name, v) :: done)

/-- Reads an object of a document whose opening brace has been read. -/
def readFreeObject (value : Reader Value) : Reader Value := fun text =>
  match readName? true text with
  | .error fault => .error fault
  | .ok ⟨none, rest, h⟩ => .ok ⟨.object [], rest, h⟩
  | .ok ⟨some name, rest, h⟩ =>
    if name = Value.reservedName then
      match readReserved rest with
      | .error fault => .error fault
      | .ok found => .ok (found.beyond h)
    else
      match readPair value [] name rest with
      | .error fault => .error fault
      | .ok ⟨pairs, rest', h'⟩ =>
        match readMembers (readPair value) rest' false pairs rest' (length_le_self rest') with
        | .error fault => .error fault
        | .ok found =>
          let object := found.map fun pairs => .object (Members.ofPairs pairs.reverse)
          .ok ((object.beyond h').beyond h)

/-- Reads a value that may nest so many lists and objects. -/
def readValue : (depth : Nat) → Reader Value
  | depth, text =>
    match skipBlanks text with
    | ⟨_, [], _⟩ => .error (.about .endInValue [])
    | ⟨_, b :: rest, h⟩ =>
      let word (w : Bytes) (value : Value) : Except Fault (Found Value text) :=
        match readWord w rest with
        | .error fault => .error fault
        | .ok found => .ok ((found.map fun _ => value).beyond h)
      if b = 0x6e then word [0x75, 0x6c, 0x6c] .null
      else if b = 0x74 then word [0x72, 0x75, 0x65] (.bool true)
      else if b = 0x66 then word [0x61, 0x6c, 0x73, 0x65] (.bool false)
      else if b = 0x2d then
        match readNumber true rest with
        | .error fault => .error fault
        | .ok number => .ok ((number.map .number).beyond h)
      else if Digit.isByte b then
        match readNumber false (b :: rest) with
        | .error fault => .error fault
        | .ok number => .ok ((number.map .number).inLonger h)
      else if b = 0x22 then
        match readString rest with
        | .error fault => .error fault
        | .ok string => .ok ((string.map .string).beyond h)
      else if b = 0x5b then
        match depth with
        | 0 => .error (.about .tooDeep (b :: rest))
        | depth + 1 =>
          match readList (readValue depth) rest with
          | .error fault => .error fault
          | .ok items => .ok ((items.map .array).beyond h)
      else if b = 0x7b then
        match depth with
        | 0 => .error (.about .tooDeep (b :: rest))
        | depth + 1 =>
          match readFreeObject (readValue depth) rest with
          | .error fault => .error fault
          | .ok object => .ok (object.beyond h)
      else .error (.about .expectedValue (b :: rest))

/-- How many lists and objects may stand inside one another. -/
def maxDepth : Nat := 127

/-- Reads a whole text: nothing but blanks may follow what is read. -/
def readAll {α : Type} (reader : Reader α) (text : Bytes) : Except Defect α :=
  match reader text with
  | .error fault => .error (fault.locate text)
  | .ok ⟨value, rest, _⟩ =>
    match skipBlanks rest with
    | ⟨_, [], _⟩ => .ok value
    | ⟨_, b :: more, _⟩ => .error ((Fault.about .trailingCharacters (b :: more)).locate text)

/-- The document that a text holds. -/
def Value.ofBytes (text : Bytes) : Except Defect Value := readAll (readValue maxDepth) text

/-- The document that a text holds. -/
def Value.ofText (text : String) : Except Defect Value := Value.ofBytes (.ofText text)

end BusClient.Json
