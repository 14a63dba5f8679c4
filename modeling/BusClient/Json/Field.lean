import BusClient.Json.Approximation
import BusClient.Json.Skip

/-!
# Reading the fields of a message

A message has fields of fixed types. A field that has another type is a fault that says what was
found, and an integer that is out of range is one that says so. The faults of a message as a
whole are placed behind the bracket that closes it, if that comes next.
-/

namespace BusClient.Json

/-- What is left behind the next byte, blanks apart, if it is this one. -/
def afterClosing (close : UInt8) (text : Bytes) : Bytes :=
  match (skipBlanks text).rest with
  | [] => []
  | b :: rest => if b = close then rest else b :: rest

/-- A fault of an object as a whole. -/
def objectFault (cause : Cause) (text : Bytes) : Fault :=
  .before cause (afterClosing 0x7d text)

/-- A fault of a list as a whole. -/
def listFault (cause : Cause) (text : Bytes) : Fault :=
  .before cause (afterClosing 0x5d text)

/-- The integer of thirty-two bits that a number gives, or why it gives none. A number counts as
an integer if it is spelled as one, fits sixty-four bits and is not the negative zero. -/
def Number.field (n : Number) (rest : Bytes) : Except Fault Int32 :=
  let inexact : Fault :=
    match n.approximation with
    | .near x => .before (.wrongType (.floating (shownFloat x)) "i32") rest
    | .tooLarge unread => ⟨.numberOutOfRange, .before (rest.length + unread)⟩
  match n.integer? with
  | none => .error inexact
  | some value =>
    if n.negative ∧ (value = 0 ∨ value < Int64.minValue.toInt) ∨ UInt64.size ≤ value then
      .error inexact
    else
      match n.int32? with
      | some word => .ok word
      | none => .error (.before (.wrongValue (.integer value) "i32") rest)

/-- Reads a field that is an integer of thirty-two bits. -/
def readInt32 : Reader Int32 := fun text =>
  match skipBlanks text with
  | ⟨_, [], _⟩ => .error (.about .endInValue [])
  | ⟨_, b :: rest, h⟩ =>
    let finish (number : Found Number (b :: rest)) : Except Fault (Found Int32 text) :=
      match number.value.field number.rest with
      | .error fault => .error fault
      | .ok word => .ok ((number.map fun _ => word).inLonger h)
    if b = 0x2d then
      match readNumber true rest with
      | .error fault => .error fault
      | .ok number => finish number.behind
    else if Digit.isByte b then
      match readNumber false (b :: rest) with
      | .error fault => .error fault
      | .ok number => finish number
    else .error (unwanted "i32" (b :: rest))

/-- Reads a field that is a list of values, each of which may nest so deep. -/
def readValueList (depth : Nat) : Reader (List Value) := fun text =>
  match skipBlanks text with
  | ⟨_, [], _⟩ => .error (.about .endInValue [])
  | ⟨_, b :: rest, h⟩ =>
    if b = 0x5b then
      match readList (readValue depth) rest with
      | .error fault => .error fault
      | .ok values => .ok (values.beyond h)
    else .error (unwanted "a sequence" (b :: rest))

/-- Reads a field that has not been seen yet; a second one is a fault of the object. -/
def readOnce {α : Type} (name : String) (seen : Option α) (reader : Reader α) :
    Reader α := fun text =>
  match seen with
  | some _ => .error (objectFault (.duplicateField name) text)
  | none => readAfterColon reader text

/-- Reads the next field of a message that is given as a list, if there is one. -/
def readItem? {α : Type} (first : Bool) (reader : Reader α) (text : Bytes) :
    Except Fault (Maybe (Option α) text) :=
  match itemStart first text with
  | .error fault => .error fault
  | .ok ⟨false, rest, h⟩ => .ok ⟨none, rest, h⟩
  | .ok ⟨true, rest, h⟩ =>
    match reader rest with
    | .error fault => .error fault
    | .ok found => .ok ((found.map some).inLonger h).toMaybe

/-- Reads the next field of a message that is given as a list; it must be there. -/
def readItem {α : Type} (first : Bool) (length : Nat) (wanted : String) (reader : Reader α)
    (text : Bytes) : Except Fault (Maybe α text) :=
  match readItem? first reader text with
  | .error fault => .error fault
  | .ok ⟨some value, rest, h⟩ => .ok ⟨value, rest, h⟩
  | .ok ⟨none, rest, _⟩ => .error (listFault (.wrongLength length wanted) rest)

end BusClient.Json
