import BusClient.Json.Field
import BusClient.Json.Printer

/-!
# Responses

The daemon answers a call with a return, which carries its result code and values, or with a
fault, which carries a message and perhaps a code. A response travels as an object with one
member that names the variant; the body is an object of the fields, or a list of them in order.
-/

namespace BusClient

open Json

/-- The daemon's answer to a call. -/
inductive Response
  /-- The call was delivered, and the daemon has this code for it. -/
  | returned (result : Int32) (values : List Value)
  /-- The call could not be completed. The code is zero unless the daemon got far enough. -/
  | faulted (code : Int32) (message : String)

namespace Response

/-- The number of a code. -/
def number (code : Int32) : Value := .number (.ofInt code.toInt)

/-- The document that a response travels as. -/
def document : Response → Value
  | returned result values =>
    .object [("return", .object [("result", number result), ("values", .array values)])]
  | faulted code message =>
    .object [("fault", .object [("code", number code), ("message", .string message)])]

/-- The payload of a response. -/
def payload (response : Response) : Bytes := .ofText response.document.compact

/-! ## Reading -/

/-- The variants, by name. -/
inductive Variant
  | returned
  | faulted
  deriving DecidableEq, Repr

namespace Variant

/-- The variant that a name stands for. -/
def ofName? (name : String) : Option Variant :=
  if name = "return" then some returned
  else if name = "fault" then some faulted
  else none

/-- The shape of a variant's body. -/
def shape : Variant → String
  | returned => "struct variant Response::Return"
  | faulted => "struct variant Response::Fault"

/-- The shape of a variant's body that is given as a list. -/
def listShape (variant : Variant) : String := variant.shape ++ " with 2 elements"

end Variant

/-- The names of the variants, for a message. -/
def variantNames : String := "`return` or `fault`"

/-- Reads the name of a variant. A text that ends before it leaves the object unfinished, an object
without members lacks its value, and what is no string is no name. -/
def readVariant : Reader Variant := fun text =>
  match skipBlanks text with
  | ⟨_, [], _⟩ => .error (.about .endInObject [])
  | ⟨_, b :: rest, h⟩ =>
    if b = 0x22 then
      match readString rest with
      | .error fault => .error fault
      | .ok ⟨name, rest', h'⟩ =>
        match Variant.ofName? name with
        | some variant =>
          let found : Found Variant rest := ⟨variant, rest', h'⟩
          .ok (found.beyond h)
        | none => .error (.before (.unknownVariant name variantNames) rest')
    else .error (.about (if b = 0x7d then .expectedValue else .nameNotString) (b :: rest))

/-- Reads the values of a return: the response, its body and the list are three levels. -/
def readValues : Reader (List Value) := readValueList (maxDepth - 3)

/-- What is known of the body of a return while its members are read. -/
structure KnownReturn where
  result : Option Int32 := none
  values : Option (List Value) := none

/-- Reads one member of the body of a return. -/
def readReturnMember (known : KnownReturn) (name : String) : Reader KnownReturn := fun text =>
  if name = "result" then
    match readOnce name known.result readInt32 text with
    | .error fault => .error fault
    | .ok found => .ok (found.map fun v => { known with result := some v })
  else if name = "values" then
    match readOnce name known.values readValues text with
    | .error fault => .error fault
    | .ok found => .ok (found.map fun v => { known with values := some v })
  else
    match readAfterColon skipValue text with
    | .error fault => .error fault
    | .ok found => .ok (found.map fun _ => known)

/-- The return of a body that has been read: the result must be there. -/
def KnownReturn.response? (known : KnownReturn) : Except Cause Response :=
  match known.result with
  | none => .error (.missingField "result")
  | some result => .ok (.returned result (known.values.getD []))

/-- What is known of the body of a fault while its members are read. -/
structure KnownFault where
  code : Option Int32 := none
  message : Option String := none

/-- Reads one member of the body of a fault. -/
def readFaultMember (known : KnownFault) (name : String) : Reader KnownFault := fun text =>
  if name = "code" then
    match readOnce name known.code readInt32 text with
    | .error fault => .error fault
    | .ok found => .ok (found.map fun v => { known with code := some v })
  else if name = "message" then
    match readOnce name known.message (readText "a string") text with
    | .error fault => .error fault
    | .ok found => .ok (found.map fun v => { known with message := some v })
  else
    match readAfterColon skipValue text with
    | .error fault => .error fault
    | .ok found => .ok (found.map fun _ => known)

/-- The fault of a body that has been read: the message must be there. -/
def KnownFault.response? (known : KnownFault) : Except Cause Response :=
  match known.message with
  | none => .error (.missingField "message")
  | some message => .ok (.faulted (known.code.getD 0) message)

/-- Reads a body whose opening brace has been read. -/
def readNamed (variant : Variant) : Reader Response := fun text =>
  match variant with
  | .returned =>
    match readObject readReturnMember {} text with
    | .error fault => .error fault
    | .ok ⟨known, rest, h⟩ =>
      match known.response? with
      | .error cause => .error (.before cause rest)
      | .ok response => .ok ⟨response, rest, h⟩
  | .faulted =>
    match readObject readFaultMember {} text with
    | .error fault => .error fault
    | .ok ⟨known, rest, h⟩ =>
      match known.response? with
      | .error cause => .error (.before cause rest)
      | .ok response => .ok ⟨response, rest, h⟩

/-- Reads a body whose opening bracket has been read. -/
def readPositional (variant : Variant) : Reader Response := fun text =>
  let finish (maybe : Maybe Response text) : Except Fault (Found Response text) :=
    match readListEnd maybe.rest with
    | .error fault => .error fault
    | .ok closing => .ok ((closing.map fun _ => maybe.value).inLonger maybe.notLonger)
  match variant with
  | .returned =>
    match readItem true 0 variant.listShape readInt32 text with
    | .error fault => .error fault
    | .ok ⟨result, rest₁, h₁⟩ =>
      match readItem? false readValues rest₁ with
      | .error fault => .error fault
      | .ok values =>
        finish ((values.map fun v => .returned result (v.getD [])).inLonger h₁)
  | .faulted =>
    match readItem? true readInt32 text with
    | .error fault => .error fault
    | .ok ⟨code, rest₁, h₁⟩ =>
      match readItem false 1 variant.listShape (readText "a string") rest₁ with
      | .error fault => .error fault
      | .ok message =>
        finish ((message.map fun m => .faulted (code.getD 0) m).inLonger h₁)

/-- Reads the body of a variant. -/
def readBody (variant : Variant) : Reader Response := fun text =>
  match skipBlanks text with
  | ⟨_, [], _⟩ => .error (.about .endInValue [])
  | ⟨_, b :: rest, h⟩ =>
    if b = 0x7b then
      match readNamed variant rest with
      | .error fault => .error fault
      | .ok found => .ok (found.beyond h)
    else if b = 0x5b then
      match readPositional variant rest with
      | .error fault => .error fault
      | .ok found => .ok (found.beyond h)
    else .error (unwanted variant.shape (b :: rest))

/-- Reads a response: one variant and its body. A bare variant name is refused. -/
def read : Reader Response := fun text =>
  match skipBlanks text with
  | ⟨_, [], _⟩ => .error (.about .endInValue [])
  | ⟨_, b :: rest, h⟩ =>
    if b = 0x7b then
      match readVariant rest with
      | .error fault => .error fault
      | .ok ⟨variant, rest₁, h₁⟩ =>
        match readAfterColon (readBody variant) rest₁ with
        | .error fault => .error fault
        | .ok ⟨response, rest₂, h₂⟩ =>
          match skipBlanks rest₂ with
          | ⟨_, [], _⟩ => .error (.before .endInObject [])
          | ⟨_, c :: rest₃, h₃⟩ =>
            if c = 0x7d then
              let found : Found Response rest₂ := ⟨response, rest₃, h₃⟩
              .ok (((found.beyond h₂).beyond h₁).beyond h)
            else .error (.before .expectedValue (c :: rest₃))
    else if b = 0x22 then
      match readVariant (b :: rest) with
      | .error fault => .error fault
      | .ok _ => .error ⟨.wrongType .bareVariant "struct variant", .unknown⟩
    else .error (.about .expectedValue (b :: rest))

/-- The response that a payload holds. -/
def ofPayload (payload : Bytes) : Except Defect Response := readAll read payload

end Response

end BusClient
