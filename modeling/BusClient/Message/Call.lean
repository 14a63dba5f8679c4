import BusClient.Json.Field
import BusClient.Json.Printer
import BusClient.Service

/-!
# Calls

A call names the daemon, an object and its interface, and a member with its arguments. It travels
as an object with these five fields; it may also be given as a list of them in this order. Other
members of the object are passed over.
-/

namespace BusClient

open Json

/-- A call of one member of one service object. -/
structure Call where
  destination : String
  path : String
  interface : String
  member : String
  args : List Value

namespace Call

/-- A call of a service of the daemon. -/
def toService (service : Service) (member : String) (args : List Value) : Call :=
  ⟨busName, service.objectPath, service.interface, member, args⟩

/-- The document that a call travels as. -/
def document (call : Call) : Value :=
  .object [("destination", .string call.destination), ("path", .string call.path),
    ("interface", .string call.interface), ("member", .string call.member),
    ("args", .array call.args)]

/-- The payload of a call. -/
def payload (call : Call) : Bytes := .ofText call.document.compact

/-! ## Reading -/

/-- What is known of a call while its members are read. -/
structure Known where
  destination : Option String := none
  path : Option String := none
  interface : Option String := none
  member : Option String := none
  args : Option (List Value) := none

/-- Reads the arguments: the call and the list are two levels of nesting. -/
def readArgs : Reader (List Value) := readValueList (maxDepth - 2)

/-- Reads a text field. -/
def readField : Reader String := readText "a string"

/-- Reads one member of the object of a call. -/
def readMember (known : Known) (name : String) : Reader Known := fun text =>
  let store {α : Type} (seen : Option α) (reader : Reader α) (put : α → Known) :
      Except Fault (Found Known text) :=
    match readOnce name seen reader text with
    | .error fault => .error fault
    | .ok found => .ok (found.map put)
  if name = "destination" then
    store known.destination readField fun v => { known with destination := some v }
  else if name = "path" then
    store known.path readField fun v => { known with path := some v }
  else if name = "interface" then
    store known.interface readField fun v => { known with interface := some v }
  else if name = "member" then
    store known.member readField fun v => { known with member := some v }
  else if name = "args" then
    store known.args readArgs fun v => { known with args := some v }
  else
    match readAfterColon skipValue text with
    | .error fault => .error fault
    | .ok found => .ok (found.map fun _ => known)

/-- The call of an object that has been read, or its first missing field. -/
def Known.call? (known : Known) : Except Cause Call :=
  match known.destination with
  | none => .error (.missingField "destination")
  | some destination =>
    match known.path with
    | none => .error (.missingField "path")
    | some path =>
      match known.interface with
      | none => .error (.missingField "interface")
      | some interface =>
        match known.member with
        | none => .error (.missingField "member")
        | some member =>
          match known.args with
          | none => .error (.missingField "args")
          | some args => .ok ⟨destination, path, interface, member, args⟩

/-- The shape of a call that is given as a list. -/
def listShape : String := "struct MethodCall with 5 elements"

/-- Reads the fields of a call up to the closing bracket of a list. -/
def readPositional : Reader Call := fun text =>
  match readItem true 0 listShape readField text with
  | .error fault => .error fault
  | .ok ⟨destination, rest₁, h₁⟩ =>
    match readItem false 1 listShape readField rest₁ with
    | .error fault => .error fault
    | .ok ⟨path, rest₂, h₂⟩ =>
      match readItem false 2 listShape readField rest₂ with
      | .error fault => .error fault
      | .ok ⟨interface, rest₃, h₃⟩ =>
        match readItem false 3 listShape readField rest₃ with
        | .error fault => .error fault
        | .ok ⟨member, rest₄, h₄⟩ =>
          match readItem false 4 listShape readArgs rest₄ with
          | .error fault => .error fault
          | .ok ⟨args, rest₅, h₅⟩ =>
            match readListEnd rest₅ with
            | .error fault => .error fault
            | .ok ⟨_, rest, h⟩ =>
              .ok ⟨⟨destination, path, interface, member, args⟩, rest, by omega⟩

/-- Reads a call. -/
def read : Reader Call := fun text =>
  match skipBlanks text with
  | ⟨_, [], _⟩ => .error (.about .endInValue [])
  | ⟨_, b :: rest, h⟩ =>
    if b = 0x7b then
      match readObject readMember {} rest with
      | .error fault => .error fault
      | .ok ⟨known, rest', h'⟩ =>
        match known.call? with
        | .error cause => .error (.before cause rest')
        | .ok call =>
          let found : Found Call rest := ⟨call, rest', h'⟩
          .ok (found.beyond h)
    else if b = 0x5b then
      match readPositional rest with
      | .error fault => .error fault
      | .ok found => .ok (found.beyond h)
    else .error (unwanted "struct MethodCall" (b :: rest))

/-- The call that a payload holds. -/
def ofPayload (payload : Bytes) : Except Defect Call := readAll read payload

end Call

end BusClient
