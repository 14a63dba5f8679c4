import BusClient.Connection
import BusClient.Package
import BusClient.Request
import BusClient.Wire

/-!
# The client

The client carries requests out. A request is checked first; then its service is bound, called
once and released, the two signals of the response are folded into one outcome, and the result is
taken from the first value. Nothing is kept from one request to the next, and nothing is tried
twice.
-/

namespace BusClient

open Json

/-- What carries requests out: the way to connect, and the packaged application if there is one. -/
structure Client where
  network : Network
  package : Option Package

/-- The result of a successful request. -/
inductive Output
  | nothing
  | text (text : String)
  | int64 (n : Int64)
  | int32 (n : Int32)
  | uint32 (n : UInt32)
  deriving DecidableEq, Repr

namespace Response

/-- The values of a response that reports success. -/
def values : Response → Outcome (List Value)
  | returned result values =>
    match Outcome.ofSignals true result with
    | .error error => .error error
    | .ok _ => .ok values
  | faulted code _ =>
    match Outcome.ofSignals false code with
    | .error error => .error error
    | .ok _ => .ok []

end Response

namespace ResultKind

/-- The words for a result that is not there. -/
def words : ResultKind → String
  | nothing => "no"
  | text => "a string"
  | records => "a string"
  | int64 => "an i64"
  | int32 => "an i32"
  | uint32 => "a u32"

/-- The result in the values of a response: the first value, if it is of the right kind. -/
def ofValues? (kind : ResultKind) (values : List Value) : Option Output :=
  match kind with
  | nothing => some .nothing
  | text => (values.head?.bind Value.text?).map .text
  | records => (values.head?.bind Value.text?).map .text
  | int64 => ((values.head?.bind Value.number?).bind Number.int64?).map .int64
  | int32 => ((values.head?.bind Value.number?).bind Number.int32?).map .int32
  | uint32 => ((values.head?.bind Value.number?).bind Number.uint32?).map .uint32

end ResultKind

/-- A response whose values lack the result. -/
def lacking (member : String) (kind : ResultKind) : CallError :=
  .transport ⟨.invalidData, "`" ++ member ++ "` reply lacks " ++ kind.words ++ " output #0"⟩

namespace Client

/-- Binds a service, calls a member once and releases the connection. -/
def callOnce (client : Client) (service : Service) (member : String) (args : List Value) :
    Outcome (List Value) × List Event :=
  match Connection.find client.network service with
  | (.error error, events) => (.error error, events)
  | (.ok connection, events) =>
    match connection.call client.network member args with
    | (.error error, more) => (.error (.transport error), events ++ more)
    | (.ok response, more) => (response.values, events ++ more)

/-- The result of a request in the values of its response. Records get their paths completed. -/
def output (client : Client) (request : Request) (values : List Value) : Outcome Output :=
  match request.resultKind.ofValues? values with
  | none => .error (lacking request.member request.resultKind)
  | some output =>
    match request.resultKind, output with
    | .records, .text payload =>
      match completePaths client.package payload with
      | .ok text => .ok (.text text)
      | .error fault => .error (.payload fault.message)
    | _, output => .ok output

/-- Carries a request out. -/
def perform (client : Client) (request : Request) : Outcome Output × List Event :=
  match request.check with
  | .error parameter => (.error (.invalidArgument parameter.word), [])
  | .ok _ =>
    match client.callOnce request.service request.member request.args with
    | (.error error, events) => (.error error, events)
    | (.ok values, events) => (client.output request values, events)

end Client

end BusClient
