import BusClient.Failure
import BusClient.Message.Call
import BusClient.Message.Response

/-!
# Connections

A network binds a service on a scope, and a connection is good for one call. What happens to
connections is recorded as events, so that an operation is a function of the network and its
discipline can be stated: which scopes were tried, what was called, and when each connection was
released.
-/

namespace BusClient

open Json

/-- How connections are made and what comes of a call over one. -/
structure Network where
  bind : Service → Scope → Except IoError Unit
  call : Service → Scope → Call → Except IoError Response

/-- Something that happened to a connection. -/
inductive Event
  /-- A bind was tried, with or without success. -/
  | bound (service : Service) (scope : Scope) (accepted : Bool)
  /-- A call was issued. -/
  | called (scope : Scope) (call : Call)
  /-- A connection was given up. -/
  | released (scope : Scope)

/-- A bound connection that has not been used. -/
structure Connection where
  service : Service
  scope : Scope
  deriving DecidableEq, Repr

namespace Connection

/-- Tries scopes in order until one accepts the service. -/
def search (network : Network) (service : Service) :
    List Scope → Outcome Connection × List Event
  | [] => (.error (.unavailable service), [])
  | scope :: more =>
    match network.bind service scope with
    | .ok _ => (.ok ⟨service, scope⟩, [.bound service scope true])
    | .error _ =>
      match search network service more with
      | (outcome, events) => (outcome, .bound service scope false :: events)

/-- Binds a service on the first scope that accepts it. -/
def find (network : Network) (service : Service) : Outcome Connection × List Event :=
  search network service Scope.order

/-- Calls a member of the bound service and gives the connection up. -/
def call (network : Network) (connection : Connection) (member : String) (args : List Value) :
    Except IoError Response × List Event :=
  let call := Call.toService connection.service member args
  (network.call connection.service connection.scope call,
    [.called connection.scope call, .released connection.scope])

/-- Gives the connection up without a call. -/
def release (connection : Connection) : List Event := [.released connection.scope]

end Connection

end BusClient
