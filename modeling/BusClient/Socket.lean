import BusClient.Client
import BusClient.Configuration

/-!
# Local sockets

Each scope has one local socket. A daemon that listens there reads the call and sends some bytes
before it hangs up, and these bytes alone decide what comes of the call.
-/

namespace BusClient

/-- What comes of writing a call and waiting for the response, when the peer sends these pieces
before it hangs up. A call that is too large is not sent. -/
def converse (call : Call) (answer : Stream) : Except IoError Response :=
  match call.frame with
  | .error error => .error error
  | .ok _ => (Response.receive answer).outcome

/-- What comes of a call whose answer arrives in one piece. -/
def exchange (call : Call) (answer : Bytes) : Except IoError Response := converse call [answer]

/-- The network whose connections write the call and wait for the response. `bind` says which
scopes accept a service, and `answer` what the daemon of a scope sends before it hangs up. -/
def Network.conversing (bind : Service → Scope → Except IoError Unit) (answer : Scope → Stream) :
    Network where
  bind := bind
  call _ scope call := converse call (answer scope)

namespace Socket

/-- A scope without a socket. -/
def unconfigured (scope : Scope) : IoError :=
  ⟨.notFound, "no " ++ scope.title ++ " socket configured"⟩

/-- A socket at which nobody listens. -/
def unreachable (path : String) : IoError :=
  ⟨IoError.noSuchFile.kind, path ++ ": " ++ IoError.noSuchFile.text⟩

/-- Connects over the configured sockets. `answers` gives the bytes that the daemon of a scope
sends, if one listens there. -/
def network (config : Configuration) (answers : Scope → Option Bytes) : Network :=
  .conversing
    (fun _ scope =>
      match config.socket? scope with
      | none => .error (unconfigured scope)
      | some path =>
        match answers scope with
        | none => .error (unreachable path)
        | some _ => .ok ())
    (fun scope => [(answers scope).getD []])

/-- The client that a configuration asks for. -/
def client (config : Configuration) (answers : Scope → Option Bytes) : Client :=
  ⟨network config answers, config.package⟩

end Socket

end BusClient
