import BusClient.Package
import BusClient.Service

/-!
# Configuration

The configuration says where the daemon listens on each scope and, for packaged applications,
where their resources lie. Each part that is not given has a default of its own: the session
socket lies in the user's runtime directory, if there is one.

A path is a text here. A system can also name its runtime directory by bytes that are not UTF-8;
such names are not considered.
-/

namespace BusClient

/-- Where the daemon listens, and the packaged application if there is one. -/
structure Configuration where
  systemSocket : String
  sessionSocket : Option String
  package : Option Package
  deriving DecidableEq, Repr

namespace Configuration

/-- The socket of the system scope unless the configuration names another. -/
def defaultSystemSocket : String := "/run/mlops-agent/system_bus_socket"

/-- Where the default configuration file lies. -/
def defaultPath : String := "/etc/mlops-agent/client.toml"

/-- Whether a path starts at the root. -/
def isAbsolute (path : String) : Bool := path.toList.head? == some '/'

/-- A path below a directory: a slash is added unless the directory ends in one. -/
def join (directory name : String) : String :=
  match directory.toList.getLast? with
  | none => name
  | some c => if c = '/' then directory ++ name else directory ++ "/" ++ name

/-- The socket of the session scope unless the configuration names another: it lies in the
runtime directory, which counts only if it is absolute. The directory is given as a text, or not
at all. -/
def sessionSocketIn (runtimeDirectory : Option String) : Option String :=
  match runtimeDirectory with
  | none => none
  | some directory =>
    if isAbsolute directory then
      some (join (join directory "mlops-agent") "session_bus_socket")
    else none

/-- The configuration without a configuration file. -/
def default (runtimeDirectory : Option String) : Configuration :=
  ⟨defaultSystemSocket, sessionSocketIn runtimeDirectory, none⟩

/-- The socket of a scope, if there is one. -/
def socket? (config : Configuration) : Scope → Option String
  | .system => some config.systemSocket
  | .session => config.sessionSocket

end Configuration

end BusClient
