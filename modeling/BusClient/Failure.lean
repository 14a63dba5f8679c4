import BusClient.Service

/-!
# What can go wrong with a call

A call fails before anything is sent, because no bus has the service, on the way, by the daemon's
own answer, or in the payload that it hands back. Every failure has a message and a status code
that is negative. `Outcome.ofSignals` folds the two signals of an answered call, whether it was
delivered and the code of the daemon, into one outcome.
-/

namespace BusClient

/-- Kinds of input and output failures. -/
inductive IoKind
  | notFound
  | permissionDenied
  | connectionRefused
  | connectionReset
  | hostUnreachable
  | networkUnreachable
  | connectionAborted
  | notConnected
  | addrInUse
  | addrNotAvailable
  | networkDown
  | brokenPipe
  | alreadyExists
  | wouldBlock
  | notADirectory
  | isADirectory
  | directoryNotEmpty
  | readOnlyFilesystem
  | staleNetworkFileHandle
  | invalidInput
  | invalidData
  | timedOut
  | writeZero
  | storageFull
  | notSeekable
  | quotaExceeded
  | fileTooLarge
  | resourceBusy
  | executableFileBusy
  | deadlock
  | crossesDevices
  | tooManyLinks
  | invalidFilename
  | argumentListTooLong
  | interrupted
  | unsupported
  | unexpectedEof
  | outOfMemory
  | other
  deriving DecidableEq, Repr

/-- A failure of input or output. -/
structure IoError where
  kind : IoKind
  text : String
  deriving DecidableEq, Repr

namespace IoError

/-- A stream ended before all the bytes asked for had come. -/
def unexpectedEof : IoError := ⟨.unexpectedEof, "failed to fill whole buffer"⟩

/-- A writer took no more bytes although some were left. -/
def writeZero : IoError := ⟨.writeZero, "failed to write whole buffer"⟩

/-- There is no file under a path. -/
def noSuchFile : IoError := ⟨.notFound, "No such file or directory (os error 2)"⟩

/-- A path leads through something that is not a directory. -/
def notDirectory : IoError := ⟨.notADirectory, "Not a directory (os error 20)"⟩

/-- A directory is read as if it were a file. -/
def directoryRead : IoError := ⟨.isADirectory, "Is a directory (os error 21)"⟩

/-- A payload is larger than a frame may carry. -/
def oversized : IoError := ⟨.invalidData, "payload exceeds 16MB limit"⟩

end IoError

/-- Why a call has no result. -/
inductive CallError
  /-- The caller's mistake: nothing has been sent. -/
  | invalidArgument (what : String)
  /-- No bus has the service. -/
  | unavailable (service : Service)
  /-- The daemon answered with a code other than zero. -/
  | rejected (code : Int32)
  /-- The call or its answer was lost or garbled on the way. -/
  | transport (error : IoError)
  /-- The payload of the answer cannot be used. -/
  | payload (text : String)
  deriving DecidableEq, Repr

/-- The result of a call. -/
abbrev Outcome (α : Type) := Except CallError α

namespace CallError

/-- The message of a failure. -/
def message : CallError → String
  | invalidArgument what => "invalid argument: " ++ what
  | unavailable service => "no bus scope has a reachable " ++ service.name ++ " service"
  | rejected code => "daemon rejected the call with code " ++ toString code.toInt
  | transport error => "transport: " ++ error.text
  | payload text => "payload: " ++ text

/-- The status of an input or output failure. -/
def ioStatus : Int32 := -5

/-- The status of an invalid argument. -/
def argumentStatus : Int32 := -22

/-- The status code of a failure. The daemon's own code keeps its size and is made negative. -/
def status : CallError → Int32
  | invalidArgument _ => argumentStatus
  | unavailable _ => ioStatus
  | transport _ => ioStatus
  | payload _ => ioStatus
  | rejected code => if code = 0 then ioStatus else if 0 < code then -code else code

end CallError

/-- Success needs both a delivered call and the code zero. A code other than zero wins over the
delivery; a failed delivery without a code is a failure of the transport. -/
def Outcome.ofSignals (delivered : Bool) (code : Int32) : Outcome Unit :=
  if code = 0 then
    if delivered then .ok ()
    else .error (.transport ⟨.other, "call failed without a result code"⟩)
  else .error (.rejected code)

end BusClient
