import BusClient.Frame
import BusClient.Message.Call
import BusClient.Message.Response

/-!
# Messages on the wire

The client writes a call in one go and then waits for the response. The daemon's side collects
what comes in a buffer and takes a message from its front whenever one is complete. Either reader
consumes the whole frame of a payload that is not the message it wants, so that the next frame
can be read.
-/

namespace BusClient

open Json

/-- A payload that is not the wanted message. -/
def garbled (defect : Defect) : IoError := ⟨.invalidData, defect.message⟩

/-- Unpacks the message of a payload. -/
def unpack {α : Type} (ofPayload : Bytes → Except Defect α) (payload : Bytes) :
    Except IoError α :=
  match ofPayload payload with
  | .ok value => .ok value
  | .error defect => .error (garbled defect)

/-! ## Waiting on a stream -/

/-- What came of waiting for a message, and the stream behind it. -/
structure Received (α : Type) where
  outcome : Except IoError α
  rest : Stream

/-- Waits for a frame and reads its payload. A stream that ends too early is used up; of a frame
that is announced too large only the header is consumed. -/
def receive {α : Type} (ofPayload : Bytes → Except Defect α) (stream : Stream) : Received α :=
  match stream.take? Frame.headerLength with
  | none => ⟨.error .unexpectedEof, []⟩
  | some (header, rest) =>
    let length := Frame.announced header
    if Frame.maxPayload < length then ⟨.error .oversized, rest⟩
    else
      match rest.take? length with
      | none => ⟨.error .unexpectedEof, []⟩
      | some (payload, rest') => ⟨unpack ofPayload payload, rest'⟩

/-- Waits for a response. -/
def Response.receive (stream : Stream) : Received Response :=
  BusClient.receive Response.ofPayload stream

/-! ## Taking from a buffer -/

/-- What stands at the front of a buffer: nothing yet, a message, or a failure; and the buffer
afterwards. -/
structure Decoded (α : Type) where
  outcome : Except IoError (Option α)
  rest : Bytes

/-- Takes a message from the front of a buffer. The buffer stays as it is while the frame is not
complete, and also when the frame is announced too large. -/
def decode {α : Type} (ofPayload : Bytes → Except Defect α) (buffer : Bytes) : Decoded α :=
  match Frame.front buffer with
  | .partly => ⟨.ok none, buffer⟩
  | .oversized => ⟨.error .oversized, buffer⟩
  | .whole payload rest => ⟨(unpack ofPayload payload).map some, rest⟩

/-- Takes a call from the front of a buffer. -/
def Call.decode (buffer : Bytes) : Decoded Call := BusClient.decode Call.ofPayload buffer

/-- Takes a call from the front of a buffer to which nothing will be added: an incomplete frame
is a failure then. -/
def Call.decodeLast (buffer : Bytes) : Decoded Call :=
  match Call.decode buffer with
  | ⟨.ok none, []⟩ => ⟨.ok none, []⟩
  | ⟨.ok none, rest⟩ => ⟨.error ⟨.other, "bytes remaining on stream"⟩, rest⟩
  | decoded => decoded

/-! ## Sending -/

/-- The frame of a call. -/
def Call.frame (call : Call) : Except IoError Bytes := Frame.encode call.payload

/-- The frame of a response. -/
def Response.frame (response : Response) : Except IoError Bytes := Frame.encode response.payload

/-- Appends a frame to a buffer, which stays as it is if there is no frame. -/
def appendFrame (buffer : Bytes) (frame : Except IoError Bytes) : Except IoError Unit × Bytes :=
  match frame with
  | .ok bytes => (.ok (), buffer ++ bytes)
  | .error error => (.error error, buffer)

/-- Writes a call into limited room. Nothing is written of a call that is too large. -/
def Call.write (room : Nat) (call : Call) : Written :=
  match call.frame with
  | .ok bytes => writeAll room bytes
  | .error error => ⟨[], .error error⟩

end BusClient
