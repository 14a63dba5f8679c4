import BusClient.Proofs.Wire.RoundTrip
import BusClient.Proofs.Wire.Session

/-!
# Both ends of a frame

A response can be waited for on a stream or taken from a buffer. The two look at the header in
ways of their own, and still decide alike about every sequence of bytes: `Frames` lists its five
shapes with what either of them makes of it. The sender decides by the same limit. A message
becomes a whole frame that no reader refuses for its size, or nothing at all, and a writer that
runs out of room has taken the front of the frame.
-/

namespace BusClient

open BusClient.Frame BusClient.Json

/-! ## The two readers -/

/-- What waiting for a response on a stream and taking one from a buffer come to, when both hold
these bytes. -/
inductive Frames : Bytes → Received Response → Decoded Response → Prop
  /-- There are too few bytes for a header. -/
  | headless {bytes : Bytes} (hb : bytes.length < 4) :
    Frames bytes ⟨.error .unexpectedEof, []⟩ ⟨.ok none, bytes⟩
  /-- Fewer bytes follow than the header announces. -/
  | cutOff {length : Nat} {body : Bytes} (hl : length ≤ 16 * 1024 * 1024)
    (hb : body.length < length) :
    Frames (header length ++ body) ⟨.error .unexpectedEof, []⟩ ⟨.ok none, header length ++ body⟩
  /-- Too large a payload is announced. The header is gone from the stream and stays in the
  buffer. -/
  | oversized {length : Nat} {body : Bytes} {left : Stream} (hl : 16 * 1024 * 1024 < length)
    (hu : length < UInt32.size) (hs : left.bytes = body) :
    Frames (header length ++ body)
      ⟨.error ⟨.invalidData, "payload exceeds 16MB limit"⟩, left⟩
      ⟨.error ⟨.invalidData, "payload exceeds 16MB limit"⟩, header length ++ body⟩
  /-- The frame is complete, and its payload is a response. -/
  | message {payload rest : Bytes} {left : Stream} {response : Response}
    (hl : payload.length ≤ 16 * 1024 * 1024) (hs : left.bytes = rest)
    (hp : Response.ofPayload payload = .ok response) :
    Frames (Frame.ofPayload payload ++ rest) ⟨.ok response, left⟩ ⟨.ok (some response), rest⟩
  /-- The frame is complete, and its payload is something else. It is consumed all the same. -/
  | garbled {payload rest : Bytes} {left : Stream} {defect : Defect}
    (hl : payload.length ≤ 16 * 1024 * 1024) (hs : left.bytes = rest)
    (hp : Response.ofPayload payload = .error defect) :
    Frames (Frame.ofPayload payload ++ rest) ⟨.error ⟨.invalidData, defect.message⟩, left⟩
      ⟨.error ⟨.invalidData, defect.message⟩, rest⟩

section

variable {α : Type} (ofPayload : Bytes → Except Defect α) {payload rest : Bytes} {stream : Stream}

/-- Waiting for a frame that is sent whole reads its payload and leaves the bytes behind it. -/
theorem receive_ofPayload (hl : payload.length ≤ maxPayload)
    (hs : stream.bytes = Frame.ofPayload payload ++ rest) :
    ∃ left : Stream, receive ofPayload stream = ⟨unpack ofPayload payload, left⟩ ∧
      left.bytes = rest := by
  have hf : front stream.bytes = .whole payload rest := by
    rw [hs, Frame.ofPayload, front_append hl]
  exact receive_whole ofPayload hf

/-- What comes of a payload is never the refusal of a large one. -/
theorem unpack_ne_oversized (payload : Bytes) : unpack ofPayload payload ≠ .error .oversized := by
  unfold unpack
  intro h
  split at h
  · cases h
  next defect _ => exact garbled_ne_oversized defect (Except.error.inj h)

/-- A complete frame is taken from the buffer and from the stream alike. -/
theorem frames_ofPayload (hl : payload.length ≤ maxPayload)
    (hs : stream.bytes = Frame.ofPayload payload ++ rest) :
    Frames stream.bytes (Response.receive stream) (decode Response.ofPayload stream.bytes) := by
  obtain ⟨left, hr, hb⟩ := receive_ofPayload Response.ofPayload hl hs
  rw [hs, Response.receive, hr, decode_ofPayload Response.ofPayload hl, unpack]
  cases hp : Response.ofPayload payload with
  | ok response => exact .message hl hb hp
  | error defect => exact .garbled hl hb hp

/-- Of unfinished bytes neither the stream nor the buffer gives a response. -/
theorem frames_unfinished (h : Unfinished stream.bytes) :
    Frames stream.bytes (Response.receive stream) (decode Response.ofPayload stream.bytes) := by
  unfold Response.receive
  generalize hs : stream.bytes = bytes at h
  cases h with
  | headless hb =>
    have hf := front_of_short hb
    rw [receive_partly _ (hs ▸ hf)]
    simp only [decode, hf]
    exact .headless hb
  | @oversized length body hl hu =>
    have hf : front (header length ++ body) = .oversized := by
      rw [front_header_append hu, if_pos hl]
    obtain ⟨left, hr, hb⟩ := receive_oversized Response.ofPayload (hs ▸ hf)
    rw [hs, List.drop_left' (length_header length)] at hb
    rw [hr]
    simp only [decode, hf]
    exact .oversized hl hu hb
  | @cutOff length body hl hb =>
    have hu := Nat.lt_of_le_of_lt hl (by decide : maxPayload < UInt32.size)
    have hf : front (header length ++ body) = .partly := by
      rw [front_header_append hu, if_neg (Nat.not_lt.mpr hl), if_pos hb]
    rw [receive_partly _ (hs ▸ hf)]
    simp only [decode, hf]
    exact .cutOff hl hb

/-- A frame that is cut short is unfinished, wherever it is cut. -/
theorem partly_of_prefix {bytes : Bytes} (hl : payload.length ≤ maxPayload)
    (hp : bytes <+: Frame.ofPayload payload) (hn : bytes ≠ Frame.ofPayload payload) :
    front bytes = .partly := by
  by_cases hb : bytes.length < headerLength
  · exact front_of_short hb
  obtain ⟨more, hm⟩ := hp
  obtain ⟨length, body, hu, rfl⟩ := exists_header_append (Nat.not_lt.mp hb)
  -- The header is all there, so only bytes of the payload can be missing.
  rw [Frame.ofPayload, List.append_assoc] at hm
  obtain ⟨hh, hbody⟩ := List.append_inj hm (by rw [length_header, length_header])
  have hlen : length = payload.length := by
    have hp := announced_header (Nat.lt_of_le_of_lt hl (by decide))
    rw [← announced_header hu, hh, hp]
  have hshort : body.length < payload.length := by
    have hmore : more ≠ [] := by
      rintro rfl
      rw [List.append_nil] at hbody
      exact hn (by rw [Frame.ofPayload, hlen, hbody])
    have := congrArg List.length hbody
    have := List.length_pos_iff.mpr hmore
    rw [List.length_append] at *
    omega
  rw [front_header_append hu, hlen, if_neg (Nat.not_lt.mpr hl), if_pos hshort]

end

/-- The shapes exclude each other: where the bytes begin with the frame of a response, both readers
have given the response. -/
theorem Frames.eq_message {bytes payload rest : Bytes} {response : Response}
    {received : Received Response} {decoded : Decoded Response}
    (h : Frames bytes received decoded) (hf : front bytes = .whole payload rest)
    (hp : Response.ofPayload payload = .ok response) :
    received.outcome = .ok response ∧ received.rest.bytes = rest ∧
      decoded = ⟨.ok (some response), rest⟩ := by
  cases h with
  | headless hb =>
    rw [front_of_short hb] at hf
    cases hf
  | cutOff hl hb => exact absurd hf (unfinished_iff.mp (.cutOff hl hb) payload rest)
  | oversized hl hu => exact absurd hf (unfinished_iff.mp (.oversized hl hu) payload rest)
  | message hl hs hp' =>
    rw [Frame.ofPayload, front_append hl] at hf
    cases hf
    rw [hp] at hp'
    cases hp'
    exact ⟨rfl, hs, rfl⟩
  | garbled hl _ hp' =>
    rw [Frame.ofPayload, front_append hl] at hf
    cases hf
    rw [hp] at hp'
    cases hp'

/-- Waiting for a response and taking one from a buffer decide alike about all bytes, in whatever
pieces they come. Neither accepts a frame that is cut short. -/
theorem receive_frames (stream : Stream) :
    Frames stream.bytes (Response.receive stream) (decode Response.ofPayload stream.bytes) ∧
      ∀ payload : Bytes, payload.length ≤ 16 * 1024 * 1024 →
        stream.bytes <+: Frame.ofPayload payload → stream.bytes ≠ Frame.ofPayload payload →
          (Response.receive stream).outcome = .error .unexpectedEof ∧
            decode Response.ofPayload stream.bytes = ⟨.ok none, stream.bytes⟩ := by
  constructor
  · rcases unfinished_or_frame stream.bytes with hu | ⟨payload, rest, hl, hs⟩
    · exact frames_unfinished hu
    · exact frames_ofPayload hl hs
  · intro payload hl hp hn
    have hf := partly_of_prefix hl hp hn
    simp only [Response.receive, receive_partly _ hf, decode, hf, and_self]

/-- A fault comes in pieces of three bytes with a byte behind its frame, and either reader gives it
and leaves that byte. Without its last byte the frame gives neither of them anything. -/
theorem receive_frames_cut :
    let response : Response := .faulted (-2) "gone"
    let frame : Bytes := Frame.ofPayload response.payload
    let whole : Stream := .ofBytes 3 (frame ++ [0xff])
    let cut : Stream := .ofBytes 3 frame.dropLast
    ((Response.receive whole).outcome = .ok response ∧
        (Response.receive whole).rest.bytes = [0xff] ∧
        decode Response.ofPayload whole.bytes = ⟨.ok (some response), [0xff]⟩) ∧
      (Response.receive cut).outcome = .error .unexpectedEof ∧
        decode Response.ofPayload cut.bytes = ⟨.ok none, cut.bytes⟩ := by
  intro response frame whole cut
  have hp : Response.ofPayload response.payload = .ok response :=
    Response.ofPayload_payload response (List.forall_mem_nil _) (by decide)
  have hl : response.payload.length ≤ maxPayload := by decide +kernel
  constructor
  · have hb : whole.bytes = frame ++ [0xff] := Stream.bytes_ofBytes 3 _
    have hf : front whole.bytes = .whole response.payload [0xff] := by
      rw [hb]
      exact front_append hl _
    exact (receive_frames whole).1.eq_message hf hp
  · have hb : cut.bytes = frame.dropLast := Stream.bytes_ofBytes 3 _
    refine (receive_frames cut).2 response.payload hl ?_ ?_
    · rw [hb]
      exact List.dropLast_prefix _
    · rw [hb]
      decide +kernel

/-! ## The sender -/

/-- What comes of the frame of a message with this payload. -/
structure AllOrNothing (payload : Bytes) (frame : Except IoError Bytes) : Prop where
  /-- The header has four bytes and announces the payload, the least significant byte first. -/
  measured : payload.length ≤ 16 * 1024 * 1024 →
    (header payload.length).length = 4 ∧ announced (header payload.length) = payload.length
  /-- A payload that is not too large is appended behind its header, and the buffer keeps what it
  holds. -/
  appended : payload.length ≤ 16 * 1024 * 1024 → ∀ buffer : Bytes,
    appendFrame buffer frame = (.ok (), buffer ++ (header payload.length ++ payload))
  /-- Whoever takes that frame from a buffer, whatever message it is taken for, does not find it
  too large. -/
  taken : payload.length ≤ 16 * 1024 * 1024 →
    ∀ {α : Type} (ofPayload : Bytes → Except Defect α) (rest : Bytes),
      (decode ofPayload (header payload.length ++ payload ++ rest)).outcome ≠
        .error .oversized
  /-- Nor does whoever waits for it. -/
  received : payload.length ≤ 16 * 1024 * 1024 →
    ∀ {α : Type} (ofPayload : Bytes → Except Defect α) (stream : Stream) (rest : Bytes),
      stream.bytes = header payload.length ++ payload ++ rest →
        (receive ofPayload stream).outcome ≠ .error .oversized
  /-- A payload that is too large is refused, and the buffer stays as it is. -/
  refused : 16 * 1024 * 1024 < payload.length → ∀ buffer : Bytes,
    appendFrame buffer frame =
      (.error ⟨.invalidData, "payload exceeds 16MB limit"⟩, buffer)

/-- What is written of a call into limited room. -/
structure WritesFront (call : Call) (room : Nat) (written : Written) : Prop where
  /-- Of a call that is too large nothing is written. -/
  nothing : 16 * 1024 * 1024 < call.payload.length → written = ⟨[], .error .oversized⟩
  /-- Of any other call as much of the frame as there is room for. -/
  front : call.payload.length ≤ 16 * 1024 * 1024 → written.bytes =
    (header call.payload.length ++ call.payload).take (min room (call.payload.length + 4))
  /-- It succeeds exactly if the whole frame is written. -/
  ok_iff : call.payload.length ≤ 16 * 1024 * 1024 →
    (written.outcome = .ok () ↔ call.payload.length + 4 ≤ room)

/-- A payload that is too large has no frame. -/
theorem Frame.encode_of_lt {payload : Bytes} (h : maxPayload < payload.length) :
    encode payload = .error .oversized := by
  simp only [encode, if_neg (Nat.not_le.mpr h)]

/-- Encoding is all or nothing, for any payload. -/
theorem encode_allOrNothing (payload : Bytes) : AllOrNothing payload (encode payload) := by
  constructor
  case measured =>
    intro hl
    exact ⟨rfl, announced_header (Nat.lt_of_le_of_lt hl (by decide))⟩
  case appended =>
    intro hl buffer
    simp only [appendFrame, encode_of_le hl]
  case taken =>
    intro hl α ofPayload rest h
    have hd := decode_ofPayload ofPayload hl rest
    rw [Frame.ofPayload] at hd
    simp only [hd] at h
    cases hu : unpack ofPayload payload with
    | ok message =>
      rw [hu] at h
      cases h
    | error error =>
      rw [hu] at h
      cases h
      exact unpack_ne_oversized ofPayload payload hu
  case received =>
    intro hl α ofPayload stream rest hs
    obtain ⟨left, hr, -⟩ := receive_ofPayload ofPayload hl hs
    rw [hr]
    exact unpack_ne_oversized ofPayload payload
  case refused =>
    intro hl buffer
    simp only [appendFrame, encode_of_lt hl]
    rfl

/-- A writer takes the front of the bytes, and all of them exactly if it has the room. -/
theorem writeAll_front (room : Nat) (bytes : Bytes) :
    (writeAll room bytes).bytes = bytes.take (min room bytes.length) ∧
      ((writeAll room bytes).outcome = .ok () ↔ bytes.length ≤ room) := by
  unfold writeAll
  by_cases h : bytes.length ≤ room
  · simp [h]
  · simp [h, Nat.min_eq_left (Nat.le_of_not_le h)]

/-- A call is written from its front on, or not at all. -/
theorem Call.write_front (call : Call) (room : Nat) : WritesFront call room (call.write room) := by
  have hlen : (header call.payload.length ++ call.payload).length = call.payload.length + 4 := by
    rw [List.length_append, length_header, headerLength, Nat.add_comm]
  obtain ⟨hb, ho⟩ := writeAll_front room (header call.payload.length ++ call.payload)
  rw [hlen] at hb ho
  constructor
  case nothing =>
    intro hl
    simp only [write, frame, encode_of_lt hl]
  case front =>
    intro hl
    simp only [write, frame, encode_of_le hl, hb]
  case ok_iff =>
    intro hl
    simp only [write, frame, encode_of_le hl, ho]

/-- A fault is as large as its message at least. -/
theorem Response.length_message_lt (code : Int32) (message : String) :
    message.toList.length < (Response.faulted code message).payload.length := by
  have hl : Layout _ (Response.faulted code message).payload := compact_layout _
  obtain ⟨_, hbody, hlt⟩ := hl.exists_member List.mem_cons_self
  obtain ⟨_, htext, hlt'⟩ := hbody.exists_member (List.mem_cons_of_mem _ List.mem_cons_self)
  cases htext with
  | string =>
    have := length_lt_quoted message
    omega

/-- A call or a response becomes one whole frame, which no reader refuses for its size, or
nothing; and a call is written into limited room from the front of its frame. -/
theorem frame_allOrNothing :
    (∀ call : Call, AllOrNothing call.payload call.frame ∧
      ∀ room, WritesFront call room (call.write room)) ∧
    ∀ response : Response, AllOrNothing response.payload response.frame :=
  ⟨fun call => ⟨encode_allOrNothing call.payload, call.write_front⟩,
    fun response => encode_allOrNothing response.payload⟩

/-- A call becomes its frame behind what the buffer holds, and a writer with room for three bytes
takes the front of its header. A fault with a message of sixteen mebibytes leaves the buffer as it
is. -/
theorem frame_allOrNothing_sides :
    let call : Call := ⟨"a", "/a", "a.b", "stop", [.number (.ofNat 7)]⟩
    let payload : Bytes := .ofText ("\x7b\"destination\":\"a\",\"path\":\"/a\"," ++
      "\"interface\":\"a.b\",\"member\":\"stop\",\"args\":[7]\x7d")
    let response : Response := .faulted 0 (.ofList (.replicate (16 * 1024 * 1024) 'a'))
    appendFrame [0xff] call.frame = (.ok (), 0xff :: 76 :: 0 :: 0 :: 0 :: payload) ∧
      (call.write 3).bytes = [76, 0, 0] ∧ (call.write 3).outcome ≠ .ok () ∧
      appendFrame [0xff] response.frame =
        (.error ⟨.invalidData, "payload exceeds 16MB limit"⟩, [0xff]) := by
  intro call payload response
  have hp : call.payload = payload := by decide +kernel
  have hn : payload.length = 76 := by decide +kernel
  have hl : call.payload.length ≤ 16 * 1024 * 1024 := by
    rw [hp, hn]
    decide
  have hlarge : 16 * 1024 * 1024 < response.payload.length := by
    have hlt := Response.length_message_lt 0 (.ofList (.replicate (16 * 1024 * 1024) 'a'))
    rwa [String.toList_ofList, List.length_replicate] at hlt
  obtain ⟨hcall, hwrite⟩ := frame_allOrNothing.1 call
  refine ⟨?_, ?_, ?_, (frame_allOrNothing.2 response).refused hlarge [0xff]⟩
  · rw [hcall.appended hl, hp, hn]
    rfl
  · rw [(hwrite 3).front hl, hp, hn]
    rfl
  · rw [ne_eq, (hwrite 3).ok_iff hl, hp, hn]
    decide

end BusClient
