import BusClient.Proofs.Frame.Front
import BusClient.Proofs.Message.Reading

/-!
# Messages come back from the wire

A message that fits a frame is sent, and whoever reads the frame has the same message and exactly
the bytes that follow it. The daemon's side takes calls from a buffer; the client waits for
responses on a stream, whose pieces may be cut anywhere.
-/

namespace BusClient

open BusClient.Frame BusClient.Json

/-- A payload that is small enough travels behind its header. -/
theorem Frame.encode_of_le {payload : Bytes} (h : payload.length ≤ maxPayload) :
    encode payload = .ok (header payload.length ++ payload) := by
  simp only [encode, if_pos h]

/-- There is a frame only of a payload that is small enough: the header and then the payload. -/
theorem Frame.encode_eq_ok_iff {payload frame : Bytes} : encode payload = .ok frame ↔
    payload.length ≤ maxPayload ∧ frame = header payload.length ++ payload := by
  unfold encode
  by_cases h : payload.length ≤ maxPayload <;> simp [h, eq_comm]

/-- A writer with enough room takes all bytes. -/
theorem writeAll_of_le {room : Nat} {bytes : Bytes} (h : bytes.length ≤ room) :
    writeAll room bytes = ⟨bytes, .ok ()⟩ := by
  simp only [writeAll, if_pos h]

/-- A frame at the front of a buffer gives its message, if the payload holds one. -/
theorem decode_frame {α : Type} {ofPayload : Bytes → Except Defect α} {payload : Bytes}
    {message : α} (hp : ofPayload payload = .ok message) (hl : payload.length ≤ maxPayload)
    (rest : Bytes) :
    decode ofPayload (header payload.length ++ payload ++ rest) = ⟨.ok (some message), rest⟩ := by
  simp only [decode, front_append hl, unpack, hp]
  rfl

/-- A call that is written is decoded as the same call, whatever follows it: every argument stands
at its place, every member in its order, and every number has its spelling. -/
theorem Call.decode_write_append (call : Call) (hr : ∀ v ∈ call.args, Readable v)
    (hd : call.document.depth ≤ 127) (hl : call.payload.length ≤ 16 * 1024 * 1024) {room : Nat}
    (hroom : 4 + call.payload.length ≤ room) (rest : Bytes) :
    (call.write room).outcome = .ok () ∧
      Call.decode ((call.write room).bytes ++ rest) = ⟨.ok (some call), rest⟩ := by
  have hlen : (header call.payload.length ++ call.payload).length ≤ room := by
    rw [List.length_append, length_header]
    exact hroom
  have hw : call.write room = ⟨header call.payload.length ++ call.payload, .ok ()⟩ := by
    simp only [write, frame, encode_of_le hl, writeAll_of_le hlen]
  rw [hw]
  exact ⟨rfl, decode_frame (ofPayload_payload call hr hd) hl rest⟩

/-- A value with members in no particular order, a control character, a number beyond all machine
words, and lists and objects inside one another. -/
def nestedValue : Value :=
  .object [("z", .array [.null, .bool true, .array []]), ("", .string "é\x01\"\n"),
    ("a", .number ⟨true, 123456789012345678901234567890, Decimal.digits 205,
      some ⟨true, Digit.zero, Decimal.digits 7⟩⟩)]

theorem nestedValue_readable : Readable nestedValue := by
  refine .object (by decide) (by decide) ?_
  intro m hm
  simp only [List.mem_cons, List.not_mem_nil, or_false] at hm
  rcases hm with rfl | rfl | rfl
  · refine .array ?_
    intro item hi
    simp only [List.mem_cons, List.not_mem_nil, or_false] at hi
    rcases hi with rfl | rfl | rfl
    · exact .null
    · exact .bool true
    · exact .array (List.forall_mem_nil _)
  · exact .string _
  · exact .number _

/-- A call with odd names and a nested argument comes back, and the bytes behind it stay. -/
theorem Call.decode_write_append_nested :
    let call : Call := ⟨"", "/\\\x7f", "ü", "\t", [nestedValue, .string "𝄞"]⟩
    (call.write 200).outcome = .ok () ∧
      Call.decode ((call.write 200).bytes ++ [0xff, 0x00]) = ⟨.ok (some call), [0xff, 0x00]⟩ := by
  refine decode_write_append _ ?_ (by decide) (by decide +kernel) (by decide +kernel) _
  intro v hv
  simp only [List.mem_cons, List.not_mem_nil, or_false] at hv
  rcases hv with rfl | rfl
  · exact nestedValue_readable
  · exact .string _

/-- A response that is encoded is received as the same response: its frame is appended to any
buffer, and read from any stream that begins with its bytes, up to the bytes that follow. -/
theorem Response.receive_encoded (response : Response)
    (hr : ∀ v ∈ response.carried, Readable v) (hd : response.document.depth ≤ 127)
    (hl : response.payload.length ≤ 16 * 1024 * 1024) :
    ∃ bytes : Bytes,
      (∀ buffer : Bytes, appendFrame buffer response.frame = (.ok (), buffer ++ bytes)) ∧
      ∀ (stream : Stream) (rest : Bytes), stream.bytes = bytes ++ rest →
        ∃ left : Stream, Response.receive stream = ⟨.ok response, left⟩ ∧ left.bytes = rest := by
  refine ⟨header response.payload.length ++ response.payload, ?_, ?_⟩
  · intro buffer
    simp only [appendFrame, frame, encode_of_le hl]
  · intro stream rest hs
    have hf : front stream.bytes = .whole response.payload rest := by
      rw [hs, front_append hl]
    obtain ⟨left, hleft, hb⟩ := receive_whole Response.ofPayload hf
    refine ⟨left, ?_, hb⟩
    rw [Response.receive, hleft, unpack, ofPayload_payload response hr hd]

/-- A return with a nested value comes back from a stream of uneven pieces. -/
theorem Response.receive_encoded_nested :
    let response : Response := .returned (-7) [nestedValue, .number (.ofInt 0)]
    ∃ bytes : Bytes,
      (∀ buffer : Bytes, appendFrame buffer response.frame = (.ok (), buffer ++ bytes)) ∧
      ∀ (stream : Stream) (rest : Bytes), stream.bytes = bytes ++ rest →
        ∃ left : Stream, Response.receive stream = ⟨.ok response, left⟩ ∧ left.bytes = rest := by
  refine receive_encoded _ ?_ (by decide) (by decide +kernel)
  intro v hv
  simp only [carried, List.mem_cons, List.not_mem_nil, or_false] at hv
  rcases hv with rfl | rfl
  · exact nestedValue_readable
  · exact .number _

end BusClient
