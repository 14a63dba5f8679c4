import BusClient.Wire

/-!
# What stands at the front of the bytes

Four bytes are the header of exactly one length, so every sequence of bytes is either shorter
than a header or a header followed by a body. Waiting on a stream and looking at a buffer see the
same front: `receive_whole`, `receive_partly` and `receive_oversized` say what waiting makes of
it, however the stream is cut into pieces.
-/

namespace BusClient

namespace Frame

/-- Four bytes announce a length of thirty-two bits. -/
theorem announced_lt {bytes : Bytes} (h : bytes.length = headerLength) :
    announced bytes < UInt32.size := by
  obtain ⟨a, b, c, d, rfl⟩ : ∃ a b c d, bytes = [a, b, c, d] := by
    match bytes, h with
    | [a, b, c, d], _ => exact ⟨a, b, c, d, rfl⟩
  have hs : UInt32.size = 4294967296 := rfl
  have ha := a.toNat_lt
  have hb := b.toNat_lt
  have hc := c.toNat_lt
  have hd := d.toNat_lt
  simp only [announced]
  omega

/-- Four bytes are the header of the length that they announce. -/
theorem header_announced {bytes : Bytes} (h : bytes.length = headerLength) :
    header (announced bytes) = bytes := by
  obtain ⟨a, b, c, d, rfl⟩ : ∃ a b c d, bytes = [a, b, c, d] := by
    match bytes, h with
    | [a, b, c, d], _ => exact ⟨a, b, c, d, rfl⟩
  have ha := a.toNat_lt
  have hb := b.toNat_lt
  have hc := c.toNat_lt
  have hd := d.toNat_lt
  simp only [header, announced, List.cons.injEq, and_true]
  refine ⟨?_, ?_, ?_, ?_⟩ <;>
    · apply UInt8.toNat_inj.mp
      simp only [UInt8.toNat_ofNat']
      omega

/-- Bytes that are not too few begin with a header. -/
theorem exists_header_append {buffer : Bytes} (h : headerLength ≤ buffer.length) :
    ∃ length body, length < UInt32.size ∧ buffer = header length ++ body := by
  have ht : (buffer.take headerLength).length = headerLength := by
    rw [List.length_take, Nat.min_eq_left h]
  refine ⟨announced (buffer.take headerLength), buffer.drop headerLength, announced_lt ht, ?_⟩
  rw [header_announced ht, List.take_append_drop]

/-- Too few bytes for a header are not yet a frame. -/
theorem front_of_short {buffer : Bytes} (h : buffer.length < headerLength) :
    front buffer = .partly := by
  match buffer, h with
  | [], _ => rfl
  | [_], _ => rfl
  | [_, _], _ => rfl
  | [_, _, _], _ => rfl

/-- Behind a header only the announced length and the number of bytes that came matter. -/
theorem front_header_append {length : Nat} (h : length < UInt32.size) (body : Bytes) :
    front (header length ++ body) =
      if maxPayload < length then .oversized
      else if body.length < length then .partly
      else .whole (body.take length) (body.drop length) := by
  have ha := announced_header h
  simp only [header] at ha
  simp only [header, List.cons_append, List.nil_append, front, ha]

/-- A whole frame is its header and its payload. -/
theorem eq_append_of_front {buffer payload rest : Bytes} (h : front buffer = .whole payload rest) :
    payload.length ≤ maxPayload ∧ buffer = header payload.length ++ payload ++ rest := by
  by_cases hb : buffer.length < headerLength
  · simp [front_of_short hb] at h
  obtain ⟨length, body, hl, rfl⟩ := exists_header_append (Nat.not_lt.mp hb)
  rw [front_header_append hl] at h
  split at h
  · cases h
  next hm =>
    split at h
    · cases h
    next hc =>
      cases h
      have hn : (body.take length).length = length := by
        rw [List.length_take, Nat.min_eq_left (Nat.not_lt.mp hc)]
      rw [hn, List.append_assoc, List.take_append_drop]
      exact ⟨Nat.not_lt.mp hm, rfl⟩

end Frame

namespace Stream

/-- Only a stream with too few bytes does not fill a request. -/
theorem take?_eq_none_iff_bytes {stream : Stream} {wanted : Nat} :
    stream.take? wanted = none ↔ stream.bytes.length < wanted := by
  rw [take?_eq_none_iff, size_eq]

/-- Enough bytes are handed out from the front. -/
theorem exists_take? {stream : Stream} {wanted : Nat} (h : wanted ≤ stream.bytes.length) :
    ∃ rest, stream.take? wanted = some (stream.bytes.take wanted, rest) ∧
      rest.bytes = stream.bytes.drop wanted := by
  cases ht : stream.take? wanted with
  | none => exact absurd (take?_eq_none_iff_bytes.mp ht) (Nat.not_lt.mpr h)
  | some found =>
    obtain ⟨bytes, rest⟩ := found
    obtain ⟨rfl, hr⟩ := bytes_of_take? ht
    exact ⟨rest, rfl, hr⟩

end Stream

open BusClient.Frame BusClient.Json

variable {α : Type} (ofPayload : Bytes → Except Defect α)

private theorem take?_header {stream : Stream} {length : Nat} {body : Bytes}
    (hs : stream.bytes = header length ++ body) :
    ∃ rest : Stream, stream.take? headerLength = some (header length, rest) ∧
      rest.bytes = body := by
  have hlen : headerLength ≤ stream.bytes.length := by
    rw [hs, List.length_append, length_header]
    exact Nat.le_add_right _ _
  obtain ⟨rest, ht, hr⟩ := Stream.exists_take? hlen
  rw [hs, List.take_left' (length_header length)] at ht
  rw [hs, List.drop_left' (length_header length)] at hr
  exact ⟨rest, ht, hr⟩

/-- Waiting for a frame that comes whole reads its payload and leaves the bytes behind it. -/
theorem receive_whole {stream : Stream} {payload rest : Bytes}
    (h : front stream.bytes = .whole payload rest) :
    ∃ left : Stream, receive ofPayload stream = ⟨unpack ofPayload payload, left⟩ ∧
      left.bytes = rest := by
  obtain ⟨hm, hs⟩ := eq_append_of_front h
  have hl : payload.length < UInt32.size := Nat.lt_of_le_of_lt hm (by decide)
  rw [List.append_assoc] at hs
  obtain ⟨body, ht, hb⟩ := take?_header hs
  have hn : payload.length ≤ body.bytes.length := by
    rw [hb, List.length_append]
    exact Nat.le_add_right _ _
  obtain ⟨left, ht', hr⟩ := Stream.exists_take? hn
  rw [hb, List.take_left' rfl] at ht'
  rw [hb, List.drop_left' rfl] at hr
  refine ⟨left, ?_, hr⟩
  simp only [receive, ht, announced_header hl, if_neg (Nat.not_lt.mpr hm), ht']

/-- Waiting for a frame that is announced too large consumes only the header. -/
theorem receive_oversized {stream : Stream} (h : front stream.bytes = .oversized) :
    ∃ left : Stream, receive ofPayload stream = ⟨.error .oversized, left⟩ ∧
      left.bytes = stream.bytes.drop headerLength := by
  by_cases hb : stream.bytes.length < headerLength
  · simp [front_of_short hb] at h
  obtain ⟨length, body, hl, hs⟩ := exists_header_append (Nat.not_lt.mp hb)
  obtain ⟨left, ht, hleft⟩ := take?_header hs
  rw [hs, front_header_append hl] at h
  split at h
  next hm =>
    refine ⟨left, ?_, ?_⟩
    · simp only [receive, ht, announced_header hl, if_pos hm]
    · rw [hleft, hs, List.drop_left' (length_header length)]
  · split at h <;> cases h

/-- Waiting for a frame that never comes whole uses the stream up. -/
theorem receive_partly {stream : Stream} (h : front stream.bytes = .partly) :
    receive ofPayload stream = ⟨.error .unexpectedEof, []⟩ := by
  by_cases hb : stream.bytes.length < headerLength
  · simp only [receive, Stream.take?_eq_none_iff_bytes.mpr hb]
  obtain ⟨length, body, hl, hs⟩ := exists_header_append (Nat.not_lt.mp hb)
  obtain ⟨left, ht, hleft⟩ := take?_header hs
  rw [hs, front_header_append hl] at h
  split at h
  · cases h
  next hm =>
    split at h
    next hc =>
      have ht' : left.take? length = none := Stream.take?_eq_none_iff_bytes.mpr (hleft ▸ hc)
      simp only [receive, ht, announced_header hl, if_neg hm, ht']
    · cases h

end BusClient
