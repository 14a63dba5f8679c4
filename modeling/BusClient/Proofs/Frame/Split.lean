import BusClient.Proofs.Frame.Front

/-!
# Bytes as frames and a tail

Every sequence of bytes is in exactly one way a run of complete frames and a tail at whose front
no frame is complete. `Unfinished` names the three shapes of such a tail, and it is what
`Frame.front` sees whenever it sees no whole frame.
-/

namespace BusClient.Frame

/-- The frame of a payload, which is complete if the payload is small enough. -/
def ofPayload (payload : Bytes) : Bytes := header payload.length ++ payload

theorem length_ofPayload (payload : Bytes) :
    (ofPayload payload).length = headerLength + payload.length := by
  rw [ofPayload, List.length_append, length_header]

/-- Bytes at whose front no frame is complete. -/
inductive Unfinished : Bytes → Prop
  /-- There are too few bytes for a header. -/
  | headless {bytes : Bytes} (h : bytes.length < headerLength) : Unfinished bytes
  /-- The header announces too large a payload, whatever follows it. -/
  | oversized {length : Nat} {body : Bytes} (hl : maxPayload < length)
      (hu : length < UInt32.size) : Unfinished (header length ++ body)
  /-- The header announces more bytes than follow it. -/
  | cutOff {length : Nat} {body : Bytes} (hl : length ≤ maxPayload) (hb : body.length < length) :
      Unfinished (header length ++ body)

/-- Bytes are unfinished exactly if no whole frame is seen at their front. -/
theorem unfinished_iff {bytes : Bytes} :
    Unfinished bytes ↔ ∀ payload rest, front bytes ≠ .whole payload rest := by
  constructor
  · intro h payload rest hf
    cases h with
    | headless h =>
      rw [front_of_short h] at hf
      cases hf
    | oversized hl hu =>
      rw [front_header_append hu, if_pos hl] at hf
      cases hf
    | cutOff hl hb =>
      have hu := Nat.lt_of_le_of_lt hl (by decide : maxPayload < UInt32.size)
      rw [front_header_append hu, if_neg (Nat.not_lt.mpr hl), if_pos hb] at hf
      cases hf
  · intro h
    by_cases hs : bytes.length < headerLength
    · exact .headless hs
    obtain ⟨length, body, hu, rfl⟩ := exists_header_append (Nat.not_lt.mp hs)
    by_cases hl : maxPayload < length
    · exact .oversized hl hu
    by_cases hb : body.length < length
    · exact .cutOff (Nat.not_lt.mp hl) hb
    · have hw := front_header_append hu body
      rw [if_neg hl, if_neg hb] at hw
      exact absurd hw (h _ _)

/-- Bytes that are the frames of some payloads, one behind the other, and a tail that is no
frame. -/
structure Splits (bytes : Bytes) (payloads : List Bytes) (tail : Bytes) : Prop where
  bytes_eq : bytes = payloads.flatMap ofPayload ++ tail
  small : ∀ payload ∈ payloads, payload.length ≤ maxPayload
  unfinished : Unfinished tail

/-- One more frame in front is one more payload. -/
theorem Splits.cons {bytes tail payload : Bytes} {payloads : List Bytes}
    (h : Splits bytes payloads tail) (hl : payload.length ≤ maxPayload) :
    Splits (ofPayload payload ++ bytes) (payload :: payloads) tail where
  bytes_eq := by rw [h.bytes_eq, List.flatMap_cons, List.append_assoc]
  small := List.forall_mem_cons.mpr ⟨hl, h.small⟩
  unfinished := h.unfinished

/-- The first of some frames is what is seen at the front. -/
theorem Splits.front_eq {bytes tail payload : Bytes} {payloads : List Bytes}
    (h : Splits bytes (payload :: payloads) tail) :
    front bytes = .whole payload (payloads.flatMap ofPayload ++ tail) ∧
      Splits (payloads.flatMap ofPayload ++ tail) payloads tail := by
  obtain ⟨hl, hm⟩ := List.forall_mem_cons.mp h.small
  have hb := h.bytes_eq
  rw [List.flatMap_cons, List.append_assoc] at hb
  exact ⟨hb ▸ front_append hl _, rfl, hm, h.unfinished⟩

/-- Without a frame all bytes are the tail. -/
theorem Splits.eq_tail {bytes tail : Bytes} (h : Splits bytes [] tail) : bytes = tail :=
  h.bytes_eq

/-- Bytes split in one way at most. -/
theorem Splits.unique {bytes tail tail' : Bytes} {payloads payloads' : List Bytes}
    (h : Splits bytes payloads tail) (h' : Splits bytes payloads' tail') :
    payloads' = payloads ∧ tail' = tail := by
  -- By induction on one of the two runs: the front decides whether the other one goes on.
  induction payloads generalizing bytes payloads' with
  | nil =>
    have hu := unfinished_iff.mp (h.eq_tail ▸ h.unfinished)
    cases payloads' with
    | nil => exact ⟨rfl, h'.eq_tail.symm.trans h.eq_tail⟩
    | cons payload' payloads' => exact absurd h'.front_eq.1 (hu _ _)
  | cons payload payloads ih =>
    obtain ⟨hf, hr⟩ := h.front_eq
    cases payloads' with
    | nil =>
      have hu := unfinished_iff.mp (h'.eq_tail ▸ h'.unfinished)
      exact absurd hf (hu _ _)
    | cons payload' payloads' =>
      obtain ⟨hf', hr'⟩ := h'.front_eq
      obtain ⟨rfl, he⟩ := Front.whole.inj (hf.symm.trans hf')
      obtain ⟨rfl, rfl⟩ := ih hr (he ▸ hr')
      exact ⟨rfl, rfl⟩

/-- All bytes split. -/
theorem exists_splits (bytes : Bytes) : ∃ payloads tail, Splits bytes payloads tail := by
  -- By induction on how many bytes there are: a whole frame at the front is taken off.
  induction hn : bytes.length using Nat.strongRecOn generalizing bytes with
  | ind n ih =>
    cases hf : front bytes with
    | whole payload rest =>
      obtain ⟨hl, hb⟩ := eq_append_of_front hf
      have hlt : rest.length < n := by
        rw [← hn, hb, List.length_append, List.length_append, length_header, headerLength]
        omega
      obtain ⟨payloads, tail, hs⟩ := ih rest.length hlt rest rfl
      rw [hb]
      exact ⟨payload :: payloads, tail, hs.cons hl⟩
    | partly => exact ⟨[], bytes, rfl, List.forall_mem_nil _, unfinished_iff.mpr (by simp [hf])⟩
    | oversized => exact ⟨[], bytes, rfl, List.forall_mem_nil _, unfinished_iff.mpr (by simp [hf])⟩

end BusClient.Frame
