import BusClient.Failure
import BusClient.Text.Bytes

/-!
# Frames

A message travels as a frame: the length of its payload in four bytes, the least significant one
first, and then the payload. A payload has at most sixteen mebibytes.

A stream hands out its bytes in pieces of any size; `Stream.take?` waits for an exact number of
them. A buffer holds what has come so far; `front` looks at it without waiting.
-/

namespace BusClient

namespace Frame

/-- The largest payload. -/
def maxPayload : Nat := 16 * 1024 * 1024

/-- The length of a frame's header. -/
def headerLength : Nat := 4

/-- The four bytes that announce a length, the least significant one first. -/
def header (length : Nat) : Bytes :=
  [UInt8.ofNat length, UInt8.ofNat (length / 256), UInt8.ofNat (length / 65536),
    UInt8.ofNat (length / 16777216)]

/-- The length that bytes announce, the least significant one first. -/
def announced : Bytes → Nat
  | [] => 0
  | b :: rest => b.toNat + 256 * announced rest

/-- The frame of a payload, unless the payload is too large. -/
def encode (payload : Bytes) : Except IoError Bytes :=
  let length := payload.length
  if length ≤ maxPayload then .ok (header length ++ payload) else .error .oversized

theorem length_header (length : Nat) : (header length).length = headerLength := rfl

/-- A length below four gibibytes is announced as itself. -/
theorem announced_header {length : Nat} (h : length < UInt32.size) :
    announced (header length) = length := by
  have hs : UInt32.size = 4294967296 := rfl
  simp only [header, announced, UInt8.toNat_ofNat']
  omega

/-- What stands at the front of a buffer. -/
inductive Front
  /-- Not yet a whole frame. -/
  | partly
  /-- A header that announces too large a payload. -/
  | oversized
  /-- A frame with this payload, and the bytes behind it. -/
  | whole (payload rest : Bytes)
  deriving DecidableEq, Repr

/-- Looks at the front of a buffer. -/
def front (buffer : Bytes) : Front :=
  match buffer with
  | a :: b :: c :: d :: rest =>
    let length := announced [a, b, c, d]
    if maxPayload < length then .oversized
    else if rest.length < length then .partly
    else .whole (rest.take length) (rest.drop length)
  | _ => .partly

/-- A frame at the front of a buffer is seen whole, whatever stands behind it. -/
theorem front_append {payload : Bytes} (h : payload.length ≤ maxPayload) (rest : Bytes) :
    front (header payload.length ++ payload ++ rest) = .whole payload rest := by
  have hl : payload.length < UInt32.size := Nat.lt_of_le_of_lt h (by decide)
  have ha := announced_header hl
  simp only [header] at ha
  simp only [header, List.cons_append, List.nil_append, front, ha, List.length_append]
  rw [if_neg (by omega), if_neg (by omega)]
  simp

end Frame

/-- The bytes that a peer sends, in the pieces in which they arrive. The stream ends behind the last
piece. An empty piece brings nothing and ends nothing: waiting goes on with the next one. -/
abbrev Stream := List Bytes

namespace Stream

/-- All the bytes that are still to come. -/
def bytes (stream : Stream) : Bytes := stream.flatten

/-- How many bytes are still to come. -/
def size (stream : Stream) : Nat := stream.foldr (fun piece n => piece.length + n) 0

theorem size_cons (piece : Bytes) (more : Stream) :
    size (piece :: more) = piece.length + size more := rfl

theorem bytes_cons (piece : Bytes) (more : Stream) :
    bytes (piece :: more) = piece ++ bytes more := rfl

theorem size_eq (stream : Stream) : stream.size = stream.bytes.length := by
  induction stream with
  | nil => rfl
  | cons piece more ih => rw [size_cons, ih, bytes_cons, List.length_append]

/-- The stream that hands out bytes in pieces of at most this size. -/
def ofBytes (size : Nat) (bytes : Bytes) : Stream :=
  if bytes = [] ∨ size = 0 then [bytes]
  else bytes.take size :: ofBytes size (bytes.drop size)
termination_by bytes.length
decreasing_by
  rename_i h
  simp only [List.length_drop]
  have : 0 < bytes.length := List.length_pos_iff.mpr (fun e => h (.inl e))
  omega

/-- Cutting bytes into pieces loses none of them. -/
theorem bytes_ofBytes (size : Nat) (all : Bytes) : (ofBytes size all).bytes = all := by
  fun_induction ofBytes size all with
  | case1 all => simp [bytes]
  | case2 all _ ih => rw [bytes_cons, ih, List.take_append_drop]

/-- Waits until so many bytes have come, unless the stream ends before; `done` holds the pieces
so far, the last one first. -/
def fill (done : List Bytes) : (wanted : Nat) → Stream → Option (Bytes × Stream)
  | 0, stream => some (done.reverse.flatten, stream)
  | _ + 1, [] => none
  | wanted + 1, piece :: more =>
    if wanted + 1 ≤ piece.length then
      some ((piece.take (wanted + 1) :: done).reverse.flatten, piece.drop (wanted + 1) :: more)
    else
      fill (piece :: done) (wanted + 1 - piece.length) more

/-- The next so many bytes, unless the stream ends before. -/
def take? (wanted : Nat) (stream : Stream) : Option (Bytes × Stream) := fill [] wanted stream

/-- How the pieces are cut does not matter: either the stream is too short, or the bytes come from
its front. -/
theorem fill_cases (done : List Bytes) (wanted : Nat) (stream : Stream) :
    fill done wanted stream = none ∧ stream.size < wanted ∨
    ∃ rest, fill done wanted stream =
        some (done.reverse.flatten ++ stream.bytes.take wanted, rest) ∧
      rest.bytes = stream.bytes.drop wanted ∧ wanted ≤ stream.size := by
  induction stream generalizing done wanted with
  | nil =>
    cases wanted with
    | zero => exact .inr ⟨[], by simp [fill, bytes]⟩
    | succ wanted => exact .inl ⟨rfl, by simp [size]⟩
  | cons piece more ih =>
    cases wanted with
    | zero => exact .inr ⟨piece :: more, by simp [fill, bytes]⟩
    | succ wanted =>
      simp only [fill]
      by_cases h : wanted + 1 ≤ piece.length
      · right
        refine ⟨piece.drop (wanted + 1) :: more, ?_, ?_, ?_⟩
        · simp [h, bytes, List.take_append, Nat.sub_eq_zero_of_le h]
        · simp [bytes, List.drop_append, Nat.sub_eq_zero_of_le h]
        · simp only [size_cons]; omega
      · rw [if_neg h]
        rcases ih (piece :: done) (wanted + 1 - piece.length) with ⟨hf, hs⟩ | ⟨rest, hf, hr, hs⟩
        · exact .inl ⟨hf, by simp only [size_cons] at hs ⊢; omega⟩
        · refine .inr ⟨rest, ?_, ?_, ?_⟩
          · have ht : piece.take (wanted + 1) = piece := List.take_of_length_le (by omega)
            simp [hf, bytes, List.take_append, ht]
          · have hd : piece.drop (wanted + 1) = [] := List.drop_eq_nil_of_le (by omega)
            simp [hr, bytes_cons, List.drop_append, hd]
          · simp only [size_cons] at hs ⊢; omega

/-- Only a stream that is too short does not fill the request. -/
theorem take?_eq_none_iff {wanted : Nat} {stream : Stream} :
    stream.take? wanted = none ↔ stream.size < wanted := by
  rcases fill_cases [] wanted stream with ⟨hf, hs⟩ | ⟨rest, hf, _, hs⟩
  · simp [take?, hf, hs]
  · simp [take?, hf, Nat.not_lt.mpr hs]

/-- What was waited for is the front of all the bytes, and the rest of them stays. -/
theorem bytes_of_take? {wanted : Nat} {stream rest : Stream} {bytes : Bytes}
    (h : stream.take? wanted = some (bytes, rest)) :
    bytes = stream.bytes.take wanted ∧ rest.bytes = stream.bytes.drop wanted := by
  rcases fill_cases [] wanted stream with ⟨hf, _⟩ | ⟨rest', hf, hr, _⟩
  · simp [take?, hf] at h
  · simp only [take?, hf, List.reverse_nil, List.flatten_nil, List.nil_append, Option.some.injEq,
      Prod.mk.injEq] at h
    exact ⟨h.1.symm, h.2 ▸ hr⟩

end Stream

/-- What a writer with room for so many bytes takes of them, and whether that is all. -/
structure Written where
  bytes : Bytes
  outcome : Except IoError Unit

/-- Writes bytes into limited room. -/
def writeAll (room : Nat) (bytes : Bytes) : Written :=
  if bytes.length ≤ room then ⟨bytes, .ok ()⟩ else ⟨bytes.take room, .error .writeZero⟩

end BusClient
