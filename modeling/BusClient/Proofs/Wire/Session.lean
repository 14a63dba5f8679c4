import BusClient.Proofs.Frame.Split
import BusClient.Proofs.Message.Reading

/-!
# Taking calls from bytes that come bit by bit

The daemon's side appends what arrives to its buffer and takes calls from the front whenever it
likes. A `Session` is the buffer together with the outcomes so far. Whatever the pieces are and
whenever a call is asked for, the frames that have been taken and the buffer make up the bytes
that have arrived, and each frame has given the outcome that it gives alone. Once nothing more
comes of the buffer, it is the tail behind all complete frames.
-/

namespace BusClient

open BusClient.Frame BusClient.Json

/-! ## A single look -/

/-- Whether a look at the buffer has taken nothing: there is no whole frame yet, or there will
never be one because too large a payload is announced. -/
def isIdle {α : Type} : Except IoError (Option α) → Bool
  | .ok none => true
  | .ok (some _) => false
  | .error error => error == .oversized

/-- Whether a text starts with another character than this one. -/
def startsOther (c : Char) (text : String) : Bool := text.toList.head?.any (· != c)

theorem startsOther_append {c : Char} {text : String} (h : startsOther c text = true)
    (more : String) : startsOther c (text ++ more) = true := by
  unfold startsOther at h ⊢
  rw [String.toList_append]
  cases ht : text.toList with
  | nil =>
    rw [ht] at h
    cases h
  | cons d rest =>
    rw [ht] at h
    exact h

/-- No cause is worded like the refusal of a large payload. -/
theorem startsOther_words (cause : Cause) : startsOther 'p' cause.words = true := by
  cases cause with
  | wrongType | wrongValue | wrongLength | unknownVariant | missingField | duplicateField =>
    -- The words begin with fixed ones, whatever name or finding comes after them.
    unfold Cause.words
    repeat apply startsOther_append
    decide
  | _ => decide

/-- A payload that is not the wanted message is not mistaken for one that is too large. -/
theorem garbled_ne_oversized (defect : Defect) : garbled defect ≠ .oversized := by
  intro h
  have hs : startsOther 'p' defect.message = true :=
    startsOther_append (startsOther_words defect.cause) _
  have ht : defect.message = "payload exceeds 16MB limit" := congrArg IoError.text h
  rw [ht] at hs
  exact absurd hs (by decide)

section

variable {α : Type} (ofPayload : Bytes → Except Defect α)

/-- What comes of a payload is never idle. -/
theorem isIdle_unpack (payload : Bytes) :
    isIdle ((unpack ofPayload payload).map some) = false := by
  unfold unpack
  split
  · rfl
  next defect _ => exact beq_eq_false_iff_ne.mpr (garbled_ne_oversized defect)

/-- A frame at the front is taken, whatever becomes of its payload. -/
theorem decode_ofPayload {payload : Bytes} (hl : payload.length ≤ maxPayload) (rest : Bytes) :
    decode ofPayload (Frame.ofPayload payload ++ rest) =
      ⟨(unpack ofPayload payload).map some, rest⟩ := by
  have hf : front (Frame.ofPayload payload ++ rest) = .whole payload rest := front_append hl rest
  simp only [decode, hf]

/-- Of unfinished bytes nothing is taken. -/
theorem decode_unfinished {buffer : Bytes} (h : Unfinished buffer) :
    isIdle (decode ofPayload buffer).outcome = true ∧
      (decode ofPayload buffer).rest = buffer := by
  have hu := unfinished_iff.mp h
  unfold decode
  cases hf : front buffer with
  | partly => exact ⟨rfl, rfl⟩
  | oversized => exact ⟨beq_self_eq_true IoError.oversized, rfl⟩
  | whole payload rest => exact absurd hf (hu payload rest)

/-- A buffer is unfinished, or a look takes the frame at its front. -/
theorem unfinished_or_frame (buffer : Bytes) : Unfinished buffer ∨
    ∃ payload rest, payload.length ≤ maxPayload ∧ buffer = Frame.ofPayload payload ++ rest := by
  cases hf : front buffer with
  | whole payload rest =>
    obtain ⟨hl, hb⟩ := eq_append_of_front hf
    exact .inr ⟨payload, rest, hl, hb⟩
  | partly => exact .inl (unfinished_iff.mpr (by simp [hf]))
  | oversized => exact .inl (unfinished_iff.mpr (by simp [hf]))

/-- A look is idle exactly at unfinished bytes. -/
theorem isIdle_decode_iff {buffer : Bytes} :
    isIdle (decode ofPayload buffer).outcome = true ↔ Unfinished buffer := by
  constructor
  · intro h
    rcases unfinished_or_frame buffer with hu | ⟨payload, rest, hl, rfl⟩
    · exact hu
    · rw [decode_ofPayload ofPayload hl, isIdle_unpack] at h
      cases h
  · exact fun h => (decode_unfinished ofPayload h).1

/-- An idle look leaves the buffer as it is. -/
theorem rest_of_idle {buffer : Bytes} (h : isIdle (decode ofPayload buffer).outcome = true) :
    (decode ofPayload buffer).rest = buffer :=
  (decode_unfinished ofPayload ((isIdle_decode_iff ofPayload).mp h)).2

/-- Any other look takes at least a header. -/
theorem length_rest_of_busy {buffer : Bytes}
    (h : isIdle (decode ofPayload buffer).outcome = false) :
    (decode ofPayload buffer).rest.length + headerLength ≤ buffer.length := by
  rcases unfinished_or_frame buffer with hu | ⟨payload, rest, hl, rfl⟩
  · rw [(isIdle_decode_iff ofPayload).mpr hu] at h
    cases h
  · have hr : (decode ofPayload (Frame.ofPayload payload ++ rest)).rest = rest := by
      rw [decode_ofPayload ofPayload hl]
    rw [hr, List.length_append, length_ofPayload]
    omega

end

/-! ## Sessions -/

/-- Something that happens to the buffer: bytes arrive, or a call is taken from its front. -/
inductive Turn
  | feed (bytes : Bytes)
  | decode

/-- The bytes that arrive in a turn. -/
def Turn.bytes : Turn → Bytes
  | feed bytes => bytes
  | decode => []

/-- All bytes that arrive. -/
def fed (turns : List Turn) : Bytes := turns.flatMap Turn.bytes

/-- A buffer, and what came of the looks at it so far, in order. -/
structure Session where
  buffer : Bytes
  outcomes : List (Except IoError (Option Call))

namespace Session

/-- Nothing has arrived. -/
def start : Session := ⟨[], []⟩

/-- A call is taken from the front of the buffer. -/
def look (session : Session) : Session :=
  ⟨(Call.decode session.buffer).rest,
    session.outcomes ++ [(Call.decode session.buffer).outcome]⟩

/-- The session after one more turn. -/
def turn (session : Session) : Turn → Session
  | .feed bytes => ⟨session.buffer ++ bytes, session.outcomes⟩
  | .decode => session.look

/-- The session after some turns. -/
def run (session : Session) (turns : List Turn) : Session := turns.foldl turn session

/-- What came of frames: the outcomes but the idle ones. -/
def messages (session : Session) : List (Except IoError (Option Call)) :=
  session.outcomes.filter (!isIdle ·)

/-- Looking until a look is idle. -/
inductive Drains : Session → Session → Prop
  | last {session : Session} (h : isIdle (Call.decode session.buffer).outcome = true) :
      Drains session session.look
  | more {session final : Session} (h : isIdle (Call.decode session.buffer).outcome = false)
      (hd : Drains session.look final) : Drains session final

end Session

/-- What comes of a frame that stands alone in the buffer. -/
def alone (payload : Bytes) : Except IoError (Option Call) :=
  (Call.decode (Frame.ofPayload payload)).outcome

theorem alone_eq {payload : Bytes} (hl : payload.length ≤ maxPayload) :
    alone payload = (unpack Call.ofPayload payload).map some := by
  have hd := decode_ofPayload Call.ofPayload hl []
  rw [List.append_nil] at hd
  rw [alone, Call.decode, hd]

/-- The frames taken so far, and what is left of the bytes that have arrived. -/
structure Session.Accounts (session : Session) (arrived : Bytes) (taken : List Bytes) : Prop where
  bytes_eq : arrived = taken.flatMap Frame.ofPayload ++ session.buffer
  small : ∀ payload ∈ taken, payload.length ≤ maxPayload
  messages_eq : session.messages = taken.map alone

namespace Session.Accounts

variable {session : Session} {arrived : Bytes} {taken : List Bytes}

theorem start : Accounts start [] [] := ⟨rfl, List.forall_mem_nil _, rfl⟩

/-- Bytes that arrive are left for later. -/
theorem feed (h : session.Accounts arrived taken) (bytes : Bytes) :
    (session.turn (.feed bytes)).Accounts (arrived ++ bytes) taken where
  bytes_eq := by rw [h.bytes_eq, List.append_assoc]; rfl
  small := h.small
  messages_eq := h.messages_eq

/-- A look at unfinished bytes changes nothing but the record of looks. -/
theorem idle (h : session.Accounts arrived taken) (hu : Unfinished session.buffer) :
    session.look.buffer = session.buffer ∧ session.look.Accounts arrived taken := by
  obtain ⟨hi, hr⟩ := decode_unfinished Call.ofPayload hu
  have hb : session.look.buffer = session.buffer := hr
  have hm : session.look.messages = session.messages := by
    have hi' : isIdle (Call.decode session.buffer).outcome = true := hi
    simp [messages, look, List.filter_append, hi']
  exact ⟨hb, hb ▸ h.bytes_eq, h.small, hm.trans h.messages_eq⟩

/-- A look at a frame takes it, and gives what the frame gives alone. -/
theorem busy {payload rest : Bytes} (h : session.Accounts arrived taken)
    (hl : payload.length ≤ maxPayload) (hb : session.buffer = Frame.ofPayload payload ++ rest) :
    session.look.Accounts arrived (taken ++ [payload]) := by
  have hd : Call.decode session.buffer = ⟨alone payload, rest⟩ := by
    rw [hb, alone_eq hl]
    exact decode_ofPayload Call.ofPayload hl rest
  have hi : isIdle (alone payload) = false := by
    rw [alone_eq hl]
    exact isIdle_unpack Call.ofPayload payload
  constructor
  case bytes_eq =>
    have hr : session.look.buffer = rest := congrArg Decoded.rest hd
    rw [h.bytes_eq, hb, hr, List.flatMap_append, List.flatMap_singleton, List.append_assoc]
  case small =>
    intro p hp
    rcases List.mem_append.mp hp with hp | hp
    · exact h.small p hp
    · exact List.mem_singleton.mp hp ▸ hl
  case messages_eq =>
    have hm : session.look.messages = session.messages ++ [alone payload] := by
      simp [messages, Session.look, List.filter_append, hd, hi]
    rw [hm, h.messages_eq, List.map_append, List.map_singleton]

/-- A turn keeps the account, with the bytes that arrive in it. -/
theorem turn (h : session.Accounts arrived taken) (turn : Turn) :
    ∃ taken', (session.turn turn).Accounts (arrived ++ turn.bytes) taken' := by
  cases turn with
  | feed bytes => exact ⟨taken, h.feed bytes⟩
  | decode =>
    rw [Turn.bytes, List.append_nil]
    rcases unfinished_or_frame session.buffer with hu | ⟨payload, rest, hl, hb⟩
    · exact ⟨taken, (h.idle hu).2⟩
    · exact ⟨taken ++ [payload], h.busy hl hb⟩

/-- A run keeps the account, with all bytes that arrive. -/
theorem run (h : session.Accounts arrived taken) (turns : List Turn) :
    ∃ taken', (session.run turns).Accounts (arrived ++ fed turns) taken' := by
  induction turns generalizing session arrived taken with
  | nil =>
    rw [fed, List.flatMap_nil, List.append_nil]
    exact ⟨taken, h⟩
  | cons turn turns ih =>
    obtain ⟨taken', h'⟩ := h.turn turn
    rw [fed, List.flatMap_cons, ← List.append_assoc]
    exact ih h'

/-- Looking comes to an end, at a buffer that is unfinished. -/
theorem exists_drains (h : session.Accounts arrived taken) :
    ∃ final taken', Drains session final ∧ final.Accounts arrived taken' ∧
      Unfinished final.buffer := by
  -- By induction on the length of the buffer: a look that is not the last one takes a frame.
  induction hn : session.buffer.length using Nat.strongRecOn generalizing session taken with
  | ind n ih =>
    cases hi : isIdle (Call.decode session.buffer).outcome with
    | true =>
      have hu := (isIdle_decode_iff Call.ofPayload).mp hi
      obtain ⟨hb, ha⟩ := h.idle hu
      exact ⟨session.look, taken, .last hi, ha, hb ▸ hu⟩
    | false =>
      have hlt : session.look.buffer.length < n := by
        have hle := length_rest_of_busy Call.ofPayload hi
        have hh : headerLength = 4 := rfl
        have hr : session.look.buffer = (BusClient.decode Call.ofPayload session.buffer).rest := rfl
        rw [hr, ← hn]
        omega
      obtain ⟨taken', ha⟩ := h.turn .decode
      rw [Turn.bytes, List.append_nil] at ha
      obtain ⟨final, taken'', hd, hf⟩ := ih _ hlt ha rfl
      exact ⟨final, taken'', .more hi hd, hf⟩

end Session.Accounts

/-- Looking comes to one end only. -/
theorem Session.Drains.unique {session final other : Session} (h : Drains session final)
    (h' : Drains session other) : other = final := by
  induction h with
  | last h =>
    cases h' with
    | last => rfl
    | more hb => exact absurd (hb.symm.trans h) Bool.false_ne_true
  | more h _ ih =>
    cases h' with
    | last hi => exact absurd (h.symm.trans hi) Bool.false_ne_true
    | more _ hd => exact ih hd

/-- What becomes of bytes that arrive in some turns, if the buffer is drained at the end. -/
structure Collects (turns : List Turn) (payloads : List Bytes) (tail : Bytes) (final : Session) :
    Prop where
  /-- The bytes are the frames of these payloads and this tail, and split in no other way. -/
  splits : Splits (fed turns) payloads tail
  splits_only : ∀ payloads' tail', Splits (fed turns) payloads' tail' →
    payloads' = payloads ∧ tail' = tail
  /-- Draining ends, and ends here. -/
  drains : Session.Drains (Session.start.run turns) final
  drains_only : ∀ other, Session.Drains (Session.start.run turns) other → other = final
  /-- Each frame has given one outcome, in order, and it is the one that it gives alone. -/
  messages : final.messages = payloads.map alone
  /-- A payload that is a call gives the call. -/
  call : ∀ payload ∈ payloads, ∀ call, Call.ofPayload payload = .ok call →
    alone payload = .ok (some call)
  /-- Any other payload gives what is wrong with it. -/
  garbled : ∀ payload ∈ payloads, ∀ defect, Call.ofPayload payload = .error defect →
    alone payload = .error ⟨.invalidData, defect.message⟩
  /-- The tail is what is left. -/
  buffer : final.buffer = tail

/-- Bytes that arrive in any pieces, with calls asked for at any time, come to the outcomes of
their frames and to their tail. A look that gives the outcome of a frame takes at least four
bytes, and any other look leaves the buffer as it is. -/
theorem run_collects (turns : List Turn) :
    (∃ payloads tail final, Collects turns payloads tail final) ∧
      ∀ buffer : Bytes,
        (isIdle (Call.decode buffer).outcome = true → (Call.decode buffer).rest = buffer) ∧
        (isIdle (Call.decode buffer).outcome = false →
          (Call.decode buffer).rest.length + 4 ≤ buffer.length) := by
  refine ⟨?_, fun buffer => ⟨rest_of_idle Call.ofPayload, length_rest_of_busy Call.ofPayload⟩⟩
  obtain ⟨payloads, tail, hs⟩ := exists_splits (fed turns)
  obtain ⟨_, ha⟩ := Session.Accounts.start.run turns
  obtain ⟨final, taken, hd, hf, hu⟩ := ha.exists_drains
  obtain ⟨rfl, rfl⟩ := hs.unique ⟨hf.bytes_eq, hf.small, hu⟩
  refine ⟨taken, final.buffer, final, hs, fun _ _ => hs.unique, hd, fun _ => hd.unique,
    hf.messages_eq, ?_, ?_, rfl⟩
  · intro payload hp call hc
    rw [alone_eq (hf.small payload hp), unpack, hc]
    rfl
  · intro payload hp defect hc
    rw [alone_eq (hf.small payload hp), unpack, hc]
    rfl

/-- A payload that is no call and one that is arrive with the front of a header behind them, cut
inside a header and looked at too early: the first frame gives what is wrong with it, the second
one its call, and the two bytes are left. -/
theorem run_collects_garbled :
    let call : Call := ⟨"org.example", "/a", "org.example.a", "stop", [.number (.ofNat 7)]⟩
    let frames : Bytes := Frame.ofPayload (.ofText "7") ++ Frame.ofPayload call.payload
    let turns : List Turn :=
      [.feed (frames.take 3), .decode, .feed (frames.drop 3), .decode, .feed [5, 0]]
    ∃ final, Session.Drains (Session.start.run turns) final ∧
      final.messages = [.error ⟨.invalidData,
        "invalid type: integer `7`, expected struct MethodCall at line 1 column 1"⟩,
        .ok (some call)] ∧
      final.buffer = [5, 0] := by
  intro call frames turns
  let garbled : Bytes := .ofText "7"
  have hcall : Call.ofPayload call.payload = .ok call :=
    Call.ofPayload_payload call (List.forall_mem_singleton.mpr (.number _)) (by decide)
  have hsmall : ∀ payload ∈ [garbled, call.payload], payload.length ≤ maxPayload := by
    decide +kernel
  have hfed : fed turns = [garbled, call.payload].flatMap Frame.ofPayload ++ [5, 0] := by
    simp only [turns, fed, List.flatMap_cons, List.flatMap_nil, Turn.bytes, List.nil_append,
      List.append_nil, ← List.append_assoc, List.take_append_drop, frames, garbled]
  have hs : Splits (fed turns) [garbled, call.payload] [5, 0] :=
    ⟨hfed, hsmall, .headless (by decide)⟩
  obtain ⟨⟨payloads, tail, final, hc⟩, -⟩ := run_collects turns
  obtain ⟨rfl, rfl⟩ := hc.splits_only _ _ hs
  refine ⟨final, hc.drains, ?_, hc.buffer⟩
  rw [hc.messages, List.map_cons, List.map_singleton]
  have hwords : (match Call.ofPayload garbled with
      | .ok _ => ""
      | .error defect => defect.message) =
      "invalid type: integer `7`, expected struct MethodCall at line 1 column 1" := by
    decide +kernel
  cases hd : Call.ofPayload garbled with
  | ok other =>
    rw [hd] at hwords
    simp at hwords
  | error defect =>
    rw [hd] at hwords
    dsimp only at hwords
    rw [hc.garbled garbled (by simp) defect hd, hwords, hc.call call.payload (by simp) call hcall]

end BusClient
