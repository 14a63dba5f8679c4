import BusClient.Proofs.CInterface.Effect
import BusClient.Proofs.Client.Records
import BusClient.Proofs.Wire.Grammar

/-!
# The status of a C function

A function ends with the status zero or with a negative one. What the daemon sends decides which:
a code other than zero becomes the status, made negative if it is positive, and nothing else of
the response matters. No response at all, and a fault without a code, give the status of a failure
of input or output. Zero is left to responses that report success. All of this is said of integers,
so that no negation leaves the range of a code.

`Reply` says what bytes amount to. Where they hold a document the grammar of responses decides it
(`Holds.denoted`), so that a code has its place on the wire.
-/

namespace BusClient

open BusClient.Json BusClient.Frame

/-! ## The status of a failure -/

/-- The status of a rejection is the code of the daemon behind a minus sign, as an integer: the
least code, whose negation has no room, is negative already. -/
theorem CallError.toInt_status_rejected {code : Int32} (h : code ≠ 0) :
    (CallError.rejected code).status.toInt = -(code.toInt.natAbs : Int) := by
  simp only [status, if_neg h]
  split
  next hp =>
    have hlt := code.toInt_lt
    rw [Int32.lt_iff_toInt_lt, Int32.toInt_zero] at hp
    have hn : (-code).toInt = -code.toInt := by
      rw [Int32.toInt_neg]
      simp only [Int.bmod]
      split <;> omega
    rw [hn]
    omega
  next hp =>
    rw [Int32.lt_iff_toInt_lt, Int32.toInt_zero] at hp
    omega

/-! ## Replies -/

/-- What a daemon has replied when it has sent some bytes and hung up: a response, or nothing that
is of use. -/
inductive Reply : Bytes → Option Response → Prop
  /-- A whole frame comes first, and its payload is a response. -/
  | response {payload rest : Bytes} {response : Response}
    (hl : payload.length ≤ 16 * 1024 * 1024) (hp : Response.ofPayload payload = .ok response) :
    Reply (Frame.ofPayload payload ++ rest) (some response)
  /-- The bytes end too early, or too large a payload is announced. -/
  | unfinished {bytes : Bytes} (h : Unfinished bytes) : Reply bytes none
  /-- A whole frame comes first, and its payload is no response. -/
  | malformed {payload rest : Bytes} {defect : Defect} (hl : payload.length ≤ 16 * 1024 * 1024)
    (hp : Response.ofPayload payload = .error defect) :
    Reply (Frame.ofPayload payload ++ rest) none

/-- Bytes that begin with the frame of a document: the payload is a text of the document with
blanks around it. Nothing is said of what a reader makes of them. -/
inductive Holds : Bytes → Value → Prop
  | frame {document : Value} {blanks text blanks' rest : Bytes} (hr : Readable document)
    (hd : document.depth ≤ 127) (hb : Blanks blanks) (hb' : Blanks blanks')
    (ht : Layout document text)
    (hl : (blanks ++ (text ++ blanks')).length ≤ 16 * 1024 * 1024) :
    Holds (Frame.ofPayload (blanks ++ (text ++ blanks')) ++ rest) document

/-- The bytes that are sent in answer to a request: those of the first scope that accepts its
service. Nobody answers a call that fits no frame, for it is not sent. -/
inductive Answered (bind : Service → Scope → Except IoError Unit) (answer : Scope → Stream)
    (request : Request) : Bytes → Prop
  | first {scope : Scope}
    (hs : (Network.conversing bind answer).firstScope? request.service = some scope)
    (hl : request.call.payload.length ≤ 16 * 1024 * 1024) :
    Answered bind answer request (answer scope).bytes

/-- Of a whole frame the payload decides what has been replied. -/
theorem reply_ofPayload_iff {payload rest : Bytes} {response? : Option Response}
    (hl : payload.length ≤ maxPayload) : Reply (Frame.ofPayload payload ++ rest) response? ↔
      (Response.ofPayload payload).toOption = response? := by
  constructor
  · intro h
    generalize hs : Frame.ofPayload payload ++ rest = bytes at h
    -- The frame at the front is one and the same, so its payload is.
    have hf : front bytes = .whole payload rest := by rw [← hs, Frame.ofPayload, front_append hl]
    cases h with
    | response hl' hp =>
      rw [Frame.ofPayload, front_append hl'] at hf
      cases hf
      exact toOption_eq_some_iff.mpr hp
    | unfinished h => exact absurd hf (unfinished_iff.mp h payload rest)
    | malformed hl' hp =>
      rw [Frame.ofPayload, front_append hl'] at hf
      cases hf
      exact toOption_eq_none_iff.mpr ⟨_, hp⟩
  · rintro rfl
    cases hp : Response.ofPayload payload with
    | ok response => exact .response hl hp
    | error defect => exact .malformed hl hp

/-- Bytes are a response, or nothing of use. -/
theorem exists_reply (bytes : Bytes) : ∃ response?, Reply bytes response? := by
  rcases unfinished_or_frame bytes with h | ⟨payload, rest, hl, rfl⟩
  · exact ⟨none, .unfinished h⟩
  · exact ⟨_, (reply_ofPayload_iff hl).mpr rfl⟩

/-- In the frame of a document the response has been replied that the document holds. -/
theorem Holds.reply_iff {bytes : Bytes} {document : Value} (h : Holds bytes document)
    {response? : Option Response} :
    Reply bytes response? ↔ Response.ofDocument? document = response? := by
  cases h with
  | frame hr hd hb hb' ht hl =>
    rw [reply_ofPayload_iff hl, Response.toOption_ofPayload ⟨hr, hd⟩ hb hb' ht]

/-- So the grammar of responses says what has been replied, and whether anything has. -/
theorem Holds.denoted {bytes : Bytes} {document : Value} (h : Holds bytes document) :
    (∀ response, Reply bytes (some response) ↔
        Response.Denotes Response.IsCode document response) ∧
      (Reply bytes none ↔ ∀ response, ¬Response.Denotes Response.IsCode document response) := by
  simp only [h.reply_iff, ← Response.ofDocument?_eq_some_iff, Option.eq_none_iff_forall_ne_some,
    implies_true, and_self, ne_eq]

/-- The line that a document is printed as is one of its texts. -/
theorem Holds.of_compact {text : String} {document : Value} (ht : text = document.compact)
    (hr : Readable document) (hd : document.depth ≤ 127)
    (hl : (Bytes.ofText text).length ≤ 16 * 1024 * 1024) (rest : Bytes) :
    Holds (Frame.ofPayload (.ofText text) ++ rest) document := by
  subst ht
  have h : Holds (Frame.ofPayload ([] ++ (Bytes.ofText document.compact ++ [])) ++ rest)
      document := by
    refine .frame hr hd .nil .nil (compact_layout document) ?_
    rwa [List.nil_append, List.append_nil]
  rwa [List.nil_append, List.append_nil] at h

section

variable {stream : Stream}

/-- A response is received from its frame, in whatever pieces that comes. -/
theorem receive_of_reply {response : Response} (h : Reply stream.bytes (some response)) :
    (Response.receive stream).outcome = .ok response := by
  generalize hs : stream.bytes = bytes at h
  cases h with
  | response hl hp =>
    obtain ⟨left, hr, -⟩ := receive_ofPayload Response.ofPayload hl hs
    rw [Response.receive, hr]
    simp only [unpack, hp]

/-- From all other bytes nothing is received. -/
theorem receive_of_no_reply (h : Reply stream.bytes none) :
    ∃ error, (Response.receive stream).outcome = .error error := by
  generalize hs : stream.bytes = bytes at h
  cases h with
  | unfinished h =>
    cases hf : front stream.bytes with
    | whole payload rest => exact absurd (hs ▸ hf) (unfinished_iff.mp h payload rest)
    | partly => exact ⟨_, by rw [Response.receive, receive_partly _ hf]⟩
    | oversized =>
      obtain ⟨left, hr, -⟩ := receive_oversized Response.ofPayload hf
      exact ⟨_, by rw [Response.receive, hr]⟩
  | malformed hl hp =>
    obtain ⟨left, hr, -⟩ := receive_ofPayload Response.ofPayload hl hs
    rw [Response.receive, hr]
    exact ⟨_, by simp only [unpack, hp]; rfl⟩

end

/-! ## What comes of a request -/

namespace Client

variable {bind : Service → Scope → Except IoError Unit} {answer : Scope → Stream}
  {package : Option Package} {request : Request} {bytes : Bytes}

/-- A request that is answered with a response is settled by it. -/
theorem perform_of_response (package : Option Package) (hc : request.check = .ok ())
    {response : Response} (ha : Answered bind answer request bytes)
    (hr : Reply bytes (some response)) :
    (perform ⟨.conversing bind answer, package⟩ request).1 =
      settle ⟨.conversing bind answer, package⟩ request (.ok response) := by
  cases ha with
  | first hs hl => rw [← receive_of_reply hr, perform_conversing hc hl hs]

/-- A request that is answered with anything else fails on the way. -/
theorem perform_of_no_response (package : Option Package) (hc : request.check = .ok ())
    (ha : Answered bind answer request bytes) (hr : Reply bytes none) :
    ∃ error, (perform ⟨.conversing bind answer, package⟩ request).1 =
      .error (.transport error) := by
  cases ha with
  | first hs hl =>
    obtain ⟨error, he⟩ := receive_of_no_reply hr
    exact ⟨error, by rw [perform_conversing hc hl hs, he]; rfl⟩

/-- A request that fits no frame fails wherever it is to be sent. -/
theorem perform_unsent (package : Option Package) (hc : request.check = .ok ())
    (hl : maxPayload < request.call.payload.length) :
    ∃ error, (perform ⟨.conversing bind answer, package⟩ request).1 = .error error ∧
      error.status = -5 := by
  cases hs : (Network.conversing bind answer).firstScope? request.service with
  | none => exact ⟨_, by rw [perform_of_refused hc hs], rfl⟩
  | some scope =>
    refine ⟨.transport .oversized, ?_, rfl⟩
    have hp : perform ⟨.conversing bind answer, package⟩ request = _ := perform_of_accepted hc hs
    rw [hp]
    simp only [Network.conversing, converse, Call.frame, encode_of_lt hl, settle]

/-- A request succeeds only if it is answered with a response that reports success. -/
theorem exists_reply_of_ok (hc : request.check = .ok ()) {output : Output}
    (ho : (perform ⟨.conversing bind answer, package⟩ request).1 = .ok output) :
    ∃ bytes values, Answered bind answer request bytes ∧
      Reply bytes (some (.returned 0 values)) := by
  by_cases hl : maxPayload < request.call.payload.length
  · obtain ⟨error, he, -⟩ := perform_unsent package hc hl
    rw [ho] at he
    cases he
  cases hs : (Network.conversing bind answer).firstScope? request.service with
  | none =>
    rw [perform_of_refused hc hs] at ho
    cases ho
  | some scope =>
    have ha : Answered bind answer request (answer scope).bytes := .first hs (Nat.not_lt.mp hl)
    obtain ⟨response?, hr⟩ := exists_reply (answer scope).bytes
    cases response? with
    | none =>
      obtain ⟨error, he⟩ := perform_of_no_response package hc ha hr
      rw [ho] at he
      cases he
    | some response =>
      have hd := perform_of_response package hc ha hr
      rw [ho] at hd
      cases settle_ok_eq_iff.mp hd.symm with
      | fulfilled => exact ⟨_, _, ha, hr⟩

end Client

namespace CInterface

/-- How the status of a function is graded by what the daemon replies. -/
structure Graded (bind : Service → Scope → Except IoError Unit) (answer : Scope → Stream)
    (request : Request) (status : Int32) : Prop where
  /-- Where no scope accepts the service the status is that of a failure. -/
  unreachable : (∀ scope, (Network.conversing bind answer).accepts request.service scope = false) →
    status = -5
  /-- So it is where the call cannot be sent. -/
  unsent : 16 * 1024 * 1024 < request.call.payload.length → status = -5
  /-- A code other than zero becomes the status behind a minus sign, whatever comes with it. -/
  coded : ∀ bytes response, Answered bind answer request bytes → Reply bytes (some response) →
    response.code ≠ 0 → (response.code.toInt < 0 → status = response.code) ∧
      (0 < response.code.toInt → status.toInt = -response.code.toInt)
  /-- A fault whose code is zero is a failure. -/
  undelivered : ∀ bytes message, Answered bind answer request bytes →
    Reply bytes (some (.faulted 0 message)) → status = -5
  /-- So is a fault that names no code at all beside its message. -/
  uncoded : ∀ bytes (members : Members) message, Answered bind answer request bytes →
    Holds bytes (.object [("fault", .object members)]) →
    members.get? "message" = some (.string message) → members.get? "code" = none → status = -5
  /-- So is anything that is no response. -/
  useless : ∀ bytes, Answered bind answer request bytes → Reply bytes none → status = -5
  /-- Success can only end as a success or as a failure to make use of it. -/
  fulfilled : ∀ bytes values, Answered bind answer request bytes →
    Reply bytes (some (.returned 0 values)) → status = 0 ∨ status = -5
  /-- The status is zero only if the daemon has reported success. -/
  success : status = 0 → ∃ bytes values, Answered bind answer request bytes ∧
    Reply bytes (some (.returned 0 values))

section

variable {bind : Service → Scope → Except IoError Unit} {answer : Scope → Stream}
  {package : Option Package} {invocation : Invocation}

/-- A request that fails gives its function the status of the failure. -/
theorem status_of_error {client : Client} (h : ¬Faulty invocation) {error : CallError}
    (he : (client.perform invocation.intent).1 = .error error) :
    (run client invocation).status = error.status := by
  rw [run, runUnder_of_sound h, ask, he]
  rfl

/-- A request that succeeds gives its function the status zero, unless C would see its text cut
off. -/
theorem status_of_ok {client : Client} (h : ¬Faulty invocation) {output : Output}
    (ho : (client.perform invocation.intent).1 = .ok output) :
    (run client invocation).status = 0 ∨ (run client invocation).status = -5 := by
  rw [run, runUnder_of_sound h, ask, ho, Effect.ofOutcome]
  split
  · exact .inr rfl
  · exact .inl rfl

/-- The status zero stands for a request that has succeeded. -/
theorem exists_output_of_status {client : Client} (h : ¬Faulty invocation)
    (hz : (run client invocation).status = 0) :
    ∃ output, (client.perform invocation.intent).1 = .ok output := by
  cases ho : (client.perform invocation.intent).1 with
  | ok output => exact ⟨output, rfl⟩
  | error error =>
    rw [status_of_error h ho] at hz
    exact absurd (hz ▸ error.status_neg) (by decide)

/-- A function whose arguments are sound is graded by what the daemon replies. -/
theorem run_graded (h : ¬Faulty invocation) : Graded bind answer invocation.intent
    (run ⟨.conversing bind answer, package⟩ invocation).status := by
  have hc := check_intent h
  constructor
  case unreachable =>
    intro hn
    have hs : (Network.conversing bind answer).firstScope? invocation.intent.service = none :=
      List.find?_eq_none.mpr fun scope _ => by simp [hn scope]
    have hp : Client.perform ⟨.conversing bind answer, package⟩ invocation.intent = _ :=
      Client.perform_of_refused hc hs
    exact status_of_error h (congrArg Prod.fst hp)
  case unsent =>
    intro hl
    obtain ⟨error, he, hs⟩ := Client.perform_unsent package hc hl
    exact (status_of_error h he).trans hs
  case coded =>
    intro bytes response ha hr hcode
    have hp := Client.perform_of_response package hc ha hr
    simp only [Client.settle, Response.values_of_code hcode] at hp
    have hs := status_of_error h hp
    have hi := CallError.toInt_status_rejected hcode
    rw [← hs] at hi
    refine ⟨fun hn => Int32.toInt_inj.mp ?_, fun hn => ?_⟩ <;> omega
  case undelivered =>
    intro bytes message ha hr
    exact status_of_error h (Client.perform_of_response package hc ha hr)
  case uncoded =>
    intro bytes members message ha hh hm hn
    have hd : Response.Denotes Response.IsCode (.object [("fault", .object members)])
        (.faulted 0 message) := .faulted (.named hm (.inr ⟨hn, rfl⟩))
    have hr := (hh.denoted.1 _).mpr hd
    exact status_of_error h (Client.perform_of_response package hc ha hr)
  case useless =>
    intro bytes ha hr
    obtain ⟨error, he⟩ := Client.perform_of_no_response package hc ha hr
    exact status_of_error h he
  case fulfilled =>
    intro bytes values ha hr
    have hp := Client.perform_of_response package hc ha hr
    have hp : _ = Client.output _ invocation.intent values := hp
    cases ho : Client.output ⟨.conversing bind answer, package⟩ invocation.intent values with
    | ok output => exact status_of_ok h (hp.trans ho)
    | error error =>
      have hs := status_of_error h (hp.trans ho)
      rcases Client.output_error ho with ⟨_, rfl⟩ | ⟨_, rfl⟩ <;> exact .inr hs
  case success =>
    intro hz
    obtain ⟨output, ho⟩ := exists_output_of_status h hz
    exact Client.exists_reply_of_ok hc ho

end

/-- No status is positive, whatever the arguments are and whatever the process runs on. -/
theorem runUnder_status_le (setup : Setup) (invocation : Invocation) :
    (runUnder setup invocation).status ≤ 0 := by
  by_cases h : Faulty invocation
  · rw [runUnder_of_faulty h]
    decide
  rw [runUnder_of_sound h]
  cases (ask setup invocation.intent).1 with
  | error error => exact Int32.le_of_lt error.status_neg
  | ok output =>
    rw [Effect.ofOutcome]
    split
    · exact (by decide : (-5 : Int32) ≤ 0)
    · exact Int32.le_refl 0

/-- Failures have negative statuses and functions never positive ones, no status is the result of
a negation without room, and the replies of the daemon are graded by their codes alone. Which
response a daemon has replied in the frame of a document is said by the grammar of responses. -/
theorem statuses_settled :
    (∀ error : CallError, error.status < 0) ∧
      (∀ code : Int32, code ≠ 0 →
        (CallError.rejected code).status.toInt = -(code.toInt.natAbs : Int)) ∧
      (∀ (setup : Setup) (invocation : Invocation), (runUnder setup invocation).status ≤ 0) ∧
      (∀ (bytes : Bytes) (document : Value), Holds bytes document →
        (∀ response, Reply bytes (some response) ↔
          Response.Denotes Response.IsCode document response) ∧
        (Reply bytes none ↔ ∀ response, ¬Response.Denotes Response.IsCode document response)) ∧
      ∀ (bind : Service → Scope → Except IoError Unit) (answer : Scope → Stream)
        (package : Option Package) (invocation : Invocation), ¬Faulty invocation →
          Graded bind answer invocation.intent
            (run ⟨.conversing bind answer, package⟩ invocation).status :=
  ⟨CallError.status_neg, fun _ => CallError.toInt_status_rejected, runUnder_status_le,
    fun _ _ => Holds.denoted, fun _ _ _ _ => run_graded⟩

/-- The session bus answers in pieces of at most three bytes, with a byte behind the frame. The
least code is handed over as it is and a positive one behind a minus sign; a fault without a code
and a document that is no response are failures. -/
theorem statuses_settled_session :
    let bind : Service → Scope → Except IoError Unit := fun _ scope =>
      if scope = .session then .ok () else .error .noSuchFile
    let bytes (text : String) : Bytes := Frame.ofPayload (.ofText text) ++ [0xff]
    let answer (text : String) : Scope → Stream := fun _ => .ofBytes 3 (bytes text)
    let invocation : Invocation := .startPipeline 7
    let status (text : String) : Int32 :=
      (run ⟨.conversing bind (answer text), none⟩ invocation).status
    let least := "\x7b\"fault\":\x7b\"code\":-2147483648,\"message\":\"gone\"\x7d\x7d"
    let seven := "\x7b\"return\":\x7b\"result\":7\x7d\x7d"
    let uncoded := "\x7b\"fault\":\x7b\"message\":\"gone\"\x7d\x7d"
    ¬Faulty invocation ∧
      (∀ text, Answered bind (answer text) invocation.intent (bytes text)) ∧
      (Reply (bytes least) (some (.faulted Int32.minValue "gone")) ∧ status least = -2147483648) ∧
      (Reply (bytes seven) (some (.returned 7 [])) ∧ status seven = -7) ∧
      (Reply (bytes uncoded) (some (.faulted 0 "gone")) ∧ status uncoded = -5) ∧
      (Reply (bytes "null") none ∧ status "null" = -5) := by
  intro bind bytes answer invocation status least seven uncoded
  have hf : ¬Faulty invocation := by
    simp [faulty_iff, invocation, Invocation.mandatory, Invocation.optional, Invocation.slot?,
      Invocation.version?]
  have ha : ∀ text, Answered bind (answer text) invocation.intent (bytes text) := by
    intro text
    have h : Answered bind (answer text) invocation.intent (answer text .session).bytes :=
      .first rfl (by decide +kernel)
    rwa [Stream.bytes_ofBytes] at h
  obtain ⟨-, -, -, denoted, graded⟩ := statuses_settled
  have hg : ∀ text, Graded bind (answer text) invocation.intent (status text) :=
    fun text => graded bind (answer text) none invocation hf
  refine ⟨hf, ha, ?least, ?seven, ?uncoded, ?null⟩
  case least =>
    let members : Members :=
      [("code", .number ⟨true, 2147483648, [], none⟩), ("message", .string "gone")]
    have hh : Holds (bytes least) (.object [("fault", .object members)]) := by
      refine .of_compact (by decide +kernel) (.single (by decide) ?_) (by decide)
        (by decide +kernel) _
      exact .object (by decide) (by decide)
        (List.forall_mem_cons.mpr ⟨.number _, List.forall_mem_singleton.mpr (.string _)⟩)
    have hr : Reply (bytes least) (some (.faulted Int32.minValue "gone")) :=
      ((denoted _ _ hh).1 _).mpr (.faulted (.named rfl (.inl ⟨_, rfl, rfl, by decide⟩)))
    exact ⟨hr, ((hg least).coded _ _ (ha least) hr (by decide)).1 (by decide)⟩
  case seven =>
    let body : Value := .object [("result", .number ⟨false, 7, [], none⟩)]
    have hh : Holds (bytes seven) (.object [("return", body)]) :=
      .of_compact (by decide +kernel) (.single (by decide) (.single (by decide) (.number _)))
        (by decide) (by decide +kernel) _
    have hr : Reply (bytes seven) (some (.returned 7 [])) :=
      ((denoted _ _ hh).1 _).mpr (.returned (.named rfl ⟨rfl, by decide⟩ (.inr ⟨rfl, rfl⟩)))
    have hs := ((hg seven).coded _ _ (ha seven) hr (by decide)).2 (by decide)
    exact ⟨hr, Int32.toInt_inj.mp hs⟩
  case uncoded =>
    let body : Value := .object [("message", .string "gone")]
    have hh : Holds (bytes uncoded) (.object [("fault", body)]) :=
      .of_compact (by decide +kernel) (.single (by decide) (.single (by decide) (.string _)))
        (by decide) (by decide +kernel) _
    have hr : Reply (bytes uncoded) (some (.faulted 0 "gone")) :=
      ((denoted _ _ hh).1 _).mpr (.faulted (.named rfl (.inr ⟨rfl, rfl⟩)))
    exact ⟨hr, (hg uncoded).uncoded _ _ _ (ha uncoded) hh rfl rfl⟩
  case null =>
    have hh : Holds (bytes "null") .null :=
      .of_compact (by decide +kernel) .null (by decide) (by decide +kernel) _
    have hr : Reply (bytes "null") none := (denoted _ _ hh).2.mpr fun response h => by cases h
    exact ⟨hr, (hg "null").useless _ (ha "null") hr⟩

end CInterface

end BusClient
