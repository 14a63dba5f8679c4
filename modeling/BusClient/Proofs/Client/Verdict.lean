import BusClient.Proofs.Client.Course
import BusClient.Proofs.Frame.Front
import BusClient.Proofs.Json.Integer
import BusClient.Proofs.Message.Reading
import BusClient.Socket

/-!
# What the bytes of an answer decide

A daemon that hangs up has sent some bytes, and these alone decide the outcome of a request that
was sent. The rules are given in four layers: the outputs that a value shows, the outcome of the
values of a successful response, the outcome of a response, and the outcome of bytes. Each layer
is an inductive relation with one rule for each cause, and each is shown to hold of exactly the
outcome that the client computes, so that the rules neither overlap nor leave a case out.
-/

namespace BusClient

open BusClient.Json BusClient.Frame

/-- The output of a kind that a value is. -/
inductive Shows : ResultKind → Value → Output → Prop
  | text (text : String) : Shows .text (.string text) (.text text)
  | records (text : String) : Shows .records (.string text) (.text text)
  | int64 {n : Number} {word : Int64} (h : n.integer? = some word.toInt) :
    Shows .int64 (.number n) (.int64 word)
  | int32 {n : Number} {word : Int32} (h : n.integer? = some word.toInt) :
    Shows .int32 (.number n) (.int32 word)
  | uint32 {n : Number} {word : UInt32} (hn : n.negative = false)
    (h : n.integer? = some (word.toNat : Int)) : Shows .uint32 (.number n) (.uint32 word)

/-- What a request hands back for the values of a response that reports success. Only the first
value matters. -/
inductive Yields (package : Option Package) (request : Request) (values : List Value) :
    Outcome Output → Prop
  /-- Some requests hand nothing back, whatever the values are. -/
  | nothing (hk : request.resultKind = .nothing) : Yields package request values (.ok .nothing)
  /-- The first value is the output. -/
  | shown {value : Value} {output : Output} (hk : request.resultKind ≠ .records)
    (hv : values.head? = some value) (hs : Shows request.resultKind value output) :
    Yields package request values (.ok output)
  /-- The first value is a payload of records, whose paths are completed. -/
  | completed {payload text : String} (hk : request.resultKind = .records)
    (hv : values.head? = some (.string payload)) (hc : completePaths package payload = .ok text) :
    Yields package request values (.ok (.text text))
  /-- The first value is a payload of records, whose paths cannot be completed. -/
  | incomplete {payload : String} {fault : Package.Fault} (hk : request.resultKind = .records)
    (hv : values.head? = some (.string payload))
    (hc : completePaths package payload = .error fault) :
    Yields package request values (.error (.payload fault.message))
  /-- There is no first value, or it is no output of the kind. -/
  | lacking (hk : request.resultKind ≠ .nothing)
    (hv : ∀ value output, values.head? = some value → ¬Shows request.resultKind value output) :
    Yields package request values (.error (lacking request.member request.resultKind))

/-- What a response means for a request. -/
inductive Means (package : Option Package) (request : Request) : Response → Outcome Output → Prop
  /-- A code other than zero, in a return or in a fault, whatever comes with it. -/
  | rejected {response : Response} (hc : response.code ≠ 0) :
    Means package request response (.error (.rejected response.code))
  /-- A fault without a code. -/
  | undelivered (message : String) : Means package request (.faulted 0 message)
    (.error (.transport ⟨.other, "call failed without a result code"⟩))
  /-- A return with the code zero. -/
  | fulfilled {values : List Value} {outcome : Outcome Output}
    (hv : Yields package request values outcome) :
    Means package request (.returned 0 values) outcome

/-- What the bytes that a daemon sends before it hangs up decide about a request. -/
inductive Decides (package : Option Package) (request : Request) :
    Bytes → Outcome Output → Prop
  /-- There is not even a header. -/
  | headless {bytes : Bytes} (hb : bytes.length < headerLength) :
    Decides package request bytes (.error (.transport .unexpectedEof))
  /-- Fewer bytes follow than the header announces. -/
  | cutOff {length : Nat} {body : Bytes} (hl : length ≤ maxPayload) (hb : body.length < length) :
    Decides package request (header length ++ body) (.error (.transport .unexpectedEof))
  /-- Too large a payload is announced, whatever follows. -/
  | oversized {length : Nat} {body : Bytes} (hl : maxPayload < length)
    (hu : length < UInt32.size) :
    Decides package request (header length ++ body) (.error (.transport .oversized))
  /-- A whole payload comes that is no response. -/
  | garbled {payload rest : Bytes} {defect : Defect} (hl : payload.length ≤ maxPayload)
    (hp : Response.ofPayload payload = .error defect) :
    Decides package request (header payload.length ++ payload ++ rest)
      (.error (.transport (garbled defect)))
  /-- A response comes, and the bytes behind it are not looked at. -/
  | answered {payload rest : Bytes} {response : Response} {outcome : Outcome Output}
    (hl : payload.length ≤ maxPayload) (hp : Response.ofPayload payload = .ok response)
    (hm : Means package request response outcome) :
    Decides package request (header payload.length ++ payload ++ rest) outcome

/-! ## The first value -/

/-- The output of values is what the first one shows. -/
theorem ResultKind.ofValues?_eq_some_iff {kind : ResultKind} (hk : kind ≠ .nothing)
    {values : List Value} {output : Output} : kind.ofValues? values = some output ↔
      ∃ value, values.head? = some value ∧ Shows kind value output := by
  constructor
  · intro h
    cases values with
    | nil => cases kind <;> simp [ofValues?] at h hk
    | cons value rest =>
      refine ⟨value, rfl, ?_⟩
      cases kind with
      | nothing => exact absurd rfl hk
      | text =>
        cases value <;> simp [ofValues?, Value.text?] at h
        exact h ▸ .text _
      | records =>
        cases value <;> simp [ofValues?, Value.text?] at h
        exact h ▸ .records _
      | int64 =>
        cases value <;> simp [ofValues?, Value.number?] at h
        obtain ⟨word, hw, rfl⟩ := h
        exact .int64 (Number.int64?_eq_some_iff.mp hw)
      | int32 =>
        cases value <;> simp [ofValues?, Value.number?] at h
        obtain ⟨word, hw, rfl⟩ := h
        exact .int32 (Number.int32?_eq_some_iff.mp hw)
      | uint32 =>
        cases value <;> simp [ofValues?, Value.number?] at h
        obtain ⟨word, hw, rfl⟩ := h
        obtain ⟨hn, hi⟩ := Number.uint32?_eq_some_iff.mp hw
        exact .uint32 hn hi
  · rintro ⟨value, hv, hs⟩
    cases hs with
    | text text => simp [ofValues?, hv, Value.text?]
    | records text => simp [ofValues?, hv, Value.text?]
    | int64 h => simp [ofValues?, hv, Value.number?, Number.int64?_eq_some_iff.mpr h]
    | int32 h => simp [ofValues?, hv, Value.number?, Number.int32?_eq_some_iff.mpr h]
    | uint32 hn h => simp [ofValues?, hv, Value.number?, Number.uint32?_eq_some_iff.mpr ⟨hn, h⟩]

/-! ## From values to bytes -/

namespace Client

variable {client : Client} {request : Request}

/-- Values without the wanted output lack it. -/
theorem output_of_none {values : List Value}
    (h : request.resultKind.ofValues? values = none) :
    client.output request values = .error (lacking request.member request.resultKind) := by
  simp only [output, h]

/-- An output other than records is handed back as it is. -/
theorem output_of_some {values : List Value} {found : Output}
    (hk : request.resultKind ≠ .records)
    (h : request.resultKind.ofValues? values = some found) :
    client.output request values = .ok found := by
  simp only [output, h]
  split
  next hr => exact absurd hr hk
  · rfl

/-- The wanted output of records is their payload. -/
theorem ofValues?_records {values : List Value} {payload : String}
    (hk : request.resultKind = .records) (hv : values.head? = some (.string payload)) :
    request.resultKind.ofValues? values = some (.text payload) := by
  have hs : Shows request.resultKind (.string payload) (.text payload) := by
    rw [hk]
    exact .records payload
  exact (ResultKind.ofValues?_eq_some_iff (by rw [hk]; decide)).mpr ⟨_, hv, hs⟩

/-- Records whose paths can be completed are handed back complete. -/
theorem output_of_completed {values : List Value} {payload text : String}
    (hk : request.resultKind = .records) (hv : values.head? = some (.string payload))
    (hc : completePaths client.package payload = .ok text) :
    client.output request values = .ok (.text text) := by
  have ho := ofValues?_records hk hv
  simp only [output, ho]
  rw [hk]
  simp only [hc]

/-- Records whose paths cannot be completed are refused with the fault. -/
theorem output_of_incomplete {values : List Value} {payload : String} {fault : Package.Fault}
    (hk : request.resultKind = .records) (hv : values.head? = some (.string payload))
    (hc : completePaths client.package payload = .error fault) :
    client.output request values = .error (.payload fault.message) := by
  have ho := ofValues?_records hk hv
  simp only [output, ho]
  rw [hk]
  simp only [hc]

theorem ofValues?_nothing (hk : request.resultKind = .nothing) (values : List Value) :
    request.resultKind.ofValues? values = some .nothing := by
  rw [hk]
  rfl

/-- The output of a request is computed by a rule for its first value. -/
theorem yields_output (client : Client) (request : Request) (values : List Value) :
    Yields client.package request values (client.output request values) := by
  by_cases hk : request.resultKind = .nothing
  · rw [output_of_some (by rw [hk]; decide) (ofValues?_nothing hk values)]
    exact .nothing hk
  cases hv : request.resultKind.ofValues? values with
  | none =>
    rw [output_of_none hv]
    refine .lacking hk fun value output hh hs => ?_
    have hc := (ResultKind.ofValues?_eq_some_iff hk).mpr ⟨value, hh, hs⟩
    rw [hv] at hc
    cases hc
  | some found =>
    obtain ⟨value, hh, hs⟩ := (ResultKind.ofValues?_eq_some_iff hk).mp hv
    by_cases hr : request.resultKind = .records
    · rw [hr] at hs
      cases hs with
      | records payload =>
        cases hc : completePaths client.package payload with
        | ok text =>
          rw [output_of_completed hr hh hc]
          exact .completed hr hh hc
        | error fault =>
          rw [output_of_incomplete hr hh hc]
          exact .incomplete hr hh hc
    · rw [output_of_some hr hv]
      exact .shown hr hh hs

/-- No other rule applies to the first value. -/
theorem output_of_yields {values : List Value} {outcome : Outcome Output}
    (h : Yields client.package request values outcome) :
    client.output request values = outcome := by
  cases h with
  | nothing hk => exact output_of_some (by rw [hk]; decide) (ofValues?_nothing hk values)
  | shown hk hh hs =>
    have hn : request.resultKind ≠ .nothing := fun h => by rw [h] at hs; cases hs
    exact output_of_some hk ((ResultKind.ofValues?_eq_some_iff hn).mpr ⟨_, hh, hs⟩)
  | completed hk hh hc => exact output_of_completed hk hh hc
  | incomplete hk hh hc => exact output_of_incomplete hk hh hc
  | lacking hk hl =>
    apply output_of_none
    rw [Option.eq_none_iff_forall_ne_some]
    intro found hf
    obtain ⟨value, hh, hs⟩ := (ResultKind.ofValues?_eq_some_iff hk).mp hf
    exact hl value found hh hs

/-- A response settles a request by the rule for its code and its variant. -/
theorem settle_ok_eq_iff {response : Response} {outcome : Outcome Output} :
    client.settle request (.ok response) = outcome ↔
      Means client.package request response outcome := by
  constructor
  · rintro rfl
    by_cases hc : response.code = 0
    · cases response with
      | returned result values =>
        simp only [Response.code] at hc
        subst hc
        exact .fulfilled (client.yields_output request values)
      | faulted code message =>
        simp only [Response.code] at hc
        subst hc
        exact .undelivered message
    · simp only [settle, Response.values_of_code hc]
      exact .rejected hc
  · intro h
    cases h with
    | rejected hc => simp only [settle, Response.values_of_code hc]
    | undelivered message => simp only [settle, Response.values_faulted]
    | fulfilled hv => exact output_of_yields hv

/-- Bytes at whose front no frame is complete have no header, or are cut off behind it. -/
theorem decides_of_partly {package : Option Package} {bytes : Bytes} (hf : front bytes = .partly) :
    Decides package request bytes (.error (.transport .unexpectedEof)) := by
  by_cases hb : bytes.length < headerLength
  · exact .headless hb
  obtain ⟨length, body, hu, rfl⟩ := exists_header_append (Nat.not_lt.mp hb)
  rw [front_header_append hu] at hf
  split at hf
  · cases hf
  next hm =>
    split at hf
    next hc => exact .cutOff (Nat.not_lt.mp hm) hc
    · cases hf

/-- Bytes at whose front too large a payload is announced begin with that header. -/
theorem decides_of_oversized {package : Option Package} {bytes : Bytes}
    (hf : front bytes = .oversized) :
    Decides package request bytes (.error (.transport .oversized)) := by
  by_cases hb : bytes.length < headerLength
  · rw [front_of_short hb] at hf
    cases hf
  obtain ⟨length, body, hu, rfl⟩ := exists_header_append (Nat.not_lt.mp hb)
  rw [front_header_append hu] at hf
  split at hf
  next hm => exact .oversized hm hu
  · split at hf <;> cases hf

/-- What waiting for a response comes to settles a request by the rule for the bytes, in whatever
pieces they arrive. -/
theorem settle_receive_eq_iff {stream : Stream} {outcome : Outcome Output} :
    client.settle request (Response.receive stream).outcome = outcome ↔
      Decides client.package request stream.bytes outcome := by
  constructor
  · rintro rfl
    cases hf : front stream.bytes with
    | partly =>
      rw [Response.receive, receive_partly _ hf]
      exact decides_of_partly hf
    | oversized =>
      obtain ⟨left, hr, _⟩ := receive_oversized Response.ofPayload hf
      rw [Response.receive, hr]
      exact decides_of_oversized hf
    | whole payload rest =>
      obtain ⟨left, hr, _⟩ := receive_whole Response.ofPayload hf
      obtain ⟨hl, hw⟩ := eq_append_of_front hf
      rw [Response.receive, hr, hw]
      cases hp : Response.ofPayload payload with
      | error defect =>
        simp only [unpack, hp]
        exact .garbled hl hp
      | ok response =>
        simp only [unpack, hp]
        exact .answered hl hp (settle_ok_eq_iff.mp rfl)
  · intro h
    generalize hs : stream.bytes = bytes at h
    cases h with
    | headless hb =>
      rw [Response.receive, receive_partly _ (front_of_short (hs ▸ hb))]
      rfl
    | @cutOff length body hl hb =>
      have hu : length < UInt32.size := Nat.lt_of_le_of_lt hl (by decide)
      have hf : front stream.bytes = .partly := by
        rw [hs, front_header_append hu, if_neg (Nat.not_lt.mpr hl), if_pos hb]
      rw [Response.receive, receive_partly _ hf]
      rfl
    | oversized hl hu =>
      have hf : front stream.bytes = .oversized := by
        rw [hs, front_header_append hu, if_pos hl]
      obtain ⟨left, hr, _⟩ := receive_oversized Response.ofPayload hf
      rw [Response.receive, hr]
      rfl
    | garbled hl hp =>
      obtain ⟨left, hr, _⟩ := receive_whole Response.ofPayload (hs ▸ front_append hl _)
      rw [Response.receive, hr]
      simp only [unpack, hp]
      rfl
    | answered hl hp hm =>
      obtain ⟨left, hr, _⟩ := receive_whole Response.ofPayload (hs ▸ front_append hl _)
      rw [Response.receive, hr]
      simp only [unpack, hp]
      exact settle_ok_eq_iff.mpr hm

/-- A request that passes its check and fits a frame has the outcome that the bytes of the answer
decide, over whichever scope accepts its service first. -/
theorem perform_eq_iff_decides (bind : Service → Scope → Except IoError Unit)
    (answer : Scope → Stream) (package : Option Package) (request : Request)
    (hc : request.check = .ok ()) (hl : request.call.payload.length ≤ maxPayload)
    (hs : ∃ scope, (Network.conversing bind answer).accepts request.service scope = true) :
    ∃ scope, (Network.conversing bind answer).firstScope? request.service = some scope ∧
      ∀ outcome, (perform ⟨.conversing bind answer, package⟩ request).1 = outcome ↔
        Decides package request (answer scope).bytes outcome := by
  obtain ⟨_, hs⟩ := hs
  obtain ⟨scope, hf⟩ := Network.exists_firstScope? hs
  refine ⟨scope, hf, fun outcome => ?_⟩
  let client : Client := ⟨.conversing bind answer, package⟩
  have hp : client.perform request = _ := perform_of_accepted hc hf
  rw [hp]
  have hw : converse request.call (answer scope) = (Response.receive (answer scope)).outcome := by
    simp only [converse, Call.frame, encode, if_pos hl]
  change client.settle request (converse request.call (answer scope)) = outcome ↔ _
  rw [hw]
  exact settle_receive_eq_iff

/-- A launch over the session scope, with the frame cut inside its header and a byte behind it. -/
theorem launch_decided_by_pieces :
    let bind : Service → Scope → Except IoError Unit := fun _ scope =>
      if scope = .session then .ok () else .error .noSuchFile
    let payload : Bytes := Response.payload (.returned 0 [.number (.ofNat 7)])
    let answer : Scope → Stream := fun _ => [[36, 0], [0, 0] ++ payload ++ [0]]
    let request : Request := .launchPipeline "cam"
    request.check = .ok () ∧ request.call.payload.length ≤ maxPayload ∧
      (Network.conversing bind answer).accepts request.service .session = true ∧
      (perform ⟨.conversing bind answer, none⟩ request).1 = .ok (.int64 7) := by
  intro bind payload answer request
  have hl : (Request.launchPipeline "cam").call.payload.length ≤ maxPayload := by decide +kernel
  have hv : ∀ v ∈ [Value.number (.ofNat 7)], Readable v := by
    intro v hv
    cases List.mem_singleton.mp hv
    exact .number _
  have hp := Response.ofPayload_payload (.returned 0 [.number (.ofNat 7)]) hv (by decide)
  refine ⟨rfl, hl, rfl, ?_⟩
  obtain ⟨scope, _, hd⟩ := perform_eq_iff_decides bind answer none request rfl hl ⟨.session, rfl⟩
  have hb : (answer scope).bytes = header payload.length ++ payload ++ [0] := by
    decide +kernel
  rw [hd, hb]
  exact .answered (by decide +kernel) hp (.fulfilled (.shown (by decide) rfl (.int64 rfl)))

end Client

end BusClient
