import Mathlib.Control.Monad.Basic
import BusClient.Proofs.CInterface.Effect
import BusClient.Proofs.Client.Verdict
import BusClient.Proofs.Wire.Framing

/-!
# Results that are integers

Three requests hand back an integer: the identifier of a launched pipeline, its state, and the
version of a registered model. The daemon may send any document as the first value. The request
succeeds exactly if that value is spelled as an integer, with neither fraction nor exponent, that
lies in the range of the result. The result is then that very integer; any other value is refused
as invalid data, so nothing is wrapped, cut off or rounded.
-/

namespace BusClient

open BusClient.Json BusClient.Frame

/-! ## Spellings and ranges -/

/-- A value that is spelled as an integer: by digits alone or, where a sign is allowed, by digits
behind a minus sign. -/
inductive Spelled : (signed : Bool) → Value → Int → Prop
  | digits (signed : Bool) (whole : Nat) : Spelled signed (.number ⟨false, whole, [], none⟩) whole
  | minus (whole : Nat) : Spelled true (.number ⟨true, whole, [], none⟩) (-whole)

/-- The integer of an output that is one. -/
def Output.integer? : Output → Option Int
  | int64 n => some n.toInt
  | int32 n => some n.toInt
  | uint32 n => some n.toNat
  | _ => none

/-- Requests whose result is an integer, with or without a sign, and the least and the greatest
that it can be. -/
inductive Request.Counts : Request → (signed : Bool) → (least greatest : Int) → Prop
  | launch (name : String) :
    Counts (.launchPipeline name) true (-9223372036854775808) 9223372036854775807
  | state (id : Int64) : Counts (.getPipelineState id) true (-2147483648) 2147483647
  | register (name path : String) (activate : Bool) (description appInfo : Option String) :
    Counts (.registerModel name path activate description appInfo) false 0 4294967295

/-- A value is spelled as an integer that may have a sign exactly if its number shows it. -/
theorem spelled_signed_iff {value : Value} {k : Int} :
    Spelled true value k ↔ ∃ n : Number, value = .number n ∧ n.integer? = some k := by
  constructor
  · rintro (⟨_, whole⟩ | ⟨whole⟩)
    · exact ⟨_, rfl, rfl⟩
    · exact ⟨_, rfl, rfl⟩
  · rintro ⟨⟨negative, whole, fraction, exponent⟩, rfl, h⟩
    simp only [Number.integer?] at h
    split at h
    next hplain =>
      obtain ⟨rfl, rfl⟩ := hplain
      cases h
      cases negative with
      | false => exact .digits true whole
      | true => exact .minus whole
    · cases h

/-- Where no sign is allowed the number must not have one. -/
theorem spelled_unsigned_iff {value : Value} {k : Int} : Spelled false value k ↔
    ∃ n : Number, value = .number n ∧ n.negative = false ∧ n.integer? = some k := by
  constructor
  · rintro ⟨_, whole⟩
    exact ⟨_, rfl, rfl, rfl⟩
  · rintro ⟨⟨negative, whole, fraction, exponent⟩, rfl, hn, h⟩
    simp only at hn
    subst hn
    simp only [Number.integer?] at h
    split at h
    next hplain =>
      obtain ⟨rfl, rfl⟩ := hplain
      cases h
      exact .digits false whole
    · cases h

namespace Request.Counts

variable {request : Request} {signed : Bool} {least greatest : Int}

theorem resultKind_ne (h : request.Counts signed least greatest) :
    request.resultKind ≠ .nothing ∧ request.resultKind ≠ .records := by
  cases h <;> exact ⟨ResultKind.noConfusion, ResultKind.noConfusion⟩

/-- An integer is the result of such a request exactly if it lies in the range. -/
theorem exists_output_iff (h : request.Counts signed least greatest) {k : Int} :
    (∃ output, request.resultKind.admits output = true ∧ output.integer? = some k) ↔
      least ≤ k ∧ k ≤ greatest := by
  constructor
  · rintro ⟨output, ha, hk⟩
    cases h with
    | launch =>
      cases output <;> cases ha
      next word =>
        cases hk
        exact ⟨word.minValue_le_toInt, word.toInt_le⟩
    | state =>
      cases output <;> cases ha
      next word =>
        cases hk
        exact ⟨word.minValue_le_toInt, word.toInt_le⟩
    | register =>
      cases output <;> cases ha
      next word =>
        cases hk
        have := word.toNat_lt
        omega
  · rintro ⟨hl, hg⟩
    cases h with
    | launch =>
      refine ⟨.int64 (.ofInt k), rfl, ?_⟩
      rw [Output.integer?, Int64.toInt_ofInt_of_le hl (Int.lt_add_one_of_le hg)]
    | state =>
      refine ⟨.int32 (.ofInt k), rfl, ?_⟩
      rw [Output.integer?, Int32.toInt_ofInt_of_le hl (Int.lt_add_one_of_le hg)]
    | register =>
      have hs : k.toNat < UInt32.size := by
        have hs : UInt32.size = 4294967296 := rfl
        omega
      refine ⟨.uint32 (.ofNat k.toNat), rfl, ?_⟩
      rw [Output.integer?, UInt32.toNat_ofNat_of_lt' hs, Int.toNat_of_nonneg hl]

/-- A value shows the output exactly if it is spelled as its integer. -/
theorem shows_iff (h : request.Counts signed least greatest) {value : Value} {output : Output} :
    Shows request.resultKind value output ↔ ∃ k, Spelled signed value k ∧
      request.resultKind.admits output = true ∧ output.integer? = some k := by
  cases h with
  | launch =>
    simp only [spelled_signed_iff]
    constructor
    · intro hs
      cases hs with
      | int64 hn => exact ⟨_, ⟨_, rfl, hn⟩, rfl, rfl⟩
    · rintro ⟨k, ⟨n, rfl, hn⟩, ha, hk⟩
      cases output <;> cases ha
      cases hk
      exact .int64 hn
  | state =>
    simp only [spelled_signed_iff]
    constructor
    · intro hs
      cases hs with
      | int32 hn => exact ⟨_, ⟨_, rfl, hn⟩, rfl, rfl⟩
    · rintro ⟨k, ⟨n, rfl, hn⟩, ha, hk⟩
      cases output <;> cases ha
      cases hk
      exact .int32 hn
  | register =>
    simp only [spelled_unsigned_iff]
    constructor
    · intro hs
      cases hs with
      | uint32 hp hn => exact ⟨_, ⟨_, rfl, hp, hn⟩, rfl, rfl⟩
    · rintro ⟨k, ⟨n, rfl, hs, hn⟩, ha, hk⟩
      cases output <;> cases ha
      cases hk
      exact .uint32 hs hn

end Request.Counts

/-! ## What comes of the first value -/

/-- How the first value of a response that reports success settles a request whose result is an
integer. -/
structure Counted (request : Request) (signed : Bool) (least greatest : Int)
    (first : Option Value) (outcome : Outcome Output) : Prop where
  /-- The request succeeds exactly if there is a first value and it is spelled as an integer in
  range. -/
  succeeds_iff : (∃ output, outcome = .ok output) ↔
    ∃ value k, first = some value ∧ Spelled signed value k ∧ least ≤ k ∧ k ≤ greatest
  /-- The result is then that integer, as a word of the size that the request promises. -/
  exact : ∀ output, outcome = .ok output → ∃ value k, first = some value ∧
    Spelled signed value k ∧ request.resultKind.admits output = true ∧ output.integer? = some k
  /-- Otherwise the data of the response are called invalid. -/
  refused : (∀ output, outcome ≠ .ok output) →
    ∃ text, outcome = .error (.transport ⟨.invalidData, text⟩)

namespace Client

variable {client : Client} {request : Request} {signed : Bool} {least greatest : Int}

/-- The output is found in the first value or not at all. -/
theorem output_eq_ok_iff_shows (h : request.Counts signed least greatest) {values : List Value}
    {output : Output} : client.output request values = .ok output ↔
      ∃ value, values.head? = some value ∧ Shows request.resultKind value output := by
  obtain ⟨hn, hr⟩ := h.resultKind_ne
  rw [← ResultKind.ofValues?_eq_some_iff hn]
  cases hf : request.resultKind.ofValues? values with
  | none => simp [output_of_none hf]
  | some found => simp [output_of_some hr hf]

/-- A response that reports success settles a request by its first value. -/
theorem output_counted (client : Client) (h : request.Counts signed least greatest)
    (values : List Value) :
    Counted request signed least greatest values.head? (client.output request values) where
  succeeds_iff := by
    constructor
    · rintro ⟨output, ho⟩
      obtain ⟨value, hv, hs⟩ := (output_eq_ok_iff_shows h).mp ho
      obtain ⟨k, hk, hw⟩ := h.shows_iff.mp hs
      exact ⟨value, k, hv, hk, h.exists_output_iff.mp ⟨output, hw⟩⟩
    · rintro ⟨value, k, hv, hk, hb⟩
      obtain ⟨output, hw⟩ := h.exists_output_iff.mpr hb
      exact ⟨output, (output_eq_ok_iff_shows h).mpr ⟨value, hv, h.shows_iff.mpr ⟨k, hk, hw⟩⟩⟩
  exact output ho := by
    obtain ⟨value, hv, hs⟩ := (output_eq_ok_iff_shows h).mp ho
    obtain ⟨k, hk, hw⟩ := h.shows_iff.mp hs
    exact ⟨value, k, hv, hk, hw⟩
  refused ho := by
    obtain ⟨-, hr⟩ := h.resultKind_ne
    cases hf : request.resultKind.ofValues? values with
    | none => exact ⟨_, output_of_none hf⟩
    | some found => exact absurd (output_of_some hr hf) (ho found)

/-- An integer comes back exactly as the daemon spelled it, or is refused, over whatever connection
and whatever else the daemon sends with it. -/
theorem perform_counted (h : request.Counts signed least greatest)
    (hc : request.check = .ok ()) {scope : Scope}
    (hs : client.network.firstScope? request.service = some scope) {values : List Value}
    (hv : client.network.call request.service scope request.call = .ok (.returned 0 values)) :
    Counted request signed least greatest values.head? (client.perform request).1 := by
  have hp : (client.perform request).1 = client.output request values := by
    rw [perform_of_accepted hc hs, hv]
    rfl
  rw [hp]
  exact output_counted client h values

/-- A response that arrives as a whole frame is what comes of a call that fits one. -/
theorem call_conversing {bind : Service → Scope → Except IoError Unit} {answer : Scope → Stream}
    {service : Service} {scope : Scope} {call : Call} {payload rest : Bytes} {response : Response}
    (hc : call.payload.length ≤ maxPayload) (hl : payload.length ≤ maxPayload)
    (ha : (answer scope).bytes = Frame.ofPayload payload ++ rest)
    (hp : Response.ofPayload payload = .ok response) :
    (Network.conversing bind answer).call service scope call = .ok response := by
  obtain ⟨left, hr, -⟩ := receive_ofPayload Response.ofPayload hl ha
  simp only [Network.conversing, converse, Call.frame, encode_of_le hc, Response.receive, hr,
    unpack, hp]

/-- The least identifier comes over the session scope, with its frame cut inside the header,
another value behind it and a byte after the frame. -/
theorem perform_counted_least :
    let bind : Service → Scope → Except IoError Unit := fun _ scope =>
      if scope = .session then .ok () else .error .noSuchFile
    let values : List Value := [.number ⟨true, 9223372036854775808, [], none⟩, .null]
    let payload : Bytes := Response.payload (.returned 0 values)
    let answer : Scope → Stream := fun _ => [[60, 0], [0, 0] ++ payload ++ [0]]
    let client : Client := ⟨.conversing bind answer, none⟩
    let request : Request := .launchPipeline "cam"
    request.Counts true (-9223372036854775808) 9223372036854775807 ∧ request.check = .ok () ∧
      client.network.firstScope? request.service = some .session ∧
      client.network.call request.service .session request.call = .ok (.returned 0 values) ∧
      (client.perform request).1 = .ok (.int64 Int64.minValue) := by
  intro bind values payload answer client request
  have hreadable : ∀ v ∈ values, Readable v :=
    List.forall_mem_cons.mpr ⟨.number _, List.forall_mem_singleton.mpr .null⟩
  have hp : Response.ofPayload payload = .ok (.returned 0 values) :=
    Response.ofPayload_payload (.returned 0 values) hreadable (by decide)
  have hb : (answer .session).bytes = Frame.ofPayload payload ++ [0] := by decide +kernel
  have hc : request.call.payload.length ≤ maxPayload := by decide +kernel
  have hl : payload.length ≤ maxPayload := by decide +kernel
  have hr : client.network.call request.service .session request.call =
      .ok (.returned 0 values) := call_conversing hc hl hb hp
  have hs : client.network.firstScope? request.service = some .session := rfl
  have hd : Counted request true (-9223372036854775808) 9223372036854775807 values.head?
      (client.perform request).1 := perform_counted (.launch "cam") rfl hs hr
  refine ⟨.launch "cam", rfl, hs, hr, ?_⟩
  obtain ⟨output, ho⟩ := hd.succeeds_iff.mpr
    ⟨_, _, rfl, .minus 9223372036854775808, by decide, by decide⟩
  obtain ⟨value, k, hv, hk, ha, hi⟩ := hd.exact output ho
  have hk : k = -9223372036854775808 := by
    obtain ⟨n, hn, hi⟩ := spelled_signed_iff.mp hk
    simp only [values, List.head?_cons, Option.some.injEq] at hv
    rw [← hv, Value.number.injEq] at hn
    simpa [← hn, Number.integer?, eq_comm] using hi
  cases output <;> cases ha
  next word =>
    simp only [Output.integer?, Option.some.injEq] at hi
    have hw : word = Int64.minValue := Int64.toInt_inj.mp (hi.trans hk)
    rw [ho, hw]

/-- Zero behind a minus sign is spelled as an integer in range, and yet it is refused where no sign
is allowed. An object that the reserved name opens is no number in the text, and yet it is taken
for the one that it spells. -/
theorem perform_counted_exceptions :
    let client (text : String) : Client :=
      ⟨.conversing (fun _ _ => .ok ()) fun _ => [Frame.ofPayload (.ofText text)], none⟩
    let zero : Value := .number ⟨true, 0, [], none⟩
    let text := "\x7b\"return\":\x7b\"result\":0,\"values\":[-0]\x7d\x7d"
    let request : Request := .registerModel "m" "/p" false none none
    Response.ofPayload (.ofText text) = .ok (.returned 0 [zero]) ∧ Spelled true zero 0 ∧
      request.Counts false 0 4294967295 ∧ request.check = .ok () ∧
      ((client text).perform request).1 = .error (lacking "register" .uint32) ∧
      ((client ("\x7b\"return\":\x7b\"result\":0,\"values\":[" ++
          "\x7b\"$serde_json::private::Number\":\"5\"\x7d]\x7d\x7d")).perform
        (.launchPipeline "cam")).1 = .ok (.int64 5) := by
  intro client zero text request
  have ht : Bytes.ofText text = Response.payload (.returned 0 [zero]) := by decide +kernel
  have hp := Response.ofPayload_payload (.returned 0 [zero])
    (List.forall_mem_singleton.mpr (.number _)) (by decide)
  refine ⟨ht ▸ hp, .minus 0, .register "m" "/p" false none none, rfl, ?_, ?_⟩
  · decide +kernel
  · decide +kernel

end Client

end BusClient
