import BusClient.Proofs.CInterface.Arguments
import BusClient.Proofs.Json.Scan

/-!
# What a C function leaves behind

A C function refuses its arguments, or makes its request and ends in one of three ways: with the
status of a failure, with a result that is handed over, or with a text that cannot be. Each way is
one equation for `runUnder`. From these it follows that a slot is written exactly when the status
is zero, with the client's own result, and that the bytes of the call are those that the client
sends for the decoded arguments.
-/

namespace BusClient

/-- Every failure has a negative status, also a rejection without a code. -/
theorem CallError.status_neg (error : CallError) : error.status < 0 := by
  cases error with
  | invalidArgument _ => exact (by decide : argumentStatus < 0)
  | unavailable _ => exact (by decide : ioStatus < 0)
  | transport _ => exact (by decide : ioStatus < 0)
  | payload _ => exact (by decide : ioStatus < 0)
  | rejected code =>
    simp only [status]
    split
    · decide
    next hz =>
      split
      next hp =>
        have hlt := code.toInt_lt
        rw [Int32.lt_iff_toInt_lt] at hp ⊢
        simp only [Int32.toInt_zero, Int32.toInt_neg, Int.bmod] at hp ⊢
        split <;> omega
      next hp =>
        have hne : code.toInt ≠ 0 := fun h => hz (Int32.toInt_inj.mp h)
        rw [Int32.lt_iff_toInt_lt] at hp ⊢
        simp only [Int32.toInt_zero] at hp ⊢
        omega

/-! ## The results of requests -/

/-- Whether an output is of a kind. -/
def ResultKind.admits : ResultKind → Output → Bool
  | nothing, .nothing => true
  | text, .text _ => true
  | records, .text _ => true
  | int64, .int64 _ => true
  | int32, .int32 _ => true
  | uint32, .uint32 _ => true
  | _, _ => false

/-- What is found in values is of the kind that was looked for. -/
theorem ResultKind.ofValues?_admits {kind : ResultKind} {values : List Json.Value}
    {output : Output} (h : kind.ofValues? values = some output) : kind.admits output = true := by
  cases kind with
  | nothing =>
    cases h
    rfl
  | _ =>
    obtain ⟨_, _, rfl⟩ := Option.map_eq_some_iff.mp h
    rfl

namespace Client

variable {client : Client} {request : Request} {output : Output}

/-- Values are handed back as an output of the kind of the request. -/
theorem output_admits {values : List Json.Value} (h : client.output request values = .ok output) :
    request.resultKind.admits output = true := by
  unfold Client.output at h
  split at h
  · cases h
  next hf =>
    split at h
    next hk =>
      split at h
      · cases h
        rw [hk]
        rfl
      · cases h
    · cases h
      exact ResultKind.ofValues?_admits hf

/-- A request that succeeds hands back an output of its kind. -/
theorem perform_admits (h : (client.perform request).1 = .ok output) :
    request.resultKind.admits output = true := by
  cases hc : request.check with
  | error parameter =>
    rw [perform_of_unchecked hc] at h
    cases h
  | ok _ =>
    cases hf : client.network.firstScope? request.service with
    | none =>
      rw [perform_of_refused hc hf] at h
      cases h
    | some scope =>
      rw [perform_of_accepted hc hf] at h
      simp only [settle] at h
      split at h
      · cases h
      · split at h
        · cases h
        · exact output_admits h

end Client

/-! ## Texts in C -/

/-- A zero byte stands only for the zero character. -/
theorem zero_mem_utf8EncodeChar {c : Char} (h : 0 ∈ String.utf8EncodeChar c) : c = '\x00' := by
  by_cases hc : 0x7f < c.val.toNat
  · obtain ⟨n, hl, hu, hn⟩ := Json.utf8EncodeChar_long hc h
    have hz := congrArg UInt8.toNat hn
    rw [UInt8.toNat_ofNat'] at hz
    simp only [UInt8.toNat_zero] at hz
    omega
  · simp only [String.utf8EncodeChar, Nat.not_lt.mp hc, if_true, List.mem_singleton] at h
    have hz := congrArg UInt8.toNat h
    rw [UInt8.toNat_ofNat'] at hz
    simp only [UInt8.toNat_zero] at hz
    apply Char.ext
    apply UInt32.toNat_inj.mp
    simp only [Char.reduceVal, UInt32.toNat_ofNat]
    omega

namespace CInterface

/-- The bytes that C finds behind a pointer to a text: those of the text and a zero byte. -/
def terminated (text : String) : Bytes := Bytes.ofText text ++ [0]

/-- A text without a zero character is read back whole. -/
theorem beforeZero_terminated {text : String} (h : '\x00' ∉ text.toList) :
    beforeZero (terminated text) = .ofText text := by
  have hn : ∀ b ∈ Bytes.ofText text, (b != 0) = true := by
    intro b hb
    rw [Bytes.ofText_eq_flatMap] at hb
    obtain ⟨c, hc, hb⟩ := List.mem_flatMap.mp hb
    rw [bne_iff_ne]
    rintro rfl
    exact h (zero_mem_utf8EncodeChar hb ▸ hc)
  rw [beforeZero, terminated, List.takeWhile_append_of_pos hn]
  simp

/-- Whether an output is a text with a zero character, at which C would see it end. -/
def cutInC : Output → Bool
  | .text text => text.toList.contains '\x00'
  | _ => false

/-- What is written of an output: nothing if there is nothing to hand back. -/
def written? : Output → Option Output
  | .nothing => none
  | output => some output

/-- A result is handed over unless C would see it cut off. -/
theorem handOver_eq (output : Output) : handOver output =
    if cutInC output then .error (.payload "payload contains an interior NUL")
    else .ok (written? output) := by
  cases output with
  | text text => simp [handOver, cutInC, written?]
  | _ => rfl

/-! ## The two courses of a function -/

/-- What a request leaves behind in C once it has come to something. -/
def Effect.ofOutcome (outcome : Outcome Output) (events : List Event) : Effect :=
  match outcome with
  | .error error => ⟨error.status, none, events⟩
  | .ok output => if cutInC output then ⟨-5, none, events⟩ else ⟨0, written? output, events⟩

theorem Effect.events_ofOutcome (outcome : Outcome Output) (events : List Event) :
    (ofOutcome outcome events).events = events := by
  cases outcome with
  | error error => rfl
  | ok output =>
    rw [ofOutcome]
    split <;> rfl

variable {invocation : Invocation}

/-- A function that refuses its arguments does nothing else. -/
theorem runUnder_of_faulty (h : Faulty invocation) (setup : Setup) :
    runUnder setup invocation = ⟨-22, none, []⟩ := by
  rcases request_checks invocation with ⟨_, what, hr⟩ | ⟨hn, _⟩
  · simp only [runUnder, hr]
    rfl
  · exact absurd h hn

/-- A function with sound arguments leaves behind what its request comes to. -/
theorem runUnder_of_sound (h : ¬Faulty invocation) (setup : Setup) :
    runUnder setup invocation =
      .ofOutcome (ask setup invocation.intent).1 (ask setup invocation.intent).2 := by
  rcases request_checks invocation with ⟨hf, _⟩ | ⟨_, hr⟩
  · exact absurd hf h
  · simp only [runUnder, hr]
    split
    next he => rw [he]; rfl
    next output events he =>
      rw [he, handOver_eq, Effect.ofOutcome]
      by_cases hc : cutInC output = true
      · simp only [if_pos hc]
        rfl
      · simp only [if_neg hc]

/-! ## Agreement with the client -/

/-- A call among the events is one of those that were issued. -/
theorem mem_called {scope : Scope} {call : Call} {events : List Event}
    (h : .called scope call ∈ events) : (scope, call) ∈ called events :=
  List.mem_filterMap.mpr ⟨_, h, rfl⟩

/-- How a function agrees with the client on the request that it makes. -/
structure Agrees (invocation : Invocation) (outcome : Outcome Output) (events : List Event)
    (effect : Effect) : Prop where
  /-- The texts that must be given are decoded up to their first zero byte. -/
  mandatory : ∀ arg ∈ invocation.mandatory,
    ∃ bytes, arg = some bytes ∧ beforeZero bytes = .ofText (held arg)
  /-- So are those that may be null, and a null one is absent. -/
  optional : ∀ arg ∈ invocation.optional, arg = none ∧ held? arg = none ∨
    ∃ bytes text, arg = some bytes ∧ held? arg = some text ∧ beforeZero bytes = .ofText text
  /-- The client finds no fault with the arguments. -/
  accepted : ∀ what, outcome ≠ .error (.invalidArgument what)
  /-- The search for a scope is entered. -/
  searched : (tried events).head? = some (invocation.intent.service, .system)
  /-- No other call is made than the one of the request. -/
  calls : ∀ scope call, .called scope call ∈ events → call = invocation.intent.call
  /-- Connections are used as the client uses them. -/
  events : effect.events = events
  /-- A failure of the request gives its status. -/
  failed : ∀ error, outcome = .error error → effect.status = error.status
  /-- Any other status than zero is that of a text that C would see cut off. -/
  succeeded : ∀ output, outcome = .ok output → effect.status = if cutInC output then -5 else 0

/-- A function refuses its faulty arguments before anything happens, whatever the daemon would
answer. It makes a request of all others that the client accepts, and reports what comes of it. -/
theorem run_agrees (invocation : Invocation) :
    (Faulty invocation → ∀ setup : Setup, runUnder setup invocation = ⟨-22, none, []⟩) ∧
      (¬Faulty invocation → ∀ client : Client,
        Agrees invocation (client.perform invocation.intent).1
          (client.perform invocation.intent).2 (run client invocation)) := by
  refine ⟨runUnder_of_faulty, fun h client => ?_⟩
  have hc := check_intent h
  have hd := perform_disciplined client.package ⟨client.network, invocation.intent⟩
  have he : run client invocation = .ofOutcome (client.perform invocation.intent).1
    (client.perform invocation.intent).2 := runUnder_of_sound h (.ok client)
  constructor
  case mandatory =>
    intro arg ha
    have hm : ¬Missing arg := fun hm => h (.mandatory ha hm)
    exact held?_eq_some_iff.mp (held_of_not_missing hm).1
  case optional =>
    intro arg ha
    cases arg with
    | none => exact .inl ⟨rfl, rfl⟩
    | some bytes =>
      cases ht : held? (some bytes) with
      | none => exact absurd (.optional ha (.notText ht)) h
      | some text =>
        obtain ⟨bytes, hb, he⟩ := held?_eq_some_iff.mp ht
        exact .inr ⟨bytes, text, hb, rfl, he⟩
  case accepted => exact Client.perform_ne_invalidArgument hc
  case searched => exact hd.first hc
  case calls =>
    intro scope call hm
    have hcalled := mem_called hm
    have hcalls := hd.calls
    rw [hcalls] at hcalled
    obtain ⟨_, _, hp⟩ := List.mem_map.mp hcalled
    exact (congrArg Prod.snd hp).symm
  case events =>
    rw [he]
    exact Effect.events_ofOutcome _ _
  case failed =>
    intro error ho
    rw [he, ho]
    rfl
  case succeeded =>
    intro output ho
    rw [he, ho, Effect.ofOutcome]
    split <;> rfl

/-! ## Slots -/

/-- What a slot holds afterwards, if `place` is how an output is put into a slot and `old` what
the slot held before. -/
def Effect.contentAfter {α : Type} (effect : Effect) (place : Output → α) (old : α) : α :=
  (effect.written.map place).getD old

/-- How a function with a slot hands over what its request comes to. -/
structure Delivers (invocation : Invocation) (outcome : Outcome Output) (effect : Effect) :
    Prop where
  /-- The slot is written exactly if the status is zero. -/
  written_iff : effect.written.isSome ↔ effect.status = 0
  /-- The status is zero exactly if the arguments are sound, the request succeeds, and its result
  is no text that C would see cut off. -/
  status_iff : effect.status = 0 ↔
    ¬Faulty invocation ∧ ∃ output, outcome = .ok output ∧ cutInC output = false
  /-- What is written is the result of the request, of the kind that the function promises. -/
  result : ∀ output, effect.written = some output →
    outcome = .ok output ∧ invocation.intent.resultKind.admits output = true
  /-- A text is read back whole. -/
  readable : ∀ text, effect.written = some (.text text) →
    (beforeZero (terminated text)).text? = some text
  /-- The slot then holds the result. -/
  filled : effect.status = 0 → ∀ {α : Type} (place : Output → α) (old : α) (output : Output),
    outcome = .ok output → effect.contentAfter place old = place output
  /-- With any other status it keeps what it held. -/
  kept : effect.status ≠ 0 → ∀ {α : Type} (place : Output → α) (old : α),
    effect.contentAfter place old = old
  /-- A text that C would see cut off is a failure, although the call has succeeded. -/
  cut : ¬Faulty invocation → ∀ output, outcome = .ok output → cutInC output = true →
    effect.status = -5

/-- A function with a slot makes a request that hands something back. -/
theorem resultKind_intent (hs : invocation.slot?.isSome = true) :
    invocation.intent.resultKind ≠ .nothing := by
  intro hk
  cases invocation with
  | getPipelineDescription | launchPipeline | getPipelineState | registerModel | getModel
  | getActivatedModel | getAllModels | getResource => cases hk
  | _ => cases hs

/-- An output of any kind but the one of nothing is written as it is. -/
theorem written?_of_admits {kind : ResultKind} {output : Output} (hk : kind ≠ .nothing)
    (h : kind.admits output = true) : written? output = some output := by
  cases output with
  | nothing =>
    cases kind with
    | nothing => exact absurd rfl hk
    | _ => cases h
  | _ => rfl

/-- A request that succeeds in any process hands back an output of its kind. -/
theorem ask_admits {setup : Setup} {request : Request} {output : Output}
    (h : (ask setup request).1 = .ok output) : request.resultKind.admits output = true := by
  cases setup with
  | error reason => cases h
  | ok client => exact Client.perform_admits h

section

variable {outcome : Outcome Output} {events : List Event}

/-- A failure leaves the slot as it was, whether the arguments, the request or its text failed. -/
theorem delivers_of_failure {status : Int32} (hn : status ≠ 0)
    (hc : ¬Faulty invocation → ∀ output, outcome = .ok output →
      cutInC output = true ∧ status = -5) :
    Delivers invocation outcome ⟨status, none, events⟩ where
  written_iff := ⟨fun h => absurd h Bool.false_ne_true, fun h => absurd h hn⟩
  status_iff := by
    refine ⟨fun h => absurd h hn, ?_⟩
    rintro ⟨hf, output, ho, hw⟩
    exact absurd ((hc hf output ho).1.symm.trans hw) (by decide)
  result _ h := absurd h (by simp)
  readable _ h := absurd h (by simp)
  filled h := absurd h hn
  kept _ _ _ _ := rfl
  cut hf output ho _ := (hc hf output ho).2

/-- A success fills the slot with the result. -/
theorem delivers_of_success {output : Output} (hf : ¬Faulty invocation)
    (ha : invocation.intent.resultKind.admits output = true) (hc : cutInC output = false) :
    Delivers invocation (.ok output) ⟨0, some output, events⟩ where
  written_iff := ⟨fun _ => rfl, fun _ => rfl⟩
  status_iff := ⟨fun _ => ⟨hf, output, rfl, hc⟩, fun _ => rfl⟩
  result found h := by
    cases h
    exact ⟨rfl, ha⟩
  readable text h := by
    cases h
    have hz : '\x00' ∉ text.toList := by simpa [cutInC] using hc
    rw [beforeZero_terminated hz, Bytes.text?_ofText]
  filled _ _ place old found h := by
    cases h
    rfl
  kept h := absurd rfl h
  cut _ found ho hw := by
    cases ho
    exact absurd (hw.symm.trans hc) (by decide)

end

/-- A function with a slot that ends with the status zero has written the result of its request,
and with any other status it has written nothing. -/
theorem runUnder_delivers (setup : Setup) (hs : invocation.slot?.isSome = true) :
    Delivers invocation (ask setup invocation.intent).1 (runUnder setup invocation) := by
  by_cases hf : Faulty invocation
  · rw [runUnder_of_faulty hf]
    exact delivers_of_failure (by decide) fun h => absurd hf h
  rw [runUnder_of_sound hf]
  cases ho : (ask setup invocation.intent).1 with
  | error error =>
    have hn : error.status ≠ 0 := fun he => absurd (he ▸ error.status_neg) (by decide)
    exact delivers_of_failure hn fun _ _ h => by cases h
  | ok output =>
    have ha := ask_admits ho
    have hw := written?_of_admits (resultKind_intent hs) ha
    cases hc : cutInC output with
    | true =>
      simp only [Effect.ofOutcome, hc, if_true]
      refine delivers_of_failure (by decide) fun _ found h => ?_
      cases h
      exact ⟨hc, rfl⟩
    | false =>
      simp only [Effect.ofOutcome, hc, hw, Bool.false_eq_true, if_false]
      exact delivers_of_success hf ha hc

/-- A description with a zero character is not handed over, although its call has succeeded; what
stands behind the zero byte of the name is not looked at. -/
theorem runUnder_delivers_cut :
    let client : Client :=
      ⟨⟨fun _ _ => .ok (), fun _ _ _ => .ok (.returned 0 [.string "a\x00b"])⟩, none⟩
    let invocation : Invocation := .getPipelineDescription (some [0x6d, 0, 0xff]) .given
    invocation.slot?.isSome = true ∧
      (client.perform invocation.intent).1 = .ok (.text "a\x00b") ∧
      Delivers invocation (client.perform invocation.intent).1 (run client invocation) ∧
      (run client invocation).status = -5 := by
  intro client invocation
  have hh : held? (some [0x6d, 0, 0xff]) = some "m" := by decide +kernel
  have hf : ¬Faulty invocation := by
    simp [invocation, faulty_iff, missing_iff, hh]
  have hi : invocation.intent = .getPipelineDescription "m" := by
    simp [invocation, Invocation.intent, held, hh]
  have hp : (client.perform invocation.intent).1 = .ok (.text "a\x00b") := by
    rw [hi]
    rfl
  have hd : Delivers invocation (client.perform invocation.intent).1 (run client invocation) :=
    runUnder_delivers (.ok client) rfl
  exact ⟨rfl, hp, hd, hd.cut hf _ hp (by decide)⟩

end CInterface

end BusClient
