import BusClient.Proofs.Client.Course

/-!
# Bind, call and release over whole runs

A run is a list of requests, each with the network as it is when its turn comes: which scopes
refuse and what the connections answer may change from one request to the next. `Disciplined`
says what a single request may do to connections. Every request of every run keeps to it, and
whenever a request returns, the connections given up are exactly the connections made, in the
same order, so that none is left open for a later request.
-/

namespace BusClient

namespace Event

/-- The service and the scope of an attempt to bind. -/
def tried? : Event → Option (Service × Scope)
  | .bound service scope _ => some (service, scope)
  | _ => none

/-- The scope of a connection that was made. -/
def accepted? : Event → Option Scope
  | .bound _ scope true => some scope
  | _ => none

/-- A call and the scope of its connection. -/
def called? : Event → Option (Scope × Call)
  | .called scope call => some (scope, call)
  | _ => none

/-- The scope of a connection that was given up. -/
def released? : Event → Option Scope
  | .released scope => some scope
  | _ => none

end Event

/-- The attempts to bind, in order. -/
def tried (events : List Event) : List (Service × Scope) := events.filterMap Event.tried?

/-- The connections that were made, in order. -/
def accepted (events : List Event) : List Scope := events.filterMap Event.accepted?

/-- The calls that were issued, in order. -/
def called (events : List Event) : List (Scope × Call) := events.filterMap Event.called?

/-- The connections that were given up, in order. -/
def released (events : List Event) : List Scope := events.filterMap Event.released?

section Views

variable (service : Service) (scopes : List Scope) (events more : List Event)

@[simp] theorem tried_append : tried (events ++ more) = tried events ++ tried more :=
  List.filterMap_append

@[simp] theorem accepted_append : accepted (events ++ more) = accepted events ++ accepted more :=
  List.filterMap_append

@[simp] theorem called_append : called (events ++ more) = called events ++ called more :=
  List.filterMap_append

@[simp] theorem released_append : released (events ++ more) = released events ++ released more :=
  List.filterMap_append

/-- A refusal is an attempt. -/
@[simp] theorem tried_refusals :
    tried (scopes.map (.bound service · false)) = scopes.map (service, ·) := by
  induction scopes with
  | nil => rfl
  | cons scope scopes ih => simpa [tried, Event.tried?] using ih

/-- A refusal makes no connection. -/
@[simp] theorem accepted_refusals : accepted (scopes.map (.bound service · false)) = [] := by
  simp [accepted, Event.accepted?]

@[simp] theorem called_refusals : called (scopes.map (.bound service · false)) = [] := by
  simp [called, Event.called?]

@[simp] theorem released_refusals : released (scopes.map (.bound service · false)) = [] := by
  simp [released, Event.released?]

end Views

/-- One request of a run, and the network as it is at that time. -/
structure Operation where
  network : Network
  request : Request

/-- What a request may do to connections, and which outcome goes with it. -/
structure Disciplined (package : Option Package) (op : Operation) (outcome : Outcome Output)
    (events : List Event) : Prop where
  /-- A request that fails its check binds nothing, calls nothing and gives nothing up. -/
  unchecked : ∀ parameter, op.request.check = .error parameter →
    events = [] ∧ outcome = .error (.invalidArgument parameter.word)
  /-- Any other request tries its service on the system scope first. -/
  first : op.request.check = .ok () →
    (tried events).head? = some (op.request.service, .system)
  /-- The session scope is tried exactly when the system scope has refused. -/
  fallback : op.request.check = .ok () →
    ((op.request.service, .session) ∈ tried events ↔
      op.network.accepts op.request.service .system = false)
  /-- No other service is tried. -/
  own : ∀ attempt ∈ tried events, attempt.1 = op.request.service
  /-- No scope is tried twice. -/
  once : (tried events).Nodup
  /-- An attempt is recorded with the answer of the network. -/
  truthful : ∀ service scope answer, .bound service scope answer ∈ events →
    op.network.accepts service scope = answer
  /-- Nothing is tried after a success. -/
  content : ∀ before after service scope,
    events = before ++ .bound service scope true :: after → tried after = []
  /-- A connection is made exactly when some scope accepts, and then only one. -/
  connected : op.request.check = .ok () →
    accepted events = (op.network.firstScope? op.request.service).toList
  /-- The one call of a request goes over the connection that it made. -/
  calls : called events = (accepted events).map (·, op.request.call)
  /-- The connection is made, called and given up, and nothing happens in between or later. -/
  used : ∀ scope ∈ accepted events, ∃ refusals, events = refusals ++
    [.bound op.request.service scope true, .called scope op.request.call, .released scope]
  /-- What the network answers to that call is what the request comes to. -/
  settled : ∀ scope call, .called scope call ∈ events → outcome =
    Client.settle ⟨op.network, package⟩ op.request
      (op.network.call op.request.service scope call)
  /-- A service is unavailable exactly when its request passed the check and no scope accepts. -/
  unavailable : ∀ service, outcome = .error (.unavailable service) ↔
    op.request.check = .ok () ∧ service = op.request.service ∧
      ∀ scope, op.network.accepts service scope = false
  /-- Every connection that was made has been given up, and no other. -/
  balanced : released events = accepted events

/-- What comes of a call never reads as a service that is not there. -/
theorem Client.settle_ne_unavailable (client : Client) (request : Request)
    (answer : Except IoError Response) (service : Service) :
    client.settle request answer ≠ .error (.unavailable service) := by
  intro h
  rcases settle_error h with ⟨_, he⟩ | ⟨_, he⟩ | ⟨_, he⟩ <;> cases he

/-- Two scopes are searched: the first that accepts is the system scope, or the session scope
after a refusal, or there is none. -/
theorem Network.firstScope?_cases (network : Network) (service : Service) :
    network.accepts service .system = true ∧ network.firstScope? service = some .system ∨
    network.accepts service .system = false ∧ network.accepts service .session = true ∧
      network.firstScope? service = some .session ∨
    network.accepts service .system = false ∧ network.accepts service .session = false ∧
      network.firstScope? service = none := by
  cases hs : network.accepts service .system <;> cases ht : network.accepts service .session <;>
    simp [firstScope?, Scope.order, hs, ht]

/-- The scopes that were tried in vain, by the scope that accepts. -/
theorem Network.refusing_cases {network : Network} {service : Service} {scope : Scope}
    (h : network.firstScope? service = some scope) :
    scope = .system ∧ network.accepts service .system = true ∧
      network.refusing service Scope.order = [] ∨
    scope = .session ∧ network.accepts service .system = false ∧
      network.accepts service .session = true ∧
      network.refusing service Scope.order = [.system] := by
  rcases network.firstScope?_cases service with ⟨hs, hf⟩ | ⟨hs, ht, hf⟩ | ⟨hs, ht, hf⟩
  · rw [hf] at h
    cases h
    exact .inl ⟨rfl, hs, by simp [refusing, Scope.order, hs]⟩
  · rw [hf] at h
    cases h
    exact .inr ⟨rfl, hs, ht, by simp [refusing, Scope.order, hs, ht]⟩
  · rw [hf] at h
    cases h

/-- Behind refusals and a success without another one, a split at a success is at that one. -/
private theorem eq_of_success {service service' : Service} {scope scope' : Scope}
    {scopes : List Scope} {before after rest : List Event} (hr : accepted rest = [])
    (h : scopes.map (.bound service · false) ++ .bound service scope true :: rest =
      before ++ .bound service' scope' true :: after) : after = rest := by
  induction scopes generalizing before with
  | nil =>
    cases before with
    | nil =>
      simp only [List.map_nil, List.nil_append, List.cons.injEq] at h
      exact h.2.symm
    | cons event before =>
      simp only [List.map_nil, List.nil_append, List.cons_append, List.cons.injEq] at h
      rw [h.2, accepted_append] at hr
      simp [accepted, Event.accepted?] at hr
  | cons first scopes ih =>
    cases before with
    | nil => simp at h
    | cons event before =>
      simp only [List.map_cons, List.cons_append, List.cons.injEq] at h
      exact ih h.2

/-- The course of an accepted request keeps to the discipline. -/
private theorem disciplined_of_accepted (package : Option Package) {op : Operation}
    {scope : Scope} (hc : op.request.check = .ok ())
    (hf : op.network.firstScope? op.request.service = some scope) :
    Disciplined package op
      (Client.settle ⟨op.network, package⟩ op.request
        (op.network.call op.request.service scope op.request.call))
      ((op.network.refusing op.request.service Scope.order).map
          (.bound op.request.service · false) ++
        [.bound op.request.service scope true, .called scope op.request.call,
          .released scope]) where
  unchecked parameter h := by simp [hc] at h
  first _ := by
    rcases Network.refusing_cases hf with ⟨rfl, hs, hr⟩ | ⟨rfl, hs, ht, hr⟩ <;>
      simp [hr, tried, Event.tried?]
  fallback _ := by
    rcases Network.refusing_cases hf with ⟨rfl, hs, hr⟩ | ⟨rfl, hs, ht, hr⟩ <;>
      simp [hr, hs, tried, Event.tried?]
  own attempt h := by
    rw [tried_append, tried_refusals, List.mem_append] at h
    rcases h with h | h
    · obtain ⟨_, _, rfl⟩ := List.mem_map.mp h
      rfl
    · simp only [tried, Event.tried?, List.filterMap_cons, List.filterMap_nil,
        List.mem_singleton] at h
      rw [h]
  once := by
    rcases Network.refusing_cases hf with ⟨rfl, hs, hr⟩ | ⟨rfl, hs, ht, hr⟩ <;>
      simp [hr, tried, Event.tried?, List.filterMap_cons]
  truthful service scope' answer h := by
    rcases Network.refusing_cases hf with ⟨rfl, hs, hr⟩ | ⟨rfl, hs, ht, hr⟩
    · simp only [hr, List.map_nil, List.nil_append, List.mem_cons, reduceCtorEq, or_false,
        Event.bound.injEq, List.not_mem_nil] at h
      obtain ⟨rfl, rfl, rfl⟩ := h
      exact hs
    · simp only [hr, List.map_cons, List.map_nil, List.cons_append, List.nil_append,
        List.mem_cons, reduceCtorEq, or_false, Event.bound.injEq, List.not_mem_nil] at h
      rcases h with ⟨rfl, rfl, rfl⟩ | ⟨rfl, rfl, rfl⟩
      · exact hs
      · exact ht
  content before after service scope' h := by
    rw [eq_of_success (by rfl) h]
    rfl
  connected _ := by
    rw [accepted_append, accepted_refusals, hf]
    rfl
  calls := by
    rw [called_append, called_refusals, accepted_append, accepted_refusals]
    rfl
  used scope' h := by
    rw [accepted_append, accepted_refusals] at h
    simp only [accepted, Event.accepted?, List.filterMap_cons, List.filterMap_nil,
      List.nil_append, List.mem_singleton] at h
    subst h
    exact ⟨_, rfl⟩
  settled scope' call h := by
    simp only [List.mem_append, List.mem_map, reduceCtorEq, and_false, exists_false, false_or,
      List.mem_cons, Event.called.injEq, or_false, List.not_mem_nil] at h
    obtain ⟨rfl, rfl⟩ := h
    rfl
  unavailable service := by
    constructor
    · intro h
      exact absurd h (Client.settle_ne_unavailable _ _ _ service)
    · rintro ⟨_, rfl, h⟩
      exact absurd ((h scope).symm.trans (List.find?_some hf)) Bool.false_ne_true
  balanced := by
    rw [released_append, released_refusals, accepted_append, accepted_refusals]
    rfl

/-- The course of a request that no scope accepts keeps to the discipline. -/
private theorem disciplined_of_refused (package : Option Package) {op : Operation}
    (hc : op.request.check = .ok ())
    (hf : op.network.firstScope? op.request.service = none) :
    Disciplined package op (.error (.unavailable op.request.service))
      (Scope.order.map (.bound op.request.service · false)) := by
  have hr : ∀ scope, op.network.accepts op.request.service scope = false := by
    intro scope
    rw [Network.firstScope?, List.find?_eq_none] at hf
    simpa using hf scope (Scope.mem_order scope)
  have ht : tried (Scope.order.map (.bound op.request.service · false)) =
      [(op.request.service, .system), (op.request.service, .session)] := rfl
  constructor
  case unchecked => simp [hc]
  case first => rw [ht]; exact fun _ => rfl
  case fallback => rw [ht]; simp [hr]
  case own => rw [ht]; simp
  case once => rw [ht]; simp
  case truthful =>
    intro service scope answer h
    obtain ⟨_, _, he⟩ := List.mem_map.mp h
    cases he
    exact hr scope
  case content =>
    intro before after service scope h
    have ha := accepted_refusals op.request.service Scope.order
    rw [h, accepted_append] at ha
    simp [accepted, Event.accepted?] at ha
  case connected => rw [accepted_refusals, hf]; exact fun _ => rfl
  case calls => rw [called_refusals, accepted_refusals]; rfl
  case used => rw [accepted_refusals]; exact fun _ h => absurd h List.not_mem_nil
  case settled => simp
  case unavailable =>
    intro service
    simp only [Except.error.injEq, CallError.unavailable.injEq, hc, true_and]
    exact ⟨fun h => ⟨h.symm, h ▸ hr⟩, fun h => h.1.symm⟩
  case balanced => rw [released_refusals, accepted_refusals]

/-- A single request keeps to the discipline, whatever the network does. -/
theorem perform_disciplined (package : Option Package) (op : Operation) :
    Disciplined package op (Client.perform ⟨op.network, package⟩ op.request).1
      (Client.perform ⟨op.network, package⟩ op.request).2 := by
  let client : Client := ⟨op.network, package⟩
  cases hc : op.request.check with
  | error parameter =>
    rw [Client.perform_of_unchecked hc]
    constructor <;> simp [hc, tried, accepted, called, released]
  | ok _ =>
    cases hf : op.network.firstScope? op.request.service with
    | none =>
      have hp : client.perform op.request = _ := Client.perform_of_refused hc hf
      rw [hp]
      exact disciplined_of_refused package hc hf
    | some scope =>
      have hp : client.perform op.request = _ := Client.perform_of_accepted hc hf
      rw [hp]
      exact disciplined_of_accepted package hc hf

/-! ## Runs -/

/-- What a run has left behind: the outcomes of its requests and all that happened to
connections, both in order. -/
structure History where
  outcomes : List (Outcome Output)
  events : List Event

namespace History

/-- One more request is carried out. -/
def extend (package : Option Package) (history : History) (op : Operation) : History :=
  match Client.perform ⟨op.network, package⟩ op.request with
  | (outcome, events) => ⟨history.outcomes ++ [outcome], history.events ++ events⟩

/-- The history of a run from its start. -/
def ofRun (package : Option Package) (ops : List Operation) : History :=
  ops.foldl (extend package) ⟨[], []⟩

/-- A run goes on from where it stood. -/
theorem ofRun_concat (package : Option Package) (ops : List Operation) (op : Operation) :
    ofRun package (ops ++ [op]) = extend package (ofRun package ops) op := by
  rw [ofRun, List.foldl_append]
  rfl

/-- One more request leaves the balance of connections as it was. -/
theorem balanced_extend (package : Option Package) {history : History} (op : Operation)
    (h : released history.events = accepted history.events) :
    released (extend package history op).events = accepted (extend package history op).events := by
  have hd := (perform_disciplined package op).balanced
  simp only [extend, released_append, accepted_append, h, hd]

/-- Whenever a run stands between two requests, the connections that were given up are the
connections that were made. -/
theorem balanced_ofRun (package : Option Package) (ops : List Operation) :
    released (ofRun package ops).events = accepted (ofRun package ops).events := by
  suffices ∀ history : History, released history.events = accepted history.events →
      released (ops.foldl (extend package) history).events =
        accepted (ops.foldl (extend package) history).events from this ⟨[], []⟩ rfl
  induction ops with
  | nil => exact fun _ h => h
  | cons op ops ih => exact fun history h => ih _ (balanced_extend package op h)

end History

/-- Every request of every run keeps to the discipline, and as many connections have been given
up when it returns as have been made since the start of the run. -/
theorem run_disciplined (package : Option Package) (ops : List Operation) (op : Operation) :
    ∃ outcome events,
      History.ofRun package (ops ++ [op]) =
        ⟨(History.ofRun package ops).outcomes ++ [outcome],
          (History.ofRun package ops).events ++ events⟩ ∧
      Disciplined package op outcome events ∧
      released (History.ofRun package (ops ++ [op])).events =
        accepted (History.ofRun package (ops ++ [op])).events := by
  refine ⟨_, _, ?_, perform_disciplined package op, History.balanced_ofRun package _⟩
  rw [History.ofRun_concat]
  rfl

end BusClient
