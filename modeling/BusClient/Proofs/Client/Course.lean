import BusClient.Client

/-!
# The course of a request

A request takes one of three courses. Its arguments fail the check and nothing happens; no scope
accepts its service and only the refusals are recorded; or a scope accepts, and its connection is
called once and given up. Each course is one equation for `Client.perform`, with the outcome and
the whole list of events.
-/

namespace BusClient

namespace Network

/-- Whether a scope accepts a service. -/
def accepts (network : Network) (service : Service) (scope : Scope) : Bool :=
  (network.bind service scope).isOk

theorem accepts_of_ok {network : Network} {service : Service} {scope : Scope} {bound : Unit}
    (h : network.bind service scope = .ok bound) : network.accepts service scope = true := by
  simp only [accepts, h, Except.isOk, Except.toBool]

theorem accepts_of_error {network : Network} {service : Service} {scope : Scope}
    {error : IoError} (h : network.bind service scope = .error error) :
    network.accepts service scope = false := by
  simp only [accepts, h, Except.isOk, Except.toBool]

/-- The scopes that are tried in vain before one accepts. -/
def refusing (network : Network) (service : Service) (scopes : List Scope) : List Scope :=
  scopes.takeWhile fun scope => !network.accepts service scope

/-- The first scope that accepts a service, in the order in which they are tried. -/
def firstScope? (network : Network) (service : Service) : Option Scope :=
  Scope.order.find? (network.accepts service)

/-- Some scope is the first one as soon as there is one at all. -/
theorem exists_firstScope? {network : Network} {service : Service} {scope : Scope}
    (h : network.accepts service scope = true) :
    ∃ first, network.firstScope? service = some first := by
  rw [← Option.isSome_iff_exists, firstScope?, List.find?_isSome]
  exact ⟨scope, Scope.mem_order scope, h⟩

end Network

namespace Connection

variable {network : Network} {service : Service}

/-- A search that succeeds tries the scopes up to the first that accepts, each once. -/
theorem search_of_find?_some {scopes : List Scope} {scope : Scope}
    (h : scopes.find? (network.accepts service) = some scope) :
    search network service scopes = (.ok ⟨service, scope⟩,
      (network.refusing service scopes).map (.bound service · false) ++
        [.bound service scope true]) := by
  induction scopes with
  | nil => cases h
  | cons first more ih =>
    cases hb : network.bind service first with
    | ok bound =>
      have ha := Network.accepts_of_ok hb
      rw [List.find?_cons_of_pos ha] at h
      cases h
      simp only [search, hb, Network.refusing, List.takeWhile_cons, ha, Bool.not_true,
        Bool.false_eq_true, if_false, List.map_nil, List.nil_append]
    | error error =>
      have ha := Network.accepts_of_error hb
      rw [List.find?_cons_of_neg (by simp [ha])] at h
      simp only [search, hb, ih h, Network.refusing, List.takeWhile_cons, ha, Bool.not_false,
        if_true, List.map_cons, List.cons_append]

/-- A search that fails has tried all scopes. -/
theorem search_of_find?_none {scopes : List Scope}
    (h : scopes.find? (network.accepts service) = none) :
    search network service scopes =
      (.error (.unavailable service), scopes.map (.bound service · false)) := by
  induction scopes with
  | nil => rfl
  | cons first more ih =>
    rw [List.find?_cons] at h
    cases hb : network.bind service first with
    | ok bound =>
      have ha := Network.accepts_of_ok hb
      simp [ha] at h
    | error error =>
      have ha := Network.accepts_of_error hb
      simp only [ha] at h
      simp only [search, hb, ih h, List.map_cons]

end Connection

namespace Response

/-- The code of a response, whichever way it was delivered. -/
def code : Response → Int32
  | returned result _ => result
  | faulted code _ => code

/-- A code other than zero wins over everything else that a response carries. -/
theorem values_of_code {response : Response} (h : response.code ≠ 0) :
    response.values = .error (.rejected response.code) := by
  cases response with
  | returned result values =>
    simp only [code] at h
    simp only [Response.values, Outcome.ofSignals, if_neg h, code]
  | faulted code message =>
    simp only [Response.code] at h
    simp only [Response.values, Outcome.ofSignals, if_neg h, Response.code]

theorem values_faulted (message : String) : (faulted 0 message).values =
    .error (.transport ⟨.other, "call failed without a result code"⟩) := rfl

end Response

/-- The call that a request makes. -/
def Request.call (request : Request) : Call :=
  .toService request.service request.member request.args

namespace Client

variable {client : Client} {request : Request}

/-- What a request hands back once its call has come to something. -/
def settle (client : Client) (request : Request) : Except IoError Response → Outcome Output
  | .error error => .error (.transport error)
  | .ok response =>
    match response.values with
    | .error error => .error error
    | .ok values => client.output request values

/-- Values fail a request only by what they lack, or by a payload that cannot be completed. -/
theorem output_error {values : List Json.Value} {error : CallError}
    (h : client.output request values = .error error) :
    (∃ cause, error = .transport cause) ∨ ∃ text, error = .payload text := by
  unfold output at h
  split at h
  · cases h
    exact .inl ⟨_, rfl⟩
  · split at h
    · split at h
      · cases h
      · cases h
        exact .inr ⟨_, rfl⟩
    · cases h

/-- What comes of a call fails a request by a rejection, on the way, or by its payload, and never
as a mistake of the caller or for want of the service. -/
theorem settle_error {answer : Except IoError Response} {error : CallError}
    (h : client.settle request answer = .error error) :
    (∃ code, error = .rejected code) ∨ (∃ cause, error = .transport cause) ∨
      ∃ text, error = .payload text := by
  cases answer with
  | error cause =>
    cases h
    exact .inr (.inl ⟨cause, rfl⟩)
  | ok response =>
    by_cases hc : response.code = 0
    · cases response with
      | returned result values =>
        simp only [Response.code] at hc
        subst hc
        exact .inr (output_error h)
      | faulted code message =>
        simp only [Response.code] at hc
        subst hc
        cases h
        exact .inr (.inl ⟨_, rfl⟩)
    · simp only [settle, Response.values_of_code hc] at h
      cases h
      exact .inl ⟨_, rfl⟩

/-- A request that fails its check is not carried out. -/
theorem perform_of_unchecked {parameter : Parameter} (h : request.check = .error parameter) :
    client.perform request = (.error (.invalidArgument parameter.word), []) := by
  simp only [perform, h]

/-- A request whose service no scope accepts ends with the refusals. -/
theorem perform_of_refused (h : request.check = .ok ())
    (hs : client.network.firstScope? request.service = none) :
    client.perform request = (.error (.unavailable request.service),
      Scope.order.map (.bound request.service · false)) := by
  simp only [perform, h, callOnce, Connection.find, Connection.search_of_find?_none hs]

/-- A request whose service is accepted makes its one call there and gives the connection up,
whatever comes of the call. -/
theorem perform_of_accepted (h : request.check = .ok ()) {scope : Scope}
    (hs : client.network.firstScope? request.service = some scope) :
    client.perform request =
      (client.settle request (client.network.call request.service scope request.call),
        (client.network.refusing request.service Scope.order).map
            (.bound request.service · false) ++
          [.bound request.service scope true, .called scope request.call, .released scope]) := by
  simp only [perform, h, callOnce, Connection.find, Connection.search_of_find?_some hs,
    Connection.call]
  cases hc : client.network.call request.service scope
      (Call.toService request.service request.member request.args) with
  | error error => simp [settle, Request.call, hc]
  | ok response =>
    cases hv : response.values with
    | error error => simp [settle, Request.call, hc, hv]
    | ok values => simp [settle, Request.call, hc, hv]

/-- A request that passes its check is never called the caller's mistake, whatever the network
answers. -/
theorem perform_ne_invalidArgument (h : request.check = .ok ()) (what : String) :
    (client.perform request).1 ≠ .error (.invalidArgument what) := by
  intro hp
  cases hf : client.network.firstScope? request.service with
  | none =>
    rw [perform_of_refused h hf] at hp
    cases hp
  | some scope =>
    rw [perform_of_accepted h hf] at hp
    rcases settle_error hp with ⟨_, he⟩ | ⟨_, he⟩ | ⟨_, he⟩ <;> cases he

end Client

end BusClient
