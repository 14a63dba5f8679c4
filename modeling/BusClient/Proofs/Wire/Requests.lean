import BusClient.Proofs.Client.Discipline
import BusClient.Proofs.Wire.RoundTrip

/-!
# Requests on the wire

The daemon learns of a request only through the bytes of its frame. `Request.ofCall?` is how the
daemon reads a call: the address tells the service, the member the request, and the arguments its
parameters in the order in which the interface lists them. What it reads in the frame of a request
is that request, with an absent text read as an empty one, and so no two other requests share a
frame.
-/

namespace BusClient

open BusClient.Frame BusClient.Json

/-! ## How the daemon reads a call -/

/-- The service at an object that belongs to an interface. -/
def Service.at? (path interface : String) : Option Service :=
  [pipeline, model, resource].find? fun service =>
    service.objectPath == path && service.interface == interface

theorem Service.at?_address (service : Service) :
    at? service.objectPath service.interface = some service := by
  cases service <;> decide

namespace Request

/-- The identifier that an argument gives. -/
def idOf? (value : Value) : Option Int64 := value.number?.bind Number.int64?

/-- The version that an argument gives. -/
def versionOf? (value : Value) : Option UInt32 := value.number?.bind Number.uint32?

/-- The flag that an argument sets or leaves unset. -/
def flagOf? : Value → Option Bool
  | .bool b => some b
  | _ => none

@[simp] theorem idOf?_idArg (id : Int64) : idOf? (idArg id) = some id :=
  Number.int64?_eq_some_iff.mpr (Number.integer?_ofInt id.toInt)

@[simp] theorem versionOf?_versionArg (version : UInt32) :
    versionOf? (versionArg version) = some version := by
  have hn : (Number.ofNat version.toNat).negative = false := rfl
  rw [versionOf?, versionArg, Value.number?, Option.bind_some, Number.uint32?_eq_some_iff]
  exact ⟨hn, Number.integer?_ofNat _⟩

/-- The request for a service that a member and its arguments make. -/
def ofArgs? (service : Service) (member : String) (args : List Value) : Option Request :=
  match service, member, args with
  | .pipeline, "set_pipeline", [name, description] => do
    some (.setPipelineDescription (← name.text?) (← description.text?))
  | .pipeline, "get_pipeline", [name] => do
    some (.getPipelineDescription (← name.text?))
  | .pipeline, "delete_pipeline", [name] => do
    some (.deletePipeline (← name.text?))
  | .pipeline, "launch_pipeline", [name] => do
    some (.launchPipeline (← name.text?))
  | .pipeline, "start_pipeline", [id] => do
    some (.startPipeline (← idOf? id))
  | .pipeline, "stop_pipeline", [id] => do
    some (.stopPipeline (← idOf? id))
  | .pipeline, "destroy_pipeline", [id] => do
    some (.destroyPipeline (← idOf? id))
  | .pipeline, "get_state", [id] => do
    some (.getPipelineState (← idOf? id))
  | .model, "register", [name, path, activate, description, appInfo] => do
    some (.registerModel (← name.text?) (← path.text?) (← flagOf? activate)
      (some (← description.text?)) (some (← appInfo.text?)))
  | .model, "update_description", [name, version, description] => do
    some (.updateModelDescription (← name.text?) (← versionOf? version) (← description.text?))
  | .model, "activate", [name, version] => do
    some (.activateModel (← name.text?) (← versionOf? version))
  | .model, "get", [name, version] => do
    some (.getModel (← name.text?) (← versionOf? version))
  | .model, "get_activated", [name] => do
    some (.getActivatedModel (← name.text?))
  | .model, "get_all", [name] => do
    some (.getAllModels (← name.text?))
  | .model, "delete", [name, version, force] => do
    some (.deleteModel (← name.text?) (← versionOf? version) (← flagOf? force))
  | .resource, "add", [name, path, description, appInfo] => do
    some (.addResource (← name.text?) (← path.text?) (some (← description.text?))
      (some (← appInfo.text?)))
  | .resource, "delete", [name] => do
    some (.deleteResource (← name.text?))
  | .resource, "get", [name] => do
    some (.getResource (← name.text?))
  | _, _, _ => none

/-- The request that the daemon reads in a call, if the call is meant for it. -/
def ofCall? (call : Call) : Option Request :=
  if call.destination = busName then do
    ofArgs? (← Service.at? call.path call.interface) call.member call.args
  else none

/-- A request with every absent text given as an empty one. -/
def filled : Request → Request
  | registerModel name path activate description appInfo =>
    .registerModel name path activate (some (description.getD "")) (some (appInfo.getD ""))
  | addResource name path description appInfo =>
    .addResource name path (some (description.getD "")) (some (appInfo.getD ""))
  | request => request

/-- The arguments of a request are read as its parameters. -/
theorem ofArgs?_args (request : Request) :
    ofArgs? request.service request.member request.args = some request.filled := by
  cases request <;> simp [ofArgs?, service, member, args, filled, optionalArg, Value.text?, flagOf?]

/-- The call of a request is read as the request. -/
theorem ofCall?_call (request : Request) : ofCall? request.call = some request.filled := by
  simp [ofCall?, call, Call.toService, Service.at?_address, ofArgs?_args]

/-- An absent text is sent as an empty one. -/
theorem call_filled (request : Request) : request.filled.call = request.call := by
  cases request <;> rfl

/-- Two requests make the same call only if they are the same but for absent texts. -/
theorem call_eq_iff {request other : Request} :
    other.call = request.call ↔ other.filled = request.filled := by
  constructor
  · intro h
    have hf := congrArg ofCall? h
    rw [ofCall?_call, ofCall?_call] at hf
    exact Option.some.inj hf
  · intro h
    rw [← call_filled, h, call_filled]

/-! ## The call as a frame -/

theorem readable_args (request : Request) : ∀ v ∈ request.args, Readable v := by
  cases request <;>
    simp [args, idArg, versionArg, optionalArg, Readable.bool, Readable.number, Readable.string]

/-- The call is an object with a list of arguments, none of which nests anything. -/
theorem depth_document (request : Request) : request.call.document.depth = 2 := by
  cases request <;> rfl

/-- The call of a request comes back from its payload. -/
theorem ofPayload_call (request : Request) :
    Call.ofPayload request.call.payload = .ok request.call := by
  have hd : request.call.document.depth ≤ maxDepth := by
    rw [depth_document]
    decide
  exact Call.ofPayload_payload request.call request.readable_args hd

/-- The frame of a request is decoded as its call, whatever follows it. -/
theorem decode_of_frame {request : Request} {frame : Bytes} (h : request.call.frame = .ok frame)
    (rest : Bytes) : Call.decode (frame ++ rest) = ⟨.ok (some request.call), rest⟩ := by
  obtain ⟨hl, rfl⟩ := encode_eq_ok_iff.mp h
  exact decode_frame request.ofPayload_call hl rest

/-- Two requests have the same frame only if they make the same call. -/
theorem frame_call_inj {request other : Request} {frame : Bytes}
    (h : request.call.frame = .ok frame) :
    other.call.frame = .ok frame ↔ other.call = request.call := by
  constructor
  · intro ho
    have hd := (decode_of_frame ho []).symm.trans (decode_of_frame h [])
    simpa using hd
  · intro he
    rw [he, h]

end Request

/-- What the frame of a request conveys to the daemon. -/
structure Conveys (request : Request) (frame : Bytes) : Prop where
  /-- The frame is sent once where a scope accepts the service, and nothing else is sent. -/
  sent : ∀ client : Client, (called (client.perform request).2).map (·.2.frame) =
    (client.network.firstScope? request.service).toList.map fun _ => .ok frame
  /-- Its bytes are those that are written where there is room for them. -/
  written : ∀ room, frame.length ≤ room → request.call.write room = ⟨frame, .ok ()⟩
  /-- It is decoded as exactly one call, addressed to the object and the interface of the service,
  in which the daemon reads the request. -/
  decoded : ∃ call : Call, (∀ rest, Call.decode (frame ++ rest) = ⟨.ok (some call), rest⟩) ∧
    call.destination = "org.tizen.machinelearning.service" ∧
    call.path = request.service.objectPath ∧ call.interface = request.service.interface ∧
    call.member = request.member ∧ Request.ofCall? call = some request.filled
  /-- Only a request that differs in nothing but absent texts has the same frame. -/
  unambiguous : ∀ other : Request, other.call.frame = .ok frame ↔ other.filled = request.filled

/-- A request that passes its check and fits a frame is conveyed by one. -/
theorem exists_conveying_frame (request : Request) (hc : request.check = .ok ())
    (hl : request.call.payload.length ≤ 16 * 1024 * 1024) : ∃ frame, Conveys request frame := by
  obtain ⟨frame, hf⟩ : ∃ frame, request.call.frame = .ok frame :=
    ⟨_, encode_eq_ok_iff.mpr ⟨hl, rfl⟩⟩
  refine ⟨frame, ?_⟩
  constructor
  case sent =>
    intro client
    have hd := perform_disciplined client.package ⟨client.network, request⟩
    rw [hd.calls, hd.connected hc, List.map_map]
    exact List.map_congr_left fun _ _ => hf
  case written =>
    intro room hr
    simp only [Call.write, hf, writeAll_of_le hr]
  case decoded =>
    exact ⟨request.call, Request.decode_of_frame hf, rfl, rfl, rfl, rfl, request.ofCall?_call⟩
  case unambiguous =>
    intro other
    rw [Request.frame_call_inj hf, Request.call_eq_iff]

/-- A registration with a zero character and quotes in its texts, and without a description. -/
theorem exists_conveying_frame_registration :
    let request : Request := .registerModel "m\x00\"é" "/\\\n" true none (some "\x7b\x7d")
    request.check = .ok () ∧ request.call.payload.length ≤ 16 * 1024 * 1024 ∧
      ∃ frame, Conveys request frame := by
  intro request
  have hl : request.call.payload.length ≤ 16 * 1024 * 1024 := by decide +kernel
  exact ⟨rfl, hl, exists_conveying_frame request rfl hl⟩

end BusClient
