import BusClient.Proofs.Client.Verdict
import BusClient.Proofs.Package.Completion
import BusClient.Proofs.Wire.RoundTrip

/-!
# Records on their way to the caller

The records of a query travel as a text inside a response, and each of them holds the description
of its application as a text of its own. What the daemon lists is what the caller reads, except
for the paths of the marked records in a packaged application: each layer is printed and read back
whole, so that the mark is found however the texts have been escaped.
-/

namespace BusClient

open BusClient.Frame BusClient.Json

/-! ## What the daemon lists -/

/-- A record and the description of its application. -/
structure Entry where
  record : Members
  info : Members

/-- The list of the records. -/
def listing (entries : List Entry) : Value := .array (entries.map fun entry => .object entry.record)

/-- A record as the daemon lists it. -/
structure Entry.Listed (entry : Entry) : Prop where
  path : ∃ path, entry.record.get? "path" = some (.string path)
  /-- The description is held as a text, printed on one line. -/
  info : entry.record.get? "app_info" = some (.string (Value.object entry.info).compact)
  reached : Reached 127 (.object entry.info)

/-- The description marks a packaged resource. -/
def Entry.Marked (entry : Entry) : Prop := entry.info.get? "is_rpk" = some (.string "T")

/-- A marked record has a resource type that the package has a directory for. -/
def Entry.Mapped (package : Package) (entry : Entry) : Prop :=
  entry.Marked → ∃ resourceType directory,
    entry.info.get? "res_type" = some (.string resourceType) ∧
      package.directory? resourceType = some directory

/-- A record as the caller gets it in a packaged application. -/
inductive Entry.Prefixed (package : Package) (entry : Entry) : Members → Prop
  /-- The path of a marked record stands behind the directory of its resource type. -/
  | marked {resourceType directory path : String} (hm : entry.Marked)
      (ht : entry.info.get? "res_type" = some (.string resourceType))
      (hd : package.directory? resourceType = some directory)
      (hp : entry.record.get? "path" = some (.string path)) :
      Prefixed package entry (entry.record.put "path" (.string (directory ++ "/" ++ path)))
  /-- Any other record is as it was listed. -/
  | unmarked (hm : ¬entry.Marked) : Prefixed package entry entry.record

/-- A sound request for records. -/
inductive Request.Lists : Request → Prop
  | model {name : String} {version : UInt32} (hn : name ≠ "") (hv : version ≠ 0) :
      Lists (.getModel name version)
  | activated {name : String} (hn : name ≠ "") : Lists (.getActivatedModel name)
  | all {name : String} (hn : name ≠ "") : Lists (.getAllModels name)
  | resource {name : String} (hn : name ≠ "") : Lists (.getResource name)

/-- A sound request for a text: for records, or for the description of a pipeline. -/
inductive Request.Queries : Request → Prop
  | records {request : Request} (h : request.Lists) : Queries request
  | description {name : String} (hn : name ≠ "") : Queries (.getPipelineDescription name)

theorem Request.Lists.resultKind {request : Request} (h : request.Lists) :
    request.resultKind = .records := by
  cases h <;> rfl

theorem Request.Queries.check {request : Request} (h : request.Queries) :
    request.check = .ok () := by
  cases h with
  | description hn => simp [Request.check, checkText, hn]
  | records h =>
    cases h with
    | model hn hv => simp [Request.check, checkText, checkVersion, hn, hv, bind, Except.bind]
    | activated hn | all hn | resource hn => simp [Request.check, checkText, hn]

/-! ## Records and their descriptions -/

section

variable {package : Package} {entry : Entry}

/-- A marked record is changed in one way only. -/
theorem Entry.Prefixed.eq_put {after : Members} (h : entry.Prefixed package after)
    (hm : entry.Marked) {resourceType directory path : String}
    (ht : entry.info.get? "res_type" = some (.string resourceType))
    (hd : package.directory? resourceType = some directory)
    (hp : entry.record.get? "path" = some (.string path)) :
    after = entry.record.put "path" (.string (directory ++ "/" ++ path)) := by
  cases h with
  | unmarked hn => exact absurd hm hn
  | marked _ ht' hd' hp' =>
    cases ht.symm.trans ht'
    cases hd.symm.trans hd'
    cases hp.symm.trans hp'
    rfl

/-- Any other record is not changed. -/
theorem Entry.Prefixed.eq_self {after : Members} (h : entry.Prefixed package after)
    (hm : ¬entry.Marked) : after = entry.record := by
  cases h with
  | unmarked => rfl
  | marked hn => exact absurd hn hm

/-- The description of a listed record is read back from its text. -/
theorem Entry.Listed.describes (h : entry.Listed) : Package.Describes entry.record entry.info :=
  ⟨_, h.info, ofText_compact h.reached.1 h.reached.2⟩

/-- A listed record gets the path that its description asks for, and nothing else changes. -/
theorem Entry.Listed.exists_prefixed (h : entry.Listed) (hm : entry.Mapped package) :
    ∃ after, entry.Prefixed package after ∧ Package.Completes package entry.record after := by
  by_cases hmark : entry.Marked
  · obtain ⟨resourceType, directory, ht, hd⟩ := hm hmark
    obtain ⟨path, hp⟩ := h.path
    have hr := Package.resolvedPath_eq_ok_iff.mpr
      ⟨resourceType, directory, path, ht, hd, hp, rfl⟩
    exact ⟨_, .marked hmark ht hd hp, Package.completes_of_marked h.describes hmark hr⟩
  · exact ⟨_, .unmarked hmark, Package.completes_of_unmarked h.describes hmark⟩

/-- So do all records of a list, one by one. -/
theorem exists_prefixed {entries : List Entry} (hl : ∀ entry ∈ entries, entry.Listed)
    (hm : ∀ entry ∈ entries, entry.Mapped package) :
    ∃ after, List.Forall₂ (Entry.Prefixed package) entries after ∧
      List.Forall₂ (Package.Completes package) (entries.map (·.record)) after := by
  induction entries with
  | nil => exact ⟨[], .nil, .nil⟩
  | cons entry rest ih =>
    obtain ⟨hle, hlr⟩ := List.forall_mem_cons.mp hl
    obtain ⟨hme, hmr⟩ := List.forall_mem_cons.mp hm
    obtain ⟨first, hp, hc⟩ := hle.exists_prefixed hme
    obtain ⟨more, hps, hcs⟩ := ih hlr hmr
    exact ⟨first :: more, .cons hp hps, .cons hc hcs⟩

end

/-- The paths of a list of records are completed in the text that the list is printed as. -/
theorem completePaths_listing {package : Package} {appId : String} (ha : package.appId = some appId)
    {entries : List Entry} (hn : entries ≠ []) (hr : Reached 127 (listing entries))
    (hl : ∀ entry ∈ entries, entry.Listed) (hm : ∀ entry ∈ entries, entry.Mapped package) :
    ∃ text after, completePaths (some package) (listing entries).compact = .ok text ∧
      Value.ofText text = .ok (.array (after.map .object)) ∧
      List.Forall₂ (Entry.Prefixed package) entries after := by
  obtain ⟨after, hp, hc⟩ := exists_prefixed hl hm
  have hd : Value.ofText (listing entries).compact = .ok _ := ofText_compact hr.1 hr.2
  have hmap : listing entries = .array ((entries.map (·.record)).map .object) := by
    rw [listing, List.map_map]
    rfl
  have hdoc : Package.CompletesDocument package (listing entries) (.array (after.map .object)) := by
    rw [hmap]
    exact .records (by simpa using hn) hc
  obtain ⟨ht, hv⟩ := Package.completePayload_of_completes hd hdoc
  rw [Package.completePaths_of_some ha]
  exact ⟨_, after, ht, hv, hp⟩

/-! ## From the daemon to the caller -/

/-- What a query hands back of the text that the daemon answers with. -/
structure Delivers (package : Option Package) (request : Request) (text : String)
    (outcome : Outcome Output) : Prop where
  /-- In a packaged application the listed records get their paths, and the list is otherwise the
  one that the daemon printed. -/
  completed : ∀ {described : Package} {appId : String} {entries : List Entry},
    package = some described → described.appId = some appId → request.Lists →
    text = (listing entries).compact → entries ≠ [] → Reached 127 (listing entries) →
    (∀ entry ∈ entries, entry.Listed) → (∀ entry ∈ entries, entry.Mapped described) →
    ∃ completed after, outcome = .ok (.text completed) ∧
      Value.ofText completed = .ok (.array (after.map .object)) ∧
      List.Forall₂ (Entry.Prefixed described) entries after
  /-- Outside a packaged application every text is handed on as it came, and the description of a
  pipeline always is. -/
  verbatim : (package.bind (·.appId) = none ∨ ∃ name, request = .getPipelineDescription name) →
    outcome = .ok (.text text)

namespace Client

/-- A query takes its text from the values of the response that carries it. -/
theorem delivers_output {client : Client} {request : Request} (h : request.Queries)
    (text : String) :
    Delivers client.package request text (client.output request [.string text]) where
  completed := by
    intro described appId entries hp ha hk ht hn hr hl hm
    obtain ⟨completed, after, hc, hv, hf⟩ := completePaths_listing ha hn hr hl hm
    subst ht
    exact ⟨completed, after, output_of_completed hk.resultKind rfl (hp ▸ hc), hv, hf⟩
  verbatim := by
    intro hv
    cases h with
    | description hn => exact output_of_some (by simp [Request.resultKind]) rfl
    | records h =>
      rcases hv with hv | ⟨name, rfl⟩
      · exact output_of_completed h.resultKind rfl (Package.completePaths_of_none hv text)
      · cases h

/-- A request that is accepted and fits a frame is settled by the response that it receives. -/
theorem perform_conversing {bind : Service → Scope → Except IoError Unit}
    {answer : Scope → Stream} {package : Option Package} {request : Request} {scope : Scope}
    (hc : request.check = .ok ()) (hl : request.call.payload.length ≤ maxPayload)
    (hs : (Network.conversing bind answer).firstScope? request.service = some scope) :
    let client : Client := ⟨.conversing bind answer, package⟩
    (client.perform request).1 =
      client.settle request (Response.receive (answer scope)).outcome := by
  intro client
  have hp : client.perform request = _ := perform_of_accepted hc hs
  have hw : converse request.call (answer scope) = (Response.receive (answer scope)).outcome := by
    simp only [converse, Call.frame, encode_of_le hl]
  rw [hp, ← hw]
  rfl

/-- The text that the daemon answers a query with reaches the caller, whichever scope it comes
over, however its frame is cut into pieces and whatever follows it. -/
theorem perform_delivers {bind : Service → Scope → Except IoError Unit}
    {answer : Scope → Stream} {package : Option Package} {request : Request} {scope : Scope}
    (hq : request.Queries) (hl : request.call.payload.length ≤ 16 * 1024 * 1024)
    (hs : (Network.conversing bind answer).firstScope? request.service = some scope)
    {text : String} {frame rest : Bytes}
    (hf : (Response.returned 0 [.string text]).frame = .ok frame)
    (ha : (answer scope).bytes = frame ++ rest) :
    Delivers package request text (perform ⟨.conversing bind answer, package⟩ request).1 := by
  let client : Client := ⟨.conversing bind answer, package⟩
  obtain ⟨hlen, rfl⟩ := encode_eq_ok_iff.mp hf
  have hr : ∀ v ∈ [Value.string text], Readable v := by
    intro v hv
    cases List.mem_singleton.mp hv
    exact .string _
  have hd : (Response.returned 0 [.string text]).document.depth = 3 := by
    simp [Response.document, Response.number, Value.depth, depthOfItems, depthOfMembers]
  have hp := Response.ofPayload_payload (.returned 0 [.string text]) hr (by simp [hd, maxDepth])
  have ho : (client.perform request).1 = client.output request [.string text] := by
    rw [perform_conversing hq.check hl hs, settle_receive_eq_iff, ha]
    exact .answered hlen hp (.fulfilled (yields_output client request _))
  change Delivers client.package request text (client.perform request).1
  rw [ho]
  exact delivers_output hq text

/-- A marked record. Its description needs escapes in the record, and more in the response. -/
def markedEntry : Entry where
  record := [("path", .string "é.bin"), ("version", .number (.ofNat 3)),
    ("app_info", .string (Value.object [("is_rpk", .string "T"), ("res_type", .string "a"),
      ("\n", .string "\"\\")]).compact)]
  info := [("is_rpk", .string "T"), ("res_type", .string "a"), ("\n", .string "\"\\")]

/-- A record whose description has another mark. -/
def plainEntry : Entry where
  record := [("app_info", .string (Value.object [("is_rpk", .string "t")]).compact),
    ("path", .string "/b")]
  info := [("is_rpk", .string "t")]

theorem markedEntry_reached : Reached 126 (.object markedEntry.record) := by
  refine reached_object_iff.mpr ⟨by decide, by decide, ?_⟩
  simpa [markedEntry, reached_string] using ⟨Readable.number _, Nat.zero_le _⟩

theorem markedEntry_listed : markedEntry.Listed := by
  refine ⟨⟨_, rfl⟩, rfl, reached_object_iff.mpr ⟨by decide, by decide, ?_⟩⟩
  simp [markedEntry, reached_string]

theorem plainEntry_reached : Reached 126 (.object plainEntry.record) := by
  refine reached_object_iff.mpr ⟨by decide, by decide, ?_⟩
  simp [plainEntry, reached_string]

theorem plainEntry_not_marked : ¬plainEntry.Marked := by
  simp [Entry.Marked, plainEntry, Members.get?]

theorem plainEntry_listed : plainEntry.Listed := by
  refine ⟨⟨_, rfl⟩, rfl, reached_object_iff.mpr ⟨by decide, by decide, ?_⟩⟩
  simp [plainEntry, reached_string]

/-- Both records come over the session scope, with the frame cut inside its header and a byte
behind it, and the path of the marked one has its directory in front. -/
theorem perform_delivers_by_pieces :
    let bind : Service → Scope → Except IoError Unit := fun _ scope =>
      if scope = .session then .ok () else .error .noSuchFile
    let package : Package := ⟨some "org.example.app", [("a", "/global/a")]⟩
    let response : Response :=
      .returned 0 [.string (listing [markedEntry, plainEntry]).compact]
    let payload := response.payload
    let frame : Bytes := header payload.length ++ payload
    let answer : Scope → Stream := fun _ => [frame.take 2, frame.drop 2, [0]]
    ∃ text, (perform ⟨.conversing bind answer, some package⟩ (.getAllModels "cam")).1 =
        .ok (.text text) ∧
      Value.ofText text = .ok (.array [.object (markedEntry.record.put "path"
        (.string "/global/a/é.bin")), .object plainEntry.record]) := by
  intro bind package response payload frame answer
  have hf : response.frame = .ok frame := encode_eq_ok_iff.mpr ⟨by decide +kernel, rfl⟩
  have ha : (answer .session).bytes = frame ++ [0] := by
    simp [answer, Stream.bytes, ← List.append_assoc]
  have hl : (Request.getAllModels "cam").Lists := .all (by decide)
  have hc : (Request.getAllModels "cam").call.payload.length ≤ 16 * 1024 * 1024 := by
    decide +kernel
  have hd : Delivers (some package) (.getAllModels "cam") _
      (perform ⟨.conversing bind answer, some package⟩ (.getAllModels "cam")).1 :=
    perform_delivers (.records hl) hc rfl hf ha
  have hr : Reached 127 (listing [markedEntry, plainEntry]) := by
    rw [listing, reached_array_iff]
    simpa using ⟨markedEntry_reached, plainEntry_reached⟩
  have hm : ∀ entry ∈ [markedEntry, plainEntry], entry.Mapped package := by
    simp only [List.forall_mem_cons]
    exact ⟨fun _ => ⟨_, _, rfl, rfl⟩, fun h => absurd h plainEntry_not_marked,
      List.forall_mem_nil _⟩
  obtain ⟨text, after, ht, hv, hp⟩ := hd.completed rfl rfl hl rfl (by simp) hr
    (by simp [markedEntry_listed, plainEntry_listed]) hm
  obtain ⟨first, _, hfirst, hrest, rfl⟩ := List.forall₂_cons_left_iff.mp hp
  obtain ⟨second, _, hsecond, hnil, rfl⟩ := List.forall₂_cons_left_iff.mp hrest
  cases hnil
  rw [hfirst.eq_put rfl rfl rfl rfl, hsecond.eq_self plainEntry_not_marked] at hv
  exact ⟨text, ht, hv⟩

end Client

end BusClient
