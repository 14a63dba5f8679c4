import Mathlib.Data.List.Forall2
import BusClient.Configuration
import BusClient.Proofs.Json.Indented

/-!
# What completing the paths changes

A payload that is completed is printed anew, so two things are at stake: which values change, and
whether the printed text still holds the others. Only the paths of marked records change, each in
its place. As no name is added, moved or repeated and a path nests nothing, what comes out is
within reach of the reader again, and the printed text holds exactly it.
-/

namespace BusClient.Package

open Json

/-! ## Records before and after -/

/-- The document that the record names as the description of its application. -/
def Describes (record info : Members) : Prop :=
  ∃ text, record.get? "app_info" = some (.string text) ∧ Value.ofText text = .ok (.object info)

/-- The description of the record marks a packaged resource. -/
def Marked (record : Members) : Prop :=
  ∃ info, Describes record info ∧ info.get? "is_rpk" = some (.string "T")

/-- What completing the path of a record comes to. -/
structure Completes (package : Package) (record after : Members) : Prop where
  described : ∃ info, Describes record info
  /-- No name is added, dropped or moved. -/
  names : after.names = record.names
  /-- Every value but the path stays in its place, whatever it nests. -/
  others : ∀ (i : Nat) (name : String) (value : Value), record[i]? = some (name, value) →
    name ≠ "path" → after[i]? = some (name, value)
  /-- The path of a marked record is put behind the directory of its resource type. -/
  marked : ∀ info, Describes record info → info.get? "is_rpk" = some (.string "T") →
    ∃ resourceType directory path, info.get? "res_type" = some (.string resourceType) ∧
      package.directory? resourceType = some directory ∧
      record.get? "path" = some (.string path) ∧
      after = record.put "path" (.string (directory ++ "/" ++ path))
  /-- Any other record stays as it is. -/
  unmarked : ¬ Marked record → after = record

/-- What completing the paths of a document comes to: that of one record, or of each record of a
list in turn. -/
inductive CompletesDocument (package : Package) : Value → Value → Prop
  | record {record after : Members} (h : Completes package record after) :
      CompletesDocument package (.object record) (.object after)
  | records {records after : List Members} (hn : records ≠ [])
      (h : List.Forall₂ (Completes package) records after) :
      CompletesDocument package (.array (records.map .object)) (.array (after.map .object))

variable {package : Package} {record after info : Members}

/-! ## One record -/

theorem textMember?_eq_some_iff {name text : String} :
    textMember? record name = some text ↔ record.get? name = some (.string text) := by
  unfold textMember?
  cases record.get? name with
  | none => simp
  | some value => cases value <;> simp [Value.text?]

/-- What is read from a record is its description. -/
theorem info_eq_ok_iff : Package.info record = .ok info ↔ Describes record info := by
  unfold Package.info Describes
  simp only [← textMember?_eq_some_iff]
  cases textMember? record "app_info" with
  | none => simp
  | some text =>
    cases hv : Value.ofText text with
    | error defect => simp [hv]
    | ok document => cases document <;> simp [hv, Value.members?]

theorem Describes.unique {other : Members} (h : Describes record info)
    (h' : Describes record other) : info = other := by
  have he := (info_eq_ok_iff.mpr h).symm.trans (info_eq_ok_iff.mpr h')
  exact Except.ok.inj he

theorem isPackaged_iff : isPackaged info = true ↔ info.get? "is_rpk" = some (.string "T") := by
  rw [isPackaged, beq_iff_eq, textMember?_eq_some_iff, marker]

/-- A complete path is the directory of the resource type, a slash and the old path. -/
theorem resolvedPath_eq_ok_iff {resolved : String} :
    package.resolvedPath info record = .ok resolved ↔
      ∃ resourceType directory path, info.get? "res_type" = some (.string resourceType) ∧
        package.directory? resourceType = some directory ∧
        record.get? "path" = some (.string path) ∧ resolved = directory ++ "/" ++ path := by
  constructor
  · intro h
    unfold resolvedPath at h
    split at h
    · cases h
    next resourceType ht =>
      split at h
      · cases h
      next directory hd =>
        split at h
        · cases h
        next path hp =>
          cases h
          exact ⟨resourceType, directory, path, textMember?_eq_some_iff.mp ht, hd,
            textMember?_eq_some_iff.mp hp, rfl⟩
  · rintro ⟨resourceType, directory, path, ht, hd, hp, rfl⟩
    rw [← textMember?_eq_some_iff] at ht hp
    simp only [resolvedPath, ht, hd, hp]

/-- A record that is not marked stays as it is. -/
theorem completes_of_unmarked (hd : Describes record info)
    (hm : info.get? "is_rpk" ≠ some (.string "T")) : Completes package record record where
  described := ⟨info, hd⟩
  names := rfl
  others _ _ _ hi _ := hi
  marked _ ho hmark := absurd (hd.unique ho ▸ hmark) hm
  unmarked _ := rfl

/-- A marked record gets its complete path, in the place of the old one. -/
theorem completes_of_marked {resolved : String} (hd : Describes record info)
    (hm : info.get? "is_rpk" = some (.string "T"))
    (hp : package.resolvedPath info record = .ok resolved) :
    Completes package record (record.put "path" (.string resolved)) := by
  obtain ⟨resourceType, directory, path, ht, hdir, hpath, rfl⟩ := resolvedPath_eq_ok_iff.mp hp
  constructor
  case described => exact ⟨info, hd⟩
  case names => exact Members.names_put_of_has (Members.has_of_get? hpath) _
  case others => exact fun i name value hi hn => Members.getElem?_put_other hi hn _
  case marked =>
    intro other ho _
    rw [← hd.unique ho]
    exact ⟨resourceType, directory, path, ht, hdir, hpath, rfl⟩
  case unmarked => exact fun hu => absurd ⟨info, hd, hm⟩ hu

/-- To resolve a record is to complete its path and to change nothing else. -/
theorem resolve_eq_ok_iff :
    package.resolve record = .ok after ↔ Completes package record after := by
  constructor
  · intro h
    unfold resolve at h
    split at h
    · cases h
    next info hi =>
      have hd := info_eq_ok_iff.mp hi
      split at h
      next hm =>
        split at h
        · cases h
        next resolved hp =>
          cases h
          exact completes_of_marked hd (isPackaged_iff.mp hm) hp
      next hm =>
        cases h
        exact completes_of_unmarked hd fun hmark => hm (isPackaged_iff.mpr hmark)
  · intro h
    obtain ⟨info, hd⟩ := h.described
    have hi := info_eq_ok_iff.mpr hd
    by_cases hm : isPackaged info = true
    · obtain ⟨resourceType, directory, path, ht, hdir, hpath, he⟩ :=
        h.marked info hd (isPackaged_iff.mp hm)
      have hp := resolvedPath_eq_ok_iff.mpr ⟨resourceType, directory, path, ht, hdir, hpath, rfl⟩
      simp only [resolve, hi, hm, if_true, hp, he]
    · have hu : ¬ Marked record := by
        rintro ⟨other, ho, hmark⟩
        rw [← hd.unique ho] at hmark
        exact hm (isPackaged_iff.mpr hmark)
      simp only [resolve, hi, if_neg hm, h.unmarked hu]

/-- A record is as it was, or has been given another path. -/
theorem Completes.eq_or_put (h : Completes package record after) :
    after = record ∨ ∃ path, after = record.put "path" (.string path) := by
  by_cases hm : Marked record
  · obtain ⟨info, hd, hmark⟩ := hm
    obtain ⟨_, directory, path, _, _, _, he⟩ := h.marked info hd hmark
    exact .inr ⟨_, he⟩
  · exact .inl (h.unmarked hm)

/-! ## Whole documents -/

/-- The elements of a list are taken for records exactly if they are records. -/
theorem records_eq_ok_iff {done found : List Members} {items : List Value} :
    Package.records done items = .ok found ↔
      ∃ more, items = more.map .object ∧ found = done.reverse ++ more := by
  constructor
  · intro h
    fun_induction Package.records done items with
    | case1 =>
      cases h
      exact ⟨[], rfl, (List.append_nil _).symm⟩
    | case2 => cases h
    | case3 done value rest record hm ih =>
      obtain ⟨more, hi, hf⟩ := ih h
      have hv : value = .object record := by
        cases value <;> cases hm
        rfl
      refine ⟨record :: more, ?_, ?_⟩
      · rw [hv, hi, List.map_cons]
      · rw [hf, List.reverse_cons, List.append_assoc, List.singleton_append]
  · rintro ⟨more, rfl, rfl⟩
    induction more generalizing done with
    | nil => rw [List.map_nil, Package.records, List.append_nil]
    | cons record more ih =>
      have hr : Package.records (record :: done) (more.map .object) = _ := ih
      rw [List.reverse_cons, List.append_assoc, List.singleton_append] at hr
      exact hr

/-- To resolve records is to complete the path of each of them in turn. -/
theorem resolveAll_eq_ok_iff {done records found : List Members} :
    package.resolveAll done records = .ok found ↔
      ∃ after, List.Forall₂ (Completes package) records after ∧ found = done.reverse ++ after := by
  constructor
  · intro h
    fun_induction resolveAll package done records with
    | case1 =>
      cases h
      exact ⟨[], .nil, (List.append_nil _).symm⟩
    | case2 => cases h
    | case3 done record rest record' hr ih =>
      obtain ⟨after, ha, hf⟩ := ih h
      refine ⟨record' :: after, .cons (resolve_eq_ok_iff.mp hr) ha, ?_⟩
      rw [hf, List.reverse_cons, List.append_assoc, List.singleton_append]
  · rintro ⟨after, ha, rfl⟩
    induction ha generalizing done with
    | nil => rw [resolveAll, List.append_nil]
    | @cons record record' rest after hc _ ih =>
      have hr : package.resolveAll (record' :: done) rest = _ := ih
      rw [List.reverse_cons, List.append_assoc, List.singleton_append] at hr
      simp only [resolveAll, resolve_eq_ok_iff.mpr hc]
      exact hr

/-- To resolve a document is to complete its paths and to change nothing else. -/
theorem resolveDocument_eq_ok_iff {document resolved : Value} :
    package.resolveDocument document = .ok resolved ↔
      CompletesDocument package document resolved := by
  constructor
  · intro h
    unfold resolveDocument at h
    split at h
    next items =>
      split at h
      · cases h
      · cases h
      next first more hr =>
        split at h
        · cases h
        next found ha =>
          cases h
          obtain ⟨records, hi, hf⟩ := records_eq_ok_iff.mp hr
          obtain ⟨after, hc, hg⟩ := resolveAll_eq_ok_iff.mp ha
          rw [List.reverse_nil, List.nil_append] at hf hg
          rw [hi, hg, ← hf]
          exact .records (List.cons_ne_nil first more) hc
    next record =>
      split at h
      · cases h
      next record' hr =>
        cases h
        exact .record (resolve_eq_ok_iff.mp hr)
    · cases h
  · intro h
    cases h with
    | record hc => simp only [resolveDocument, resolve_eq_ok_iff.mpr hc]
    | @records records after hn hc =>
      have hr : Package.records [] (records.map .object) = .ok records :=
        records_eq_ok_iff.mpr ⟨records, rfl, rfl⟩
      have ha : package.resolveAll [] records = .ok after :=
        resolveAll_eq_ok_iff.mpr ⟨after, hc, rfl⟩
      cases records with
      | nil => exact absurd rfl hn
      | cons first more => simp only [resolveDocument, hr, ha]

/-! ## The two courses of a payload -/

/-- Outside a packaged application a payload is handed on as it came. -/
theorem completePaths_of_none {package? : Option Package} (h : package?.bind appId = none)
    (payload : String) : completePaths package? payload = .ok payload := by
  cases package? with
  | none => rfl
  | some package =>
    rw [Option.bind_some] at h
    simp only [completePaths, h]

/-- In a packaged application its paths are completed. -/
theorem completePaths_of_some {appId : String} (h : package.appId = some appId)
    (payload : String) :
    completePaths (some package) payload = package.completePayload payload := by
  simp only [completePaths, h]

/-! ## The text that holds the result -/

/-- A record whose path is completed can be read where it could be read before. -/
theorem Completes.reached {depth : Nat} (h : Completes package record after)
    (hr : Reached (depth + 1) (.object record)) : Reached (depth + 1) (.object after) := by
  rcases h.eq_or_put with he | ⟨path, he⟩
  · rw [he]
    exact hr
  · obtain ⟨hn, hh, hv⟩ := reached_object_iff.mp hr
    rw [reached_object_iff, h.names]
    refine ⟨hn, hh, fun m hm => ?_⟩
    rw [he] at hm
    rcases Members.mem_put hm with hm | hp
    · exact hv m hm
    · rw [hp]
      exact reached_string _ path

/-- A document whose paths are completed can be read where it could be read before. -/
theorem CompletesDocument.reached {document resolved : Value} {depth : Nat}
    (h : CompletesDocument package document resolved) (hr : Reached (depth + 2) document) :
    Reached (depth + 2) resolved := by
  cases h with
  | record h => exact h.reached hr
  | records hn h =>
    clear hn
    rw [reached_array_iff] at hr ⊢
    induction h with
    | nil => exact hr
    | cons hc _ ih =>
      rw [List.map_cons, List.forall_mem_cons] at hr ⊢
      exact ⟨hc.reached hr.1, ih hr.2⟩

/-- A payload whose document is completed becomes the indented text of the result, which is read
back as the result. -/
theorem completePayload_of_completes {payload : String} {document resolved : Value}
    (hd : Value.ofText payload = .ok document)
    (hc : CompletesDocument package document resolved) :
    package.completePayload payload = .ok resolved.indented ∧
      Value.ofText resolved.indented = .ok resolved := by
  have hr : Reached maxDepth resolved := hc.reached (exists_ofText_iff.mp ⟨payload, hd⟩)
  refine ⟨?_, ofText_indented hr.1 hr.2⟩
  simp only [completePayload, hd, resolveDocument_eq_ok_iff.mpr hc]

/-- For a packaged application a payload is completed exactly if its document can be, and becomes
the printed form of the document with the path of each marked record completed. The printed form
holds exactly that document. -/
theorem completePaths_eq_ok_iff (config : Configuration) (package : Package) (appId : String)
    (payload text : String) (hc : config.package = some package)
    (ha : package.appId = some appId) :
    completePaths config.package payload = .ok text ↔
      ∃ document resolved, Value.ofText payload = .ok document ∧
        CompletesDocument package document resolved ∧ text = resolved.indented ∧
        Value.ofText text = .ok resolved := by
  rw [hc, completePaths, ha]
  simp only [completePayload]
  constructor
  · intro h
    split at h
    · cases h
    next document hd =>
      split at h
      · cases h
      next resolved hr =>
        cases h
        have hcomplete := resolveDocument_eq_ok_iff.mp hr
        have hreached : Reached maxDepth resolved :=
          hcomplete.reached (exists_ofText_iff.mp ⟨payload, hd⟩)
        exact ⟨document, resolved, hd, hcomplete, rfl, ofText_indented hreached.1 hreached.2⟩
  · rintro ⟨document, resolved, hd, hcomplete, rfl, _⟩
    simp only [hd, resolveDocument_eq_ok_iff.mpr hcomplete]

/-- Of two records one is marked. The other keeps its path, its numbers and what it nests. -/
theorem completePaths_eq_ok_mixed :
    let package : Package := ⟨some "org.example.app", [("type-a", "/global/type-a")]⟩
    let config : Configuration := ⟨"/run/bus", none, some package⟩
    let payload := "[\x7b\"path\":\"a.bin\",\"app_info\":" ++
      "\"\x7b\\\"is_rpk\\\":\\\"T\\\",\\\"res_type\\\":\\\"type-a\\\"\x7d\"\x7d," ++
      "\x7b\"app_info\":\"\x7b\x7d\",\"path\":\"/b.bin\",\"of\":[1e400,\x7b\"path\":-0.10\x7d]\x7d]"
    let text := "[\n  \x7b\n    \"path\": \"/global/type-a/a.bin\",\n    \"app_info\": " ++
      "\"\x7b\\\"is_rpk\\\":\\\"T\\\",\\\"res_type\\\":\\\"type-a\\\"\x7d\"\n  \x7d,\n" ++
      "  \x7b\n    \"app_info\": \"\x7b\x7d\",\n    \"path\": \"/b.bin\",\n    \"of\": [\n" ++
      "      1e+400,\n      \x7b\n        \"path\": -0.10\n      \x7d\n    ]\n  \x7d\n]"
    config.package = some package ∧ package.appId = some "org.example.app" ∧
      completePaths config.package payload = .ok text ∧
      ∃ document resolved, Value.ofText payload = .ok document ∧
        CompletesDocument package document resolved ∧ text = resolved.indented ∧
        Value.ofText text = .ok resolved := by
  intro package config payload text
  have h : completePaths config.package payload = .ok text := by decide +kernel
  exact ⟨rfl, rfl, h, (completePaths_eq_ok_iff config package _ payload text rfl rfl).mp h⟩

end BusClient.Package
