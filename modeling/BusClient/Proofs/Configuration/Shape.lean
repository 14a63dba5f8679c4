import Mathlib.Control.Monad.Basic
import Mathlib.Data.List.Sort
import BusClient.Configuration.File
import BusClient.Proofs.Package.Completion
import BusClient.Proofs.Text.Order
import BusClient.Proofs.Toml.Names

/-!
# Which tables are configurations

A table is a configuration exactly if all of its names are known and what stands under each of
them has its shape. The configuration then has, field by field, what stands under the name of the
field or the default of the field. The directories of resource types are in the order of the bytes
of their names, in whatever order they were written.
-/

namespace BusClient.Configuration

open Toml

/-! ## The shape of a table -/

/-- A text. -/
inductive IsText : Value → Prop
  | string (text : String) : IsText (.string text)

/-- A table of texts. -/
inductive IsPaths : Value → Prop
  | table (origin : Origin) {entries : Entries} (h : ∀ entry ∈ entries, IsText entry.2.2) :
    IsPaths (.table origin entries)

/-- A table whose names are those of a package and whose values have the shapes of its fields. -/
structure PackageShaped (entries : Entries) : Prop where
  known : ∀ name ∈ Entries.names entries, name = "app_id" ∨ name = "resource_paths"
  appId : ∀ value, Entries.value? entries "app_id" = some value → IsText value
  resourcePaths : ∀ value, Entries.value? entries "resource_paths" = some value → IsPaths value

/-- A table that is a package. -/
inductive IsPackage : Value → Prop
  | table (origin : Origin) {entries : Entries} (h : PackageShaped entries) :
    IsPackage (.table origin entries)

/-- A table whose names are those of a configuration and whose values have the shapes of its
fields. -/
structure Shaped (entries : Entries) : Prop where
  known : ∀ name ∈ Entries.names entries,
    name = "system_socket" ∨ name = "session_socket" ∨ name = "package"
  systemSocket : ∀ value, Entries.value? entries "system_socket" = some value → IsText value
  sessionSocket : ∀ value, Entries.value? entries "session_socket" = some value → IsText value
  package : ∀ value, Entries.value? entries "package" = some value → IsPackage value

/-- The package is not given as a list of its parts, nor its directories as a moment, which would
count as a table that holds its text. -/
structure Plain (entries : Entries) : Prop where
  package : (Entries.value? entries "package").bind Value.items? = none
  resourcePaths : ((Entries.table? entries "package").bind
    (Entries.value? · "resource_paths")).bind Value.moment? = none

instance (entries : Entries) : Decidable (Plain entries) :=
  decidable_of_iff
    ((Entries.value? entries "package").bind Value.items? = none ∧
      ((Entries.table? entries "package").bind
        (Entries.value? · "resource_paths")).bind Value.moment? = none)
    ⟨fun ⟨hp, hr⟩ => ⟨hp, hr⟩, fun ⟨hp, hr⟩ => ⟨hp, hr⟩⟩

theorem Plain.ne_list {entries : Entries} (h : Plain entries) {value : Value}
    (hv : Entries.value? entries "package" = some value) (origin : Origin) (items : Items) :
    value ≠ .list origin items := by
  rintro rfl
  have hp := h.package
  rw [hv] at hp
  cases hp

theorem Plain.ne_moment {entries inner : Entries} (h : Plain entries)
    (ht : Entries.table? entries "package" = some inner) (moment : Moment) :
    Entries.value? inner "resource_paths" ≠ some (.moment moment) := by
  intro hm
  have hr := h.resourcePaths
  rw [ht, Option.bind_some, hm] at hr
  cases hr

/-! ## What a table says -/

/-- The pairs of a table of texts, each once and in the order of the bytes of the names. -/
structure Lists (entries : Entries) (paths : List (String × String)) : Prop where
  ordered : paths.Pairwise fun a b => Bytes.ofText a.1 < Bytes.ofText b.1
  pairs : ∀ name directory,
    (name, directory) ∈ paths ↔ Entries.text? entries name = some directory

/-- The directories that the table of a package gives; there are none if it does not say. -/
def directories (entries : Entries) : Entries :=
  (Entries.table? entries "resource_paths").getD []

/-- What the table of a package says. -/
structure PackageReads (entries : Entries) (package : Package) : Prop where
  appId : package.appId = Entries.text? entries "app_id"
  resourcePaths : Lists (directories entries) package.resourcePaths
  /-- The payloads of the package look their directories up in the table. -/
  lookup : ∀ resourceType,
    package.directory? resourceType = Entries.text? (directories entries) resourceType
  /-- Paths are completed where the table gives an application, and only there. -/
  rewriting : ∀ payload, completePaths (some package) payload =
    if (Entries.text? entries "app_id").isSome then package.completePayload payload
    else .ok payload

/-- The socket lies in the runtime directory, which starts at the root; there is one slash more
unless the directory ends in one. -/
def InRuntimeDirectory (runtimeDirectory : Option String) (socket : String) : Prop :=
  ∃ directory, runtimeDirectory = some directory ∧ directory.toList.head? = some '/' ∧
    socket = (if directory.toList.getLast? = some '/' then directory else directory ++ "/") ++
      "mlops-agent/session_bus_socket"

/-- What a table says: for each field what stands under its name, or its default. -/
structure Reads (runtimeDirectory : Option String) (entries : Entries) (config : Configuration) :
    Prop where
  systemSocket : config.systemSocket =
    (Entries.text? entries "system_socket").getD "/run/mlops-agent/system_bus_socket"
  sessionSocket : ∀ socket, config.sessionSocket = some socket ↔
    Entries.text? entries "session_socket" = some socket ∨
      Entries.text? entries "session_socket" = none ∧ InRuntimeDirectory runtimeDirectory socket
  package : Option.Rel PackageReads (Entries.table? entries "package") config.package
  /-- Without a package no payload is touched. -/
  untouched : Entries.table? entries "package" = none →
    ∀ payload, completePaths config.package payload = .ok payload

/-! ## Fields -/

theorem readText_eq_ok_iff {wanted text : String} {mark : Mark} {value : Value} :
    readText wanted mark value = .ok text ↔ value = .string text := by
  cases value <;> simp [readText]

/-- What has come of a field once all entries are read: what is read under its name, or what it
was before. -/
def Field {α β : Type} (read : Mark → Value → Except Fault β) (put : β → α) (entries : Entries)
    (name : String) (before after : α) : Prop :=
  match Entries.get? entries name with
  | none => after = before
  | some (mark, value) => ∃ b, read mark value = .ok b ∧ after = put b

section Field

variable {α β : Type} {read : Mark → Value → Except Fault β} {put : β → α} {entries : Entries}
  {key : Key} {mark : Mark} {value : Value} {name : String} {before after : α}

theorem field_of_fresh (h : name ∉ Entries.names entries) :
    Field read put entries name before after ↔ after = before := by
  rw [Field, Entries.get?_eq_none_iff.mpr h]

theorem field_cons_of_eq (h : key.name = name) :
    Field read put ((key, mark, value) :: entries) name before after ↔
      ∃ b, read mark value = .ok b ∧ after = put b := by
  rw [Field, Entries.get?_cons_of_eq h]

theorem field_cons_of_ne (h : key.name ≠ name) :
    Field read put ((key, mark, value) :: entries) name before after ↔
      Field read put entries name before after := by
  rw [Field, Entries.get?_cons_of_ne h, Field]

/-- A field can be read exactly if what stands under its name has the shape of the field. -/
theorem exists_field_iff {p : Value → Prop}
    (h : ∀ mark value, Entries.value? entries name = some value →
      ((∃ b, read mark value = .ok b) ↔ p value)) :
    (∃ after, Field read put entries name before after) ↔
      ∀ value, Entries.value? entries name = some value → p value := by
  unfold Field
  unfold Entries.value? at h ⊢
  cases hg : Entries.get? entries name with
  | none => simp
  | some found =>
    obtain ⟨mark, value⟩ := found
    have hv : (∃ b, read mark value = .ok b) ↔ p value := h mark value (by rw [hg]; rfl)
    constructor
    · rintro ⟨_, b, hb, -⟩ _ ⟨⟩
      exact hv.mp ⟨b, hb⟩
    · intro hp
      obtain ⟨b, hb⟩ := hv.mpr (hp value rfl)
      exact ⟨put b, b, hb, rfl⟩

/-- A field of texts is the text under its name, or what it was before. -/
theorem Field.eq_text {wanted : String} {put : String → α}
    (h : Field (readText wanted) put entries name before after) :
    after = ((Entries.text? entries name).map put).getD before := by
  unfold Field at h
  unfold Entries.text? Entries.value?
  split at h
  next hg =>
    rw [hg]
    exact h
  next hg =>
    obtain ⟨text, ht, rfl⟩ := h
    rw [hg, readText_eq_ok_iff.mp ht]
    rfl

end Field

/-- Each known entry of a configuration changes its own field and no other one. -/
theorem readEntries_eq_ok_iff {config after : Configuration} {entries : Entries}
    (hn : (Entries.names entries).Nodup) :
    readEntries config entries = .ok after ↔
      (∀ name ∈ Entries.names entries,
        name = "system_socket" ∨ name = "session_socket" ∨ name = "package") ∧
      Field (readText pathShape) id entries "system_socket" config.systemSocket
        after.systemSocket ∧
      Field (readText pathShape) some entries "session_socket" config.sessionSocket
        after.sessionSocket ∧
      Field readPackage some entries "package" config.package after.package := by
  -- An entry leaves a changed configuration to the others, and as none of them has its name again,
  -- its field stays what it has become.
  induction entries generalizing config with
  | nil =>
    obtain ⟨systemSocket, sessionSocket, package⟩ := config
    obtain ⟨systemSocket', sessionSocket', package'⟩ := after
    simp [readEntries, field_of_fresh, Entries.names, eq_comm]
  | cons entry more ih =>
    obtain ⟨key, mark, value⟩ := entry
    obtain ⟨hfresh, hmore⟩ := List.nodup_cons.mp hn
    simp only [readEntries]
    rw [Entries.names_cons, List.forall_mem_cons]
    split
    next hk =>
      have hfresh : "system_socket" ∉ Entries.names more := hk ▸ hfresh
      rw [field_cons_of_eq hk, field_cons_of_ne (by rw [hk]; decide),
        field_cons_of_ne (by rw [hk]; decide)]
      cases readText pathShape mark value with
      | error fault => simp
      | ok path => simp [ih hmore, field_of_fresh hfresh, hk]
    split
    next hk =>
      have hfresh : "session_socket" ∉ Entries.names more := hk ▸ hfresh
      rw [field_cons_of_eq hk, field_cons_of_ne (by rw [hk]; decide),
        field_cons_of_ne (by rw [hk]; decide)]
      cases readText pathShape mark value with
      | error fault => simp
      | ok path => simp [ih hmore, field_of_fresh hfresh, hk]
    split
    next hk =>
      have hfresh : "package" ∉ Entries.names more := hk ▸ hfresh
      rw [field_cons_of_eq hk, field_cons_of_ne (by rw [hk]; decide),
        field_cons_of_ne (by rw [hk]; decide)]
      cases readPackage mark value with
      | error fault => simp
      | ok package => simp [ih hmore, field_of_fresh hfresh, hk]
    next hsys hses hpkg => simp [hsys, hses, hpkg]

/-- Each known entry of a package changes its own field and not the other one. -/
theorem readPackageEntries_eq_ok_iff {package after : Package} {entries : Entries}
    (hn : (Entries.names entries).Nodup) :
    readPackageEntries package entries = .ok after ↔
      (∀ name ∈ Entries.names entries, name = "app_id" ∨ name = "resource_paths") ∧
      Field readAppId some entries "app_id" package.appId after.appId ∧
      Field readResourcePaths id entries "resource_paths" package.resourcePaths
        after.resourcePaths := by
  induction entries generalizing package with
  | nil =>
    obtain ⟨appId, resourcePaths⟩ := package
    obtain ⟨appId', resourcePaths'⟩ := after
    simp [readPackageEntries, field_of_fresh, Entries.names, eq_comm]
  | cons entry more ih =>
    obtain ⟨key, mark, value⟩ := entry
    obtain ⟨hfresh, hmore⟩ := List.nodup_cons.mp hn
    simp only [readPackageEntries]
    rw [Entries.names_cons, List.forall_mem_cons]
    split
    next hk =>
      have hfresh : "app_id" ∉ Entries.names more := hk ▸ hfresh
      rw [field_cons_of_eq hk, field_cons_of_ne (by rw [hk]; decide)]
      cases readAppId mark value with
      | error fault => simp
      | ok appId => simp [ih hmore, field_of_fresh hfresh, hk]
    split
    next hk =>
      have hfresh : "resource_paths" ∉ Entries.names more := hk ▸ hfresh
      rw [field_cons_of_eq hk, field_cons_of_ne (by rw [hk]; decide)]
      cases readResourcePaths mark value with
      | error fault => simp
      | ok paths => simp [ih hmore, field_of_fresh hfresh, hk]
    next happ hpaths => simp [happ, hpaths]

/-! ## Directories -/

section Directories

variable {path other : String × String} {done paths paths' : List (String × String)}
  {entries : Entries}

theorem mem_addPath : other ∈ addPath path paths ↔ other = path ∨ other ∈ paths := by
  induction paths with
  | nil => simp [addPath]
  | cons first more ih =>
    simp only [addPath]
    split
    · exact List.mem_cons
    · simp only [List.mem_cons, ih]
      exact or_left_comm

/-- A directory is put in its place. -/
theorem addPath_ordered (ho : paths.Pairwise fun a b => a.1 < b.1)
    (hf : ∀ other ∈ paths, other.1 ≠ path.1) :
    (addPath path paths).Pairwise fun a b => a.1 < b.1 := by
  induction paths with
  | nil => exact List.pairwise_singleton _ _
  | cons first more ih =>
    obtain ⟨hfirst, hmore⟩ := List.pairwise_cons.mp ho
    obtain ⟨hne, hf⟩ := List.forall_mem_cons.mp hf
    simp only [addPath]
    split
    next hlt =>
      refine List.pairwise_cons.mpr ⟨?_, ho⟩
      intro other hm
      rcases List.mem_cons.mp hm with rfl | hm
      · exact hlt
      · exact String.lt_trans hlt (hfirst other hm)
    next hlt =>
      have hgt : first.1 < path.1 := by
        have hle : first.1 ≤ path.1 := String.not_lt.mp hlt
        by_contra hle'
        exact hne (String.le_antisymm hle (String.not_lt.mp hle'))
      refine List.pairwise_cons.mpr ⟨?_, ih hmore hf⟩
      intro other hm
      rcases mem_addPath.mp hm with rfl | hm
      · exact hgt
      · exact hfirst other hm

/-- Directories can be read exactly if all of them are texts. -/
theorem exists_readPaths_iff :
    (∃ paths, readPaths done entries = .ok paths) ↔ ∀ entry ∈ entries, IsText entry.2.2 := by
  induction entries generalizing done with
  | nil => simp [readPaths]
  | cons entry more ih =>
    obtain ⟨key, mark, value⟩ := entry
    rw [List.forall_mem_cons]
    cases value with
    | string text =>
      simp only [readPaths, readText, ih]
      simp [IsText.string]
    | _ =>
      simp only [readPaths, readText]
      simp
      nofun

/-- The directories that are read are those of the entries, in order, and those that were there. -/
theorem readPaths_eq_ok (hn : (Entries.names entries).Nodup)
    (ho : done.Pairwise fun a b => a.1 < b.1)
    (hf : ∀ other ∈ done, other.1 ∉ Entries.names entries)
    (h : readPaths done entries = .ok paths) :
    (paths.Pairwise fun a b => a.1 < b.1) ∧ ∀ name directory, (name, directory) ∈ paths ↔
      (name, directory) ∈ done ∨ Entries.text? entries name = some directory := by
  induction entries generalizing done with
  | nil =>
    cases h
    exact ⟨ho, fun name directory => by simp [Entries.text?, Entries.value?, Entries.get?]⟩
  | cons entry more ih =>
    obtain ⟨key, mark, value⟩ := entry
    obtain ⟨hfresh, hmore⟩ := List.nodup_cons.mp hn
    simp only [readPaths] at h
    split at h
    · cases h
    next path hp =>
      cases readText_eq_ok_iff.mp hp
      have hdone : ∀ other ∈ done, other.1 ≠ key.name ∧ other.1 ∉ Entries.names more :=
        fun other hm => not_or.mp fun hin => hf other hm (List.mem_cons.mpr hin)
      have hf : ∀ other ∈ addPath (key.name, path) done, other.1 ∉ Entries.names more := by
        intro other hm
        rcases mem_addPath.mp hm with rfl | hm
        · exact hfresh
        · exact (hdone other hm).2
      have ho : (addPath (key.name, path) done).Pairwise fun a b => a.1 < b.1 :=
        addPath_ordered ho fun other hm => (hdone other hm).1
      obtain ⟨hordered, hmem⟩ := ih hmore ho hf h
      refine ⟨hordered, fun name directory => ?_⟩
      rw [hmem, mem_addPath, or_assoc, or_left_comm]
      refine or_congr_right ?_
      by_cases hk : key.name = name
      · have hfresh : name ∉ Entries.names more := hk ▸ hfresh
        have hmore : Entries.text? more name = none := by
          simp [Entries.text?, Entries.value?, Entries.get?_eq_none_iff.mpr hfresh]
        have hcons : Entries.text? ((key, mark, .string path) :: more) name = some path := by
          simp [Entries.text?, Entries.value?, Entries.get?_cons_of_eq hk, Value.text?]
        simp [hmore, hcons, hk, eq_comm]
      · simp [Entries.text?, Entries.value?, Entries.get?_cons_of_ne hk, Ne.symm hk]

/-- What is read from a table of directories are its pairs. -/
theorem readPaths_lists (hn : (Entries.names entries).Nodup)
    (h : readPaths [] entries = .ok paths) : Lists entries paths := by
  obtain ⟨hordered, hmem⟩ := readPaths_eq_ok hn List.Pairwise.nil (List.forall_mem_nil _) h
  exact ⟨hordered.imp Bytes.ofText_lt_of_lt, fun name directory => by simp [hmem]⟩

/-- A table has one list of its pairs. -/
theorem Lists.unique (h : Lists entries paths) (h' : Lists entries paths') : paths = paths' := by
  have : Std.Irrefl fun a b : String × String => Bytes.ofText a.1 < Bytes.ofText b.1 :=
    ⟨fun a => List.lt_irrefl _⟩
  have : Std.Antisymm fun a b : String × String => Bytes.ofText a.1 < Bytes.ofText b.1 :=
    ⟨fun a b hab hba => absurd (List.lt_trans hab hba) (List.lt_irrefl _)⟩
  apply h.ordered.eq_of_mem_iff h'.ordered
  rintro ⟨name, directory⟩
  rw [h.pairs, h'.pairs]

/-- A payload finds the directory that the table gives. -/
theorem Lists.directory? {package : Package} (h : Lists entries package.resourcePaths)
    (resourceType : String) :
    package.directory? resourceType = Entries.text? entries resourceType := by
  rw [Package.directory?]
  cases hf : package.resourcePaths.find? (·.1 == resourceType) with
  | none =>
    symm
    rw [Option.map_none, Option.eq_none_iff_forall_ne_some]
    intro directory hd
    have hm := (h.pairs resourceType directory).mpr hd
    exact List.find?_eq_none.mp hf _ hm (beq_self_eq_true resourceType)
  | some path =>
    obtain ⟨name, directory⟩ := path
    have hk := List.find?_some hf
    simp only [beq_iff_eq] at hk
    have hm := List.mem_of_find?_eq_some hf
    rw [hk, h.pairs] at hm
    exact hm.symm

end Directories

/-! ## Packages -/

section Packages

variable {mark : Mark} {value : Value} {entries : Entries} {package package' : Package}

theorem exists_readText_iff {wanted : String} :
    (∃ text, readText wanted mark value = .ok text) ↔ IsText value := by
  simp only [readText_eq_ok_iff]
  constructor
  · rintro ⟨text, rfl⟩
    exact .string text
  · rintro ⟨text⟩
    exact ⟨text, rfl⟩

/-- A field of texts can be read exactly if what stands under its name is a text. -/
theorem exists_field_text_iff {α : Type} {wanted name : String} {put : String → α} {before : α} :
    (∃ after, Field (readText wanted) put entries name before after) ↔
      ∀ value, Entries.value? entries name = some value → IsText value :=
  exists_field_iff fun _ _ _ => exists_readText_iff

theorem readResourcePaths_eq_ok_iff {paths : List (String × String)}
    (hm : ∀ moment, value ≠ .moment moment) :
    readResourcePaths mark value = .ok paths ↔
      ∃ origin inner, value = .table origin inner ∧ readPaths [] inner = .ok paths := by
  cases value with
  | moment m => exact absurd rfl (hm m)
  | _ => simp [readResourcePaths]

theorem exists_readResourcePaths_iff (hm : ∀ moment, value ≠ .moment moment) :
    (∃ paths, readResourcePaths mark value = .ok paths) ↔ IsPaths value := by
  simp only [readResourcePaths_eq_ok_iff hm]
  constructor
  · rintro ⟨paths, origin, inner, rfl, hr⟩
    exact .table origin (exists_readPaths_iff.mp ⟨paths, hr⟩)
  · rintro ⟨origin, ht⟩
    obtain ⟨paths, hr⟩ := exists_readPaths_iff.mpr ht
    exact ⟨paths, origin, _, rfl, hr⟩

/-- The table of a package can be read exactly if it has the shape of one. -/
theorem exists_readPackageEntries_iff (hn : (Entries.names entries).Nodup)
    (hm : ∀ moment, Entries.value? entries "resource_paths" ≠ some (.moment moment)) :
    (∃ package, readPackageEntries ⟨none, []⟩ entries = .ok package) ↔
      PackageShaped entries := by
  have happ (before : Option String) :
      (∃ after, Field readAppId some entries "app_id" before after) ↔
        ∀ value, Entries.value? entries "app_id" = some value → IsText value :=
    exists_field_text_iff
  have hpaths (before : List (String × String)) :
      (∃ after, Field readResourcePaths id entries "resource_paths" before after) ↔
        ∀ value, Entries.value? entries "resource_paths" = some value → IsPaths value :=
    exists_field_iff fun _ _ hv =>
      exists_readResourcePaths_iff fun moment he => hm moment (he ▸ hv)
  simp only [readPackageEntries_eq_ok_iff hn]
  constructor
  · rintro ⟨package, hknown, ha, hr⟩
    exact ⟨hknown, (happ _).mp ⟨_, ha⟩, (hpaths _).mp ⟨_, hr⟩⟩
  · rintro ⟨hknown, ha, hr⟩
    obtain ⟨appId, ha⟩ := (happ none).mpr ha
    obtain ⟨paths, hr⟩ := (hpaths []).mpr hr
    exact ⟨⟨appId, paths⟩, hknown, ha, hr⟩

/-- The directories of a package are those that its table gives. -/
theorem Field.lists {paths : List (String × String)} (hd : Entries.Distinct entries)
    (hm : ∀ moment, Entries.value? entries "resource_paths" ≠ some (.moment moment))
    (h : Field readResourcePaths id entries "resource_paths" [] paths) :
    Lists (directories entries) paths := by
  unfold Field at h
  unfold directories Entries.table? Entries.value?
  split at h
  next hg =>
    cases h
    rw [hg]
    exact ⟨List.Pairwise.nil, by simp [Entries.text?, Entries.value?, Entries.get?]⟩
  next mark value hg =>
    obtain ⟨_, hr, rfl⟩ := h
    have hv := Entries.value?_of_get? hg
    obtain ⟨origin, inner, rfl, hr⟩ :=
      (readResourcePaths_eq_ok_iff fun moment he => hm moment (he ▸ hv)).mp hr
    have hinner := Entries.Distinct.of_table (hd.of_get? hg)
    rw [hg]
    exact readPaths_lists hinner.names hr

/-- A package is what its table says. -/
theorem readPackageEntries_reads (hd : Entries.Distinct entries)
    (hm : ∀ moment, Entries.value? entries "resource_paths" ≠ some (.moment moment))
    (h : readPackageEntries ⟨none, []⟩ entries = .ok package) : PackageReads entries package := by
  obtain ⟨-, ha, hr⟩ := (readPackageEntries_eq_ok_iff hd.names).mp h
  have ha := Field.eq_text ha
  have hr := Field.lists hd hm hr
  have ha : package.appId = Entries.text? entries "app_id" := by
    rw [ha]
    cases Entries.text? entries "app_id" <;> rfl
  refine ⟨ha, hr, hr.directory?, fun payload => ?_⟩
  rw [← ha]
  cases happ : package.appId with
  | none =>
    have hnone : (some package).bind Package.appId = none := happ
    exact Package.completePaths_of_none hnone payload
  | some appId => exact Package.completePaths_of_some happ payload

/-- A table says one package. -/
theorem PackageReads.unique (h : PackageReads entries package)
    (h' : PackageReads entries package') : package = package' := by
  obtain ⟨appId, paths⟩ := package
  obtain ⟨appId', paths'⟩ := package'
  have ha : appId = appId' := h.appId.trans h'.appId.symm
  have hp : paths = paths' := h.resourcePaths.unique h'.resourcePaths
  rw [ha, hp]

theorem readPackage_eq_ok_iff (hl : ∀ origin items, value ≠ .list origin items) :
    readPackage mark value = .ok package ↔
      ∃ origin inner, value = .table origin inner ∧
        readPackageEntries ⟨none, []⟩ inner = .ok package := by
  cases value with
  | list origin items => exact absurd rfl (hl origin items)
  | _ => simp [readPackage]

end Packages

/-! ## Configurations -/

section Configurations

variable {entries : Entries} {runtimeDirectory : Option String} {config config' : Configuration}

/-- The package under its name can be read exactly if it has the shape of one. -/
theorem exists_readPackage_iff (hd : Entries.Distinct entries) (hp : Plain entries) {mark : Mark}
    {value : Value} (hv : Entries.value? entries "package" = some value) :
    (∃ package, readPackage mark value = .ok package) ↔ IsPackage value := by
  simp only [readPackage_eq_ok_iff (hp.ne_list hv)]
  have hinner : ∀ {origin inner}, value = .table origin inner →
      ((∃ package, readPackageEntries ⟨none, []⟩ inner = .ok package) ↔ PackageShaped inner) := by
    intro origin inner he
    rw [he] at hv
    have ht := Entries.table?_eq_some_iff.mpr ⟨origin, hv⟩
    have hinner := Entries.Distinct.of_table (hd.of_value? hv)
    exact exists_readPackageEntries_iff hinner.names (hp.ne_moment ht)
  constructor
  · rintro ⟨package, origin, inner, he, hr⟩
    rw [he]
    exact .table origin ((hinner he).mp ⟨package, hr⟩)
  · rintro ⟨origin, hs⟩
    obtain ⟨package, hr⟩ := (hinner rfl).mpr hs
    exact ⟨package, origin, _, rfl, hr⟩

/-- A table is a configuration exactly if it has the shape of one. -/
theorem exists_ofEntries_iff (hd : Entries.Distinct entries) (hp : Plain entries) :
    (∃ config, ofEntries runtimeDirectory entries = .ok config) ↔ Shaped entries := by
  have hsystem (before : String) :
      (∃ after, Field (readText pathShape) id entries "system_socket" before after) ↔
        ∀ value, Entries.value? entries "system_socket" = some value → IsText value :=
    exists_field_text_iff
  have hsession (before : Option String) :
      (∃ after, Field (readText pathShape) some entries "session_socket" before after) ↔
        ∀ value, Entries.value? entries "session_socket" = some value → IsText value :=
    exists_field_text_iff
  have hpackage (before : Option Package) :
      (∃ after, Field readPackage some entries "package" before after) ↔
        ∀ value, Entries.value? entries "package" = some value → IsPackage value :=
    exists_field_iff fun _ _ hv => exists_readPackage_iff hd hp hv
  simp only [ofEntries, readEntries_eq_ok_iff hd.names]
  constructor
  · rintro ⟨config, hknown, hs, ht, hr⟩
    exact ⟨hknown, (hsystem _).mp ⟨_, hs⟩, (hsession _).mp ⟨_, ht⟩, (hpackage _).mp ⟨_, hr⟩⟩
  · rintro ⟨hknown, hs, ht, hr⟩
    obtain ⟨systemSocket, hs⟩ := (hsystem _).mpr hs
    obtain ⟨sessionSocket, ht⟩ := (hsession _).mpr ht
    obtain ⟨package, hr⟩ := (hpackage _).mpr hr
    exact ⟨⟨systemSocket, sessionSocket, package⟩, hknown, hs, ht, hr⟩

/-- A path below a directory is set off by one slash. -/
theorem join_of_nonempty {directory : String} (h : directory.toList ≠ []) (name : String) :
    join directory name =
      (if directory.toList.getLast? = some '/' then directory else directory ++ "/") ++ name := by
  unfold join
  rw [List.getLast?_eq_some_getLast h]
  simp only [Option.some.injEq]
  split <;> rfl

/-- The default of the session socket. -/
theorem sessionSocketIn_eq_some_iff {socket : String} :
    sessionSocketIn runtimeDirectory = some socket ↔
      InRuntimeDirectory runtimeDirectory socket := by
  unfold sessionSocketIn InRuntimeDirectory
  cases runtimeDirectory with
  | none => simp
  | some directory =>
    simp only [isAbsolute, beq_iff_eq, Option.some.injEq, exists_eq_left',
      Option.ite_none_right_eq_some]
    refine and_congr_right fun hd => ?_
    have hne : directory.toList ≠ [] := fun he => by simp [he] at hd
    have hlast (front : String) : (front ++ "mlops-agent").toList.getLast? = some 't' := by
      simp
    rw [join_of_nonempty hne, join_of_nonempty (by simp), hlast, if_neg (by decide),
      String.append_assoc, String.append_assoc, eq_comm]
    rfl

/-- The package is what stands under its name. -/
theorem Field.package (hd : Entries.Distinct entries) (hp : Plain entries)
    {package : Option Package} (h : Field readPackage some entries "package" none package) :
    Option.Rel PackageReads (Entries.table? entries "package") package := by
  unfold Field at h
  split at h
  next hg =>
    cases h
    rw [Entries.table?, Entries.value?, hg]
    exact .none
  next mark value hg =>
    obtain ⟨package, hr, rfl⟩ := h
    have hv := Entries.value?_of_get? hg
    obtain ⟨origin, inner, rfl, hr⟩ := (readPackage_eq_ok_iff (hp.ne_list hv)).mp hr
    have hinner := Entries.Distinct.of_table (hd.of_get? hg)
    have ht := Entries.table?_eq_some_iff.mpr ⟨origin, hv⟩
    rw [ht]
    exact .some (readPackageEntries_reads hinner (hp.ne_moment ht) hr)

/-- A configuration is what its table says. -/
theorem ofEntries_reads (hd : Entries.Distinct entries) (hp : Plain entries)
    (h : ofEntries runtimeDirectory entries = .ok config) :
    Reads runtimeDirectory entries config := by
  obtain ⟨-, hs, ht, hr⟩ := (readEntries_eq_ok_iff hd.names).mp h
  have hs := Field.eq_text hs
  have ht := Field.eq_text ht
  have hr := Field.package hd hp hr
  refine ⟨?_, fun socket => ?_, hr, fun hn payload => ?_⟩
  · rw [hs, Option.map_id]
    rfl
  · rw [ht, ← sessionSocketIn_eq_some_iff]
    cases Entries.text? entries "session_socket" <;> simp [default]
  · rw [hn] at hr
    generalize config.package = package at hr
    cases hr
    rfl

/-- A table says one configuration. -/
theorem Reads.unique (h : Reads runtimeDirectory entries config)
    (h' : Reads runtimeDirectory entries config') : config = config' := by
  obtain ⟨systemSocket, sessionSocket, package⟩ := config
  obtain ⟨systemSocket', sessionSocket', package'⟩ := config'
  have hs : systemSocket = systemSocket' := h.systemSocket.trans h'.systemSocket.symm
  have ht : sessionSocket = sessionSocket' :=
    Option.ext fun socket => (h.sessionSocket socket).trans (h'.sessionSocket socket).symm
  have hr : package = package' := by
    have hr := h.package
    have hr' := h'.package
    generalize Entries.table? entries "package" = inner at hr hr'
    cases hr with
    | none =>
      cases hr'
      rfl
    | some hr =>
      cases hr' with
      | some hr' => rw [hr.unique hr']
  rw [hs, ht, hr]

/-- Of the tables that texts write, those with the shape of a configuration are configurations,
and each is the one that has, field by field, what its table says or the default. -/
theorem ofText_shaped {text : String} (ht : Entries.ofText? text.toList = some entries)
    (hp : Plain entries) (runtimeDirectory : Option String) :
    ((∃ config, ofText runtimeDirectory text = .ok config) ↔ Shaped entries) ∧
      ∀ config, ofText runtimeDirectory text = .ok config ↔
        Shaped entries ∧ Reads runtimeDirectory entries config := by
  have hd := Entries.ofText?_distinct ht
  have hok (config : Configuration) : ofText runtimeDirectory text = .ok config ↔
      ofEntries runtimeDirectory entries = .ok config := by
    simp only [ofText, ht]
    cases ofEntries runtimeDirectory entries <;> simp
  simp only [hok]
  refine ⟨exists_ofEntries_iff hd hp, fun config => ⟨fun h => ?_, fun ⟨hs, hr⟩ => ?_⟩⟩
  · exact ⟨(exists_ofEntries_iff hd hp).mp ⟨config, h⟩, ofEntries_reads hd hp h⟩
  · obtain ⟨other, ho⟩ := (exists_ofEntries_iff hd hp).mpr hs
    rw [ho, hr.unique (ofEntries_reads hd hp ho)]

/-- Directories that are written out of order, and sockets that are not written at all. -/
theorem ofText_shaped_unordered :
    ∃ entries, Entries.ofText?
        "[package.resource_paths]\nb = '/b'\n'é' = '/e'\na = '/a'\n[package]\n".toList =
          some entries ∧
      Plain entries ∧ Shaped entries ∧
      Reads (some "/run/user/5/") entries ⟨"/run/mlops-agent/system_bus_socket",
        some "/run/user/5/mlops-agent/session_bus_socket",
        some ⟨none, [("a", "/a"), ("b", "/b"), ("é", "/e")]⟩⟩ := by
  have hplain : ∃ entries ∈ Entries.ofText?
      "[package.resource_paths]\nb = '/b'\n'é' = '/e'\na = '/a'\n[package]\n".toList,
        Plain entries := by decide +kernel
  obtain ⟨entries, ht, hp⟩ := hplain
  exact ⟨entries, ht, hp, ((ofText_shaped ht hp (some "/run/user/5/")).2 _).mp (by decide +kernel)⟩

/-- A misspelt name gives no default but a fault, with its place. -/
example : ofText none "[package]\nresource_path = 'x'" =
    .error (.misfit ⟨2, 1⟩ (.unknownKey "resource_path" knownPackageKeys)) := by decide +kernel

end Configurations

end BusClient.Configuration
