import Mathlib.Data.Nat.Init
import BusClient.Toml.Reader

/-!
# The names of a table

No table of a text gives a name twice, and no table among its values does, however deep it lies.
An entry is added only where its name is missing, and every other change of a table keeps the
names. What a reader finds is built by such changes alone.
-/

namespace BusClient.Toml

/-! ## Tables without repeated names -/

/-- A value in which no table gives a name twice. -/
inductive Value.Distinct : Value → Prop
  | string (text : String) : Distinct (.string text)
  | integer (n : Int) : Distinct (.integer n)
  | float (x : Decimal.Real) : Distinct (.float x)
  | boolean (b : Bool) : Distinct (.boolean b)
  | moment (m : Moment) : Distinct (.moment m)
  | list (origin : Origin) {items : Items} (h : ∀ item ∈ items, Distinct item.2) :
    Distinct (.list origin items)
  | table (origin : Origin) {entries : Entries} (hn : (Entries.names entries).Nodup)
    (h : ∀ entry ∈ entries, Distinct entry.2.2) : Distinct (.table origin entries)

namespace Entries

/-- Entries that do not repeat a name, and neither do the tables among their values. -/
structure Distinct (entries : Entries) : Prop where
  names : (Entries.names entries).Nodup
  values : ∀ entry ∈ entries, entry.2.2.Distinct

variable {entries : Entries} {name : String} {mark : Mark} {value : Value}

theorem distinct_nil : Distinct [] := ⟨List.nodup_nil, List.forall_mem_nil _⟩

theorem Distinct.table (h : Distinct entries) (origin : Origin) :
    (Value.table origin entries).Distinct :=
  .table origin h.names h.values

theorem Distinct.of_table {origin : Origin} (h : (Value.table origin entries).Distinct) :
    Distinct entries := by
  cases h with
  | table _ hn hv => exact ⟨hn, hv⟩

/-- A name that is not found is not there. -/
theorem get?_eq_none_iff : get? entries name = none ↔ name ∉ Entries.names entries := by
  simp [get?, names]

/-- What is found under a name repeats no name either. -/
theorem Distinct.of_get? (h : Distinct entries) (hg : get? entries name = some (mark, value)) :
    value.Distinct := by
  obtain ⟨⟨_, _⟩, hf, rfl⟩ := Option.map_eq_some_iff.mp hg
  exact h.values _ (List.mem_of_find?_eq_some hf)

/-- An entry that is set keeps all names in their places. -/
theorem names_set : Entries.names (set entries name value) = Entries.names entries := by
  simp only [names, set, List.map_map]
  apply List.map_congr_left
  intro entry _
  simp only [Function.comp]
  split <;> rfl

/-- An entry may be added under a name that is not there. -/
theorem Distinct.append (h : Distinct entries) {key : Key} (hk : get? entries key.name = none)
    (hv : value.Distinct) : Distinct (entries ++ [(key, mark, value)]) where
  names := by
    have hn := get?_eq_none_iff.mp hk
    simp only [Entries.names, List.map_append, List.map_cons, List.map_nil] at hn ⊢
    refine List.nodup_append.mpr ⟨h.names, by simp, ?_⟩
    rintro a ha b hb rfl
    rw [List.mem_singleton.mp hb] at ha
    exact hn ha
  values := by
    intro entry he
    rcases List.mem_append.mp he with he | he
    · exact h.values entry he
    · rw [List.mem_singleton.mp he]
      exact hv

/-- The value of an entry may be set. -/
theorem Distinct.set (h : Distinct entries) (name : String) (hv : value.Distinct) :
    Distinct (entries.set name value) where
  names := by
    rw [names_set]
    exact h.names
  values := by
    intro entry he
    obtain ⟨old, ho, rfl⟩ := List.mem_map.mp he
    split
    · exact hv
    · exact h.values old ho

/-- An entry may be removed, and its name is not there any more. -/
theorem Distinct.erase (h : Distinct entries) (name : String) :
    Distinct (entries.erase name) ∧ get? (entries.erase name) name = none := by
  refine ⟨⟨?_, ?_⟩, ?_⟩
  · exact h.names.sublist (List.filter_sublist.map _)
  · exact fun entry he => h.values entry (List.mem_filter.mp he).1
  · simp [get?_eq_none_iff, Entries.names, Entries.erase]

end Entries

theorem Value.Distinct.items {origin : Origin} {items : Items}
    (h : (Value.list origin items).Distinct) : ∀ item ∈ items, item.2.Distinct := by
  cases h with
  | list _ hv => exact hv

/-! ## Changes -/

/-- A change that repeats no name. -/
def Keeps (change : Change) : Prop :=
  ∀ ⦃origin : Origin⦄ ⦃entries after : Entries⦄, change origin entries = some after →
    Entries.Distinct entries → Entries.Distinct after

/-- The last table of a list may be changed. -/
theorem changeLast_keeps {change : Change} (h : Keeps change) {items after : Items}
    (hc : changeLast change items = some after) (hi : ∀ item ∈ items, item.2.Distinct) :
    ∀ item ∈ after, item.2.Distinct := by
  fun_induction changeLast change items generalizing after with
  | case1 => cases hc
  | case2 mark origin entries =>
    obtain ⟨inner, hch, rfl⟩ := Option.map_eq_some_iff.mp hc
    have hd := h hch (.of_table (hi _ List.mem_cons_self))
    exact List.forall_mem_singleton.mpr (hd.table origin)
  | case3 => cases hc
  | case4 item more _ _ ih =>
    obtain ⟨rest, hch, rfl⟩ := Option.map_eq_some_iff.mp hc
    obtain ⟨hitem, hmore⟩ := List.forall_mem_cons.mp hi
    exact List.forall_mem_cons.mpr ⟨hitem, ih hch hmore⟩

/-- A change may be made wherever a path leads, and so may the tables on the way. -/
theorem follow_keeps {change : Change} (h : Keeps change) (route : Route) (keys : List Key) :
    Keeps (follow route change keys) := by
  induction keys with
  | nil => exact h
  | cons key more ih =>
    intro origin entries after hf hd
    simp only [follow] at hf
    split at hf
    next hn =>
      obtain ⟨inner, hi, rfl⟩ := Option.map_eq_some_iff.mp hf
      exact hd.append hn ((ih hi Entries.distinct_nil).table _)
    next inner hg =>
      split at hf
      · obtain ⟨inner', hi, rfl⟩ := Option.map_eq_some_iff.mp hf
        have hd' := ih hi (.of_table (hd.of_get? hg))
        exact hd.set _ (hd'.table _)
      · cases hf
    next items hg =>
      obtain ⟨items', hi, rfl⟩ := Option.map_eq_some_iff.mp hf
      exact hd.set _ (.list _ (changeLast_keeps ih hi (hd.of_get? hg).items))
    · cases hf

/-- An entry is inserted only where its name is missing. -/
theorem insertEntry_keeps {value : Value} (h : value.Distinct) (dotted : Bool) (key : Key)
    (mark : Mark) : Keeps (insertEntry dotted key mark value) := by
  intro origin entries after hi hd
  simp only [insertEntry] at hi
  split at hi
  next hc =>
    cases hi
    exact hd.append (Option.isNone_iff_eq_none.mp (Bool.and_eq_true_iff.mp hc).2) h
  · cases hi

theorem Assignment.addTo_keeps {assignment : Assignment} (h : assignment.value.Distinct) :
    Keeps assignment.addTo :=
  follow_keeps (insertEntry_keeps h _ _ _) _ _

/-- Changes may be made one after the other. -/
theorem foldlM_keeps {α : Type} {change : α → Change} {origin : Origin} {steps : List α}
    (h : ∀ a ∈ steps, Keeps (change a)) {entries after : Entries}
    (hf : steps.foldlM (fun entries a => change a origin entries) entries = some after)
    (hd : Entries.Distinct entries) : Entries.Distinct after := by
  induction steps generalizing entries with
  | nil =>
    cases hf
    exact hd
  | cons a more ih =>
    obtain ⟨ha, hmore⟩ := List.forall_mem_cons.mp h
    rw [List.foldlM_cons] at hf
    obtain ⟨next, hn, hf⟩ := Option.bind_eq_some_iff.mp hf
    exact ih hmore hf (ha hn hd)

theorem addAll_keeps {assignments : List Assignment}
    (h : ∀ a ∈ assignments, a.value.Distinct) : Keeps (addAll assignments) := by
  intro origin entries after ha hd
  exact foldlM_keeps (fun a hm => Assignment.addTo_keeps (h a hm)) ha hd

/-- A section adds a table, makes an implied one its own, or adds a table to a list. -/
theorem Section.insert_keeps {sec : Section} (h : ∀ a ∈ sec.own, a.value.Distinct) :
    Keeps sec.insert := by
  intro origin entries after hi hd
  have hown : ∀ {inner own : Entries}, addAll sec.own .header inner = some own →
      Entries.Distinct inner → (Value.table .header own).Distinct := by
    intro inner own ha hn
    exact (addAll_keeps h ha hn).table _
  simp only [Section.insert] at hi
  split at hi
  next hg =>
    obtain ⟨own, ha, rfl⟩ := Option.map_eq_some_iff.mp hi
    exact hd.append hg (hown ha Entries.distinct_nil)
  next hg =>
    obtain ⟨own, ha, rfl⟩ := Option.map_eq_some_iff.mp hi
    obtain ⟨hd', hg'⟩ := hd.erase sec.path.last.name
    exact hd'.append hg' (hown ha (.of_table (hd.of_get? hg)))
  next hg =>
    obtain ⟨own, ha, rfl⟩ := Option.map_eq_some_iff.mp hi
    exact hd.append hg
      (.list _ (List.forall_mem_singleton.mpr (hown ha Entries.distinct_nil)))
  next hg =>
    obtain ⟨own, ha, rfl⟩ := Option.map_eq_some_iff.mp hi
    refine hd.set _ (.list _ ?_)
    intro item hitem
    rcases List.mem_append.mp hitem with hitem | hitem
    · exact (hd.of_get? hg).items item hitem
    · rw [List.mem_singleton.mp hitem]
      exact hown ha Entries.distinct_nil
  · cases hi

/-- The table that assignments and sections make repeats no name. -/
theorem assemble_distinct {first : List Assignment} {sections : List Section}
    (hfirst : ∀ a ∈ first, a.value.Distinct)
    (hsections : ∀ sec ∈ sections, ∀ a ∈ sec.own, a.value.Distinct) {entries : Entries}
    (h : assemble first sections = some entries) : Entries.Distinct entries := by
  unfold assemble at h
  split at h
  · cases h
  next own ha =>
    have hd := addAll_keeps hfirst ha Entries.distinct_nil
    exact foldlM_keeps (fun sec hm => follow_keeps (sec.insert_keeps (hsections sec hm)) _ _) h hd

/-! ## Readers -/

/-- All that a reader finds has a property. -/
def Gives {α : Type} (p : α → Prop) (reader : Reader α) : Prop :=
  ∀ ⦃text : List Char⦄ ⦃found : Found α text⦄, reader text = some found → p found.value

variable {value : Reader Value}

theorem readItems_distinct (h : Gives Value.Distinct value) {whole text : List Char} {done : Items}
    (hl : text.length ≤ whole.length) (hd : ∀ item ∈ done, item.2.Distinct)
    {found : Found Items whole} (hr : readItems value whole done text hl = some found) :
    ∀ item ∈ found.value, item.2.Distinct := by
  fun_induction readItems value whole done text hl generalizing found with
  | case1 => cases hr
  | case2 =>
    cases hr
    exact fun item hm => hd item (List.mem_reverse.mp hm)
  | case3 => cases hr
  | case4 => cases hr
  | case5 _ _ _ _ _ _ _ _ _ _ _ _ hv =>
    cases hr
    intro item hm
    rcases List.mem_cons.mp (List.mem_reverse.mp hm) with rfl | hm
    · exact h hv
    · exact hd item hm
  | case6 _ _ _ _ _ _ _ _ _ _ _ _ hv _ _ _ _ _ _ _ _ ih =>
    exact ih (List.forall_mem_cons.mpr ⟨h hv, hd⟩) hr
  | case7 => cases hr

theorem readAssignment_distinct (h : Gives Value.Distinct value) :
    Gives (fun a : Assignment => a.value.Distinct) (readAssignment value) := by
  intro text found hr
  unfold readAssignment at hr
  split at hr
  next =>
    split at hr
    split at hr
    · cases hr
    next hv =>
      cases hr
      exact h hv
  · cases hr

theorem readAssignments_distinct (h : Gives Value.Distinct value) {whole text : List Char}
    {done : List Assignment} (hl : text.length ≤ whole.length)
    (hd : ∀ a ∈ done, a.value.Distinct) {found : Found (List Assignment) whole}
    (hr : readAssignments value whole done text hl = some found) :
    ∀ a ∈ found.value, a.value.Distinct := by
  fun_induction readAssignments value whole done text hl generalizing found with
  | case1 => cases hr
  | case2 => cases hr
  | case3 _ _ _ _ _ _ ha =>
    cases hr
    intro a hm
    rcases List.mem_cons.mp (List.mem_reverse.mp hm) with rfl | hm
    · exact readAssignment_distinct h ha
    · exact hd a hm
  | case4 _ _ _ _ _ _ ha _ _ _ _ _ _ ih =>
    exact ih (List.forall_mem_cons.mpr ⟨readAssignment_distinct h ha, hd⟩) hr
  | case5 => cases hr

theorem readInline_distinct (h : Gives Value.Distinct value) :
    Gives Value.Distinct (readInline value) := by
  intro text found hr
  simp only [readInline] at hr
  split at hr
  · cases hr
  next =>
    split at hr
    · cases hr
      exact Entries.distinct_nil.table _
    · split at hr
      · cases hr
      next hassign =>
        split at hr
        · cases hr
        next hadd =>
          cases hr
          have hall := readAssignments_distinct h _ (List.forall_mem_nil _) hassign
          exact (addAll_keeps hall hadd Entries.distinct_nil).table _

/-- A token is no list and no table. -/
theorem tokenValue?_distinct {token : List Char} {value : Value}
    (h : tokenValue? token = some value) : value.Distinct := by
  simp only [tokenValue?] at h
  split at h
  · cases h
    exact .boolean _
  split at h
  · cases h
    exact .boolean _
  split at h
  · cases h
    exact .moment _
  split at h
  · cases h
    exact .float _
  · obtain ⟨n, -, rfl⟩ := Option.map_eq_some_iff.mp h
    exact .integer n

/-- However deep lists and tables nest, no table that is read repeats a name. -/
theorem readValue_distinct (depth : Nat) : Gives Value.Distinct (readValue depth) := by
  induction depth using Nat.strongRecOn with
  | ind depth ih =>
    intro text found hr
    unfold readValue at hr
    split at hr
    · cases hr
    · split at hr
      · split at hr
        · cases hr
        · cases hr
          exact .string _
      split at hr
      · split at hr
        · cases hr
        · split at hr
          · cases hr
          next hi =>
            cases hr
            have hinner := ih _ (Nat.lt_succ_self _)
            exact .list _ (readItems_distinct hinner _ (List.forall_mem_nil _) hi)
      split at hr
      · split at hr
        · cases hr
        · split at hr
          · cases hr
          next hi =>
            cases hr
            exact (readInline_distinct (ih _ (Nat.lt_succ_self _)) hi :)
      · split at hr
        · cases hr
        · split at hr
          · cases hr
          next hv =>
            cases hr
            exact tokenValue?_distinct hv

/-! ## Texts -/

/-- A statement whose value repeats no name. -/
def Statement.Distinct : Statement → Prop
  | assignment a => a.value.Distinct
  | header .. => True

theorem readHeader_distinct : Gives Statement.Distinct readHeader := by
  intro text found hr
  unfold readHeader at hr
  split at hr
  · split at hr
    · cases hr
      trivial
    · cases hr
  · split at hr
    · cases hr
      trivial
    · cases hr
  · cases hr

theorem readStatement_distinct (first : Char) : Gives Statement.Distinct (readStatement first) := by
  intro text found hr
  simp only [readStatement] at hr
  split at hr
  · cases hr
  next hs =>
    split at hr
    · cases hr
    · cases hr
      split at hs
      · exact (readHeader_distinct hs :)
      · obtain ⟨a, ha, he⟩ := Option.map_eq_some_iff.mp hs
        cases he
        exact (readAssignment_distinct (readValue_distinct maxDepth) ha :)

theorem readStatement?_distinct :
    Gives (fun s : Option Statement => ∀ statement ∈ s, statement.Distinct) readStatement? := by
  intro text found hr
  unfold readStatement? at hr
  split at hr
  · cases hr
  split at hr
  · split at hr
    split at hr
    · cases hr
    · cases hr
      intro statement hm
      cases hm
  split at hr
  · cases hr
    intro statement hm
    cases hm
  split at hr
  · cases hr
  next hs =>
    cases hr
    intro statement hm
    cases hm
    exact readStatement_distinct _ hs

theorem readStatements_distinct {done : List Statement} {text : List Char}
    (hd : ∀ statement ∈ done, statement.Distinct) {statements : List Statement}
    (hr : readStatements done text = some statements) :
    ∀ statement ∈ statements, statement.Distinct := by
  fun_induction readStatements done text with
  | case1 =>
    cases hr
    exact fun statement hm => hd statement (List.mem_reverse.mp hm)
  | case2 => cases hr
  | case3 _ _ _ _ _ _ _ _ _ _ hs _ ih =>
    refine ih ?_ hr
    intro statement hm
    rcases List.mem_append.mp hm with hm | hm
    · exact readStatement?_distinct hs statement (Option.mem_toList.mp hm)
    · exact hd statement hm

theorem divide_distinct {statements : List Statement}
    (h : ∀ statement ∈ statements, statement.Distinct) :
    (∀ a ∈ (divide statements).1, a.value.Distinct) ∧
      ∀ sec ∈ (divide statements).2, ∀ a ∈ sec.own, a.value.Distinct := by
  induction statements with
  | nil => exact ⟨List.forall_mem_nil _, List.forall_mem_nil _⟩
  | cons statement rest ih =>
    obtain ⟨hs, hrest⟩ := List.forall_mem_cons.mp h
    obtain ⟨hown, hsections⟩ := ih hrest
    cases statement with
    | assignment a => exact ⟨List.forall_mem_cons.mpr ⟨hs, hown⟩, hsections⟩
    | header => exact ⟨List.forall_mem_nil _, List.forall_mem_cons.mpr ⟨hown, hsections⟩⟩

/-- The table that a text writes repeats no name, and neither does any table in it. -/
theorem Entries.ofText?_distinct {text : List Char} {entries : Entries}
    (h : ofText? text = some entries) : Distinct entries := by
  unfold ofText? at h
  split at h
  · cases h
  next hs =>
    have hd := readStatements_distinct (List.forall_mem_nil _) hs
    obtain ⟨hfirst, hsections⟩ := divide_distinct hd
    exact assemble_distinct hfirst hsections h

/-! ## What stands under a name -/

/-- The text that a value is. -/
def Value.text? : Value → Option String
  | .string text => some text
  | _ => none

/-- The entries of a value that is a table. -/
def Value.entries? : Value → Option Entries
  | .table _ entries => some entries
  | _ => none

/-- The items of a value that is a list. -/
def Value.items? : Value → Option Items
  | .list _ items => some items
  | _ => none

/-- The moment that a value is. -/
def Value.moment? : Value → Option Moment
  | .moment m => some m
  | _ => none

namespace Entries

/-- The value under a name. -/
def value? (entries : Entries) (name : String) : Option Value := (entries.get? name).map (·.2)

/-- The text under a name. -/
def text? (entries : Entries) (name : String) : Option String :=
  (value? entries name).bind Value.text?

/-- The entries of the table under a name. -/
def table? (entries : Entries) (name : String) : Option Entries :=
  (value? entries name).bind Value.entries?

variable {entries more : Entries} {key : Key} {mark : Mark} {value : Value} {name : String}

theorem names_cons (entry : Key × Mark × Value) :
    Entries.names (entry :: more) = entry.1.name :: Entries.names more := rfl

theorem get?_cons_of_eq (h : key.name = name) :
    get? ((key, mark, value) :: more) name = some (mark, value) := by
  simp [get?, h]

theorem get?_cons_of_ne (h : key.name ≠ name) :
    get? ((key, mark, value) :: more) name = get? more name := by
  simp [get?, h]

theorem value?_of_get? (h : get? entries name = some (mark, value)) :
    value? entries name = some value := by
  rw [value?, h, Option.map_some]

theorem Distinct.of_value? (h : Distinct entries) (hv : value? entries name = some value) :
    value.Distinct := by
  obtain ⟨_, hg, rfl⟩ := Option.map_eq_some_iff.mp hv
  exact h.of_get? hg

theorem table?_eq_some_iff : table? entries name = some more ↔
    ∃ origin, value? entries name = some (.table origin more) := by
  unfold table?
  cases value? entries name with
  | none => simp
  | some value => cases value <;> simp [Value.entries?]

end Entries

end BusClient.Toml
