import BusClient.Json.Number

/-!
# Documents

A document is a tree of values. The members of an object keep the order in which their names
were first given, and a name that is given again replaces the value at its first place.
-/

namespace BusClient.Json

/-- A value of a document. -/
inductive Value
  | null
  | bool (b : Bool)
  | number (n : Number)
  | string (text : String)
  | array (items : List Value)
  | object (members : List (String × Value))

/-- The members of an object, in order. -/
abbrev Members := List (String × Value)

namespace Members

/-- The value of a member. -/
def get? (members : Members) (name : String) : Option Value :=
  (members.find? (·.1 == name)).map (·.2)

/-- Whether a member of this name is there. -/
def has (members : Members) (name : String) : Bool :=
  members.any (·.1 == name)

/-- Gives a member a value: at its place if the name is there, and at the end otherwise. -/
def put (members : Members) (name : String) (value : Value) : Members :=
  if members.has name then
    members.map fun m => if m.1 == name then (name, value) else m
  else
    members ++ [(name, value)]

/-- The members that a sequence of names and values leaves behind. -/
def ofPairs (pairs : List (String × Value)) : Members :=
  pairs.foldl (fun members p => members.put p.1 p.2) []

/-- The names of the members, in order. -/
def names (members : Members) : List String := members.map (·.1)

theorem has_iff {members : Members} {name : String} :
    members.has name = true ↔ name ∈ members.names := by
  simp [has, names]

/-- A name under which a value is found is there. -/
theorem has_of_get? {members : Members} {name : String} {value : Value}
    (h : members.get? name = some value) : members.has name = true := by
  obtain ⟨m, hm, _⟩ := Option.map_eq_some_iff.mp h
  have hname := List.find?_some hm
  exact List.any_eq_true.mpr ⟨m, List.mem_of_find?_eq_some hm, hname⟩

/-- A value that is put leaves every other member in its place. -/
theorem getElem?_put_other {members : Members} {i : Nat} {name other : String} {value : Value}
    (h : members[i]? = some (other, value)) (hn : other ≠ name) (new : Value) :
    (members.put name new)[i]? = some (other, value) := by
  unfold put
  split
  · have hb : ¬ (other == name) = true := by simpa using hn
    rw [List.getElem?_map, h, Option.map_some, if_neg hb]
  · obtain ⟨hi, _⟩ := List.getElem?_eq_some_iff.mp h
    rw [List.getElem?_append_left hi, h]

/-- Putting a value under a name that is there changes no name and no place. -/
theorem names_put_of_has {members : Members} {name : String} (h : members.has name = true)
    (value : Value) : (members.put name value).names = members.names := by
  simp only [put, h, if_true, names, List.map_map]
  apply List.map_congr_left
  intro m _
  by_cases he : m.1 = name <;> simp [he]

/-- Putting under a new name adds the member at the end. -/
theorem put_of_not_has {members : Members} {name : String} (h : members.has name = false)
    (value : Value) : members.put name value = members ++ [(name, value)] := by
  simp [put, h]

/-- Putting a value keeps the names different. -/
theorem nodup_names_put {members : Members} (h : members.names.Nodup) (name : String)
    (value : Value) : (members.put name value).names.Nodup := by
  by_cases hn : members.has name = true
  · rw [names_put_of_has hn]
    exact h
  · have hm : name ∉ members.names := fun hc => hn (has_iff.mpr hc)
    rw [put_of_not_has (Bool.eq_false_iff.mpr hn)]
    simp only [names, List.map_append, List.map_cons, List.map_nil, List.nodup_append]
    refine ⟨h, List.nodup_cons.mpr ⟨List.not_mem_nil, List.nodup_nil⟩, ?_⟩
    rintro a ha b hb rfl
    rw [List.mem_singleton.mp hb] at ha
    exact hm ha

/-- The first name stays the first one. -/
theorem head?_names_put {members : Members} {first : String}
    (h : members.names.head? = some first) (name : String) (value : Value) :
    (members.put name value).names.head? = some first := by
  by_cases hn : members.has name = true
  · rw [names_put_of_has hn]
    exact h
  · rw [put_of_not_has (Bool.eq_false_iff.mpr hn), names, List.map_append, List.head?_append]
    rw [names] at h
    rw [h, Option.some_or]

/-- Each member was there before, or has the value that was put. -/
theorem mem_put {members : Members} {name : String} {value : Value} {m : String × Value}
    (h : m ∈ members.put name value) : m ∈ members ∨ m.2 = value := by
  unfold put at h
  split at h
  · obtain ⟨m', hm, rfl⟩ := List.mem_map.mp h
    by_cases he : (m'.1 == name) = true
    · rw [if_pos he]
      exact .inr rfl
    · rw [if_neg he]
      exact .inl hm
  · rcases List.mem_append.mp h with h | h
    · exact .inl h
    · exact .inr (by rw [List.mem_singleton.mp h])

/-- No name occurs twice in what a sequence leaves behind. -/
theorem nodup_names_ofPairs (pairs : List (String × Value)) : (ofPairs pairs).names.Nodup :=
  List.foldlRecOn (motive := fun members => (names members).Nodup) pairs _ List.nodup_nil
    fun _ h p _ => nodup_names_put h p.1 p.2

/-- What a sequence leaves behind begins with its first name. -/
theorem head?_names_ofPairs (p : String × Value) (rest : List (String × Value)) :
    (ofPairs (p :: rest)).names.head? = some p.1 :=
  List.foldlRecOn (motive := fun members => (names members).head? = some p.1) rest _ rfl
    fun _ h q _ => head?_names_put h q.1 q.2

/-- Every value that a sequence leaves behind is one of its values. -/
theorem mem_ofPairs {pairs : List (String × Value)} {m : String × Value}
    (h : m ∈ ofPairs pairs) : ∃ p ∈ pairs, p.2 = m.2 := by
  revert m
  refine List.foldlRecOn (motive := fun members : Members =>
    ∀ {m : String × Value}, m ∈ members → ∃ p ∈ pairs, p.2 = m.2) pairs _
    (fun hm => absurd hm List.not_mem_nil) ?_
  intro members hi p hp m hm
  rcases mem_put hm with hm | hm
  · exact hi hm
  · exact ⟨p, hp, hm.symm⟩

/-- Members whose names are all different stand as they are. -/
theorem ofPairs_eq_self {pairs : List (String × Value)} (h : (pairs.map (·.1)).Nodup) :
    ofPairs pairs = pairs := by
  suffices ∀ done : Members, ((done ++ pairs).map (·.1)).Nodup →
      pairs.foldl (fun members p => members.put p.1 p.2) done = done ++ pairs by
    simpa [ofPairs] using this [] (by simpa using h)
  clear h
  induction pairs with
  | nil => simp
  | cons p rest ih =>
    intro done hd
    have hp : Members.has done p.1 = false := by
      rw [Bool.eq_false_iff]
      intro hc
      have hc := has_iff.mp hc
      simp only [List.map_append, List.map_cons, List.nodup_append] at hd
      exact hd.2.2 p.1 hc p.1 (by simp) rfl
    rw [List.foldl_cons, put_of_not_has hp]
    have := ih (done ++ [(p.1, p.2)]) (by simpa using hd)
    simpa using this

end Members

namespace Value

/-- The text of a value that is a string. -/
def text? : Value → Option String
  | string text => some text
  | _ => none

/-- The members of a value that is an object. -/
def members? : Value → Option Members
  | object members => some members
  | _ => none

/-- The number of a value that is one. -/
def number? : Value → Option Number
  | number n => some n
  | _ => none

/-- The name that turns an object into a number when it opens the object. -/
def reservedName : String := "$serde_json::private::Number"

end Value

end BusClient.Json
