import BusClient.Proofs.Json.Reading

/-!
# What reading yields

Reading a document yields a readable value within the depth that the reader allows, and every such
value is yielded by the line that it is printed as. Names that a text repeats are gone by then,
and an object that the reserved name opens has become a number.
-/

namespace BusClient.Json

variable {α σ : Type}

/-- Whatever the reader finds has the property. -/
def Gives (reader : Reader α) (p : α → Prop) : Prop :=
  ∀ ⦃text : Bytes⦄ ⦃found : Found α text⦄, reader text = .ok found → p found.value

/-! ## Lists and objects -/

/-- What all items have, all items of a list have. -/
theorem readItems_gives {item : Reader α} {p : α → Prop} (hi : Gives item p) {whole : Bytes}
    {first : Bool} {done : List α} {text : Bytes} {h : text.length ≤ whole.length}
    {found : Found (List α) whole} (hd : ∀ a ∈ done, p a)
    (hr : readItems item whole first done text h = .ok found) : ∀ a ∈ found.value, p a := by
  fun_induction readItems item whole first done text h with
  | case1 => cases hr
  | case2 => cases hr
  | case3 =>
    cases hr
    intro a ha
    exact hd a (List.mem_reverse.mp ha)
  | case4 => cases hr
  | case5 _ _ _ _ _ _ _ value _ _ hv ih =>
    apply ih _ hr
    intro a ha
    rcases List.mem_cons.mp ha with rfl | ha
    · exact hi hv
    · exact hd a ha

/-- What each member keeps true of what is known, a whole object keeps true. -/
theorem readMembers_gives {member : σ → String → Reader σ} {p : σ → Prop}
    (hm : ∀ known name, p known → Gives (member known name) p) {whole : Bytes} {first : Bool}
    {known : σ} {text : Bytes} {h : text.length ≤ whole.length} {found : Found σ whole}
    (hk : p known) (hr : readMembers member whole first known text h = .ok found) :
    p found.value := by
  fun_induction readMembers member whole first known text h with
  | case1 => cases hr
  | case2 =>
    cases hr
    exact hk
  | case3 => cases hr
  | case4 _ known _ _ name _ _ _ _ _ _ hv ih => exact ih (hm known name hk hv) hr

theorem readAfterColon_gives {reader : Reader α} {p : α → Prop} (hr : Gives reader p) :
    Gives (readAfterColon reader) p := by
  intro text found h
  unfold readAfterColon at h
  split at h
  · cases h
  · split at h
    · cases h
    next hv =>
      cases h
      have hp := hr hv
      exact hp

/-! ## Values -/

/-- Pairs that begin with a name, the last one first, and whose values have a property. -/
structure Paired (p : Value → Prop) (name : String) (pairs : List (String × Value)) : Prop where
  last : ∃ value more, pairs.reverse = (name, value) :: more
  values : ∀ q ∈ pairs, p q.2

/-- A pair more leaves the first name in place. -/
theorem Paired.cons {p : Value → Prop} {name : String} {pairs : List (String × Value)}
    (h : Paired p name pairs) (other : String) {value : Value} (hv : p value) :
    Paired p name ((other, value) :: pairs) where
  last := by
    obtain ⟨first, more, hl⟩ := h.last
    exact ⟨first, more ++ [(other, value)], by rw [List.reverse_cons, hl, List.cons_append]⟩
  values := by
    rintro q hq
    rcases List.mem_cons.mp hq with rfl | hq
    · exact hv
    · exact h.values q hq

/-- A pair that is read is added. -/
theorem readPair_gives {reader : Reader Value} {p : Value → Prop} (hr : Gives reader p)
    (done : List (String × Value)) (name : String) :
    Gives (readPair reader done name) fun pairs =>
      ∃ value, p value ∧ pairs = (name, value) :: done := by
  intro text found h
  unfold readPair at h
  split at h
  · cases h
  next hv =>
    cases h
    exact ⟨_, readAfterColon_gives hr hv, rfl⟩

/-- The number of a reserved name is all there is of it. -/
theorem readReserved_gives : Gives readReserved fun value => ∃ n, value = .number n := by
  intro text found h
  unfold readReserved at h
  split at h
  · cases h
  · split at h
    · cases h
    · split at h
      · cases h
      · split at h
        · cases h
          exact ⟨_, rfl⟩
        · cases h

/-- Pairs become an object with different names that begins with their first one. -/
theorem Paired.object {p : Value → Prop} {name : String} {pairs : List (String × Value)}
    (h : Paired p name pairs) :
    (Members.ofPairs pairs.reverse).names.Nodup ∧
      (Members.ofPairs pairs.reverse).names.head? = some name ∧
      ∀ m ∈ Members.ofPairs pairs.reverse, p m.2 := by
  refine ⟨Members.nodup_names_ofPairs _, ?_, ?_⟩
  · obtain ⟨value, more, hl⟩ := h.last
    rw [hl]
    exact Members.head?_names_ofPairs (name, value) more
  · intro m hm
    obtain ⟨q, hq, he⟩ := Members.mem_ofPairs hm
    exact he ▸ h.values q (List.mem_reverse.mp hq)

/-- An object is a number, or has different names, not the reserved one first, and values that
the reader gives. -/
theorem readFreeObject_gives {reader : Reader Value} {p : Value → Prop} (hr : Gives reader p) :
    Gives (readFreeObject reader) fun value => (∃ n, value = .number n) ∨
      ∃ members : Members, value = .object members ∧ members.names.Nodup ∧
        members.names.head? ≠ some Value.reservedName ∧ ∀ m ∈ members, p m.2 := by
  intro text found h
  unfold readFreeObject at h
  split at h
  · cases h
  · cases h
    exact .inr ⟨[], rfl, List.nodup_nil, (Option.some_ne_none _).symm, List.forall_mem_nil _⟩
  next name _ _ _ =>
    split at h
    · split at h
      · cases h
      next hv =>
        cases h
        have hn := readReserved_gives hv
        exact .inl hn
    next hname =>
      split at h
      · cases h
      next pairs _ _ hv =>
        split at h
        · cases h
        next hm =>
          cases h
          obtain ⟨value, hp, rfl⟩ := readPair_gives hr [] name hv
          have hstart : Paired p name [(name, value)] :=
            ⟨⟨value, [], rfl⟩, List.forall_mem_singleton.mpr hp⟩
          have hstep : ∀ known other, Paired p name known →
              Gives (readPair reader known other) (Paired p name) := by
            intro known other hk text found hv
            obtain ⟨value, hp, he⟩ := readPair_gives hr known other hv
            exact he ▸ hk.cons other hp
          obtain ⟨hn, hh, ha⟩ := (readMembers_gives hstep hstart hm).object
          refine .inr ⟨_, rfl, hn, ?_, ha⟩
          rw [hh]
          exact fun he => hname (Option.some.inj he)

/-- A value that is read has no parts, or is what a list or an object one level below makes it. -/
theorem readValue_cases {depth : Nat} {text : Bytes} {found : Found Value text}
    (h : readValue depth text = .ok found) :
    (Readable found.value ∧ found.value.depth = 0) ∨
      (∃ (below : Nat) (rest : Bytes) (items : Found (List Value) rest), depth = below + 1 ∧
        readList (readValue below) rest = .ok items ∧ found.value = .array items.value) ∨
      ∃ (below : Nat) (rest : Bytes) (object : Found Value rest), depth = below + 1 ∧
        readFreeObject (readValue below) rest = .ok object ∧ found.value = object.value := by
  unfold readValue at h
  split at h
  · cases h
  next b rest _ _ =>
    simp only at h
    -- The three words come first, then numbers, strings, lists and objects.
    split at h
    · split at h
      · cases h
      · cases h
        exact .inl ⟨.null, rfl⟩
    split at h
    · split at h
      · cases h
      · cases h
        exact .inl ⟨.bool true, rfl⟩
    split at h
    · split at h
      · cases h
      · cases h
        exact .inl ⟨.bool false, rfl⟩
    split at h
    · split at h
      · cases h
      · cases h
        exact .inl ⟨.number _, rfl⟩
    split at h
    · split at h
      · cases h
      · cases h
        exact .inl ⟨.number _, rfl⟩
    split at h
    · split at h
      · cases h
      · cases h
        exact .inl ⟨.string _, rfl⟩
    split at h
    · cases depth with
      | zero => cases h
      | succ below =>
        simp only at h
        split at h
        · cases h
        next items hi =>
          cases h
          exact .inr (.inl ⟨below, rest, items, rfl, hi, rfl⟩)
    split at h
    · cases depth with
      | zero => cases h
      | succ below =>
        simp only at h
        split at h
        · cases h
        next object ho =>
          cases h
          exact .inr (.inr ⟨below, rest, object, rfl, ho, rfl⟩)
    · cases h

/-- What reading can yield within this depth. -/
def Reached (depth : Nat) (value : Value) : Prop := Readable value ∧ value.depth ≤ depth

/-- A string nests nothing. -/
theorem reached_string (depth : Nat) (text : String) : Reached depth (.string text) :=
  ⟨.string text, Nat.zero_le depth⟩

/-- A list is within reach if its items are so one level below. -/
theorem reached_array_iff {depth : Nat} {items : List Value} :
    Reached (depth + 1) (.array items) ↔ ∀ item ∈ items, Reached depth item := by
  unfold Reached
  rw [Value.depth, Nat.add_le_add_iff_right, depthOfItems_le_iff]
  constructor
  · rintro ⟨hr, hd⟩ item hm
    cases hr with
    | array h => exact ⟨h item hm, hd item hm⟩
  · intro h
    exact ⟨.array fun item hm => (h item hm).1, fun item hm => (h item hm).2⟩

/-- An object is within reach if its names are different and do not open a number, and its values
are within reach one level below. -/
theorem reached_object_iff {depth : Nat} {members : Members} :
    Reached (depth + 1) (.object members) ↔ members.names.Nodup ∧
      members.names.head? ≠ some Value.reservedName ∧ ∀ m ∈ members, Reached depth m.2 := by
  unfold Reached
  rw [Value.depth, Nat.add_le_add_iff_right, depthOfMembers_le_iff]
  constructor
  · rintro ⟨hr, hd⟩
    cases hr with
    | object hn hh h => exact ⟨hn, hh, fun m hm => ⟨h m hm, hd m hm⟩⟩
  · rintro ⟨hn, hh, h⟩
    exact ⟨.object hn hh fun m hm => (h m hm).1, fun m hm => (h m hm).2⟩

/-- A value that is read is within the depth of its reader. -/
theorem readValue_gives (depth : Nat) : Gives (readValue depth) (Reached depth) := by
  induction depth using Nat.strongRecOn with
  | ind depth ih =>
    intro text found h
    rcases readValue_cases h with ⟨hr, hd⟩ | ⟨below, rest, items, rfl, hi, he⟩ |
        ⟨below, rest, object, rfl, ho, he⟩
    · exact ⟨hr, Nat.le_trans (Nat.le_of_eq hd) (Nat.zero_le _)⟩
    · have ha := readItems_gives (ih below (Nat.lt_succ_self _)) (List.forall_mem_nil _) hi
      rw [he]
      exact reached_array_iff.mpr ha
    · rw [he]
      rcases readFreeObject_gives (ih below (Nat.lt_succ_self _)) ho with
        ⟨n, hn⟩ | ⟨members, hm, hn, hk, ha⟩
      · rw [hn]
        exact ⟨.number n, Nat.zero_le _⟩
      · rw [hm]
        exact reached_object_iff.mpr ⟨hn, hk, ha⟩

/-- The values that texts hold are the readable ones within the depth limit. -/
theorem exists_ofText_iff {value : Value} :
    (∃ text, Value.ofText text = .ok value) ↔ Reached maxDepth value := by
  constructor
  · rintro ⟨text, h⟩
    unfold Value.ofText Value.ofBytes readAll at h
    split at h
    · cases h
    next hv =>
      split at h
      · cases h
        have hg := readValue_gives maxDepth hv
        exact hg
      · cases h
  · rintro ⟨hr, hd⟩
    exact ⟨value.compact, ofText_compact hr hd⟩

end BusClient.Json
