import BusClient.Json.Number

/-!
# Numbers as machine integers

A number is a machine integer exactly if it is spelled without fraction and exponent and its
value is that of the word. Nothing is wrapped or rounded on the way.
-/

namespace BusClient.Json.Number

variable {n : Number}

/-- A number without a minus sign is not negative. -/
theorem integer?_nonneg {value : Int} (hn : n.negative = false) (h : n.integer? = some value) :
    0 ≤ value := by
  simp only [integer?, hn, Bool.false_eq_true, if_false] at h
  split at h
  · cases h
    exact Int.natCast_nonneg _
  · cases h

/-- A number is an integer of sixty-four bits exactly if it is spelled as that integer. -/
theorem int64?_eq_some_iff {word : Int64} :
    n.int64? = some word ↔ n.integer? = some word.toInt := by
  constructor
  · intro h
    cases hv : n.integer? with
    | none => simp [int64?, hv] at h
    | some value =>
      simp only [int64?, hv, Option.bind_eq_bind, Option.bind_some] at h
      split at h
      next hr =>
        cases h
        rw [Int64.toInt_ofInt_of_le hr.1 (Int.lt_add_one_of_le hr.2)]
      next => cases h
  · intro h
    have hr := And.intro word.minValue_le_toInt word.toInt_le
    simp only [int64?, h, Option.bind_eq_bind, Option.bind_some, if_pos hr, Int64.ofInt_toInt]

/-- A number is an integer of thirty-two bits exactly if it is spelled as that integer. -/
theorem int32?_eq_some_iff {word : Int32} :
    n.int32? = some word ↔ n.integer? = some word.toInt := by
  constructor
  · intro h
    cases hv : n.integer? with
    | none => simp [int32?, hv] at h
    | some value =>
      simp only [int32?, hv, Option.bind_eq_bind, Option.bind_some] at h
      split at h
      next hr =>
        cases h
        rw [Int32.toInt_ofInt_of_le hr.1 (Int.lt_add_one_of_le hr.2)]
      next => cases h
  · intro h
    have hr := And.intro word.minValue_le_toInt word.toInt_le
    simp only [int32?, h, Option.bind_eq_bind, Option.bind_some, if_pos hr, Int32.ofInt_toInt]

/-- A number is an integer of thirty-two bits without a sign exactly if it is spelled as that
integer, without a minus sign even before a zero. -/
theorem uint32?_eq_some_iff {word : UInt32} :
    n.uint32? = some word ↔ n.negative = false ∧ n.integer? = some (word.toNat : Int) := by
  constructor
  · intro h
    cases hv : n.integer? with
    | none => simp [uint32?, hv] at h
    | some value =>
      simp only [uint32?, hv, Option.bind_eq_bind, Option.bind_some] at h
      split at h
      next hr =>
        cases h
        have h0 := integer?_nonneg hr.1 hv
        have hs : UInt32.size = 4294967296 := rfl
        refine ⟨hr.1, congrArg some ?_⟩
        rw [UInt32.toNat_ofNat_of_lt' (by omega), Int.toNat_of_nonneg h0]
      next => cases h
  · rintro ⟨hn, h⟩
    have hr : n.negative = false ∧ (word.toNat : Int) < UInt32.size :=
      ⟨hn, Int.ofNat_lt.mpr word.toNat_lt⟩
    simp only [uint32?, h, Option.bind_eq_bind, Option.bind_some, if_pos hr, Int.toNat_natCast,
      UInt32.ofNat_toNat]

end BusClient.Json.Number
