import BusClient.CInterface
import BusClient.Proofs.Client.Discipline

/-!
# The arguments of the C functions

A C function looks at bytes and pointers, and the client at the request that is made of them.
`Faulty` says which arguments a function refuses, `Invocation.intent` which request the others
make. Refusal touches no connection; a request that is made passes the client's own check, so that
the two layers never disagree about an argument.
-/

namespace BusClient.CInterface

/-! ## What the functions ask for -/

/-- The text that an argument holds, if there is one and it is UTF-8. -/
def held? (arg : TextArg) : Option String := arg.bind fun bytes => (beforeZero bytes).text?

/-- The text of an argument that must hold one. -/
def held (arg : TextArg) : String := (held? arg).getD ""

/-- An argument of no use where a text must be given. -/
inductive Missing : TextArg → Prop
  | null : Missing none
  | empty {bytes : Bytes} (h : beforeZero bytes = []) : Missing (some bytes)
  | notText {bytes : Bytes} (h : (beforeZero bytes).text? = none) : Missing (some bytes)

/-- An argument of no use where a text may be given. -/
inductive Garbled : TextArg → Prop
  | notText {bytes : Bytes} (h : (beforeZero bytes).text? = none) : Garbled (some bytes)

namespace Invocation

/-- The texts that must be given. -/
@[simp] def mandatory : Invocation → List TextArg
  | setPipelineDescription name description => [name, description]
  | getPipelineDescription name _ => [name]
  | deletePipeline name => [name]
  | launchPipeline name _ => [name]
  | startPipeline _ | stopPipeline _ | destroyPipeline _ | getPipelineState _ _ => []
  | registerModel name path _ _ _ _ => [name, path]
  | updateModelDescription name _ description => [name, description]
  | activateModel name _ => [name]
  | getModel name _ _ => [name]
  | getActivatedModel name _ => [name]
  | getAllModels name _ => [name]
  | deleteModel name _ _ => [name]
  | addResource name path _ _ => [name, path]
  | deleteResource name => [name]
  | getResource name _ => [name]

/-- The texts that may be null. -/
@[simp] def optional : Invocation → List TextArg
  | registerModel _ _ _ description appInfo _ => [description, appInfo]
  | addResource _ _ description appInfo => [description, appInfo]
  | _ => []

/-- The slot for the result, if the function has one. -/
@[simp] def slot? : Invocation → Option Slot
  | getPipelineDescription _ slot | launchPipeline _ slot | getPipelineState _ slot
  | registerModel _ _ _ _ _ slot | getModel _ _ slot | getActivatedModel _ slot
  | getAllModels _ slot | getResource _ slot => some slot
  | _ => none

/-- The version that the daemon must have assigned, if the function asks for one. -/
@[simp] def version? : Invocation → Option UInt32
  | updateModelDescription _ version _ => some version
  | activateModel _ version => some version
  | getModel _ version _ => some version
  | _ => none

/-- The request that a function makes of its arguments: texts are decoded, a null text is absent,
and a flag is set by any number but zero. -/
def intent : Invocation → Request
  | setPipelineDescription name description =>
    .setPipelineDescription (held name) (held description)
  | getPipelineDescription name _ => .getPipelineDescription (held name)
  | deletePipeline name => .deletePipeline (held name)
  | launchPipeline name _ => .launchPipeline (held name)
  | startPipeline id => .startPipeline id
  | stopPipeline id => .stopPipeline id
  | destroyPipeline id => .destroyPipeline id
  | getPipelineState id _ => .getPipelineState id
  | registerModel name path activate description appInfo _ =>
    .registerModel (held name) (held path) (activate != 0) (held? description) (held? appInfo)
  | updateModelDescription name version description =>
    .updateModelDescription (held name) version (held description)
  | activateModel name version => .activateModel (held name) version
  | getModel name version _ => .getModel (held name) version
  | getActivatedModel name _ => .getActivatedModel (held name)
  | getAllModels name _ => .getAllModels (held name)
  | deleteModel name version force => .deleteModel (held name) version (force != 0)
  | addResource name path description appInfo =>
    .addResource (held name) (held path) (held? description) (held? appInfo)
  | deleteResource name => .deleteResource (held name)
  | getResource name _ => .getResource (held name)

end Invocation

/-- Arguments that a function refuses. -/
inductive Faulty (invocation : Invocation) : Prop
  /-- A text that must be given is null, empty or not UTF-8. -/
  | mandatory {arg : TextArg} (hm : arg ∈ invocation.mandatory) (h : Missing arg)
  /-- A text that may be null is given, but is not UTF-8. -/
  | optional {arg : TextArg} (hm : arg ∈ invocation.optional) (h : Garbled arg)
  /-- There is no slot for the result. -/
  | slot (h : invocation.slot? = some .null)
  /-- The version zero, which is never assigned. -/
  | version (h : invocation.version? = some 0)

theorem faulty_iff {invocation : Invocation} : Faulty invocation ↔
    (∃ arg ∈ invocation.mandatory, Missing arg) ∨ (∃ arg ∈ invocation.optional, Garbled arg) ∨
      invocation.slot? = some .null ∨ invocation.version? = some 0 := by
  constructor
  · rintro (⟨hm, h⟩ | ⟨hm, h⟩ | h | h)
    · exact .inl ⟨_, hm, h⟩
    · exact .inr (.inl ⟨_, hm, h⟩)
    · exact .inr (.inr (.inl h))
    · exact .inr (.inr (.inr h))
  · rintro (⟨_, hm, h⟩ | ⟨_, hm, h⟩ | h | h)
    · exact .mandatory hm h
    · exact .optional hm h
    · exact .slot h
    · exact .version h

/-! ## The checks -/

/-- A check refuses exactly the faulty, and hands on a value of the others. -/
def Checks {α : Type} (fault : Prop) (check : Outcome α) (value : α) : Prop :=
  fault ∧ (∃ what, check = .error (.invalidArgument what)) ∨ ¬fault ∧ check = .ok value

section

variable {α β : Type} {fault fault' : Prop} {check : Outcome α} {value : α}

/-- Where nothing is checked nothing is faulty. -/
theorem Checks.pass (value : α) : Checks False (.ok value : Outcome α) value :=
  .inr ⟨not_false, rfl⟩

/-- Of two checks one after the other the first that refuses decides. -/
theorem Checks.bind {next : α → Outcome β} {value' : β} (h : Checks fault check value)
    (h' : Checks fault' (next value) value') :
    Checks (fault ∨ fault') (check >>= next) value' := by
  rcases h with ⟨hf, what, rfl⟩ | ⟨hf, rfl⟩
  · exact .inl ⟨.inl hf, what, rfl⟩
  · rcases h' with ⟨hf', hw⟩ | ⟨hf', hv⟩
    · exact .inl ⟨.inr hf', hw⟩
    · exact .inr ⟨fun h => h.elim hf hf', hv⟩

/-- The fault of a check may be said in other words. -/
theorem Checks.congr (h : Checks fault check value) (he : fault ↔ fault') :
    Checks fault' check value := by
  rwa [← propext he]

end

/-- An argument holds the text whose bytes stand in front of its first zero byte. -/
theorem held?_eq_some_iff {arg : TextArg} {text : String} :
    held? arg = some text ↔ ∃ bytes, arg = some bytes ∧ beforeZero bytes = .ofText text := by
  constructor
  · intro h
    obtain ⟨bytes, ha, ht⟩ := Option.bind_eq_some_iff.mp h
    exact ⟨bytes, ha, Bytes.text?_eq_some_iff.mp ht⟩
  · rintro ⟨bytes, rfl, h⟩
    exact Bytes.text?_eq_some_iff.mpr h

/-- A text that must be given is missing if there is none, or an empty one. -/
theorem missing_iff {arg : TextArg} : Missing arg ↔ held? arg = none ∨ held? arg = some "" := by
  constructor
  · rintro (_ | h | h)
    · exact .inl rfl
    · exact .inr (held?_eq_some_iff.mpr ⟨_, rfl, h.trans Bytes.ofText_empty.symm⟩)
    · exact .inl h
  · cases arg with
    | none => exact fun _ => .null
    | some bytes =>
      rintro (h | h)
      · exact .notText h
      · exact .empty ((Bytes.text?_eq_some_iff.mp h).trans Bytes.ofText_empty)

/-- The text of an argument that is not missing is what its bytes encode, and not empty. -/
theorem held_of_not_missing {arg : TextArg} (h : ¬Missing arg) :
    held? arg = some (held arg) ∧ held arg ≠ "" := by
  rw [missing_iff, not_or] at h
  obtain ⟨text, ht⟩ := Option.ne_none_iff_exists'.mp h.1
  have hv : held arg = text := by rw [held, ht, Option.getD_some]
  rw [hv]
  exact ⟨ht, fun he => h.2 (ht.trans (congrArg some he))⟩

theorem mandatoryText_checks (what : String) (arg : TextArg) :
    Checks (Missing arg) (mandatoryText what arg) (held arg) := by
  by_cases h : Missing arg
  · refine .inl ⟨h, what, ?_⟩
    cases h with
    | null => rfl
    | empty h =>
      have ht : Bytes.text? [] = some "" := Bytes.text?_eq_some_iff.mpr Bytes.ofText_empty.symm
      simp only [mandatoryText, h, ht, if_true]
    | notText h => simp only [mandatoryText, h]
  · obtain ⟨ht, hne⟩ := held_of_not_missing h
    refine .inr ⟨h, ?_⟩
    cases arg with
    | none => cases ht
    | some bytes =>
      simp only [held?, Option.bind_some] at ht
      simp only [mandatoryText, ht, if_neg hne]

theorem optionalText_checks (what : String) (arg : TextArg) :
    Checks (Garbled arg) (optionalText what arg) (held? arg) := by
  cases arg with
  | none => exact .inr ⟨fun h => (by cases h), rfl⟩
  | some bytes =>
    cases ht : (beforeZero bytes).text? with
    | none => exact .inl ⟨.notText ht, what, by simp only [optionalText, ht]⟩
    | some text =>
      refine .inr ⟨?_, by simp only [optionalText, held?, Option.bind_some, ht]⟩
      rintro ⟨h⟩
      rw [h] at ht
      cases ht

theorem writable_checks (what : String) (slot : Slot) :
    Checks (slot = .null) (writable what slot) () := by
  cases slot with
  | null => exact .inl ⟨rfl, what, rfl⟩
  | given => exact .inr ⟨by decide, rfl⟩

theorem assigned_checks (version : UInt32) : Checks (version = 0) (assigned version) () := by
  by_cases h : version = 0
  · exact .inl ⟨h, "version", if_pos h⟩
  · exact .inr ⟨h, if_neg h⟩

/-- A function refuses its faulty arguments, and makes its request of the others. -/
theorem request_checks (invocation : Invocation) :
    Checks (Faulty invocation) (request invocation) invocation.intent := by
  -- For each function its checks in their order, and then its faults in the common one.
  cases invocation with
  | setPipelineDescription name description =>
    exact .congr (.bind (mandatoryText_checks _ name)
      (.bind (mandatoryText_checks _ description) (.pass _))) (by simp [faulty_iff])
  | getPipelineDescription name slot =>
    exact .congr (.bind (mandatoryText_checks _ name)
      (.bind (writable_checks _ slot) (.pass _))) (by simp [faulty_iff])
  | deletePipeline name =>
    exact .congr (.bind (mandatoryText_checks _ name) (.pass _)) (by simp [faulty_iff])
  | launchPipeline name slot =>
    exact .congr (.bind (mandatoryText_checks _ name)
      (.bind (writable_checks _ slot) (.pass _))) (by simp [faulty_iff])
  | startPipeline id => exact .congr (.pass _) (by simp [faulty_iff])
  | stopPipeline id => exact .congr (.pass _) (by simp [faulty_iff])
  | destroyPipeline id => exact .congr (.pass _) (by simp [faulty_iff])
  | getPipelineState id slot =>
    exact .congr (.bind (writable_checks _ slot) (.pass _)) (by simp [faulty_iff])
  | registerModel name path activate description appInfo slot =>
    exact .congr (.bind (mandatoryText_checks _ name) (.bind (mandatoryText_checks _ path)
      (.bind (optionalText_checks _ description) (.bind (optionalText_checks _ appInfo)
        (.bind (writable_checks _ slot) (.pass _)))))) (by simp [faulty_iff, or_assoc])
  | updateModelDescription name version description =>
    exact .congr (.bind (mandatoryText_checks _ name)
      (.bind (mandatoryText_checks _ description) (.bind (assigned_checks version) (.pass _))))
      (by simp [faulty_iff, or_assoc])
  | activateModel name version =>
    exact .congr (.bind (mandatoryText_checks _ name)
      (.bind (assigned_checks version) (.pass _))) (by simp [faulty_iff])
  | getModel name version slot =>
    exact .congr (.bind (mandatoryText_checks _ name) (.bind (writable_checks _ slot)
      (.bind (assigned_checks version) (.pass _)))) (by simp [faulty_iff])
  | getActivatedModel name slot =>
    exact .congr (.bind (mandatoryText_checks _ name)
      (.bind (writable_checks _ slot) (.pass _))) (by simp [faulty_iff])
  | getAllModels name slot =>
    exact .congr (.bind (mandatoryText_checks _ name)
      (.bind (writable_checks _ slot) (.pass _))) (by simp [faulty_iff])
  | deleteModel name version force =>
    exact .congr (.bind (mandatoryText_checks _ name) (.pass _)) (by simp [faulty_iff])
  | addResource name path description appInfo =>
    exact .congr (.bind (mandatoryText_checks _ name) (.bind (mandatoryText_checks _ path)
      (.bind (optionalText_checks _ description) (.bind (optionalText_checks _ appInfo)
        (.pass _))))) (by simp [faulty_iff, or_assoc])
  | deleteResource name =>
    exact .congr (.bind (mandatoryText_checks _ name) (.pass _)) (by simp [faulty_iff])
  | getResource name slot =>
    exact .congr (.bind (mandatoryText_checks _ name)
      (.bind (writable_checks _ slot) (.pass _))) (by simp [faulty_iff])

/-! ## The client's own check -/

theorem checkText_held {arg : TextArg} (h : ¬Missing arg) (parameter : Parameter) :
    Request.checkText parameter (held arg) = .ok () := by
  rw [Request.checkText, if_neg (held_of_not_missing h).2]

theorem checkVersion_ok {version : UInt32} (h : version ≠ 0) :
    Request.checkVersion version = .ok () := by
  rw [Request.checkVersion, if_neg h]

/-- A request that a function makes passes the check of the client. -/
theorem check_intent {invocation : Invocation} (h : ¬Faulty invocation) :
    invocation.intent.check = .ok () := by
  have hm : ∀ arg ∈ invocation.mandatory, ¬Missing arg := fun arg ha hn => h (.mandatory ha hn)
  have hv : invocation.version? ≠ some 0 := fun he => h (.version he)
  clear h
  cases invocation <;>
    simp_all [Invocation.intent, Request.check, checkText_held, checkVersion_ok, bind, Except.bind]

end BusClient.CInterface
