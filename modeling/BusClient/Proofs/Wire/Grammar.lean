import BusClient.Proofs.Json.Judging
import BusClient.Proofs.Wire.Framing

/-!
# The documents that are responses

A response is one member that names its variant, with a body that is an object of two fields or a
list of them. `Denotes` says which response a document holds, as a grammar over documents, and the
reader accepts exactly these documents, whatever else stands in an object of fields and in whatever
order. What counts as a code is a parameter of the grammar: a number is not read as the integer
that it spells if it is the negative zero.
-/

namespace BusClient

open BusClient.Frame BusClient.Json

namespace Response

/-! ## The grammar -/

section

variable (isCode : Number → Int32 → Prop)

/-- The bodies of a return: an object with a result and perhaps values, or a list of them. -/
inductive ReturnBody : Value → Int32 → List Value → Prop
  | named {members : Members} {n : Number} {result : Int32} {values : List Value}
      (hr : members.get? "result" = some (.number n)) (hc : isCode n result)
      (hv : members.get? "values" = some (.array values) ∨
        members.get? "values" = none ∧ values = []) :
      ReturnBody (.object members) result values
  | bare {n : Number} {result : Int32} (hc : isCode n result) :
      ReturnBody (.array [.number n]) result []
  | full {n : Number} {result : Int32} (hc : isCode n result) (values : List Value) :
      ReturnBody (.array [.number n, .array values]) result values

/-- The bodies of a fault: an object with a message and perhaps a code, or a list of both. -/
inductive FaultBody : Value → Int32 → String → Prop
  | named {members : Members} {code : Int32} {message : String}
      (hm : members.get? "message" = some (.string message))
      (hc : (∃ n, members.get? "code" = some (.number n) ∧ isCode n code) ∨
        members.get? "code" = none ∧ code = 0) :
      FaultBody (.object members) code message
  | full {n : Number} {code : Int32} (hc : isCode n code) (message : String) :
      FaultBody (.array [.number n, .string message]) code message

/-- The documents that hold a response, with the response. -/
inductive Denotes : Value → Response → Prop
  | returned {body : Value} {result : Int32} {values : List Value}
      (h : ReturnBody isCode body result values) :
      Denotes (.object [("return", body)]) (.returned result values)
  | faulted {body : Value} {code : Int32} {message : String}
      (h : FaultBody isCode body code message) :
      Denotes (.object [("fault", body)]) (.faulted code message)

end

/-- A number is spelled as an integer, without fraction and exponent, and has the value of this
code. -/
def Spells (n : Number) (code : Int32) : Prop := n.integer? = some code.toInt

/-- A number is read as this code: it spells the code, and is not the negative zero. -/
def IsCode (n : Number) (code : Int32) : Prop :=
  Spells n code ∧ ¬ (n.negative = true ∧ n.whole = 0)

theorem isCode_iff {n : Number} {code : Int32} : IsCode n code ↔ n.code? = some code := by
  unfold IsCode Spells Number.code?
  by_cases hz : n.negative = true ∧ n.whole = 0
  · simp [hz]
  · rw [if_neg hz, Number.int32?_eq_some_iff, and_iff_left hz]

/-! ## What the fields make of a body -/

namespace Variant

/-- The response of a body with these fields: a return has a result and values, a fault has a
code and a message. -/
def ofFields? : Variant → Option Value → Option Value → Option Response
  | returned, result, values =>
    (optional Value.code? result).bind fun result =>
      (optional Value.items? values).bind fun values =>
        (KnownReturn.mk result values).response?.toOption
  | faulted, code, message =>
    (optional Value.code? code).bind fun code =>
      (optional Value.text? message).bind fun message =>
        (KnownFault.mk code message).response?.toOption

/-- The names of the fields, in order. -/
def fields : Variant → String × String
  | returned => ("result", "values")
  | faulted => ("code", "message")

/-- The response that a body holds. -/
def ofBody? (variant : Variant) : Value → Option Response
  | .object members =>
    variant.ofFields? (Members.get? members variant.fields.1)
      (Members.get? members variant.fields.2)
  | .array [] => variant.ofFields? none none
  | .array [first] => variant.ofFields? (some first) none
  | .array [first, second] => variant.ofFields? (some first) (some second)
  | _ => none

end Variant

/-- The response that a document holds. -/
def ofDocument? : Value → Option Response
  | .object [(name, body)] => (Variant.ofName? name).bind fun variant => variant.ofBody? body
  | _ => none

namespace Variant

/-- The fields of a return, one by one. -/
theorem ofFields?_returned_iff {result values : Option Value} {response : Response} :
    returned.ofFields? result values = some response ↔
      ∃ n code list, result = some (.number n) ∧ IsCode n code ∧
        (values = some (.array list) ∨ values = none ∧ list = []) ∧
        response = .returned code list := by
  simp only [ofFields?, Option.bind_eq_some_iff, optional_eq_some_iff,
    Value.code?_eq_some_iff, Value.items?_eq_some_iff, ← isCode_iff]
  constructor
  · rintro ⟨r, ⟨rfl, rfl⟩ | ⟨_, code, rfl, ⟨n, rfl, hc⟩, rfl⟩, v, hv, hr⟩
    · cases hr
    · rcases hv with ⟨rfl, rfl⟩ | ⟨_, list, rfl, rfl, rfl⟩
      · cases hr
        exact ⟨n, code, [], rfl, hc, .inr ⟨rfl, rfl⟩, rfl⟩
      · cases hr
        exact ⟨n, code, list, rfl, hc, .inl rfl, rfl⟩
  · rintro ⟨n, code, list, rfl, hc, rfl | ⟨rfl, rfl⟩, rfl⟩
    · exact ⟨some code, .inr ⟨_, code, rfl, ⟨n, rfl, hc⟩, rfl⟩, some list,
        .inr ⟨_, list, rfl, rfl, rfl⟩, rfl⟩
    · exact ⟨some code, .inr ⟨_, code, rfl, ⟨n, rfl, hc⟩, rfl⟩, none, .inl ⟨rfl, rfl⟩, rfl⟩

/-- The fields of a fault, one by one. -/
theorem ofFields?_faulted_iff {code message : Option Value} {response : Response} :
    faulted.ofFields? code message = some response ↔
      ∃ word text, message = some (.string text) ∧
        ((∃ n, code = some (.number n) ∧ IsCode n word) ∨ code = none ∧ word = 0) ∧
        response = .faulted word text := by
  simp only [ofFields?, Option.bind_eq_some_iff, optional_eq_some_iff,
    Value.code?_eq_some_iff, Value.text?_eq_some_iff, ← isCode_iff]
  constructor
  · rintro ⟨c, hc, m, ⟨rfl, rfl⟩ | ⟨_, text, rfl, rfl, rfl⟩, hr⟩
    · cases hr
    · rcases hc with ⟨rfl, rfl⟩ | ⟨_, word, rfl, ⟨n, rfl, hc⟩, rfl⟩
      · cases hr
        exact ⟨0, text, rfl, .inr ⟨rfl, rfl⟩, rfl⟩
      · cases hr
        exact ⟨word, text, rfl, .inl ⟨n, rfl, hc⟩, rfl⟩
  · rintro ⟨word, text, rfl, ⟨n, rfl, hc⟩ | ⟨rfl, rfl⟩, rfl⟩
    · exact ⟨some word, .inr ⟨_, word, rfl, ⟨n, rfl, hc⟩, rfl⟩, some text,
        .inr ⟨_, text, rfl, rfl, rfl⟩, rfl⟩
    · exact ⟨none, .inl ⟨rfl, rfl⟩, some text, .inr ⟨_, text, rfl, rfl, rfl⟩, rfl⟩

/-- The bodies of a return are those that the grammar names. -/
theorem ofBody?_returned_iff {body : Value} {response : Response} :
    returned.ofBody? body = some response ↔
      ∃ code list, ReturnBody IsCode body code list ∧ response = .returned code list := by
  constructor
  · intro h
    unfold ofBody? at h
    split at h
    · obtain ⟨n, code, list, hr, hc, hv, rfl⟩ := ofFields?_returned_iff.mp h
      exact ⟨code, list, .named hr hc hv, rfl⟩
    · obtain ⟨n, code, list, hr, -⟩ := ofFields?_returned_iff.mp h
      cases hr
    · obtain ⟨n, code, list, hr, hc, hv, rfl⟩ := ofFields?_returned_iff.mp h
      cases hr
      rcases hv with hv | ⟨-, rfl⟩
      · cases hv
      · exact ⟨code, [], .bare hc, rfl⟩
    · obtain ⟨n, code, list, hr, hc, hv, rfl⟩ := ofFields?_returned_iff.mp h
      cases hr
      rcases hv with hv | ⟨hv, -⟩
      · cases hv
        exact ⟨code, list, .full hc list, rfl⟩
      · cases hv
    · cases h
  · rintro ⟨code, list, h, rfl⟩
    cases h with
    | named hr hc hv => exact ofFields?_returned_iff.mpr ⟨_, code, list, hr, hc, hv, rfl⟩
    | bare hc => exact ofFields?_returned_iff.mpr ⟨_, code, [], rfl, hc, .inr ⟨rfl, rfl⟩, rfl⟩
    | full hc => exact ofFields?_returned_iff.mpr ⟨_, code, list, rfl, hc, .inl rfl, rfl⟩

/-- The bodies of a fault are those that the grammar names. -/
theorem ofBody?_faulted_iff {body : Value} {response : Response} :
    faulted.ofBody? body = some response ↔
      ∃ code message, FaultBody IsCode body code message ∧ response = .faulted code message := by
  constructor
  · intro h
    unfold ofBody? at h
    split at h
    · obtain ⟨code, message, hm, hc, rfl⟩ := ofFields?_faulted_iff.mp h
      exact ⟨code, message, .named hm hc, rfl⟩
    · obtain ⟨code, message, hm, -⟩ := ofFields?_faulted_iff.mp h
      cases hm
    · obtain ⟨code, message, hm, -⟩ := ofFields?_faulted_iff.mp h
      cases hm
    · obtain ⟨code, message, hm, hc, rfl⟩ := ofFields?_faulted_iff.mp h
      cases hm
      rcases hc with ⟨n, hn, hc⟩ | ⟨hn, -⟩
      · cases hn
        exact ⟨code, message, .full hc message, rfl⟩
      · cases hn
    · cases h
  · rintro ⟨code, message, h, rfl⟩
    cases h with
    | named hm hc => exact ofFields?_faulted_iff.mpr ⟨code, message, hm, hc, rfl⟩
    | full hc =>
      exact ofFields?_faulted_iff.mpr ⟨code, message, rfl, .inl ⟨_, rfl, hc⟩, rfl⟩

end Variant

/-- A document holds a response exactly if the grammar says so. -/
theorem ofDocument?_eq_some_iff {document : Value} {response : Response} :
    ofDocument? document = some response ↔ Denotes IsCode document response := by
  constructor
  · intro h
    unfold ofDocument? at h
    split at h
    next name body =>
      obtain ⟨variant, hv, hb⟩ := Option.bind_eq_some_iff.mp h
      unfold Variant.ofName? at hv
      split at hv
      next hn =>
        cases hv
        obtain ⟨code, list, hbody, rfl⟩ := Variant.ofBody?_returned_iff.mp hb
        rw [hn]
        exact .returned hbody
      · split at hv
        next hn =>
          cases hv
          obtain ⟨code, message, hbody, rfl⟩ := Variant.ofBody?_faulted_iff.mp hb
          rw [hn]
          exact .faulted hbody
        · cases hv
    · cases h
  · intro h
    cases h with
    | returned h => exact Variant.ofBody?_returned_iff.mpr ⟨_, _, h, rfl⟩
    | faulted h => exact Variant.ofBody?_faulted_iff.mpr ⟨_, _, h, rfl⟩

/-! ## The reader -/

/-- The members of the body of a return are its two fields. -/
theorem readReturnMember_fields : TwoFields readReturnMember KnownReturn.mk (Reached (maxDepth - 2))
    "result" "values" Value.code? Value.items? where
  ne := by decide
  first {value} _ b := by
    refine (readAfterColon_judges (readInt32_judges value)).map fun text => ?_
    simp only [readReturnMember, readOnce, if_true]
    cases readAfterColon readInt32 text <;> rfl
  second {value} hr a := by
    have hj := readValueList_judges (maxDepth - 3) hr
    refine (readAfterColon_judges hj).map fun text => ?_
    simp only [readReturnMember, readOnce, String.reduceEq, if_false, if_true, readValues]
    cases readAfterColon (readValueList (maxDepth - 3)) text <;> rfl
  other {other value} h₁ h₂ a b := by
    refine (readAfterColon_takes (skipValue_takes value)).map (f := fun _ => KnownReturn.mk a b) ?_
    intro text found hv
    simp only [readReturnMember, if_neg h₁, if_neg h₂, hv]

/-- The members of the body of a fault are its two fields. -/
theorem readFaultMember_fields : TwoFields readFaultMember KnownFault.mk (Reached (maxDepth - 2))
    "code" "message" Value.code? Value.text? where
  ne := by decide
  first {value} _ b := by
    refine (readAfterColon_judges (readInt32_judges value)).map fun text => ?_
    simp only [readFaultMember, readOnce, if_true]
    cases readAfterColon readInt32 text <;> rfl
  second {value} _ a := by
    refine (readAfterColon_judges (readText_judges "a string" value)).map fun text => ?_
    simp only [readFaultMember, readOnce, String.reduceEq, if_false, if_true]
    cases readAfterColon (readText "a string") text <;> rfl
  other {other value} h₁ h₂ a b := by
    refine (readAfterColon_takes (skipValue_takes value)).map (f := fun _ => KnownFault.mk a b) ?_
    intro text found hv
    simp only [readFaultMember, if_neg h₁, if_neg h₂, hv]

/-- An object of fields is read as the body that it is. -/
theorem readNamed_judged {members : Members} (hr : Reached (maxDepth - 1) (.object members))
    (variant : Variant) {text : Bytes} (hp : Parts (Member Layout) 0x7d true members text)
    (rest : Bytes) :
    Judged (readNamed variant (text ++ rest)) rest (variant.ofBody? (.object members)) := by
  obtain ⟨hn, -, hv⟩ := reached_object_iff.mp hr
  cases variant with
  | returned =>
    refine readObject_checked KnownReturn.response? readReturnMember_fields hp hn hv ?_ ?_
    · intro fault hf
      simp only [readNamed, hf]
    · intro known h hf
      simp only [readNamed, hf]
      cases known.response? <;> rfl
  | faulted =>
    refine readObject_checked KnownFault.response? readFaultMember_fields hp hn hv ?_ ?_
    · intro fault hf
      simp only [readNamed, hf]
    · intro known h hf
      simp only [readNamed, hf]
      cases known.response? <;> rfl

/-- A list is the body of its first two items, if it has no more. -/
theorem Variant.ofBody?_array (variant : Variant) (items : List Value) :
    variant.ofBody? (.array items) =
      if items.tail.tail = [] then variant.ofFields? items.head? items.tail.head? else none := by
  match items with
  | [] | [_] | [_, _] => rfl
  | _ :: _ :: _ :: _ => rfl

/-- Behind its fields a list must end. -/
theorem judged_of_end {items : List Value} {left rest whole : Bytes} {response : Response}
    {result : Except Fault (Found Response whole)}
    (hend : Judged (readListEnd left) rest (if items = [] then some () else none))
    (he : ∀ fault, readListEnd left = .error fault → result = .error fault)
    (ho : ∀ h, readListEnd left = .ok ⟨(), rest, h⟩ → ∃ h', result = .ok ⟨response, rest, h'⟩) :
    Judged result rest (if items = [] then some response else none) := by
  have hb : (if items = [] then some response else none) =
      (if items = [] then some () else none).bind fun _ => some response := by
    split <;> rfl
  rw [hb]
  exact hend.bind he fun _ h hf => ho h hf

/-- A list of the fields of a return needs a result. -/
theorem readPositional_returned {items : List Value} (hr : Reached (maxDepth - 1) (.array items))
    {text : Bytes} (hp : Parts Layout 0x5d true items text) (rest : Bytes) :
    Judged (readPositional .returned (text ++ rest)) rest
      (if items.tail.tail = [] then Variant.returned.ofFields? items.head? items.tail.head?
        else none) := by
  have hi := reached_array_iff.mp hr
  have hcode : ∀ item ∈ items, Judges readInt32 (Layout item) item.code? :=
    fun item _ => readInt32_judges item
  have hlist : ∀ item ∈ items, Judges readValues (Layout item) item.items? :=
    fun item hm => readValueList_judges _ (hi item hm)
  rcases readItem?_twice hp hcode hlist rest with
    ⟨hc, fault, h₁⟩ | ⟨_ | code, mid, h, hc, h₁, hnext⟩
  · have hb : Variant.returned.ofFields? items.head? items.tail.head? = none := by
      simp only [Variant.ofFields?, hc, Option.bind_none]
    rw [hb, ite_self]
    exact ⟨fault, by simp only [readPositional, readItem, h₁]⟩
  · -- Without a result the reader stops in front of the values, whatever these are.
    have hb : Variant.returned.ofFields? items.head? items.tail.head? = none := by
      rcases hnext with ⟨hv, -⟩ | ⟨values, -, -, hv, -⟩
      · simp only [Variant.ofFields?, hc, hv, Option.bind_some, Option.bind_none]
      · simp only [Variant.ofFields?, hc, hv, Option.bind_some]
        rfl
    rw [hb, ite_self]
    exact ⟨_, by simp only [readPositional, readItem, h₁]; rfl⟩
  · rcases hnext with ⟨hv, fault, h₂⟩ | ⟨values, left, h', hv, h₂, hend⟩
    · have hb : Variant.returned.ofFields? items.head? items.tail.head? = none := by
        simp only [Variant.ofFields?, hc, hv, Option.bind_none, Option.bind_some]
      rw [hb, ite_self]
      exact ⟨fault, by simp only [readPositional, readItem, h₁, h₂]⟩
    · have hb : Variant.returned.ofFields? items.head? items.tail.head? =
          some (.returned code (values.getD [])) := by
        simp only [Variant.ofFields?, hc, hv, Option.bind_some]
        rfl
      rw [hb]
      refine judged_of_end hend ?_ ?_
      · intro fault hf
        simp only [readPositional, readItem, h₁, h₂, Maybe.map, Maybe.inLonger, hf]
      · intro hlt hf
        refine ⟨Nat.lt_of_lt_of_le hlt (Nat.le_trans h' h), ?_⟩
        simp only [readPositional, readItem, h₁, h₂, Maybe.map, Maybe.inLonger, hf]
        rfl

/-- A list of the fields of a fault needs a message, in the second place. -/
theorem readPositional_faulted {items : List Value} {text : Bytes}
    (hp : Parts Layout 0x5d true items text) (rest : Bytes) :
    Judged (readPositional .faulted (text ++ rest)) rest
      (if items.tail.tail = [] then Variant.faulted.ofFields? items.head? items.tail.head?
        else none) := by
  have hcode : ∀ item ∈ items, Judges readInt32 (Layout item) item.code? :=
    fun item _ => readInt32_judges item
  have htext : ∀ item ∈ items, Judges (readText "a string") (Layout item) item.text? :=
    fun item _ => readText_judges "a string" item
  rcases readItem?_twice hp hcode htext rest with
    ⟨hc, fault, h₁⟩ | ⟨code, mid, h, hc, h₁, ⟨hm, fault, h₂⟩ |
      ⟨_ | message, left, h', hm, h₂, hend⟩⟩
  · have hb : Variant.faulted.ofFields? items.head? items.tail.head? = none := by
      simp only [Variant.ofFields?, hc, Option.bind_none]
    rw [hb, ite_self]
    exact ⟨fault, by simp only [readPositional, h₁]⟩
  · have hb : Variant.faulted.ofFields? items.head? items.tail.head? = none := by
      simp only [Variant.ofFields?, hc, hm, Option.bind_some, Option.bind_none]
    rw [hb, ite_self]
    exact ⟨fault, by simp only [readPositional, readItem, h₁, h₂]⟩
  · have hb : Variant.faulted.ofFields? items.head? items.tail.head? = none := by
      simp only [Variant.ofFields?, hc, hm, Option.bind_some]
      rfl
    rw [hb, ite_self]
    exact ⟨_, by simp only [readPositional, readItem, h₁, h₂]; rfl⟩
  · have hb : Variant.faulted.ofFields? items.head? items.tail.head? =
        some (.faulted (code.getD 0) message) := by
      simp only [Variant.ofFields?, hc, hm, Option.bind_some]
      rfl
    rw [hb]
    refine judged_of_end hend ?_ ?_
    · intro fault hf
      simp only [readPositional, readItem, h₁, h₂, Maybe.map, Maybe.inLonger, hf]
    · intro hlt hf
      refine ⟨Nat.lt_of_lt_of_le hlt (Nat.le_trans h' h), ?_⟩
      simp only [readPositional, readItem, h₁, h₂, Maybe.map, Maybe.inLonger, hf]
      rfl

/-- A list of fields is read as the body that it is. -/
theorem readPositional_judged {items : List Value} (hr : Reached (maxDepth - 1) (.array items))
    (variant : Variant) {text : Bytes} (hp : Parts Layout 0x5d true items text) (rest : Bytes) :
    Judged (readPositional variant (text ++ rest)) rest (variant.ofBody? (.array items)) := by
  rw [Variant.ofBody?_array]
  cases variant with
  | returned => exact readPositional_returned hr hp rest
  | faulted => exact readPositional_faulted hp rest

/-- A body is judged by its fields. -/
theorem readBody_judges {body : Value} (hr : Reached (maxDepth - 1) body) (variant : Variant) :
    Judges (readBody variant) (Layout body) (variant.ofBody? body) := by
  intro blanks text rest hb hl _
  by_cases hobject : ∃ members, body = .object members
  · obtain ⟨members, rfl⟩ := hobject
    cases hl with
    | @object _ text hp =>
      obtain ⟨h, hs⟩ := skipBlanks_cons hb (b := 0x7b) (by decide) (text ++ rest)
      refine (readNamed_judged hr variant hp rest).beyond h ?_ ?_
      · intro fault hf
        simp only [List.cons_append, readBody, hs, if_true, hf]
      · intro found hf
        simp only [List.cons_append, readBody, hs, if_true, hf]
  by_cases harray : ∃ items, body = .array items
  · obtain ⟨items, rfl⟩ := harray
    cases hl with
    | @array _ text hp =>
      obtain ⟨h, hs⟩ := skipBlanks_cons hb (b := 0x5b) (by decide) (text ++ rest)
      refine (readPositional_judged hr variant hp rest).beyond h ?_ ?_
      · intro fault hf
        simp +decide only [List.cons_append, readBody, hs, if_true, if_false, hf]
      · intro found hf
        simp +decide only [List.cons_append, readBody, hs, if_true, if_false, hf]
  · obtain ⟨b, more, h, hs, ho⟩ := skipBlanks_layout hb hl rest
    have hv : variant.ofBody? body = none := by
      unfold Variant.ofBody?
      split
      · exact absurd ⟨_, rfl⟩ hobject
      · exact absurd ⟨_, rfl⟩ harray
      · exact absurd ⟨_, rfl⟩ harray
      · exact absurd ⟨_, rfl⟩ harray
      · rfl
    rw [hv]
    exact ⟨unwanted variant.shape (b :: more), by
      simp only [readBody, hs, if_neg (mt ho.brace hobject), if_neg (mt ho.bracket harray)]⟩

/-- An object of a variant has its body, if it has no other member. -/
theorem ofDocument?_object (name : String) (body : Value) (more : Members) :
    ofDocument? (.object ((name, body) :: more)) = (Variant.ofName? name).bind fun variant =>
      (variant.ofBody? body).bind fun response => if more = [] then some response else none := by
  cases more with
  | nil => simp only [ofDocument?, if_true, Option.bind_fun_some]
  | cons m more =>
    simp only [ofDocument?, reduceCtorEq, if_false, Option.bind_fun_none]

/-- Behind the first member an object is closed, or a comma follows. -/
theorem skipBlanks_parts {part : String × Value → Bytes → Prop} {more : Members} {tail : Bytes}
    (hp : Parts part 0x7d false more tail) (rest : Bytes) :
    ∃ b left h, skipBlanks (tail ++ rest) = ⟨(), b :: left, h⟩ ∧
      (more = [] ∧ b = 0x7d ∧ left = rest ∨ more ≠ [] ∧ b ≠ 0x7d) := by
  cases hp with
  | close hb =>
    obtain ⟨h, hs⟩ := skipBlanks_cons hb (b := 0x7d) (by decide) rest
    rw [List.append_assoc, List.singleton_append]
    exact ⟨0x7d, rest, h, hs, .inl ⟨rfl, rfl, rfl⟩⟩
  | @part _ m more lead text tail hl _ _ =>
    cases hl with
    | @next blanks blanks' hb hb' =>
      obtain ⟨h, hs⟩ := skipBlanks_cons hb (b := 0x2c) (by decide)
        (blanks' ++ (text ++ tail ++ rest))
      rw [List.append_assoc, List.append_assoc, List.cons_append]
      exact ⟨0x2c, _, h, hs, .inr ⟨List.cons_ne_nil _ _, by decide⟩⟩

/-- No other name is that of a variant. -/
theorem readVariant_unknown {name : String} (hv : Variant.ofName? name = none) {blanks : Bytes}
    (hb : Blanks blanks) (rest : Bytes) :
    ∃ fault, readVariant (blanks ++ (quoted name ++ rest)) = .error fault := by
  obtain ⟨inner, h, hs, hn, hr⟩ := skipBlanks_quoted hb name rest
  exact ⟨_, by simp only [readVariant, hs, hr, hv, if_true]; rfl⟩

/-- An object is judged by the variant that its first member names and by the body of that. -/
theorem read_judges_object {name : String} {body : Value} {more : Members}
    (hj : ∀ variant, Judges (readBody variant) (Layout body) (variant.ofBody? body)) :
    Judges read (Layout (.object ((name, body) :: more)))
      (ofDocument? (.object ((name, body) :: more))) := by
  rintro blanks _ rest hb hl -
  rw [ofDocument?_object]
  cases hl with
  | object hp =>
    cases hp with
    | @part _ _ _ lead _ tail hlead hm hr =>
      obtain ⟨after, rfl, hc⟩ := hm.cases_name
      cases hlead with
      | first hb₁ =>
        obtain ⟨h, hs⟩ := skipBlanks_cons hb (b := 0x7b) (by decide)
          (lead ++ (quoted name ++ (after ++ (tail ++ rest))))
        have he : blanks ++ (0x7b :: (lead ++ (quoted name ++ after ++ tail)) ++ rest) =
            blanks ++ 0x7b :: (lead ++ (quoted name ++ (after ++ (tail ++ rest)))) := by
          simp only [List.append_assoc, List.cons_append]
        rw [he]
        cases hv : Variant.ofName? name with
        | none =>
          obtain ⟨fault, hn⟩ := readVariant_unknown hv hb₁ (after ++ (tail ++ rest))
          exact ⟨fault, by simp only [read, hs, hn, if_true]⟩
        | some variant =>
          obtain ⟨h₁, hn⟩ := readVariant_quoted hv hb₁ (after ++ (tail ++ rest))
          have hbody := (readAfterColon_judges (hj variant)).judged hc
            (hr.delimited (by decide) rest)
          refine hbody.bind ?_ ?_
          · intro fault hf
            simp only [read, hs, hn, hf, if_true]
          · intro response h₂ hf
            obtain ⟨b, left, h₃, hclose, ⟨rfl, rfl, rfl⟩ | ⟨hmore, hne⟩⟩ :=
              skipBlanks_parts hr rest
            · refine ⟨Nat.lt_trans h₃ (Nat.lt_trans h₂ (Nat.lt_trans h₁ h)), ?_⟩
              simp only [read, hs, hn, hf, hclose, if_true]
              rfl
            · rw [if_neg hmore]
              exact ⟨_, by simp only [read, hs, hn, hf, hclose, if_true, if_neg hne]; rfl⟩

/-- A document is judged by the response that it holds. -/
theorem read_judges {document : Value} (hr : Reached maxDepth document) :
    Judges read (Layout document) (ofDocument? document) := by
  intro blanks text rest hb hl hd
  by_cases hobject : ∃ members, document = .object members
  · obtain ⟨members, rfl⟩ := hobject
    obtain ⟨-, -, hv⟩ := reached_object_iff.mp hr
    cases members with
    | nil =>
      cases hl with
      | object hp =>
        cases hp with
        | @close _ blanks₁ hb₁ =>
          obtain ⟨h, hs⟩ := skipBlanks_cons hb (b := 0x7b) (by decide) (blanks₁ ++ 0x7d :: rest)
          obtain ⟨h₁, hs₁⟩ := skipBlanks_cons hb₁ (b := 0x7d) (by decide) rest
          rw [List.cons_append, List.append_assoc, List.singleton_append]
          exact ⟨_, by simp +decide only [read, readVariant, hs, hs₁, if_true, if_false]; rfl⟩
    | cons m more =>
      exact read_judges_object (readBody_judges (hv m List.mem_cons_self)) blanks text rest hb hl hd
  · obtain ⟨b, more, h, hs, ho⟩ := skipBlanks_layout hb hl rest
    have hn : ofDocument? document = none := by
      unfold ofDocument?
      split
      · exact absurd ⟨_, rfl⟩ hobject
      · rfl
    rw [hn]
    by_cases hq : b = 0x22
    · -- Whatever the string names, it is no object.
      subst hq
      cases hvariant : readVariant (0x22 :: more) with
      | error fault => exact ⟨fault, by simp +decide only [read, hs, hvariant, if_true, if_false]⟩
      | ok variant =>
        exact ⟨_, by simp +decide only [read, hs, hvariant, if_true, if_false]; rfl⟩
    · exact ⟨.about .expectedValue (b :: more), by
        simp only [read, hs, if_neg (mt ho.brace hobject), if_neg hq]⟩

/-! ## Whole frames -/

/-- A payload that is a text of a document, with blanks around it, is the response that the
document holds, if it holds one. -/
theorem toOption_ofPayload {document : Value} (hr : Reached maxDepth document)
    {blanks text blanks' : Bytes} (hb : Blanks blanks) (hb' : Blanks blanks')
    (hl : Layout document text) :
    (ofPayload (blanks ++ (text ++ blanks'))).toOption = ofDocument? document :=
  (read_judges hr).toOption_readAll hb hb' hl

/-- So is the line that the document is printed as. -/
theorem toOption_ofPayload_compact {document : Value} (hr : Reached maxDepth document) :
    (ofPayload (.ofText document.compact)).toOption = ofDocument? document := by
  have h := toOption_ofPayload hr .nil .nil (compact_layout document)
  rwa [List.nil_append, List.append_nil] at h

section

variable {document : Value} {stream : Stream} {rest : Bytes}

/-- The response that a document holds is received from its frame. -/
theorem receive_of_some {response : Response} (hr : Reached maxDepth document)
    (hl : (Bytes.ofText document.compact).length ≤ maxPayload)
    (hs : stream.bytes = Frame.ofPayload (.ofText document.compact) ++ rest)
    (hv : ofDocument? document = some response) :
    (Response.receive stream).outcome = .ok response := by
  obtain ⟨left, he, -⟩ := receive_ofPayload Response.ofPayload hl hs
  have hp := toOption_eq_some_iff.mp ((toOption_ofPayload_compact hr).trans hv)
  rw [Response.receive, he]
  simp only [unpack, hp]

/-- From the frame of any other document nothing is received. -/
theorem receive_of_none (hr : Reached maxDepth document)
    (hl : (Bytes.ofText document.compact).length ≤ maxPayload)
    (hs : stream.bytes = Frame.ofPayload (.ofText document.compact) ++ rest)
    (hv : ofDocument? document = none) :
    ∃ error, (Response.receive stream).outcome = .error error ∧ error.kind = .invalidData := by
  obtain ⟨left, he, -⟩ := receive_ofPayload Response.ofPayload hl hs
  obtain ⟨defect, hp⟩ := toOption_eq_none_iff.mp ((toOption_ofPayload_compact hr).trans hv)
  rw [Response.receive, he]
  exact ⟨garbled defect, by simp only [unpack, hp], rfl⟩

/-- The documents from whose frames a response is received are those of the grammar, and the
response is the one that the grammar finds in them. Of any other document it is said that its data
are invalid. -/
theorem receive_document (hr : Readable document) (hd : document.depth ≤ 127)
    (hl : (Bytes.ofText document.compact).length ≤ 16 * 1024 * 1024)
    (hs : stream.bytes = Frame.ofPayload (.ofText document.compact) ++ rest) :
    (∀ response, (Response.receive stream).outcome = .ok response ↔
        Denotes IsCode document response) ∧
      ((∀ response, ¬ Denotes IsCode document response) →
        ∃ error, (Response.receive stream).outcome = .error error ∧
          error.kind = .invalidData) := by
  constructor
  · intro response
    rw [← ofDocument?_eq_some_iff]
    constructor
    · intro ho
      cases hv : ofDocument? document with
      | some response' =>
        have ho' := receive_of_some ⟨hr, hd⟩ hl hs hv
        rw [ho, Except.ok.injEq] at ho'
        rw [ho']
      | none =>
        obtain ⟨error, ho', -⟩ := receive_of_none ⟨hr, hd⟩ hl hs hv
        rw [ho] at ho'
        cases ho'
    · exact receive_of_some ⟨hr, hd⟩ hl hs
  · intro hnone
    apply receive_of_none ⟨hr, hd⟩ hl hs
    cases hv : ofDocument? document with
    | some response => exact absurd (ofDocument?_eq_some_iff.mp hv) (hnone response)
    | none => rfl

end

/-- A fault is received whatever stands beside its fields and in whatever order: here the code is
the last member, and the first one is passed over. -/
theorem receive_document_crowded :
    let document : Value := .object [("fault", .object [("note", .array [.object [], .null]),
      ("message", .string "gone"), ("code", .number ⟨true, 2, [], none⟩)])]
    (Response.receive [Frame.ofPayload (.ofText document.compact), [0xff]]).outcome =
      .ok (.faulted (-2) "gone") := by
  intro document
  have hnote : Readable (.array [.object [], .null]) := by
    refine .array ?_
    intro item hi
    simp only [List.mem_cons, List.not_mem_nil, or_false] at hi
    rcases hi with rfl | rfl
    · exact .object (by decide) (by decide) (List.forall_mem_nil _)
    · exact .null
  have hr : Readable document := by
    refine .single (by decide) (.object (by decide) (by decide) ?_)
    intro m hm
    simp only [List.mem_cons, List.not_mem_nil, or_false] at hm
    rcases hm with rfl | rfl | rfl
    · exact hnote
    · exact .string _
    · exact .number _
  have hs : Stream.bytes [Frame.ofPayload (.ofText document.compact), [0xff]] =
      Frame.ofPayload (.ofText document.compact) ++ [0xff] := rfl
  refine ((receive_document hr (by decide) (by decide +kernel) hs).1 _).mpr ?_
  exact .faulted (.named rfl (.inl ⟨_, rfl, rfl, by decide⟩))

/-- The negative zero is spelled as an integer and yet refused as a result. -/
theorem receive_negativeZero :
    let document : Value :=
      .object [("return", .object [("result", .number ⟨true, 0, [], none⟩)])]
    Readable document ∧ document.depth ≤ 127 ∧
      (Bytes.ofText document.compact).length ≤ 16 * 1024 * 1024 ∧
      Denotes Spells document (.returned 0 []) ∧
      ∃ error, (Response.receive [Frame.ofPayload (.ofText document.compact)]).outcome =
        .error error ∧ error.kind = .invalidData := by
  intro document
  have hr : Readable document := .single (by decide) (.single (by decide) (.number _))
  have hd : document.depth ≤ 127 := by decide
  have hl : (Bytes.ofText document.compact).length ≤ 16 * 1024 * 1024 := by decide +kernel
  have hs : Stream.bytes [Frame.ofPayload (.ofText document.compact)] =
      Frame.ofPayload (.ofText document.compact) ++ [] := rfl
  exact ⟨hr, hd, hl, .returned (.named rfl rfl (.inr ⟨rfl, rfl⟩)),
    receive_of_none ⟨hr, hd⟩ hl hs rfl⟩

end Response

end BusClient
