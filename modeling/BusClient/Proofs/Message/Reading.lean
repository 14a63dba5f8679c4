import BusClient.Message.Call
import BusClient.Message.Response
import BusClient.Proofs.Json.Integer
import BusClient.Proofs.Json.Reading

/-!
# Messages come back from their payloads

A message is written as a document and read by a reader for its own shape. Each field of that
shape is taken from the layouts of its value, the fields are the steps of the body, and the
message is what is known when the last one has been taken. Nothing depends on how the payload is
laid out; that the printed line is a layout makes the round trips special cases.
-/

namespace BusClient

open Json

namespace Json

variable {α β σ : Type}

/-! ## Fields -/

/-- A text field is taken from a string. -/
theorem readText_takes (wanted text : String) :
    Takes (readText wanted) (Layout (.string text)) text := by
  rintro blanks _ rest hb hl -
  cases hl
  obtain ⟨inner, h, hs, hn, hr⟩ := skipBlanks_quoted hb text rest
  refine ⟨Nat.lt_trans hn h, ?_⟩
  simp only [readText, hs, hr, if_true]
  rfl

/-- An integer of thirty-two bits is a field of its own number. -/
theorem field_ofInt (word : Int32) (rest : Bytes) :
    (Number.ofInt word.toInt).field rest = .ok word := by
  have hi := Number.integer?_ofInt word.toInt
  have hw := Number.int32?_eq_some_iff.mpr hi
  have hmin := word.minValue_le_toInt
  have hmax := word.toInt_le
  have hv : ¬ ((Number.ofInt word.toInt).negative = true ∧
      (word.toInt = 0 ∨ word.toInt < Int64.minValue.toInt) ∨ (UInt64.size : Int) ≤ word.toInt) := by
    simp only [Number.ofInt, decide_eq_true_eq]
    have h32 : Int32.minValue.toInt = -2147483648 := by decide
    have h32' : Int32.maxValue.toInt = 2147483647 := by decide
    have h64 : Int64.minValue.toInt = -9223372036854775808 := by decide
    have hs : (UInt64.size : Int) = 18446744073709551616 := by decide
    omega
  simp only [Number.field, hi, if_neg hv, hw]

/-- An integer field is read as the number that stands there. -/
theorem readInt32_number (n : Number) {blanks rest : Bytes} (hb : Blanks blanks)
    (hr : Delimited rest) :
    ∃ h, readInt32 (blanks ++ (Bytes.ofText n.text ++ rest)) =
      match n.field rest with
      | .error fault => .error fault
      | .ok word => .ok ⟨word, rest, h⟩ := by
  rcases readNumber_text n hr with ⟨more, ht, h', hn⟩ | ⟨d, more, ht, h', hn⟩
  · obtain ⟨h, hs⟩ := skipBlanks_cons hb (b := 0x2d) (by decide) (more ++ rest)
    rw [ht, List.cons_append]
    refine ⟨Nat.lt_trans h' h, ?_⟩
    simp only [readInt32, hs, hn, if_true, Found.behind, Found.beyond]
    cases n.field rest <;> rfl
  · obtain ⟨-, -, -, hmi, -, hbl⟩ := byte_opens_number d
    obtain ⟨h, hs⟩ := skipBlanks_cons hb hbl (more ++ rest)
    rw [ht, List.cons_append]
    refine ⟨Nat.lt_of_lt_of_le h' h, ?_⟩
    simp only [readInt32, hs, hn, if_neg hmi, Digit.isByte_byte, if_true]
    cases n.field rest <;> rfl

/-- A code is taken from its number. -/
theorem readInt32_takes (word : Int32) :
    Takes readInt32 (Layout (.number (.ofInt word.toInt))) word := by
  rintro blanks _ rest hb hl hr
  cases hl
  obtain ⟨h, hn⟩ := readInt32_number (.ofInt word.toInt) hb hr
  exact ⟨h, by rw [hn, field_ofInt word rest]⟩

/-- A list of values is taken item by item. -/
theorem readValueList_takes {values : List Value} {depth : Nat}
    (hr : ∀ v ∈ values, Readable v) (hd : depthOfItems values ≤ depth) :
    Takes (readValueList depth) (Layout (.array values)) values := by
  rintro blanks _ rest hb hl -
  cases hl with
  | @array _ text hp =>
    have ht : ∀ v ∈ values, Takes (readValue depth) (Layout v) v := by
      intro v hv
      exact readValue_takes depth (hr v hv) (depthOfItems_le_iff.mp hd v hv)
    obtain ⟨h', hi⟩ := readList_parts (fun _ _ => Layout.opensItem) hp ht rest
    obtain ⟨h, hs⟩ := skipBlanks_cons hb (b := 0x5b) (by decide) (text ++ rest)
    refine ⟨Nat.lt_trans h' h, ?_⟩
    simp only [List.cons_append, readValueList, hs, hi, if_true]
    rfl

/-- A field that has not been seen is taken behind its colon. -/
theorem readOnce_takes {reader : Reader α} {layout : Bytes → Prop} {value : α}
    (ht : Takes reader layout value) (name : String) :
    Takes (readOnce name none reader) (AfterColon layout) value := by
  intro blanks text rest hb hl hr
  obtain ⟨h, hv⟩ := readAfterColon_takes ht blanks text rest hb hl hr
  exact ⟨h, by simp only [readOnce, hv]⟩

/-- A member that is a field of its own is a step if it has not been seen. -/
theorem Steps.once {part : α → Bytes → Prop} {member : σ → String → Reader σ} {known known' : σ}
    {name : String} {a : α} {value : β} {rest : List (String × α)} {reader : Reader β}
    {f : β → σ} (ht : Takes reader (part a) value)
    (hm : ∀ {text : Bytes} {found : Found β text}, readOnce name none reader text = .ok found →
      member known name text = .ok (found.map f))
    (hs : Steps part member (f value) rest known') :
    Steps part member known ((name, a) :: rest) known' :=
  .step ((readOnce_takes ht name).map hm) hs

/-- The only part of an object stands between blanks. -/
theorem Parts.of_single {part : α → Bytes → Prop} {close : UInt8} {a : α} {text : Bytes}
    (h : Parts part close true [a] text) :
    ∃ blanks front blanks', Blanks blanks ∧ Blanks blanks' ∧ part a front ∧
      text = blanks ++ (front ++ (blanks' ++ [close])) := by
  cases h with
  | part hl ha hr =>
    cases hl with
    | first hb =>
      cases hr with
      | close hb' => exact ⟨_, _, _, hb, hb', ha, rfl⟩

end Json

namespace Call

/-- The fields of a call are taken one by one, in the order in which they are written. -/
theorem readMember_steps (call : Call) (hr : ∀ v ∈ call.args, Readable v)
    (hd : depthOfItems call.args ≤ maxDepth - 2) :
    Steps Layout readMember {} [("destination", .string call.destination),
        ("path", .string call.path), ("interface", .string call.interface),
        ("member", .string call.member), ("args", .array call.args)]
      ⟨some call.destination, some call.path, some call.interface, some call.member,
        some call.args⟩ := by
  refine .once (readText_takes "a string" call.destination)
    (f := fun v => ⟨some v, none, none, none, none⟩) ?_ ?_
  · intro text found hv
    simp only [readMember, readField, hv, if_true]
  refine .once (readText_takes "a string" call.path)
    (f := fun v => ⟨some call.destination, some v, none, none, none⟩) ?_ ?_
  · intro text found hv
    simp only [readMember, readField, hv, String.reduceEq, if_true, if_false]
  refine .once (readText_takes "a string" call.interface)
    (f := fun v => ⟨some call.destination, some call.path, some v, none, none⟩) ?_ ?_
  · intro text found hv
    simp only [readMember, readField, hv, String.reduceEq, if_true, if_false]
  refine .once (readText_takes "a string" call.member)
    (f := fun v => ⟨some call.destination, some call.path, some call.interface, some v, none⟩) ?_ ?_
  · intro text found hv
    simp only [readMember, readField, hv, String.reduceEq, if_true, if_false]
  refine .once (readValueList_takes hr hd)
    (f := fun v => ⟨some call.destination, some call.path, some call.interface, some call.member,
      some v⟩) ?_ (.done _)
  intro text found hv
  simp only [readMember, readArgs, hv, String.reduceEq, if_true, if_false]

/-- A call is taken from the layouts of its document. -/
theorem read_takes (call : Call) (hr : ∀ v ∈ call.args, Readable v)
    (hd : call.document.depth ≤ maxDepth) : Takes read (Layout call.document) call := by
  rintro blanks _ rest hb hl -
  have hd : depthOfItems call.args ≤ maxDepth - 2 := by
    simp only [document, Value.depth, depthOfMembers] at hd
    omega
  cases hl with
  | @object _ text hp =>
    obtain ⟨h', hk⟩ := readObject_parts hp (readMember_steps call hr hd) rest
    obtain ⟨h, hs⟩ := skipBlanks_cons hb (b := 0x7b) (by decide) (text ++ rest)
    refine ⟨Nat.lt_trans h' h, ?_⟩
    simp only [List.cons_append, read, hs, hk, if_true]
    rfl

/-- A call comes back from its payload. -/
theorem ofPayload_payload (call : Call) (hr : ∀ v ∈ call.args, Readable v)
    (hd : call.document.depth ≤ maxDepth) : ofPayload call.payload = .ok call :=
  readAll_of_takes (read_takes call hr hd) (compact_layout call.document)

end Call

namespace Response

/-- The result and the values of a return are taken one by one. -/
theorem readReturnMember_steps (result : Int32) {values : List Value}
    (hr : ∀ v ∈ values, Readable v) (hd : depthOfItems values ≤ maxDepth - 3) :
    Steps Layout readReturnMember {} [("result", number result), ("values", .array values)]
      ⟨some result, some values⟩ := by
  refine .once (readInt32_takes result) (f := fun v => ⟨some v, none⟩) ?_ ?_
  · intro text found hv
    simp only [readReturnMember, hv, if_true]
  refine .once (readValueList_takes hr hd) (f := fun v => ⟨some result, some v⟩) ?_ (.done _)
  intro text found hv
  simp only [readReturnMember, readValues, hv, String.reduceEq, if_true, if_false]

/-- The code and the message of a fault are taken one by one. -/
theorem readFaultMember_steps (code : Int32) (message : String) :
    Steps Layout readFaultMember {} [("code", number code), ("message", .string message)]
      ⟨some code, some message⟩ := by
  refine .once (readInt32_takes code) (f := fun v => ⟨some v, none⟩) ?_ ?_
  · intro text found hv
    simp only [readFaultMember, hv, if_true]
  refine .once (readText_takes "a string" message) (f := fun v => ⟨some code, some v⟩) ?_ (.done _)
  intro text found hv
  simp only [readFaultMember, hv, String.reduceEq, if_true, if_false]

/-- A body that is given as an object is taken if its members are read. -/
theorem readBody_takes {variant : Variant} {members : Members} {response : Response}
    (hn : ∀ {text : Bytes}, Parts (Member Layout) 0x7d true members text →
      ∀ rest, Reads (readNamed variant) (text ++ rest) response rest) :
    Takes (readBody variant) (Layout (.object members)) response := by
  rintro blanks _ rest hb hl -
  cases hl with
  | @object _ text hp =>
    obtain ⟨h', hr⟩ := hn hp rest
    obtain ⟨h, hs⟩ := skipBlanks_cons hb (b := 0x7b) (by decide) (text ++ rest)
    refine ⟨Nat.lt_trans h' h, ?_⟩
    simp only [List.cons_append, readBody, hs, hr, if_true]
    rfl

/-- The body of a return is taken from its layouts. -/
theorem readBody_returned (result : Int32) {values : List Value}
    (hr : ∀ v ∈ values, Readable v) (hd : depthOfItems values ≤ maxDepth - 3) :
    Takes (readBody .returned)
      (Layout (.object [("result", number result), ("values", .array values)]))
      (.returned result values) := by
  apply readBody_takes
  intro text hp rest
  obtain ⟨h, hk⟩ := readObject_parts hp (readReturnMember_steps result hr hd) rest
  refine ⟨h, ?_⟩
  simp only [readNamed, hk]
  rfl

/-- The body of a fault is taken from its layouts. -/
theorem readBody_faulted (code : Int32) (message : String) :
    Takes (readBody .faulted)
      (Layout (.object [("code", number code), ("message", .string message)]))
      (.faulted code message) := by
  apply readBody_takes
  intro text hp rest
  obtain ⟨h, hk⟩ := readObject_parts hp (readFaultMember_steps code message) rest
  refine ⟨h, ?_⟩
  simp only [readNamed, hk]
  rfl

/-- The name of a variant is read where the object opens. -/
theorem readVariant_quoted {name : String} {variant : Variant}
    (hv : Variant.ofName? name = some variant) {blanks : Bytes} (hb : Blanks blanks)
    (rest : Bytes) : Reads readVariant (blanks ++ (quoted name ++ rest)) variant rest := by
  obtain ⟨inner, h, hs, hn, hr⟩ := skipBlanks_quoted hb name rest
  refine ⟨Nat.lt_trans hn h, ?_⟩
  simp only [readVariant, hs, hr, hv, if_true]
  rfl

/-- A response is taken from the object that names its variant if its body is taken. -/
theorem read_takes_of_body {name : String} {variant : Variant} {body : Value}
    {response : Response} (hv : Variant.ofName? name = some variant)
    (ht : Takes (readBody variant) (Layout body) response) :
    Takes read (Layout (.object [(name, body)])) response := by
  rintro blanks _ rest hb hl -
  cases hl with
  | object hp =>
    obtain ⟨blanks₁, front, blanks₂, hb₁, hb₂, hm, rfl⟩ := hp.of_single
    obtain ⟨after, rfl, hc⟩ := hm.cases_name
    have hend : Delimited (blanks₂ ++ 0x7d :: rest) := .of_blanks hb₂ (by decide) rest
    obtain ⟨h₁, hn⟩ := readVariant_quoted hv hb₁ (after ++ (blanks₂ ++ 0x7d :: rest))
    obtain ⟨h₂, hbody⟩ := (readAfterColon_takes ht).reads hc hend
    obtain ⟨h₃, hclose⟩ := skipBlanks_cons hb₂ (b := 0x7d) (by decide) rest
    obtain ⟨h, hs⟩ := skipBlanks_cons hb (b := 0x7b) (by decide)
      (blanks₁ ++ (quoted name ++ (after ++ (blanks₂ ++ 0x7d :: rest))))
    simp only [List.cons_append, List.append_assoc, List.nil_append]
    refine ⟨Nat.lt_trans h₃ (Nat.lt_trans h₂ (Nat.lt_trans h₁ h)), ?_⟩
    simp only [read, hs, hn, hbody, hclose, if_true]
    rfl

/-- The values that a response carries. -/
def carried : Response → List Value
  | returned _ values => values
  | faulted _ _ => []

/-- A response is taken from the layouts of its document. -/
theorem read_takes (response : Response) (hr : ∀ v ∈ response.carried, Readable v)
    (hd : response.document.depth ≤ maxDepth) :
    Takes read (Layout response.document) response := by
  cases response with
  | returned result values =>
    have hd : depthOfItems values ≤ maxDepth - 3 := by
      simp only [document, Value.depth, depthOfMembers] at hd
      omega
    exact read_takes_of_body (by simp [Variant.ofName?]) (readBody_returned result hr hd)
  | faulted code message =>
    exact read_takes_of_body (by simp [Variant.ofName?]) (readBody_faulted code message)

/-- A response comes back from its payload. -/
theorem ofPayload_payload (response : Response) (hr : ∀ v ∈ response.carried, Readable v)
    (hd : response.document.depth ≤ maxDepth) : ofPayload response.payload = .ok response :=
  readAll_of_takes (read_takes response hr hd) (compact_layout response.document)

end Response

end BusClient
