import BusClient.Proofs.Json.Token

/-!
# How a number is spelled

A number that is read keeps its spelling but for the exponent, which has one spelling afterwards:
a small `e`, a sign, and the digits that stood there. `respell` does this to a spelling, and every
reader of a number says what it has read by the bytes that stood there.
-/

namespace BusClient.Json

/-! ## Spellings -/

/-- The exponent of a number has a sign. -/
def signed : Bytes → Bytes
  | [] => []
  | b :: rest => if b = 0x2b ∨ b = 0x2d then b :: rest else 0x2b :: b :: rest

/-- The spelling of a number with a small `e` and a sign in its exponent, if it has one. -/
def respell : Bytes → Bytes
  | [] => []
  | b :: rest => if b = 0x65 ∨ b = 0x45 then 0x65 :: signed rest else b :: respell rest

theorem signed_digits (text : Bytes) :
    (signed text).filter Digit.isByte = text.filter Digit.isByte := by
  cases text with
  | nil => rfl
  | cons b rest =>
    rw [signed]
    split
    · rfl
    · exact List.filter_cons_of_neg (by decide)

/-- No digit of a number is lost or moved. -/
theorem respell_digits (text : Bytes) :
    (respell text).filter Digit.isByte = text.filter Digit.isByte := by
  induction text with
  | nil => rfl
  | cons b rest ih =>
    rw [respell]
    split
    next hb =>
      have hn : Digit.isByte b = false := by rcases hb with rfl | rfl <;> decide
      rw [List.filter_cons_of_neg (by decide), List.filter_cons_of_neg (by simp [hn]),
        signed_digits]
    · rw [List.filter_cons, List.filter_cons, ih]

/-- A sign that stands there is kept. -/
theorem signed_sign (negative : Bool) (rest : Bytes) :
    signed ((if negative then 0x2d else 0x2b) :: rest) =
      (if negative then 0x2d else 0x2b) :: rest := by
  rw [signed, if_pos (by cases negative <;> decide)]

/-- A digit is no sign. -/
theorem signed_digit (d : Digit) (rest : Bytes) :
    signed (d.byte :: rest) = 0x2b :: d.byte :: rest := by
  have hd : ∀ d : Digit, ¬ (d.byte = 0x2b ∨ d.byte = 0x2d) := by decide
  rw [signed, if_neg (hd d)]

/-- At its exponent a number is spelled anew. -/
theorem respell_exponent {b : UInt8} (hb : b = 0x65 ∨ b = 0x45) (rest : Bytes) :
    respell (b :: rest) = 0x65 :: signed rest := by
  rw [respell, if_pos hb]

/-- In front of its exponent a number is spelled as before. -/
theorem respell_append {front : Bytes} (hf : ∀ b ∈ front, b ≠ 0x65 ∧ b ≠ 0x45) (rest : Bytes) :
    respell (front ++ rest) = front ++ respell rest := by
  induction front with
  | nil => rfl
  | cons b front ih =>
    obtain ⟨⟨h₁, h₂⟩, hr⟩ := List.forall_mem_cons.mp hf
    rw [List.cons_append, respell, if_neg (not_or.mpr ⟨h₁, h₂⟩), ih hr, List.cons_append]

/-! ## Numbers -/

section

variable {text rest : Bytes}

theorem byte_ofByte {b : UInt8} (hb : Digit.isByte b = true) : (Digit.ofByte b).byte = b := by
  simp only [Digit.isByte, Bool.and_eq_true, decide_eq_true_eq, UInt8.le_iff_toNat_le] at hb
  have h₁ : (0x30 : UInt8).toNat = 48 := rfl
  have h₂ : (0x39 : UInt8).toNat = 57 := rfl
  apply UInt8.toNat_inj.mp
  simp only [Digit.byte, Digit.ofByte, Fin.ofNat, UInt8.toNat_add, UInt8.toNat_ofNat', h₁]
  omega

/-- Digits that are taken stood there. -/
theorem takeDigits_eq (text : Bytes) :
    text = (takeDigits text).value.map Digit.byte ++ (takeDigits text).rest := by
  have hd : ((text.takeWhile Digit.isByte).map Digit.ofByte).map Digit.byte =
      text.takeWhile Digit.isByte := by
    have hb : ∀ b ∈ text.takeWhile Digit.isByte, (Digit.byte ∘ Digit.ofByte) b = id b :=
      fun b hb => byte_ofByte (List.all_eq_true.mp List.all_takeWhile b hb)
    rw [List.map_map, List.map_congr_left hb, List.map_id]
  have ht : text.takeWhile Digit.isByte ++ text.dropWhile Digit.isByte = text :=
    List.takeWhile_append_dropWhile
  simp only [takeDigits, takeWhile, Maybe.map, hd, ht]

/-- The word that is read stood there. -/
theorem readWord_eq {word : Bytes} {found : Maybe Unit text}
    (hr : readWord word text = .ok found) : text = word ++ found.rest := by
  induction word generalizing text with
  | nil =>
    cases hr
    rfl
  | cons c word ih =>
    cases text with
    | nil => cases hr
    | cons b text =>
      rw [readWord] at hr
      split at hr
      next hb =>
        split at hr
        · cases hr
        next found' hf =>
          cases hr
          rw [hb, List.cons_append]
          exact congrArg _ (ih hf)
      · cases hr

/-- The digits before the point stood there. -/
theorem readWhole_eq {n : Nat} (hr : Reads readWhole text n rest) :
    text = (Decimal.digits n).map Digit.byte ++ rest := by
  obtain ⟨h, hr⟩ := hr
  have hz : (Decimal.digits 0).map Digit.byte = [0x30] := by decide
  unfold readWhole at hr
  split at hr
  · cases hr
  next b text =>
    split at hr
    next hb =>
      split at hr
      · cases hr
        rw [hz, hb, List.singleton_append]
      next c more =>
        split at hr
        · cases hr
        · cases hr
          rw [hz, hb, List.singleton_append]
    next hb =>
      split at hr
      next hd =>
        cases hr
        have hv : 0 < (Digit.ofByte b).val := by
          refine Nat.pos_of_ne_zero fun hz => hb ?_
          rw [← byte_ofByte hd, Fin.eq_of_val_eq (j := 0) hz]
          rfl
        have ht := takeDigits_eq text
        simp only [Maybe.map, Decimal.digits_value_cons hv, List.map_cons, byte_ofByte hd,
          List.cons_append]
        rw [← ht]
      · cases hr

/-- The digits behind the point stood there. -/
theorem readFraction_eq {ds : List Digit} {h : rest.length ≤ text.length}
    (hr : readFraction text = .ok ⟨ds, rest, h⟩) : text = fractionBytes ds ++ rest := by
  unfold readFraction at hr
  split at hr
  · cases hr
    rfl
  next b text =>
    split at hr
    next hb =>
      have ht := takeDigits_eq text
      split at hr
      · cases hr
      · cases hr
      next hnil hcons =>
        obtain ⟨hv, hl⟩ := Maybe.mk.inj (Except.ok.inj hr)
        have hv : (takeDigits text).value = ds := hv
        have hl : (takeDigits text).rest = rest := hl
        rw [hv, hl] at ht
        have hne : ds ≠ [] := by
          rintro rfl
          generalize takeDigits text = digits at *
          obtain ⟨_, left, hle⟩ := digits
          cases hv
          cases left with
          | nil => exact hnil hle rfl
          | cons c left => exact hcons c left hle rfl
        rw [hb, ht, fractionBytes, if_neg hne, List.cons_append]
    · cases hr
      rfl

/-- A sign stood there, or none. -/
theorem readExponentSign_eq {negative : Bool} {h : rest.length ≤ text.length}
    (hr : readExponentSign text = ⟨negative, rest, h⟩) :
    text = (if negative then 0x2d else 0x2b) :: rest ∨ text = rest ∧ negative = false := by
  unfold readExponentSign at hr
  split at hr
  · cases hr
    exact .inr ⟨rfl, rfl⟩
  next b more =>
    split at hr
    next hb =>
      cases hr
      exact .inl (by rw [hb]; rfl)
    · split at hr
      next hb =>
        cases hr
        exact .inl (by rw [hb]; rfl)
      · cases hr
        exact .inr ⟨rfl, rfl⟩

/-- An exponent stood there, perhaps in another spelling. -/
theorem readExponent_eq {exponent : Option Exponent} {h : rest.length ≤ text.length}
    (hr : readExponent text = .ok ⟨exponent, rest, h⟩) :
    ∃ spelling, text = spelling ++ rest ∧ respell spelling = exponentBytes exponent ∧
      ∀ b ∈ spelling, isOrdinary b = true := by
  unfold readExponent at hr
  split at hr
  · cases hr
    exact ⟨[], rfl, rfl, List.forall_mem_nil _⟩
  next b text =>
    split at hr
    next hb =>
      simp only [Bool.or_eq_true, decide_eq_true_eq] at hb
      have hbo : isOrdinary b = true := by rcases hb with rfl | rfl <;> decide
      split at hr
      · cases hr
      next negative c text' h' hs =>
        split at hr
        next hd =>
          obtain ⟨hv, hl⟩ := Maybe.mk.inj (Except.ok.inj hr)
          have hv : some ⟨negative, Digit.ofByte c, (takeDigits text').value⟩ = exponent := hv
          have hl : (takeDigits text').rest = rest := hl
          have ht := takeDigits_eq text'
          rw [hl] at ht
          have hds := isOrdinary_digits (Digit.ofByte c :: (takeDigits text').value)
          rw [List.map_cons, byte_ofByte hd] at hds
          have hx : exponentBytes exponent = 0x65 :: (if negative then 0x2d else 0x2b) ::
              c :: (takeDigits text').value.map Digit.byte := by
            rw [← hv, exponentBytes, List.map_cons, byte_ofByte hd]
          rcases readExponentSign_eq hs with rfl | ⟨rfl, rfl⟩
          · refine ⟨b :: (if negative then 0x2d else 0x2b) ::
              c :: (takeDigits text').value.map Digit.byte, ?_, ?_, ?_⟩
            · rw [List.cons_append, List.cons_append, List.cons_append]
              exact congrArg (b :: _ :: c :: ·) ht
            · rw [respell_exponent hb, signed_sign, hx]
            · refine List.forall_mem_cons.mpr ⟨hbo, List.forall_mem_cons.mpr ⟨?_, hds⟩⟩
              cases negative <;> decide
          · refine ⟨b :: c :: (takeDigits text').value.map Digit.byte, ?_, ?_, ?_⟩
            · rw [List.cons_append, List.cons_append]
              exact congrArg (b :: c :: ·) ht
            · have hc := signed_digit (Digit.ofByte c) ((takeDigits text').value.map Digit.byte)
              rw [byte_ofByte hd] at hc
              rw [respell_exponent hb, hc, hx, if_neg (by decide)]
            · exact List.forall_mem_cons.mpr ⟨hbo, hds⟩
        · cases hr
    · cases hr
      exact ⟨[], rfl, rfl, List.forall_mem_nil _⟩

/-- Neither digits nor a point open an exponent. -/
theorem respell_mantissa (n : Number) (rest : Bytes) :
    respell ((Decimal.digits n.whole).map Digit.byte ++ (fractionBytes n.fraction ++ rest)) =
      (Decimal.digits n.whole).map Digit.byte ++ (fractionBytes n.fraction ++ respell rest) := by
  have hd : ∀ d : Digit, d.byte ≠ 0x65 ∧ d.byte ≠ 0x45 := by decide
  have hds : ∀ (ds : List Digit), ∀ b ∈ ds.map Digit.byte, b ≠ 0x65 ∧ b ≠ 0x45 := by
    intro ds b hb
    obtain ⟨d, -, rfl⟩ := List.mem_map.mp hb
    exact hd d
  have hf : ∀ b ∈ fractionBytes n.fraction, b ≠ 0x65 ∧ b ≠ 0x45 := by
    unfold fractionBytes
    split
    · exact List.forall_mem_nil _
    · exact List.forall_mem_cons.mpr ⟨by decide, hds _⟩
  rw [respell_append (hds _), respell_append hf]

/-- A number stood there, perhaps in another spelling. -/
theorem readNumber_eq {negative : Bool} {n : Number}
    (hr : Reads (readNumber negative) text n rest) :
    n.negative = negative ∧ ∃ spelling, text = spelling ++ rest ∧
      respell spelling = unsignedBytes n ∧ (∀ b ∈ spelling, isOrdinary b = true) ∧
      ∃ d more, spelling = Digit.byte d :: more := by
  obtain ⟨h, hr⟩ := hr
  unfold readNumber at hr
  split at hr
  · cases hr
  next whole rest₁ h₁ hw =>
    split at hr
    · cases hr
    next fraction rest₂ h₂ hf =>
      split at hr
      · cases hr
      next exponent hx =>
        obtain ⟨hv, hl⟩ := Found.mk.inj (Except.ok.inj hr)
        have hv : ⟨negative, whole, fraction, exponent.value⟩ = n := hv
        have hl : exponent.rest = rest := hl
        obtain ⟨spelling, hs, he, ho⟩ := readExponent_eq hx
        rw [hl] at hs
        refine ⟨by rw [← hv], (Decimal.digits whole).map Digit.byte ++
          (fractionBytes fraction ++ spelling), ?_, ?_, ?_, ?_⟩
        · rw [readWhole_eq ⟨h₁, hw⟩, readFraction_eq hf, hs, List.append_assoc, List.append_assoc]
        · have hm := respell_mantissa ⟨negative, whole, fraction, exponent.value⟩ spelling
          rw [hm, he, ← hv]
          rfl
        · intro b hb
          rcases List.mem_append.mp hb with hb | hb
          · exact isOrdinary_digits _ b hb
          rcases List.mem_append.mp hb with hb | hb
          · exact isOrdinary_fraction _ b hb
          · exact ho b hb
        · rcases Decimal.digits_eq whole with ⟨-, hd⟩ | ⟨d, ds, hd, -⟩
          · exact ⟨0, _, by rw [hd]; rfl⟩
          · exact ⟨d, _, by rw [hd]; rfl⟩

/-- A number stood there behind its sign, perhaps in another spelling. -/
theorem readNumber_text_eq {negative : Bool} {n : Number}
    (hr : Reads (readNumber negative) text n rest) :
    ∃ spelling, text = spelling ++ rest ∧
      respell ((if negative then [0x2d] else []) ++ spelling) = Bytes.ofText n.text ∧
      (∀ b ∈ (if negative then [0x2d] else []) ++ spelling, isOrdinary b = true) ∧
      Token.ofRun ((if negative then [0x2d] else []) ++ spelling) =
        .number ((if negative then [0x2d] else []) ++ spelling) := by
  obtain ⟨rfl, spelling, ht, hs, ho, d, more, rfl⟩ := readNumber_eq hr
  refine ⟨d.byte :: more, ht, ?_, ?_, ?_⟩
  · rw [ofText_number, ← hs]
    cases n.negative <;> rfl
  · cases n.negative with
    | false => exact ho
    | true => exact List.forall_mem_cons.mpr ⟨by decide, ho⟩
  · cases n.negative <;> simp [Token.ofRun]

end

end BusClient.Json
