import BusClient.Json.Skip
import BusClient.Proofs.Json.Reading

/-!
# Passing over what a document is laid out as

A value that nobody asked for is passed over without recursion: the containers that are open
stand on a stack. `skipOn` is what remains to be done behind a complete value, and passing over a
value from any of its layouts comes to `skipOn` behind it, whatever is open around it. A value is
therefore passed over wherever it is read, and also where it nests too deep to be read.
-/

namespace BusClient.Json

/-! ## Numbers -/

/-- Digits are passed over, all of them and nothing else. -/
theorem skipDigits_append (ds : List Digit) {rest : Bytes} (he : Ends Digit.isByte rest) :
    ∃ h, skipDigits (ds.map Digit.byte ++ rest) = ⟨(), rest, h⟩ := by
  have hp : ∀ b ∈ ds.map Digit.byte, Digit.isByte b = true := by
    intro b hb
    obtain ⟨d, -, rfl⟩ := List.mem_map.mp hb
    exact Digit.isByte_byte d
  have hd : (ds.map Digit.byte ++ rest).dropWhile Digit.isByte = rest := by
    rw [List.dropWhile_append_of_pos hp, he.dropWhile_eq]
  exact ⟨by simp, by simp only [skipDigits, skipWhile, hd]⟩

/-- An exponent is passed over, or its absence is seen. -/
theorem skipExponent_bytes (exponent : Option Exponent) {rest : Bytes} (hr : Delimited rest) :
    ∃ h, skipExponent (exponentBytes exponent ++ rest) = .ok ⟨(), rest, h⟩ := by
  cases exponent with
  | none =>
    cases rest with
    | nil => exact ⟨_, rfl⟩
    | cons b rest =>
      have hb := hr b rfl
      simp only [goesOn, Bool.or_eq_false_iff, beq_eq_false_iff_ne] at hb
      exact ⟨Nat.le_refl _, by simp [exponentBytes, skipExponent, hb, Maybe.nothing]⟩
  | some e =>
    obtain ⟨negative, first, more⟩ := e
    obtain ⟨h, ht⟩ := skipDigits_append more hr.noDigit
    refine ⟨Nat.le_succ_of_le (Nat.le_succ_of_le (Nat.le_succ_of_le h)), ?_⟩
    cases negative <;>
      simp [exponentBytes, skipExponent, readExponentSign, ht, Maybe.beyond, Found.single,
        Found.toMaybe, Found.behind, Found.beyond]

/-- A fraction and an exponent are passed over, or their absence is seen. -/
theorem skipFraction_bytes (ds : List Digit) (exponent : Option Exponent) {rest : Bytes}
    (hr : Delimited rest) :
    ∃ h, skipFraction (fractionBytes ds ++ (exponentBytes exponent ++ rest)) =
      .ok ⟨(), rest, h⟩ := by
  obtain ⟨hx, hxr⟩ := skipExponent_bytes exponent hr
  obtain ⟨hd, hp⟩ := exponentBytes_ends exponent hr
  cases ds with
  | nil =>
    rw [fractionBytes, if_pos rfl, List.nil_append]
    generalize exponentBytes exponent ++ rest = text at *
    refine ⟨hx, ?_⟩
    cases text with
    | nil => exact hxr
    | cons b text =>
      have hb : b ≠ 0x2e := by simpa using hp b rfl
      rw [skipFraction.eq_def]
      simp only [if_neg hb, hxr]
  | cons d ds =>
    obtain ⟨h, ht⟩ := skipDigits_append ds hd
    rw [fractionBytes, if_neg (List.cons_ne_nil d ds), List.cons_append, List.map_cons,
      List.cons_append]
    refine ⟨Nat.le_succ_of_le (Nat.le_succ_of_le (Nat.le_trans hx h)), ?_⟩
    rw [skipFraction, if_pos rfl, if_pos (Digit.isByte_byte d), ht]
    simp only [hxr]
    rfl

/-- A number is passed over up to where nothing goes on with it. -/
theorem skipNumber_bytes (n : Number) {rest : Bytes} (hr : Delimited rest) :
    Reads skipNumber (unsignedBytes n ++ rest) () rest := by
  obtain ⟨hf, hfr⟩ := skipFraction_bytes n.fraction n.exponent hr
  obtain ⟨hd, -⟩ := exponentBytes_ends n.exponent hr
  have he := fractionBytes_ends n.fraction hd
  rw [unsignedBytes, List.append_assoc, List.append_assoc]
  generalize fractionBytes n.fraction ++ (exponentBytes n.exponent ++ rest) = text at *
  rcases Decimal.digits_eq n.whole with ⟨-, hw⟩ | ⟨d, ds, hw, hp⟩
  · have hz : Digit.byte 0 = 0x30 := by decide
    rw [hw, List.map_cons, List.map_nil, hz, List.singleton_append]
    refine ⟨Nat.lt_succ_of_le hf, ?_⟩
    cases text with
    | nil => simp [skipNumber, Maybe.nothing, hfr, Maybe.inLonger, Maybe.behind, Maybe.beyond]
    | cons b text =>
      have hb := he b rfl
      simp [skipNumber, hb, Maybe.nothing, hfr, Maybe.inLonger, Maybe.behind, Maybe.beyond]
  · have hz : d.byte ≠ 0x30 := byte_ne_zero d hp
    obtain ⟨h, ht⟩ := skipDigits_append ds he
    rw [hw, List.map_cons, List.cons_append]
    refine ⟨Nat.lt_succ_of_le (Nat.le_trans hf h), ?_⟩
    simp [skipNumber, hz, ht, hfr, Maybe.inLonger, Maybe.behind, Maybe.beyond]

/-! ## Strings -/

section

variable {whole text rest : Bytes}

/-- A plain byte is passed over. -/
theorem skipString_plain {b : UInt8} (hp : isPlain b = true)
    (h : (b :: text).length ≤ whole.length) :
    skipString whole (b :: text) h = skipString whole text (Nat.le_of_succ_le h) := by
  simp only [isPlain, Bool.and_eq_true, decide_eq_true_eq, bne_iff_ne, ne_eq] at hp
  obtain ⟨⟨hc, hq⟩, hs⟩ := hp
  rw [skipString.eq_def]
  simp only [if_neg hq, if_neg hs, if_neg (UInt8.not_lt.mpr hc)]

/-- Plain bytes are passed over. -/
theorem skipString_run {run : Bytes} (hp : ∀ b ∈ run, isPlain b = true)
    (h : (run ++ text).length ≤ whole.length) (h' : text.length ≤ whole.length) :
    skipString whole (run ++ text) h = skipString whole text h' := by
  induction run with
  | nil => rfl
  | cons b run ih =>
    obtain ⟨hb, hr⟩ := List.forall_mem_cons.mp hp
    exact (skipString_plain hb h).trans (ih hr _)

/-- A code unit behind its backslash is passed over, whatever its value. -/
theorem skipString_hex {unit : Nat} (hu : Reads readHex text unit rest)
    (h : (0x5c :: 0x75 :: text).length ≤ whole.length) (h' : rest.length ≤ whole.length) :
    skipString whole (0x5c :: 0x75 :: text) h = skipString whole rest h' := by
  have hl : escapeLetter? 0x75 = none := by decide
  obtain ⟨hr, hu⟩ := hu
  rw [skipString]
  simp [hl, hu]

/-- The second half of a pair is another code unit. -/
theorem exists_hex_of_readLowSurrogate {found : Found Nat text}
    (h : readLowSurrogate text = .ok found) :
    ∃ inner, text = 0x5c :: 0x75 :: inner ∧ Reads readHex inner found.value found.rest := by
  unfold readLowSurrogate at h
  split at h
  · cases h
  next b text =>
    split at h
    next hb =>
      split at h
      · cases h
      next c inner =>
        split at h
        next hc =>
          split at h
          · cases h
          next low hlow =>
            split at h
            · cases h
              exact ⟨inner, by rw [hb, hc], low.shorter, hlow⟩
            · cases h
        · cases h
    · cases h

/-- A code point is one code unit, or two with a backslash and its letter between them. -/
theorem exists_hex_of_readCodePoint {found : Found Char text}
    (h : readCodePoint text = .ok found) :
    ∃ unit front, Reads readHex text unit front ∧ (front = found.rest ∨
      ∃ unit' inner, front = 0x5c :: 0x75 :: inner ∧ Reads readHex inner unit' found.rest) := by
  unfold readCodePoint at h
  split at h
  · cases h
  next unit front hu hunit =>
    refine ⟨unit, front, ⟨hu, hunit⟩, ?_⟩
    split at h
    · cases h
    · split at h
      · split at h
        · cases h
        next low hlow =>
          obtain ⟨inner, rfl, hsecond⟩ := exists_hex_of_readLowSurrogate hlow
          rw [← Except.ok.inj h]
          exact .inr ⟨low.value, inner, rfl, hsecond⟩
      · cases h
        exact .inl rfl

/-- An escape that can be read is passed over: a letter, one code unit, or two. -/
theorem skipString_escape {bytes : Bytes} (he : Reads readEscape text bytes rest)
    (h : (0x5c :: text).length ≤ whole.length) (h' : rest.length ≤ whole.length) :
    skipString whole (0x5c :: text) h = skipString whole rest h' := by
  obtain ⟨hr, he⟩ := he
  unfold readEscape at he
  split at he
  · cases he
  next b text =>
    split at he
    next hl =>
      cases he
      rw [skipString]
      simp [hl]
    · split at he
      next hb =>
        subst hb
        split at he
        · cases he
        next c hc =>
          obtain ⟨-, hrest⟩ := Found.mk.inj (Except.ok.inj he)
          have hrest : c.rest = rest := hrest
          obtain ⟨unit, front, hu, hfront⟩ := exists_hex_of_readCodePoint hc
          have hle : front.length ≤ whole.length := by
            have := hu.choose
            simp only [List.length_cons] at h
            omega
          rw [hrest] at hfront
          rw [skipString_hex hu h hle]
          rcases hfront with rfl | ⟨unit', inner, rfl, hu'⟩
          · rfl
          · exact skipString_hex hu' hle h'
      · cases he

/-- What a character is written as is passed over. -/
theorem skipString_written (c : Char) (h : (written c ++ rest).length ≤ whole.length)
    (h' : rest.length ≤ whole.length) :
    skipString whole (written c ++ rest) h = skipString whole rest h' := by
  rcases written_cases c with ⟨-, hp⟩ | ⟨escape, hw, he⟩
  · exact skipString_run hp h h'
  · simp only [hw]
    exact skipString_escape (he rest) _ h'

end

/-- A string is passed over up to its closing quote. -/
theorem skipString_quoted {whole : Bytes} (cs : List Char) (rest : Bytes)
    (h : (cs.flatMap written ++ 0x22 :: rest).length ≤ whole.length) :
    ∃ h', skipString whole (cs.flatMap written ++ 0x22 :: rest) h = .ok ⟨(), rest, h'⟩ := by
  induction cs with
  | nil =>
    refine ⟨h, ?_⟩
    simp only [List.flatMap_nil, List.nil_append]
    rw [skipString.eq_def]
    rfl
  | cons c cs ih =>
    simp only [List.flatMap_cons, List.append_assoc] at h ⊢
    have h' : (cs.flatMap written ++ 0x22 :: rest).length ≤ whole.length := by
      rw [List.length_append] at h
      omega
    rw [skipString_written c h h']
    exact ih h'

/-! ## What is left to do behind a value -/

/-- Passing over what follows a complete value, when these containers are open around it. -/
def skipOn (whole : Bytes) (opened : List Container) (text : Bytes)
    (h : text.length < whole.length) : Except Fault (Found Unit whole) :=
  match skipEnds text opened text (length_le_self text) with
  | .error fault => .error fault
  | .ok ⟨[], rest, hr⟩ => .ok ⟨(), rest, Nat.lt_of_le_of_lt hr h⟩
  | .ok ⟨container :: outer, rest, hr⟩ =>
    skipValues whole (container :: outer) rest (Nat.le_trans hr (Nat.le_of_lt h))

/-- The ends of containers are passed over alike in a longer text. -/
theorem skipEnds_whole {whole : Bytes} {opened : List Container} {text : Bytes}
    (h : text.length ≤ whole.length) :
    skipEnds whole opened text h =
      match skipEnds text opened text (length_le_self text) with
      | .error fault => .error fault
      | .ok found => .ok (found.inLonger h) := by
  induction opened generalizing whole text with
  | nil => rfl
  | cons container outer ih =>
    simp only [skipEnds]
    split
    · rfl
    next b rest hr _ =>
      split
      · split <;> rfl
      · split
        · rw [ih (Nat.le_of_succ_le (Nat.le_trans hr h)), ih (Nat.le_of_succ_le hr)]
          split <;> rfl
        · rfl

section

variable {whole text rest front : Bytes} {opened : List Container} {container : Container}

/-- Where no container is open, nothing is left to do. -/
theorem skipOn_nil (h : text.length < whole.length) :
    skipOn whole [] text h = .ok ⟨(), text, h⟩ := rfl

/-- Behind the end of a container the outer ones are still open. -/
theorem skipOn_close {blanks : Bytes} (hb : Blanks blanks)
    (h : (blanks ++ container.close :: rest).length < whole.length)
    (h' : rest.length < whole.length) :
    skipOn whole (container :: opened) (blanks ++ container.close :: rest) h =
      skipOn whole opened rest h' := by
  have hn : isBlank container.close = false := by cases container <;> decide
  have hc : container.close ≠ 0x2c := by cases container <;> decide
  obtain ⟨hr, hs⟩ := skipBlanks_cons hb hn rest
  simp only [skipOn, skipEnds, hs, if_neg hc, if_true]
  rw [skipEnds_whole]
  cases skipEnds rest opened rest (length_le_self rest) with
  | error fault => rfl
  | ok found => obtain ⟨_ | _, left, hl⟩ := found <;> rfl

/-- Behind a comma the next value of the container follows. -/
theorem skipOn_comma {blanks : Bytes} (hb : Blanks blanks)
    (ht : ∃ h, skipToValue container text = .ok ⟨(), front, h⟩)
    (h : (blanks ++ 0x2c :: text).length < whole.length) (h' : front.length ≤ whole.length) :
    skipOn whole (container :: opened) (blanks ++ 0x2c :: text) h =
      skipValues whole (container :: opened) front h' := by
  obtain ⟨hr, hs⟩ := skipBlanks_cons hb (b := 0x2c) (by decide) text
  obtain ⟨hf, ht⟩ := ht
  simp only [skipOn, skipEnds, hs, if_true, ht]

/-- Behind a scalar the containers around it go on. -/
theorem skipValues_scalar (hf : Reads skipFront text .scalar rest)
    (h : text.length ≤ whole.length) (h' : rest.length < whole.length) :
    skipValues whole opened text h = skipOn whole opened rest h' := by
  obtain ⟨hr, hf⟩ := hf
  rw [skipValues, skipOn]
  simp only [hf]
  cases skipEnds rest opened rest (length_le_self rest) with
  | error fault => rfl
  | ok found => obtain ⟨_ | _, left, hl⟩ := found <;> rfl

/-- Behind an empty container the ones around it go on. -/
theorem skipValues_empty (hf : Reads skipFront text (.opened container) front)
    (ho : ∃ h, skipOpening container front = .ok ⟨true, rest, h⟩)
    (h : text.length ≤ whole.length) (h' : rest.length < whole.length) :
    skipValues whole opened text h = skipOn whole opened rest h' := by
  obtain ⟨hr, hf⟩ := hf
  obtain ⟨ho', ho⟩ := ho
  rw [skipValues, skipOn]
  simp only [hf, ho]
  cases skipEnds rest opened rest (length_le_self rest) with
  | error fault => rfl
  | ok found => obtain ⟨_ | _, left, hl⟩ := found <;> rfl

/-- In any other container its first value is next. -/
theorem skipValues_opened (hf : Reads skipFront text (.opened container) front)
    (ho : ∃ h, skipOpening container front = .ok ⟨false, rest, h⟩)
    (h : text.length ≤ whole.length) (h' : rest.length ≤ whole.length) :
    skipValues whole opened text h = skipValues whole (container :: opened) rest h' := by
  obtain ⟨hr, hf⟩ := hf
  obtain ⟨ho', ho⟩ := ho
  rw [skipValues]
  simp only [hf, ho]

end

/-! ## Values in containers -/

/-- From each of these texts a value is passed over, whatever containers are open around it. -/
def Skips (layout : Bytes → Prop) : Prop :=
  ∀ ⦃whole blanks text rest : Bytes⦄ ⦃opened : List Container⦄, Blanks blanks → layout text →
    Delimited rest → ∀ (h : (blanks ++ (text ++ rest)).length ≤ whole.length)
      (h' : rest.length < whole.length),
      skipValues whole opened (blanks ++ (text ++ rest)) h = skipOn whole opened rest h'

/-- From each of these texts a part of a container is passed over: what stands in front of its
value, and then the value. -/
structure SkipsIn (container : Container) (layout : Bytes → Prop) : Prop where
  opens : ∀ text, layout text →
    ∃ b more, text = b :: more ∧ isBlank b = false ∧ b ≠ container.close
  skips : ∀ (opened : List Container) ⦃whole blanks text rest : Bytes⦄, Blanks blanks →
    layout text → Delimited rest → (blanks ++ (text ++ rest)).length ≤ whole.length →
      ∀ h' : rest.length < whole.length, ∃ front : Bytes, ∃ hf : front.length ≤ whole.length,
        (∃ h, skipToValue container (blanks ++ (text ++ rest)) = .ok ⟨(), front, h⟩) ∧
          skipValues whole (container :: opened) front hf =
            skipOn whole (container :: opened) rest h'

/-- An item of a list is its value. -/
theorem Skips.inList {value : Value} (hs : Skips (Layout value)) :
    SkipsIn .list (Layout value) where
  opens _ hl := hl.opensItem
  skips _ _ _ _ _ hb hl hr h h' := ⟨_, h, ⟨Nat.le_refl _, rfl⟩, hs hb hl hr h h'⟩

/-- A name and its colon are passed over in front of a value. -/
theorem skipName_quoted {blanks blanks' : Bytes} (hb : Blanks blanks) (hb' : Blanks blanks')
    (name : String) (rest : Bytes) :
    Reads skipName (blanks ++ (quoted name ++ (blanks' ++ 0x3a :: rest))) () rest := by
  rw [quoted_append]
  obtain ⟨h, hs⟩ := skipBlanks_cons hb (b := 0x22) (by decide)
    (name.toList.flatMap written ++ 0x22 :: (blanks' ++ 0x3a :: rest))
  obtain ⟨hn, hq⟩ := skipString_quoted name.toList (blanks' ++ 0x3a :: rest) (length_le_self _)
  obtain ⟨hc, hs'⟩ := skipBlanks_cons hb' (b := 0x3a) (by decide) rest
  refine ⟨Nat.lt_trans hc (Nat.lt_trans hn h), ?_⟩
  simp only [skipName, hs, if_true, hq, readColon, hs']
  rfl

/-- A member of an object is a name, a colon and a value. -/
theorem Skips.inObject {m : String × Value} (hs : Skips (Layout m.2)) :
    SkipsIn .object (Member Layout m) where
  opens text hl := by
    obtain ⟨after, rfl, -⟩ := hl.cases_name
    exact ⟨0x22, _, rfl, by decide⟩
  skips := by
    rintro opened whole blanks text rest hb hl hr h h'
    cases hl with
    | @intro name value blanks₁ blanks₂ text hb₁ hb₂ hv =>
      have he : blanks ++ (quoted name ++ (blanks₁ ++ 0x3a :: (blanks₂ ++ text)) ++ rest) =
          blanks ++ (quoted name ++ (blanks₁ ++ 0x3a :: (blanks₂ ++ (text ++ rest)))) := by
        simp only [List.append_assoc, List.cons_append]
      rw [he] at h ⊢
      obtain ⟨hlt, hn⟩ := skipName_quoted hb hb₁ name (blanks₂ ++ (text ++ rest))
      have hf : (blanks₂ ++ (text ++ rest)).length ≤ whole.length := by omega
      refine ⟨_, hf, ⟨Nat.le_of_lt hlt, ?_⟩, hs hb₂ hv hr hf h'⟩
      simp only [skipToValue, hn]
      rfl

section

variable {α : Type} {part : α → Bytes → Prop} {container : Container} {whole text rest : Bytes}
  {opened : List Container} {items : List α}

theorem Container.goesOn_close (container : Container) : goesOn container.close = false := by
  cases container <;> decide

/-- The further parts of a container are passed over up to its end. -/
theorem skipOn_parts (hp : Parts part container.close false items text)
    (hi : ∀ a ∈ items, SkipsIn container (part a)) (h : (text ++ rest).length < whole.length)
    (h' : rest.length < whole.length) :
    skipOn whole (container :: opened) (text ++ rest) h = skipOn whole opened rest h' := by
  -- Part by part along the layout; each comma leads to the next value.
  generalize hfirst : false = first at hp
  induction hp with
  | close hb =>
    simp only [List.append_assoc, List.singleton_append]
    exact skipOn_close hb _ h'
  | @part first a more lead text tail hl ha hr ih =>
    subst hfirst
    obtain ⟨hia, him⟩ := List.forall_mem_cons.mp hi
    cases hl with
    | @next blanks blanks' hb hb' =>
      simp only [List.append_assoc, List.cons_append] at h ⊢
      have hd := hr.delimited container.goesOn_close rest
      have htail : (tail ++ rest).length < whole.length := by
        simp only [List.length_append, List.length_cons] at h ⊢
        omega
      obtain ⟨front, hf, ht, hv⟩ := hia.skips opened hb' ha hd
        (by simp only [List.length_append, List.length_cons] at h ⊢; omega) htail
      rw [skipOn_comma hb ht h hf, hv]
      exact ih him htail rfl

/-- A container is passed over, when its opening bracket has been. -/
theorem skipValues_parts {before : Bytes} (hp : Parts part container.close true items text)
    (hi : ∀ a ∈ items, SkipsIn container (part a))
    (hf : Reads skipFront before (.opened container) (text ++ rest))
    (h : before.length ≤ whole.length) (h' : rest.length < whole.length) :
    skipValues whole opened before h = skipOn whole opened rest h' := by
  have hlt := hf.choose
  cases hp with
  | @close _ blanks hb =>
    have hn : isBlank container.close = false := by cases container <;> decide
    obtain ⟨hs, hse⟩ := skipBlanks_cons hb hn rest
    rw [List.append_assoc, List.singleton_append] at hf
    refine skipValues_empty hf ⟨Nat.le_of_lt hs, ?_⟩ h h'
    simp only [skipOpening, hse, if_true]
    rfl
  | @part _ a more lead text tail hl ha hr =>
    obtain ⟨hia, him⟩ := List.forall_mem_cons.mp hi
    obtain ⟨b, inner, rfl, hn, hc⟩ := hia.opens _ ha
    cases hl with
    | first hb =>
      have hd := hr.delimited container.goesOn_close rest
      simp only [List.append_assoc, List.cons_append, List.length_append, List.length_cons]
        at hf hlt
      have htail : (tail ++ rest).length < whole.length := by
        rw [List.length_append]
        omega
      obtain ⟨front, hfr, ht, hv⟩ := hia.skips opened Blanks.nil ha hd
        (by simp only [List.nil_append, List.length_append, List.length_cons]; omega) htail
      obtain ⟨hs, hse⟩ := skipBlanks_cons hb hn (inner ++ (tail ++ rest))
      rw [List.nil_append, List.cons_append] at ht
      obtain ⟨ht, hte⟩ := ht
      refine (skipValues_opened hf ⟨Nat.le_trans ht hs, ?_⟩ h hfr).trans ?_
      · simp only [skipOpening, hse, if_neg hc, hte]
        rfl
      · rw [hv]
        exact skipOn_parts hr him htail h'

end

/-! ## Values -/

/-- A word is passed over. -/
theorem skipFront_word {value : Value} {b : UInt8} {word : Bytes}
    (hw : (value, b, word) ∈ words) {blanks : Bytes} (hb : Blanks blanks) (rest : Bytes) :
    Reads skipFront (blanks ++ (b :: (word ++ rest))) .scalar rest := by
  obtain ⟨h, hs⟩ := skipBlanks_cons hb (words_open hw).1 (word ++ rest)
  obtain ⟨h', hr⟩ := readWord_append word rest
  refine ⟨Nat.lt_of_le_of_lt h' h, ?_⟩
  simp only [skipFront, hs]
  simp only [words, List.mem_cons, Prod.mk.injEq, List.not_mem_nil, or_false] at hw
  rcases hw with ⟨-, rfl, rfl⟩ | ⟨-, rfl, rfl⟩ | ⟨-, rfl, rfl⟩ <;>
    simp +decide only [if_true, if_false, hr, Maybe.map, Maybe.beyond]

/-- A number is passed over. -/
theorem skipFront_number (n : Number) {blanks rest : Bytes} (hb : Blanks blanks)
    (hr : Delimited rest) :
    Reads skipFront (blanks ++ (Bytes.ofText n.text ++ rest)) .scalar rest := by
  have hn := skipNumber_bytes n hr
  rcases number_opens n with ⟨-, ht⟩ | ⟨-, ht, d, more, hd⟩
  · obtain ⟨h', hn⟩ := hn
    obtain ⟨h, hs⟩ := skipBlanks_cons hb (b := 0x2d) (by decide) (unsignedBytes n ++ rest)
    rw [ht, List.cons_append]
    refine ⟨Nat.lt_trans h' h, ?_⟩
    simp +decide only [skipFront, hs, hn, if_false, if_true]
    rfl
  · obtain ⟨hnl, htr, hfa, hmi, -, hbl⟩ := byte_opens_number d
    rw [hd, List.cons_append] at hn
    obtain ⟨h', hn⟩ := hn
    obtain ⟨h, hs⟩ := skipBlanks_cons hb hbl (more ++ rest)
    rw [ht, hd, List.cons_append]
    refine ⟨Nat.lt_of_lt_of_le h' h, ?_⟩
    simp only [skipFront, hs, hn, if_neg hnl, if_neg htr, if_neg hfa, if_neg hmi,
      Digit.isByte_byte, if_true]
    rfl

/-- A string is passed over. -/
theorem skipFront_string (text : String) {blanks : Bytes} (hb : Blanks blanks) (rest : Bytes) :
    Reads skipFront (blanks ++ (quoted text ++ rest)) .scalar rest := by
  rw [quoted_append]
  obtain ⟨h, hs⟩ := skipBlanks_cons hb (b := 0x22) (by decide)
    (text.toList.flatMap written ++ 0x22 :: rest)
  obtain ⟨h', hq⟩ := skipString_quoted text.toList rest (length_le_self _)
  refine ⟨Nat.lt_trans h' h, ?_⟩
  simp +decide only [skipFront, hs, hq, if_false, if_true]
  rfl

/-- An opening bracket is passed over. -/
theorem skipFront_opened (container : Container) {blanks : Bytes} (hb : Blanks blanks)
    (rest : Bytes) :
    Reads skipFront (blanks ++ (match container with | .list => 0x5b | .object => 0x7b) :: rest)
      (.opened container) rest := by
  cases container with
  | list =>
    obtain ⟨h, hs⟩ := skipBlanks_cons hb (b := 0x5b) (by decide) rest
    exact ⟨h, by simp +decide only [skipFront, hs, if_false, if_true]⟩
  | object =>
    obtain ⟨h, hs⟩ := skipBlanks_cons hb (b := 0x7b) (by decide) rest
    exact ⟨h, by simp +decide only [skipFront, hs, if_false, if_true]⟩

/-- A value is passed over from each of its layouts. -/
theorem skips_layout (value : Value) : Skips (Layout value) := by
  -- By induction on the depth: the parts of a container are one level less deep.
  induction hd : value.depth using Nat.strongRecOn generalizing value with
  | ind depth ih =>
    intro whole blanks text rest opened hb hl hr h h'
    cases hl with
    | null =>
      obtain ⟨b, word, ht, hw⟩ := ofText_null
      simp only [ht] at h ⊢
      exact skipValues_scalar (skipFront_word hw hb rest) h h'
    | bool truth =>
      obtain ⟨b, word, ht, hw⟩ := ofText_bool truth
      simp only [ht] at h ⊢
      exact skipValues_scalar (skipFront_word hw hb rest) h h'
    | number n => exact skipValues_scalar (skipFront_number n hb hr) h h'
    | string text => exact skipValues_scalar (skipFront_string text hb rest) h h'
    | @array items _ hp =>
      rw [Value.depth] at hd
      refine skipValues_parts hp (fun item hi => ?_) (skipFront_opened .list hb _) h h'
      have hle := depthOfItems_le_iff.mp (Nat.le_refl _) item hi
      exact (ih item.depth (by omega) item rfl).inList
    | @object members _ hp =>
      rw [Value.depth] at hd
      refine skipValues_parts hp (fun m hm => ?_) (skipFront_opened .object hb _) h h'
      have hle := depthOfMembers_le_iff.mp (Nat.le_refl _) m hm
      exact (ih m.2.depth (by omega) m.2 rfl).inObject

/-- A value is passed over whole, up to its end. -/
theorem skipValue_takes (value : Value) : Takes skipValue (Layout value) () := by
  intro blanks text rest hb hl hr
  obtain ⟨b, more, rfl, -⟩ := hl.opensItem
  have h : rest.length < (blanks ++ (b :: more ++ rest)).length := by
    simp only [List.length_append, List.length_cons]
    omega
  refine ⟨h, ?_⟩
  rw [skipValue, skips_layout value hb hl hr (length_le_self _) h, skipOn_nil]

end BusClient.Json
