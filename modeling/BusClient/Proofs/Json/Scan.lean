import BusClient.Proofs.Json.Layout

/-!
# Reading the smallest parts

What the printer writes for a number or a string is read back, and reading stops exactly behind
it. A number has no closing mark: it ends where a byte follows that cannot go on with it, which
is what `Delimited` asks of the bytes behind.
-/

namespace BusClient.Json

variable {α : Type}

/-- This value is read at the front of a text, and this is left. -/
def Reads (reader : Reader α) (text : Bytes) (value : α) (rest : Bytes) : Prop :=
  ∃ h, reader text = .ok ⟨value, rest, h⟩

/-! ## Runs -/

/-- A run of bytes with a property ends in front of these. -/
def Ends (p : UInt8 → Bool) (rest : Bytes) : Prop := ∀ b ∈ rest.head?, p b = false

theorem Ends.nil (p : UInt8 → Bool) : Ends p [] := by
  intro b hb
  cases hb

theorem Ends.cons {p : UInt8 → Bool} {b : UInt8} (h : p b = false) (rest : Bytes) :
    Ends p (b :: rest) := by
  intro c hc
  cases hc
  exact h

theorem Ends.takeWhile_eq {p : UInt8 → Bool} {rest : Bytes} (h : Ends p rest) :
    rest.takeWhile p = [] := by
  cases rest with
  | nil => rfl
  | cons b rest => exact List.takeWhile_cons_of_neg (by simp [h b rfl])

theorem Ends.dropWhile_eq {p : UInt8 → Bool} {rest : Bytes} (h : Ends p rest) :
    rest.dropWhile p = rest := by
  cases rest with
  | nil => rfl
  | cons b rest => exact List.dropWhile_cons_of_neg (by simp [h b rfl])

/-- Blanks are passed over, all of them and nothing else. -/
theorem skipBlanks_append {blanks rest : Bytes} (hb : Blanks blanks) (he : Ends isBlank rest) :
    ∃ h, skipBlanks (blanks ++ rest) = ⟨(), rest, h⟩ := by
  have hd : (blanks ++ rest).dropWhile isBlank = rest := by
    rw [List.dropWhile_append_of_pos hb, he.dropWhile_eq]
  refine ⟨by simp, ?_⟩
  simp only [skipBlanks, skipWhile, hd]

/-- Digits are taken, all of them and nothing else. -/
theorem takeDigits_append (ds : List Digit) {rest : Bytes} (he : Ends Digit.isByte rest) :
    ∃ h, takeDigits (ds.map Digit.byte ++ rest) = ⟨ds, rest, h⟩ := by
  have hp : ∀ b ∈ ds.map Digit.byte, Digit.isByte b = true := by
    intro b hb
    obtain ⟨d, -, rfl⟩ := List.mem_map.mp hb
    exact Digit.isByte_byte d
  have ht : (ds.map Digit.byte ++ rest).takeWhile Digit.isByte = ds.map Digit.byte := by
    rw [List.takeWhile_append_of_pos hp, he.takeWhile_eq, List.append_nil]
  have hd : (ds.map Digit.byte ++ rest).dropWhile Digit.isByte = rest := by
    rw [List.dropWhile_append_of_pos hp, he.dropWhile_eq]
  have hm : (ds.map Digit.byte).map Digit.ofByte = ds := by
    rw [List.map_map]
    exact List.map_id'' Digit.ofByte_byte ds
  refine ⟨by simp, ?_⟩
  simp only [takeDigits, takeWhile, Maybe.map, ht, hd, hm]

/-- A fixed word is read. -/
theorem readWord_append (word rest : Bytes) :
    ∃ h, readWord word (word ++ rest) = .ok ⟨(), rest, h⟩ := by
  induction word with
  | nil => exact ⟨Nat.le_refl _, rfl⟩
  | cons b word ih =>
    obtain ⟨h, hw⟩ := ih
    refine ⟨Nat.le_succ_of_le h, ?_⟩
    simp only [List.cons_append, readWord, if_true, hw, Maybe.behind, Maybe.beyond, Found.toMaybe]

/-! ## Numbers -/

/-- A byte that can go on with a number. -/
def goesOn (b : UInt8) : Bool := Digit.isByte b || b == 0x2e || b == 0x65 || b == 0x45

/-- No byte follows that could go on with a number. -/
def Delimited (rest : Bytes) : Prop := Ends goesOn rest

/-- Where nothing goes on with a number, no digit follows. -/
theorem Delimited.noDigit {rest : Bytes} (h : Delimited rest) : Ends Digit.isByte rest := by
  intro b hb
  have := h b hb
  simp only [goesOn, Bool.or_eq_false_iff] at this
  exact this.1.1.1

/-- The bytes of digits. -/
theorem ofText_spell (ds : List Digit) : Bytes.ofText (Decimal.spell ds) = ds.map Digit.byte := by
  have hd : ∀ d : Digit, String.utf8EncodeChar d.char = [d.byte] := by decide
  rw [Decimal.spell, Bytes.ofText_ofList, List.flatMap_map]
  simp only [hd]
  exact (List.map_eq_flatMap ..).symm

/-- The bytes of the digits after the point. -/
def fractionBytes (ds : List Digit) : Bytes := if ds = [] then [] else 0x2e :: ds.map Digit.byte

/-- The bytes of an exponent. -/
def exponentBytes : Option Exponent → Bytes
  | none => []
  | some e => 0x65 :: (if e.negative then 0x2d else 0x2b) :: (e.first :: e.more).map Digit.byte

/-- The bytes of a number without its sign. -/
def unsignedBytes (n : Number) : Bytes :=
  (Decimal.digits n.whole).map Digit.byte ++ (fractionBytes n.fraction ++ exponentBytes n.exponent)

theorem ofText_exponent (e : Exponent) :
    Bytes.ofText (Number.Exponent.text e) = exponentBytes (some e) := by
  simp only [exponentBytes, Number.Exponent.text, Bytes.ofText_append, ofText_spell]
  cases e.negative <;> rfl

/-- The bytes of a number are its sign, its digits, its fraction and its exponent. -/
theorem ofText_number (n : Number) :
    Bytes.ofText n.text = (if n.negative then [0x2d] else []) ++ unsignedBytes n := by
  have hs : Bytes.ofText (if n.negative then "-" else "") = if n.negative then [0x2d] else [] := by
    cases n.negative <;> decide
  have hf : Bytes.ofText (if n.fraction = [] then "" else "." ++ Decimal.spell n.fraction) =
      fractionBytes n.fraction := by
    unfold fractionBytes
    split
    · decide
    · rw [Bytes.ofText_append, ofText_spell]
      rfl
  rw [Number.text, Bytes.ofText_append, Bytes.ofText_append, Bytes.ofText_append, hs, hf,
    ofText_spell, unsignedBytes, List.append_assoc, List.append_assoc]
  cases n.exponent with
  | none => rw [exponentBytes, Bytes.ofText_empty]
  | some e => rw [ofText_exponent]

/-- Only the digit zero has the byte of zero. -/
theorem byte_ne_zero : ∀ d : Digit, 0 < d.val → d.byte ≠ 0x30 := by decide

/-- The digits before the point are read up to a byte that is no digit. -/
theorem readWhole_digits (n : Nat) {rest : Bytes} (he : Ends Digit.isByte rest) :
    Reads readWhole ((Decimal.digits n).map Digit.byte ++ rest) n rest := by
  rcases Decimal.digits_eq n with ⟨rfl, hd⟩ | ⟨d, ds, hd, hp⟩
  · have hz : Digit.byte 0 = 0x30 := by decide
    rw [hd]
    simp only [List.map_cons, List.map_nil, List.cons_append, List.nil_append, hz]
    cases rest with
    | nil => exact ⟨_, rfl⟩
    | cons b rest =>
      have hb := he b rfl
      refine ⟨by simp, ?_⟩
      simp [readWhole, hb, Found.single]
  · have hz : d.byte ≠ 0x30 := byte_ne_zero d hp
    obtain ⟨h, ht⟩ := takeDigits_append ds he
    have hv : Decimal.value (d :: ds) = n := by rw [← hd, Decimal.value_digits]
    rw [hd, List.map_cons, List.cons_append]
    refine ⟨Nat.lt_succ_of_le h, ?_⟩
    simp [readWhole, hz, ht, Maybe.map, Maybe.behind, Maybe.beyond, hv]

/-- The digits after the point are read, or their absence is seen. -/
theorem readFraction_bytes (ds : List Digit) {rest : Bytes} (he : Ends Digit.isByte rest)
    (hp : Ends (· == 0x2e) rest) :
    ∃ h, readFraction (fractionBytes ds ++ rest) = .ok ⟨ds, rest, h⟩ := by
  cases ds with
  | nil =>
    cases rest with
    | nil => exact ⟨_, rfl⟩
    | cons b rest =>
      have hb : b ≠ 0x2e := by simpa using hp b rfl
      exact ⟨Nat.le_refl _, by simp [fractionBytes, readFraction, hb, Maybe.nothing]⟩
  | cons d ds =>
    obtain ⟨h, ht⟩ := takeDigits_append (d :: ds) he
    refine ⟨Nat.le_succ_of_le h, ?_⟩
    simp [fractionBytes, readFraction, ht, Maybe.behind, Maybe.beyond, Found.toMaybe]

/-- An exponent is read, or its absence is seen. -/
theorem readExponent_bytes (exponent : Option Exponent) {rest : Bytes} (hr : Delimited rest) :
    ∃ h, readExponent (exponentBytes exponent ++ rest) = .ok ⟨exponent, rest, h⟩ := by
  cases exponent with
  | none =>
    cases rest with
    | nil => exact ⟨_, rfl⟩
    | cons b rest =>
      have hb := hr b rfl
      simp only [goesOn, Bool.or_eq_false_iff, beq_eq_false_iff_ne] at hb
      exact ⟨Nat.le_refl _, by simp [exponentBytes, readExponent, hb, Maybe.nothing]⟩
  | some e =>
    obtain ⟨negative, first, more⟩ := e
    obtain ⟨h, ht⟩ := takeDigits_append more hr.noDigit
    refine ⟨Nat.le_succ_of_le (Nat.le_succ_of_le (Nat.le_succ_of_le h)), ?_⟩
    cases negative <;>
      simp [exponentBytes, readExponent, readExponentSign, ht, Maybe.map, Maybe.beyond,
        Found.single, Found.toMaybe, Found.beyond, Found.behind]

/-- What comes behind the digits of a number neither is a digit nor opens a fraction. -/
theorem exponentBytes_ends (exponent : Option Exponent) {rest : Bytes} (hr : Delimited rest) :
    Ends Digit.isByte (exponentBytes exponent ++ rest) ∧
      Ends (· == 0x2e) (exponentBytes exponent ++ rest) := by
  cases exponent with
  | none =>
    refine ⟨hr.noDigit, ?_⟩
    intro b hb
    have := hr b hb
    simp only [goesOn, Bool.or_eq_false_iff] at this
    exact this.1.1.2
  | some e => exact ⟨.cons (by decide) _, .cons (by decide) _⟩

/-- A fraction does not begin with a digit. -/
theorem fractionBytes_ends (ds : List Digit) {rest : Bytes} (he : Ends Digit.isByte rest) :
    Ends Digit.isByte (fractionBytes ds ++ rest) := by
  cases ds with
  | nil => exact he
  | cons d ds => exact .cons (by decide) _

/-- A number is read up to where nothing goes on with it. -/
theorem readNumber_bytes (n : Number) {rest : Bytes} (hr : Delimited rest) :
    Reads (readNumber n.negative) (unsignedBytes n ++ rest) n rest := by
  obtain ⟨hd, hp⟩ := exponentBytes_ends n.exponent hr
  obtain ⟨hx, hxr⟩ := readExponent_bytes n.exponent hr
  obtain ⟨hf, hfr⟩ := readFraction_bytes n.fraction hd hp
  obtain ⟨hw, hwr⟩ := readWhole_digits n.whole (fractionBytes_ends n.fraction hd)
  simp only [unsignedBytes, List.append_assoc]
  refine ⟨by omega, ?_⟩
  simp only [readNumber, hwr, hfr, hxr, Maybe.map, Maybe.inLonger, Maybe.beyond]

/-- A digit is neither a sign, nor a bracket, nor the first byte of a word, nor a blank. -/
theorem byte_opens_number : ∀ d : Digit, d.byte ≠ 0x6e ∧ d.byte ≠ 0x74 ∧ d.byte ≠ 0x66 ∧
    d.byte ≠ 0x2d ∧ d.byte ≠ 0x5d ∧ isBlank d.byte = false := by
  decide

/-- A number opens with its sign or with a digit. -/
theorem number_opens (n : Number) :
    n.negative = true ∧ Bytes.ofText n.text = 0x2d :: unsignedBytes n ∨
      n.negative = false ∧ Bytes.ofText n.text = unsignedBytes n ∧
        ∃ (d : Digit) (more : Bytes), unsignedBytes n = d.byte :: more := by
  have ht := ofText_number n
  by_cases hneg : n.negative = true
  · rw [if_pos hneg] at ht
    exact .inl ⟨hneg, ht⟩
  · rw [if_neg hneg, List.nil_append] at ht
    refine .inr ⟨Bool.eq_false_iff.mpr hneg, ht, ?_⟩
    rcases Decimal.digits_eq n.whole with ⟨-, hd⟩ | ⟨d, ds, hd, -⟩
    · exact ⟨0, _, by rw [unsignedBytes, hd]; rfl⟩
    · exact ⟨d, _, by rw [unsignedBytes, hd]; rfl⟩

/-- A number is read according to how it opens. -/
theorem readNumber_text (n : Number) {rest : Bytes} (hr : Delimited rest) :
    (∃ more, Bytes.ofText n.text = 0x2d :: more ∧
      Reads (readNumber true) (more ++ rest) n rest) ∨
    ∃ (d : Digit) (more : Bytes), Bytes.ofText n.text = d.byte :: more ∧
      Reads (readNumber false) (d.byte :: (more ++ rest)) n rest := by
  have hn := readNumber_bytes n hr
  rcases number_opens n with ⟨hneg, ht⟩ | ⟨hneg, ht, d, more, hd⟩
  · rw [hneg] at hn
    exact .inl ⟨_, ht, hn⟩
  · rw [hneg, hd] at hn
    exact .inr ⟨d, more, ht.trans hd, hn⟩

/-! ## Strings -/

/-- A byte that stands for itself in a string. -/
def isPlain (b : UInt8) : Bool := 0x20 ≤ b && b != 0x22 && b != 0x5c

section

variable {whole text rest : Bytes} {done : ByteArray}

/-- A plain byte is kept. -/
theorem readStringBytes_plain {b : UInt8} (hp : isPlain b = true)
    (h : (b :: text).length ≤ whole.length) :
    readStringBytes whole done (b :: text) h =
      readStringBytes whole (done.push b) text (Nat.le_of_succ_le h) := by
  simp only [isPlain, Bool.and_eq_true, decide_eq_true_eq, bne_iff_ne, ne_eq] at hp
  obtain ⟨⟨hc, hq⟩, hs⟩ := hp
  rw [readStringBytes, if_neg hq, if_neg hs, if_neg (UInt8.not_lt.mpr hc)]

/-- Plain bytes are kept. -/
theorem readStringBytes_run {run : Bytes} (hp : ∀ b ∈ run, isPlain b = true)
    (h : (run ++ text).length ≤ whole.length) (h' : text.length ≤ whole.length) :
    readStringBytes whole done (run ++ text) h =
      readStringBytes whole (pushAll done run) text h' := by
  induction run generalizing done with
  | nil => rfl
  | cons b run ih =>
    obtain ⟨hb, hr⟩ := List.forall_mem_cons.mp hp
    exact (readStringBytes_plain hb h).trans (ih hr _)

/-- An escape is replaced by what it stands for. -/
theorem readStringBytes_escape {bytes : Bytes} (he : Reads readEscape text bytes rest)
    (h : (0x5c :: text).length ≤ whole.length) (h' : rest.length ≤ whole.length) :
    readStringBytes whole done (0x5c :: text) h =
      readStringBytes whole (pushAll done bytes) rest h' := by
  obtain ⟨hr, he⟩ := he
  rw [readStringBytes]
  simp [he]

end

/-- A letter after a backslash stands for one byte. -/
theorem readEscape_letter {letter b : UInt8} (h : escapeLetter? letter = some b)
    (rest : Bytes) : Reads readEscape (letter :: rest) [b] rest :=
  ⟨Nat.lt_succ_self _, by simp [readEscape, h, Found.single]⟩

/-- The hexadecimal digits of the printer are digits to the reader. -/
theorem hexDigit_hexChar : ∀ n : Fin 16, ∃ b : UInt8,
    String.utf8EncodeChar (hexChar n) = [b] ∧ hexDigit? b = some n.val := by
  intro n
  refine ⟨(String.utf8EncodeChar (hexChar n)).headD 0, ?_⟩
  revert n
  decide

/-- The escape of a control character is read. -/
theorem readEscape_control {c : Char} (hc : c.toNat < 0x20) (rest : Bytes) :
    Reads readEscape (0x75 :: 0x30 :: 0x30 :: (String.utf8EncodeChar (hexChar (c.toNat / 16)) ++
      String.utf8EncodeChar (hexChar (c.toNat % 16))) ++ rest) (String.utf8EncodeChar c) rest := by
  obtain ⟨x, hx, hxv⟩ := hexDigit_hexChar ⟨c.toNat / 16, by omega⟩
  obtain ⟨y, hy, hyv⟩ := hexDigit_hexChar ⟨c.toNat % 16, by omega⟩
  have hv : c.toNat / 16 * 16 + c.toNat % 16 = c.toNat := by omega
  have hz : hexDigit? 0x30 = some 0 := by decide
  have hl : isLowSurrogate c.toNat = false := by simp [isLowSurrogate]; omega
  have hh : isHighSurrogate c.toNat = false := by simp [isHighSurrogate]; omega
  rw [hx, hy]
  refine ⟨by simp only [List.length_cons, List.length_append, List.length_nil]; omega, ?_⟩
  simp [readEscape, readCodePoint, readHex, escapeLetter?, hz, hxv, hyv, hv, hl, hh, Found.map,
    Found.behind, Found.beyond, Char.ofNat_toNat]

theorem isPlain_ofNat {n : Nat} (hl : 0x20 ≤ n) (hu : n < 256) (hq : n ≠ 0x22) (hs : n ≠ 0x5c) :
    isPlain (UInt8.ofNat n) = true := by
  have hn : (UInt8.ofNat n).toNat = n := by
    rw [UInt8.toNat_ofNat']
    omega
  simp only [isPlain, Bool.and_eq_true, decide_eq_true_eq, bne_iff_ne, ne_eq,
    UInt8.le_iff_toNat_le, ← UInt8.toNat_inj, hn]
  exact ⟨⟨hl, hq⟩, hs⟩

/-- The bytes of a character of several bytes lie above all of ASCII. -/
theorem utf8EncodeChar_long {c : Char} (hc : 0x7f < c.val.toNat) {b : UInt8}
    (hb : b ∈ String.utf8EncodeChar c) : ∃ n, 0x80 ≤ n ∧ n < 256 ∧ b = UInt8.ofNat n := by
  unfold String.utf8EncodeChar at hb
  generalize c.val.toNat = v at *
  simp only [Nat.not_le.mpr hc, if_false] at hb
  split at hb
  · simp only [List.mem_cons, List.not_mem_nil, or_false] at hb
    rcases hb with rfl | rfl <;> exact ⟨_, by omega, by omega, rfl⟩
  split at hb
  · simp only [List.mem_cons, List.not_mem_nil, or_false] at hb
    rcases hb with rfl | rfl | rfl <;> exact ⟨_, by omega, by omega, rfl⟩
  · simp only [List.mem_cons, List.not_mem_nil, or_false] at hb
    rcases hb with rfl | rfl | rfl | rfl <;> exact ⟨_, by omega, by omega, rfl⟩

/-- The bytes of a character that needs no escape are plain: the only byte of a short one is the
character itself, and those of a longer one lie above all marks. -/
theorem utf8EncodeChar_plain {c : Char} (hc : ¬ c.val < 0x20) (hq : c ≠ '"') (hs : c ≠ '\\') :
    ∀ b ∈ String.utf8EncodeChar c, isPlain b = true := by
  have hc : 0x20 ≤ c.val.toNat := by
    simpa using UInt32.le_iff_toNat_le.mp (UInt32.not_lt.mp hc)
  have hq : c.val.toNat ≠ 0x22 := fun h => hq (Char.toNat_inj.mp h)
  have hs : c.val.toNat ≠ 0x5c := fun h => hs (Char.toNat_inj.mp h)
  intro b hb
  by_cases hl : 0x7f < c.val.toNat
  · obtain ⟨n, hn, hu, rfl⟩ := utf8EncodeChar_long hl hb
    exact isPlain_ofNat (by omega) hu (by omega) (by omega)
  · unfold String.utf8EncodeChar at hb
    rw [if_pos (Nat.not_lt.mp hl), List.mem_singleton] at hb
    exact hb ▸ isPlain_ofNat hc (by omega) hq hs

/-- A character is written plainly, or as an escape that is read as its bytes. -/
theorem written_cases (c : Char) :
    written c = String.utf8EncodeChar c ∧ (∀ b ∈ written c, isPlain b = true) ∨
      ∃ escape, written c = 0x5c :: escape ∧
        ∀ rest, Reads readEscape (escape ++ rest) (String.utf8EncodeChar c) rest := by
  unfold written writeChar
  split
  case h_8 _ hq hs _ _ _ _ _ =>
    split
    next hc =>
      have hu : Bytes.ofText "\\u00" = [0x5c, 0x75, 0x30, 0x30] := by decide
      refine .inr ⟨_, ?_, readEscape_control (UInt32.lt_iff_toNat_lt.mp hc)⟩
      simp only [Bytes.ofText_push, Bytes.ofText_append, Bytes.ofText_empty, hu, List.nil_append,
        List.cons_append]
    next hc =>
      refine .inl ?_
      rw [Bytes.ofText_push, Bytes.ofText_empty, List.nil_append]
      exact ⟨rfl, utf8EncodeChar_plain hc hq hs⟩
  · exact .inr ⟨[0x22], by decide, readEscape_letter (by decide)⟩
  · exact .inr ⟨[0x5c], by decide, readEscape_letter (by decide)⟩
  · exact .inr ⟨[0x62], by decide, readEscape_letter (by decide)⟩
  · exact .inr ⟨[0x66], by decide, readEscape_letter (by decide)⟩
  · exact .inr ⟨[0x6e], by decide, readEscape_letter (by decide)⟩
  · exact .inr ⟨[0x72], by decide, readEscape_letter (by decide)⟩
  · exact .inr ⟨[0x74], by decide, readEscape_letter (by decide)⟩

/-- Every character takes at least one byte, and the quotes are two more. -/
theorem length_lt_quoted (text : String) : text.toList.length < (quoted text).length := by
  have hw : ∀ c, 1 ≤ (written c).length := by
    intro c
    rcases written_cases c with ⟨hw, -⟩ | ⟨escape, hw, -⟩
    · rw [hw, String.length_utf8EncodeChar]
      exact c.utf8Size_pos
    · rw [hw]
      exact Nat.succ_pos _
  have hs : text.toList.length ≤ (text.toList.flatMap written).length := by
    rw [List.length_flatMap]
    induction text.toList with
    | nil => exact Nat.le_refl _
    | cons c cs ih =>
      rw [List.map_cons, List.sum_cons, List.length_cons]
      have := hw c
      omega
  rw [quoted, List.length_cons, List.length_append]
  omega

/-- What a character is written as is read back as its bytes. -/
theorem readStringBytes_written {whole rest : Bytes} {done : ByteArray} (c : Char)
    (h : (written c ++ rest).length ≤ whole.length) (h' : rest.length ≤ whole.length) :
    readStringBytes whole done (written c ++ rest) h =
      readStringBytes whole (pushAll done (String.utf8EncodeChar c)) rest h' := by
  rcases written_cases c with ⟨hw, hp⟩ | ⟨escape, hw, he⟩
  · simp only [hw] at hp ⊢
    exact readStringBytes_run hp _ h'
  · simp only [hw]
    exact readStringBytes_escape (he rest) _ h'

theorem pushAll_append (done : ByteArray) (a b : Bytes) :
    pushAll done (a ++ b) = pushAll (pushAll done a) b := List.foldl_append

/-- Bytes pushed one by one are appended. -/
theorem pushAll_eq (done : ByteArray) (bytes : Bytes) :
    pushAll done bytes = done ++ bytes.toByteArray := by
  induction bytes generalizing done with
  | nil => simp [pushAll]
  | cons b bytes ih =>
    have hp : done.push b = done ++ [b].toByteArray :=
      ByteArray.append_toByteArray_singleton.symm
    calc
      pushAll done (b :: bytes) = pushAll (done.push b) bytes := rfl
      _ = done ++ [b].toByteArray ++ bytes.toByteArray := by rw [ih, hp]
      _ = done ++ (b :: bytes).toByteArray := by
        rw [ByteArray.append_assoc, ← List.toByteArray_append, List.singleton_append]

/-- The characters of a string are read back up to its closing quote. -/
theorem readStringBytes_quoted {whole : Bytes} (cs : List Char) (done : ByteArray) (rest : Bytes)
    (h : (cs.flatMap written ++ 0x22 :: rest).length ≤ whole.length) :
    ∃ h', readStringBytes whole done (cs.flatMap written ++ 0x22 :: rest) h =
      .ok ⟨pushAll done (cs.flatMap String.utf8EncodeChar), rest, h'⟩ := by
  induction cs generalizing done with
  | nil =>
    refine ⟨h, ?_⟩
    simp [readStringBytes, pushAll]
  | cons c cs ih =>
    simp only [List.flatMap_cons, List.append_assoc] at h ⊢
    have h' : (cs.flatMap written ++ 0x22 :: rest).length ≤ whole.length := by
      rw [List.length_append] at h
      omega
    rw [readStringBytes_written c h h', pushAll_append]
    exact ih _ h'

/-- The opening quote stands in front of the characters and the closing one behind them. -/
theorem quoted_append (text : String) (rest : Bytes) :
    quoted text ++ rest = 0x22 :: (text.toList.flatMap written ++ 0x22 :: rest) := by
  rw [quoted, List.cons_append, List.append_assoc, List.singleton_append]

/-- A string is read up to its closing quote, when the opening one has been read. -/
theorem readString_quoted (text : String) (rest : Bytes) :
    Reads readString (text.toList.flatMap written ++ 0x22 :: rest) text rest := by
  obtain ⟨h, hs⟩ := readStringBytes_quoted text.toList ByteArray.empty rest (length_le_self _)
  have hu : String.fromUTF8? (pushAll ByteArray.empty (text.toList.flatMap String.utf8EncodeChar)) =
      some text := by
    rw [pushAll_eq, ByteArray.empty_append, ← Bytes.ofText_eq_flatMap]
    exact Bytes.text?_ofText text
  refine ⟨h, ?_⟩
  simp only [readString, hs, hu]

end BusClient.Json
