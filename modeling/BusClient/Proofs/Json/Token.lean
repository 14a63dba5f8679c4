import BusClient.Proofs.Json.Indented

/-!
# The tokens of a text

A text is a sequence of tokens once its blanks are gone and its strings are decoded: marks, words,
numbers as they are spelled, and strings. Every text has tokens, whether it holds a document or
not, so that two texts can be compared without reading either of them. A document has tokens of
its own, and each of its layouts has exactly these, the indented one among them.
-/

namespace BusClient.Json

/-! ## Tokens -/

/-- A part of a text that has no parts. -/
inductive Token
  /-- A brace, a bracket, a comma or a colon. -/
  | mark (b : UInt8)
  /-- Any other bytes outside of strings that do not begin like a number. -/
  | word (spelling : Bytes)
  /-- Bytes outside of strings that begin like a number. -/
  | number (spelling : Bytes)
  /-- A string, without its quotes and escapes. -/
  | text (string : String)
  deriving DecidableEq, Repr

/-- Bytes that are tokens by themselves. -/
def isMark (b : UInt8) : Bool :=
  b == 0x7b || b == 0x7d || b == 0x5b || b == 0x5d || b == 0x2c || b == 0x3a

/-- Bytes that go on with a word or a number. -/
def isOrdinary (b : UInt8) : Bool := !isBlank b && !isMark b && b != 0x22

/-- A run of ordinary bytes is a number if it begins like one. -/
def Token.ofRun (run : Bytes) : Token :=
  if run.head?.any fun b => b == 0x2d || Digit.isByte b then .number run else .word run

/-- The tokens of a text. A string that is not closed or not well formed ends them. -/
def tokens (text : Bytes) : List Token :=
  match skipBlanks text with
  | ⟨_, [], _⟩ => []
  | ⟨_, b :: rest, _⟩ =>
    if isMark b then .mark b :: tokens rest
    else if b = 0x22 then
      match readString rest with
      | .error _ => [.word (b :: rest)]
      | .ok ⟨string, rest', _⟩ => .text string :: tokens rest'
    else
      match takeWhile isOrdinary rest with
      | ⟨run, rest', _⟩ => .ofRun (b :: run) :: tokens rest'
termination_by text.length
decreasing_by
  all_goals simp only [List.length_cons] at *; omega

section

variable {text front rest : Bytes}

/-- Where no blank stands, none is passed over. -/
theorem skipBlanks_of_ends (he : Ends isBlank text) : ∃ h, skipBlanks text = ⟨(), text, h⟩ :=
  skipBlanks_append Blanks.nil he

/-- What is behind the blanks is no blank. -/
theorem ends_of_skipBlanks {h : front.length ≤ text.length}
    (hs : skipBlanks text = ⟨(), front, h⟩) : Ends isBlank front := by
  have hf : text.dropWhile isBlank = front := congrArg Maybe.rest hs
  intro b hb
  have hn := List.head?_dropWhile_not isBlank text
  rw [hf, Option.mem_def.mp hb] at hn
  simpa using hn

/-- Blanks in front have no token. -/
theorem tokens_skipBlanks {h : front.length ≤ text.length}
    (hs : skipBlanks text = ⟨(), front, h⟩) : tokens text = tokens front := by
  obtain ⟨h', hs'⟩ := skipBlanks_of_ends (ends_of_skipBlanks hs)
  rw [tokens, tokens, hs, hs']
  cases front <;> rfl

theorem tokens_nil : tokens [] = [] := by
  obtain ⟨h, hs⟩ := skipBlanks_of_ends (Ends.nil isBlank)
  rw [tokens, hs]

/-- Blanks have no token. -/
theorem tokens_blanks {blanks : Bytes} (hb : Blanks blanks) (text : Bytes) :
    tokens (blanks ++ text) = tokens text := by
  have hd : (blanks ++ text).dropWhile isBlank = text.dropWhile isBlank :=
    List.dropWhile_append_of_pos hb
  have hs : skipBlanks (blanks ++ text) = ⟨(), (blanks ++ text).dropWhile isBlank, _⟩ := rfl
  have hs' : skipBlanks text = ⟨(), text.dropWhile isBlank, _⟩ := rfl
  rw [tokens_skipBlanks hs, tokens_skipBlanks hs', hd]

/-- A mark is no blank. -/
theorem isBlank_of_isMark {b : UInt8} (hm : isMark b = true) : isBlank b = false := by
  simp only [isMark, Bool.or_eq_true, beq_iff_eq] at hm
  rcases hm with ((((rfl | rfl) | rfl) | rfl) | rfl) | rfl <;> decide

/-- A mark is a token. -/
theorem tokens_mark {b : UInt8} (hm : isMark b = true) (rest : Bytes) :
    tokens (b :: rest) = .mark b :: tokens rest := by
  obtain ⟨h, hs⟩ := skipBlanks_of_ends (.cons (isBlank_of_isMark hm) rest)
  rw [tokens, hs]
  simp only [hm, if_true]

/-- A string is a token. -/
theorem tokens_quote {string : String} (hr : Reads readString text string rest) :
    tokens (0x22 :: text) = .text string :: tokens rest := by
  obtain ⟨h, hs⟩ := skipBlanks_of_ends (.cons (b := 0x22) (by decide) text)
  obtain ⟨h', hr⟩ := hr
  rw [tokens, hs]
  simp +decide only [hr, if_true, if_false]

/-- A run that no ordinary byte follows is a token. -/
theorem tokens_run {run : Bytes} (hn : run ≠ []) (hr : ∀ b ∈ run, isOrdinary b = true)
    (he : Ends isOrdinary rest) : tokens (run ++ rest) = .ofRun run :: tokens rest := by
  obtain ⟨b, more, rfl⟩ := List.exists_cons_of_ne_nil hn
  obtain ⟨hb, hm⟩ := List.forall_mem_cons.mp hr
  simp only [isOrdinary, Bool.and_eq_true, Bool.not_eq_true', bne_iff_ne, ne_eq] at hb
  obtain ⟨⟨hblank, hmark⟩, hq⟩ := hb
  obtain ⟨h, hs⟩ := skipBlanks_of_ends (.cons hblank (more ++ rest))
  have ht : (more ++ rest).takeWhile isOrdinary = more := by
    rw [List.takeWhile_append_of_pos hm, he.takeWhile_eq, List.append_nil]
  have hd : (more ++ rest).dropWhile isOrdinary = rest := by
    rw [List.dropWhile_append_of_pos hm, he.dropWhile_eq]
  rw [List.cons_append, tokens, hs]
  simp only [hmark, Bool.false_eq_true, if_false, if_neg hq, takeWhile, ht, hd]

end

/-! ## The tokens of a document -/

/-- The parts of a container up to its closing mark, with a comma in front of all but the first
one. -/
def joined (close : UInt8) : (first : Bool) → List (List Token) → List Token
  | _, [] => [.mark close]
  | true, part :: more => part ++ joined close false more
  | false, part :: more => .mark 0x2c :: (part ++ joined close false more)

mutual

/-- The tokens of a value. -/
def Value.tokens : Value → List Token
  | .null => [.word (.ofText "null")]
  | .bool b => [.word (.ofText (if b then "true" else "false"))]
  | .number n => [.number (.ofText n.text)]
  | .string text => [.text text]
  | .array items => .mark 0x5b :: joined 0x5d true (itemTokens items)
  | .object members => .mark 0x7b :: joined 0x7d true (memberTokens members)

/-- The tokens of each item. -/
def itemTokens : List Value → List (List Token)
  | [] => []
  | item :: rest => item.tokens :: itemTokens rest

/-- The tokens of each member: the name, the colon and those of the value. -/
def memberTokens : List (String × Value) → List (List Token)
  | [] => []
  | (name, value) :: rest => (.text name :: .mark 0x3a :: value.tokens) :: memberTokens rest

end

/-- The tokens of a member. -/
def tokensOfMember (m : String × Value) : List Token := .text m.1 :: .mark 0x3a :: m.2.tokens

theorem itemTokens_eq_map (items : List Value) : itemTokens items = items.map Value.tokens := by
  induction items with
  | nil => rfl
  | cons item rest ih => rw [itemTokens, ih, List.map_cons]

theorem memberTokens_eq_map (members : Members) :
    memberTokens members = members.map tokensOfMember := by
  induction members with
  | nil => rfl
  | cons m rest ih => rw [memberTokens, ih, List.map_cons, tokensOfMember]

/-! ## The tokens of a layout -/

/-- Each of these texts has these tokens, wherever it stands. -/
def Lexes (layout : Bytes → Prop) (ts : List Token) : Prop :=
  ∀ text rest, layout text → Ends isOrdinary rest → tokens (text ++ rest) = ts ++ tokens rest

/-- Neither a blank nor a mark goes on with a run. -/
theorem Ends.of_blanks {blanks : Bytes} (hb : Blanks blanks) {b : UInt8} (hm : isMark b = true)
    (rest : Bytes) : Ends isOrdinary (blanks ++ b :: rest) := by
  cases blanks with
  | nil => exact .cons (by simp [isOrdinary, hm]) rest
  | cons c blanks =>
    have hc : isBlank c = true := hb c List.mem_cons_self
    exact .cons (by simp [isOrdinary, hc]) _

section

variable {α : Type} {part : α → Bytes → Prop} {close : UInt8} {first : Bool} {as : List α}
  {text : Bytes}

/-- Behind a part a container goes on with a mark. -/
theorem Parts.ends (hp : Parts part close false as text) (hc : isMark close = true)
    (rest : Bytes) : Ends isOrdinary (text ++ rest) := by
  cases hp with
  | close hb =>
    rw [List.append_assoc]
    exact .of_blanks hb hc rest
  | part hl _ _ =>
    cases hl with
    | next hb _ =>
      rw [List.append_assoc, List.append_assoc, List.cons_append]
      exact .of_blanks hb (by decide) _

/-- The parts of a container have their tokens with commas between them. -/
theorem Parts.lexes (hp : Parts part close first as text) (hc : isMark close = true)
    {spelled : α → List Token} (hl : ∀ a ∈ as, Lexes (part a) (spelled a)) (rest : Bytes) :
    tokens (text ++ rest) = joined close first (as.map spelled) ++ tokens rest := by
  induction hp with
  | close hb =>
    rw [List.append_assoc, tokens_blanks hb]
    exact tokens_mark hc rest
  | @part first a more lead text tail hlead ha hr ih =>
    obtain ⟨hla, hlm⟩ := List.forall_mem_cons.mp hl
    have ht := hla text (tail ++ rest) ha (hr.ends hc rest)
    have hm := ih hlm
    rw [List.append_assoc, List.append_assoc, List.map_cons]
    cases hlead with
    | first hb => rw [tokens_blanks hb, ht, hm, joined, List.append_assoc]
    | next hb hb' =>
      have hcomma : isMark 0x2c = true := by decide
      rw [List.append_assoc, tokens_blanks hb, List.cons_append, tokens_mark hcomma,
        tokens_blanks hb', ht, hm, joined, List.cons_append, List.append_assoc]

end

/-- A member has its name, a colon and the tokens of its value. -/
theorem Lexes.member {m : String × Value} (hl : Lexes (Layout m.2) m.2.tokens) :
    Lexes (Member Layout m) (tokensOfMember m) := by
  rintro text rest hm he
  cases hm with
  | @intro name value blanks blanks' text hb hb' ha =>
    have hcolon : isMark 0x3a = true := by decide
    have hq := tokens_quote (readString_quoted name (blanks ++ 0x3a :: (blanks' ++ (text ++ rest))))
    rw [List.append_assoc, quoted_append, List.append_assoc, List.cons_append, List.append_assoc,
      hq, tokens_blanks hb, tokens_mark hcolon, tokens_blanks hb', hl text rest ha he]
    rfl

theorem isOrdinary_byte : ∀ d : Digit, isOrdinary d.byte = true := by decide

/-- Digits go on with a number. -/
theorem isOrdinary_digits (ds : List Digit) : ∀ b ∈ ds.map Digit.byte, isOrdinary b = true := by
  intro b hb
  obtain ⟨d, -, rfl⟩ := List.mem_map.mp hb
  exact isOrdinary_byte d

theorem isOrdinary_fraction (ds : List Digit) : ∀ b ∈ fractionBytes ds, isOrdinary b = true := by
  unfold fractionBytes
  split
  · exact List.forall_mem_nil _
  · exact List.forall_mem_cons.mpr ⟨by decide, isOrdinary_digits ds⟩

theorem isOrdinary_exponent (exponent : Option Exponent) :
    ∀ b ∈ exponentBytes exponent, isOrdinary b = true := by
  cases exponent with
  | none => exact List.forall_mem_nil _
  | some e =>
    refine List.forall_mem_cons.mpr ⟨by decide, List.forall_mem_cons.mpr ⟨?_, ?_⟩⟩
    · cases e.negative <;> decide
    · exact isOrdinary_digits (e.first :: e.more)

/-- The bytes of a number go on with one another. -/
theorem isOrdinary_unsigned (n : Number) : ∀ b ∈ unsignedBytes n, isOrdinary b = true := by
  intro b hb
  rcases List.mem_append.mp hb with hb | hb
  · exact isOrdinary_digits _ b hb
  rcases List.mem_append.mp hb with hb | hb
  · exact isOrdinary_fraction _ b hb
  · exact isOrdinary_exponent _ b hb

/-- A number is one token. -/
theorem tokens_number (n : Number) {rest : Bytes} (he : Ends isOrdinary rest) :
    tokens (Bytes.ofText n.text ++ rest) = .number (.ofText n.text) :: tokens rest := by
  have hu := isOrdinary_unsigned n
  rcases number_opens n with ⟨-, ht⟩ | ⟨-, ht, d, more, hd⟩
  · have ho : ∀ b ∈ (0x2d :: unsignedBytes n : Bytes), isOrdinary b = true :=
      List.forall_mem_cons.mpr ⟨by decide, hu⟩
    rw [ht, tokens_run (List.cons_ne_nil _ _) ho he]
    rfl
  · rw [ht, tokens_run (by rw [hd]; exact List.cons_ne_nil _ _) hu he, hd]
    simp [Token.ofRun]

/-- A word is one token. -/
theorem tokens_word {value : Value} {b : UInt8} {word rest : Bytes}
    (hw : (value, b, word) ∈ words) (he : Ends isOrdinary rest) :
    tokens (b :: (word ++ rest)) = .word (b :: word) :: tokens rest := by
  have ho : (b :: word).all isOrdinary = true := by
    simp only [words, List.mem_cons, Prod.mk.injEq, List.not_mem_nil, or_false] at hw
    rcases hw with ⟨-, rfl, rfl⟩ | ⟨-, rfl, rfl⟩ | ⟨-, rfl, rfl⟩ <;> rfl
  have hr : Token.ofRun (b :: word) = .word (b :: word) := by
    simp only [words, List.mem_cons, Prod.mk.injEq, List.not_mem_nil, or_false] at hw
    rcases hw with ⟨-, rfl, rfl⟩ | ⟨-, rfl, rfl⟩ | ⟨-, rfl, rfl⟩ <;> rfl
  rw [← List.cons_append,
    tokens_run (List.cons_ne_nil _ _) (List.all_eq_true.mp ho) he, hr]

/-- A layout has the tokens of its value. -/
theorem lexes_layout (value : Value) : Lexes (Layout value) value.tokens := by
  -- By induction on the depth: the parts of a container are one level less deep.
  induction hd : value.depth using Nat.strongRecOn generalizing value with
  | ind depth ih =>
    intro text rest hl he
    have hopen : isMark 0x5b = true ∧ isMark 0x7b = true := by decide
    have hclose : isMark 0x5d = true ∧ isMark 0x7d = true := by decide
    cases hl with
    | null =>
      obtain ⟨b, word, ht, hw⟩ := ofText_null
      rw [Value.tokens, ht]
      exact tokens_word hw he
    | bool truth =>
      obtain ⟨b, word, ht, hw⟩ := ofText_bool truth
      rw [Value.tokens, ht]
      exact tokens_word hw he
    | number n => exact tokens_number n he
    | string text =>
      rw [quoted_append]
      exact tokens_quote (readString_quoted text rest)
    | @array items _ hp =>
      rw [Value.depth] at hd
      rw [List.cons_append, tokens_mark hopen.1, hp.lexes hclose.1, Value.tokens,
        itemTokens_eq_map, List.cons_append]
      intro item hi
      have hle := depthOfItems_le_iff.mp (Nat.le_refl _) item hi
      exact ih item.depth (by omega) item rfl
    | @object members _ hp =>
      rw [Value.depth] at hd
      rw [List.cons_append, tokens_mark hopen.2, hp.lexes hclose.2, Value.tokens,
        memberTokens_eq_map, List.cons_append]
      intro m hm
      have hle := depthOfMembers_le_iff.mp (Nat.le_refl _) m hm
      exact (ih m.2.depth (by omega) m.2 rfl).member

/-- The lines that a value is printed as have the tokens of the value. -/
theorem tokens_indented (value : Value) : tokens (.ofText value.indented) = value.tokens := by
  have h := lexes_layout value _ [] (indented_layout value) (Ends.nil isOrdinary)
  rwa [List.append_nil, tokens_nil, List.append_nil] at h

end BusClient.Json
