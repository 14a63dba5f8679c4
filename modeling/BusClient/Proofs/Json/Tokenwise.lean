import BusClient.Proofs.Json.Settling

/-!
# Reading token by token

The document that a text holds has the settled tokens of the text, as long as no object names a
member twice: `ofText_tokens`. Each reader is followed through the tokens that it takes, and what
stands behind a value tells that the value is complete.
-/

namespace BusClient.Json

variable {α : Type}

/-! ## Where a value is complete -/

/-- No run goes on, and no colon comes: what has been read is a whole value. -/
def Stops (rest : Bytes) : Prop := Ends isOrdinary rest ∧ colonNext (tokens rest) = false

/-- A value that is read is spelled by the tokens that are gone then. -/
def Tells (reader : Reader α) (spelled : α → List Token) : Prop :=
  ∀ ⦃text : Bytes⦄ ⦃found : Found α text⦄, reader text = .ok found → Stops found.rest →
    repeats (tokens text) = false → Spends (tokens text) (spelled found.value) (tokens found.rest)

section

variable {text front rest : Bytes}

/-- In front of a mark that is no colon a value is complete. -/
theorem stops_of_mark {b : UInt8} {h : (b :: rest).length ≤ text.length}
    (hs : skipBlanks text = ⟨(), b :: rest, h⟩) (hm : isMark b = true) (hc : b ≠ 0x3a) :
    Stops text := by
  have hd : text.dropWhile isBlank = b :: rest := congrArg Maybe.rest hs
  have hb : Blanks (text.takeWhile isBlank) := List.all_eq_true.mp List.all_takeWhile
  have ht : text = text.takeWhile isBlank ++ b :: rest := by
    rw [← hd, List.takeWhile_append_dropWhile]
  constructor
  · rw [ht]
    exact .of_blanks hb hm rest
  · rw [tokens_skipBlanks hs, tokens_mark hm, colonNext]
    simpa using hc

/-- At the end of a text a value is complete. -/
theorem stops_of_end {h : ([] : Bytes).length ≤ text.length}
    (hs : skipBlanks text = ⟨(), [], h⟩) : Stops text := by
  have hd : text.dropWhile isBlank = [] := congrArg Maybe.rest hs
  constructor
  · intro b hb
    obtain ⟨more, rfl⟩ := List.head?_eq_some_iff.mp hb
    by_cases hblank : isBlank b = true
    · simp [isOrdinary, hblank]
    · rw [List.dropWhile_cons_of_neg hblank] at hd
      cases hd
  · rw [tokens_skipBlanks hs, tokens_nil]
    rfl

/-! ## Lists -/

/-- What comes where an item may come: the end of the list, the first item, or a comma and the
next one. -/
theorem itemStart_cases {first : Bool} {found : Maybe Bool text}
    (hr : itemStart first text = .ok found) :
    (found.value = false ∧ tokens text = tokens found.rest ∧ ∃ more, found.rest = 0x5d :: more) ∨
      found.value = true ∧
        tokens text = (if first then [] else [.mark 0x2c]) ++ tokens found.rest := by
  unfold itemStart at hr
  split at hr
  · cases hr
  next b rest h hs =>
    have ht := tokens_skipBlanks hs
    split at hr
    next hb =>
      cases hr
      exact .inl ⟨rfl, ht, rest, by rw [hb]⟩
    · split at hr
      next hf =>
        cases hr
        exact .inr ⟨rfl, by rw [hf, ht]; rfl⟩
      next hf =>
        split at hr
        next hb =>
          split at hr
          · cases hr
          next c more h' hs' =>
            split at hr
            · cases hr
            · cases hr
              refine .inr ⟨rfl, ?_⟩
              rw [if_neg hf, ht, hb, tokens_mark (by decide), tokens_skipBlanks hs']
              rfl
        · cases hr

/-- Behind an item a list goes on with a mark. -/
theorem stops_of_itemStart {found : Maybe Bool text} (hr : itemStart false text = .ok found) :
    Stops text := by
  unfold itemStart at hr
  split at hr
  · cases hr
  next b rest h hs =>
    split at hr
    next hb => exact stops_of_mark hs (by rw [hb]; decide) (by rw [hb]; decide)
    · rw [if_neg (by decide)] at hr
      split at hr
      next hb => exact stops_of_mark hs (by rw [hb]; decide) (by rw [hb]; decide)
      · cases hr

theorem stops_of_readItems {item : Reader α} {whole : Bytes} {done : List α}
    {h : text.length ≤ whole.length} {found : Found (List α) whole}
    (hr : readItems item whole false done text h = .ok found) : Stops text := by
  rw [readItems] at hr
  split at hr
  · cases hr
  next hs => exact stops_of_itemStart hs
  next hs => exact stops_of_itemStart hs

/-- A comma repeats no name. -/
theorem repeats_lead (first : Bool) (ts : List Token) :
    repeats ((if first then [] else [.mark 0x2c]) ++ ts) = repeats ts := by
  cases first <;> rfl

/-- The items of a list are spelled by the tokens up to its end. -/
theorem readItems_closes {item : Reader α} {spelled : α → List Token} (hi : Tells item spelled)
    {whole : Bytes} {first : Bool} {done : List α} {h : text.length ≤ whole.length}
    {found : Found (List α) whole} (hr : readItems item whole first done text h = .ok found)
    (hn : repeats (tokens text) = false) :
    ∃ values, found.value = done.reverse ++ values ∧
      Closes (tokens text) (joined 0x5d first (values.map spelled)) (tokens found.rest) := by
  fun_induction readItems item whole first done text h with
  | case1 => cases hr
  | case2 => cases hr
  | case3 first done text h rest hle hs _ rest' hlt he =>
    cases hr
    rcases itemStart_cases hs with ⟨-, ht, more, rfl⟩ | ⟨hv, -⟩
    · obtain ⟨hlt', he'⟩ := readListEnd_close more
      rw [he'] at he
      cases he
      refine ⟨[], (List.append_nil _).symm, ?_⟩
      rw [ht, tokens_mark (by decide)]
      exact closes_list first
    · cases hv
  | case4 => cases hr
  | case5 first done text h rest hle hs value rest' hlt hv ih =>
    rcases itemStart_cases hs with ⟨hf, -⟩ | ⟨-, ht⟩
    · cases hf
    · rw [ht, repeats_lead] at hn
      have hspends := hi hv (stops_of_readItems hr) hn
      obtain ⟨values, hvalues, hcloses⟩ := ih hr (hspends.keeps hn)
      refine ⟨value :: values, ?_, ?_⟩
      · rw [hvalues, List.reverse_cons, List.append_assoc, List.singleton_append]
      · rw [ht]
        exact hspends.item hcloses

/-! ## Objects -/

/-- What comes where a member may come: the end of the object, or its name, with a comma in front
if it is not the first one. -/
theorem readName?_cases {first : Bool} {found : Found (Option String) text}
    (hr : readName? first text = .ok found) :
    (found.value = none ∧ tokens text = .mark 0x7d :: tokens found.rest) ∨
      ∃ name, found.value = some name ∧
        tokens text = (if first then [] else [.mark 0x2c]) ++ .text name :: tokens found.rest := by
  unfold readName? at hr
  split at hr
  · cases hr
  next b rest h hs =>
    have ht := tokens_skipBlanks hs
    split at hr
    next hb =>
      cases hr
      exact .inl ⟨rfl, by rw [ht, hb, tokens_mark (by decide)]⟩
    · split at hr
      next hf =>
        split at hr
        next hb =>
          split at hr
          · cases hr
          next name hv =>
            cases hr
            refine .inr ⟨name.value, rfl, ?_⟩
            rw [hf, ht, hb, tokens_quote ⟨name.shorter, hv⟩]
            rfl
        · cases hr
      next hf =>
        split at hr
        next hb =>
          split at hr
          · cases hr
          next c more h' hs' =>
            split at hr
            next hc =>
              split at hr
              · cases hr
              next name hv =>
                cases hr
                refine .inr ⟨name.value, rfl, ?_⟩
                rw [if_neg hf, ht, hb, tokens_mark (by decide), tokens_skipBlanks hs', hc,
                  tokens_quote ⟨name.shorter, hv⟩]
                rfl
            · cases hr
        · cases hr

/-- Behind a member an object goes on with a mark. -/
theorem stops_of_readName? {found : Found (Option String) text}
    (hr : readName? false text = .ok found) : Stops text := by
  unfold readName? at hr
  split at hr
  · cases hr
  next b rest h hs =>
    split at hr
    next hb => exact stops_of_mark hs (by rw [hb]; decide) (by rw [hb]; decide)
    · rw [if_neg (by decide)] at hr
      split at hr
      next hb => exact stops_of_mark hs (by rw [hb]; decide) (by rw [hb]; decide)
      · cases hr

theorem stops_of_readMembers {σ : Type} {member : σ → String → Reader σ} {whole : Bytes}
    {known : σ} {h : text.length ≤ whole.length} {found : Found σ whole}
    (hr : readMembers member whole false known text h = .ok found) : Stops text := by
  rw [readMembers] at hr
  split at hr
  · cases hr
  next hn => exact stops_of_readName? hn
  next hn => exact stops_of_readName? hn

/-- What is read behind a colon. -/
theorem readAfterColon_cases {reader : Reader α} {found : Found α text}
    (hr : readAfterColon reader text = .ok found) :
    ∃ front h, tokens text = .mark 0x3a :: tokens front ∧
      reader front = .ok ⟨found.value, found.rest, h⟩ := by
  unfold readAfterColon at hr
  split at hr
  · cases hr
  next front hf hc =>
    split at hr
    · cases hr
    next inner hv =>
      cases hr
      refine ⟨front, inner.shorter, ?_, hv⟩
      unfold readColon at hc
      split at hc
      · cases hc
      next b rest h hs =>
        split at hc
        next hb =>
          cases hc
          rw [tokens_skipBlanks hs, hb, tokens_mark (by decide)]
        · cases hc

theorem readPair_cases {value : Reader Value} {done : List (String × Value)} {name : String}
    {found : Found (List (String × Value)) text}
    (hr : readPair value done name text = .ok found) :
    ∃ v front h, found.value = (name, v) :: done ∧ tokens text = .mark 0x3a :: tokens front ∧
      value front = .ok ⟨v, found.rest, h⟩ := by
  unfold readPair at hr
  split at hr
  · cases hr
  next inner hv =>
    cases hr
    obtain ⟨front, h, ht, hv⟩ := readAfterColon_cases hv
    exact ⟨inner.value, front, h, rfl, ht, hv⟩

/-- The further members of an object are spelled by the tokens up to its end. -/
theorem readMembers_closes {value : Reader Value} (hv : Tells value Value.tokens) {whole : Bytes}
    {first : Bool} {done : List (String × Value)} {h : text.length ≤ whole.length}
    {found : Found (List (String × Value)) whole} (hf : first = false)
    (hr : readMembers (readPair value) whole first done text h = .ok found)
    (hn : repeats (tokens text) = false) :
    ∃ more : Members, found.value = more.reverse ++ done ∧
      ClosesObject false more (tokens text) (tokens found.rest) := by
  fun_induction readMembers (readPair value) whole first done text h with
  | case1 => cases hr
  | case2 first done text h rest hlt hname =>
    cases hr
    rcases readName?_cases hname with ⟨-, ht⟩ | ⟨name, hv, -⟩
    · rw [ht]
      exact ⟨[], rfl, closesObject_end false⟩
    · cases hv
  | case3 => cases hr
  | case4 first done text h name rest hlt hname known' rest' hlt' hp ih =>
    subst hf
    rcases readName?_cases hname with ⟨hv, -⟩ | ⟨other, hv, ht⟩
    · cases hv
    · cases hv
      obtain ⟨v, front, h', hk, hc, hvalue⟩ := readPair_cases hp
      have hk : known' = (name, v) :: done := hk
      rw [if_neg (by decide), List.singleton_append, hc] at ht
      rw [ht] at hn ⊢
      simp only [repeats, Bool.or_eq_false_iff] at hn
      have hspends := hv hvalue (stops_of_readMembers hr) hn.2
      obtain ⟨more, hmore, hcloses⟩ := ih rfl hr (hspends.keeps hn.2)
      refine ⟨(name, v) :: more, ?_, (hcloses.first name hspends).next⟩
      rw [hmore, hk, List.reverse_cons, List.append_assoc, List.singleton_append]

/-- A text is read as its token. -/
theorem readText_eq {wanted string : String} (hr : Reads (readText wanted) text string rest) :
    tokens text = .text string :: tokens rest := by
  obtain ⟨h, hr⟩ := hr
  unfold readText at hr
  split at hr
  · cases hr
  next b inner h' hs =>
    split at hr
    next hb =>
      split at hr
      · cases hr
      next found hv =>
        cases hr
        rw [tokens_skipBlanks hs, hb, tokens_quote ⟨found.shorter, hv⟩]
    · cases hr

/-- All of a text spells a number. -/
theorem ofBytes_eq {n : Number} (hr : Number.ofBytes text = .ok n) :
    respell text = Bytes.ofText n.text := by
  unfold Number.ofBytes at hr
  split at hr
  next h hs =>
    cases hr
    unfold readSigned at hs
    split at hs
    · cases hs
    next b more =>
      split at hs
      next hb =>
        split at hs
        · cases hs
        next number hv =>
          obtain ⟨hvalue, hrest⟩ := Found.mk.inj (Except.ok.inj hs)
          have hvalue : number.value = n := hvalue
          have hrest : number.rest = [] := hrest
          obtain ⟨spelling, ht, he, -⟩ := readNumber_text_eq ⟨number.shorter, hv⟩
          rw [hrest, List.append_nil] at ht
          rw [hb, ht, ← hvalue, ← he]
          rfl
      · split at hs
        next hd =>
          obtain ⟨spelling, ht, he, -⟩ := readNumber_text_eq ⟨h, hs⟩
          rw [List.append_nil] at ht
          rw [ht, ← he]
          rfl
        · cases hs
  · cases hr
  · split at hr <;> cases hr

/-- The number of the reserved name is what its text spells. -/
theorem readReserved_eq {found : Found Value text} (hr : readReserved text = .ok found) :
    ∃ string n, found.value = .number n ∧ respell (.ofText string) = Bytes.ofText n.text ∧
      tokens text = .mark 0x3a :: .text string :: .mark 0x7d :: tokens found.rest := by
  unfold readReserved at hr
  split at hr
  · cases hr
  next string left h hv =>
    split at hr
    · cases hr
    next n hn =>
      split at hr
      · cases hr
      next b left' h' hs =>
        split at hr
        next hb =>
          cases hr
          obtain ⟨front, h'', hc, hv⟩ := readAfterColon_cases hv
          refine ⟨string, n, rfl, ofBytes_eq hn, ?_⟩
          rw [hc, readText_eq ⟨h'', hv⟩, tokens_skipBlanks hs, hb, tokens_mark (by decide)]
          rfl
        · cases hr

/-- An object is spelled by the tokens up to its end. -/
theorem readFreeObject_spends {value : Reader Value} (hv : Tells value Value.tokens)
    {found : Found Value text} (hr : readFreeObject value text = .ok found)
    (hn : repeats (tokens text) = false) :
    Spends (.mark 0x7b :: tokens text) found.value.tokens (tokens found.rest) := by
  unfold readFreeObject at hr
  split at hr
  · cases hr
  next left h hname =>
    cases hr
    rcases readName?_cases hname with ⟨-, ht⟩ | ⟨name, he, -⟩
    · rw [ht]
      exact (closesObject_end true).object (by simp)
    · cases he
  next name left h hname =>
    rcases readName?_cases hname with ⟨he, -⟩ | ⟨other, he, ht⟩
    · cases he
    cases he
    rw [if_pos rfl, List.nil_append] at ht
    have ht : tokens text = .text name :: tokens left := ht
    split at hr
    next hname =>
      split at hr
      · cases hr
      next number hres =>
        cases hr
        obtain ⟨string, n, hvalue, he, hs⟩ := readReserved_eq hres
        have hspends : Spends _ _ (tokens number.rest) := spends_reserved string
        rw [he] at hspends
        rw [ht, hname, hs]
        simp only [Found.beyond, hvalue]
        exact hspends
    next hname =>
      split at hr
      · cases hr
      next pairs left' h' hp =>
        obtain ⟨v, front, h'', hpairs, hc, hvalue⟩ := readPair_cases hp
        have hpairs : pairs = [(name, v)] := hpairs
        split at hr
        · cases hr
        next members hm =>
          cases hr
          have hnr : repeats (tokens front) = false := by
            rw [ht, hc] at hn
            simp only [repeats, Bool.or_eq_false_iff] at hn
            exact hn.2
          have hspends := hv hvalue (stops_of_readMembers hm) hnr
          obtain ⟨more, hmore, hcloses⟩ := readMembers_closes hv rfl hm (hspends.keeps hnr)
          have hobject := hcloses.first name hspends
          have hself : Members.ofPairs members.value.reverse = (name, v) :: more := by
            rw [hmore, hpairs, List.reverse_append, List.reverse_reverse, List.reverse_singleton,
              List.singleton_append]
            exact Members.ofPairs_eq_self (hobject.distinct (by rw [← hc, ← ht]; exact hn))
          rw [ht, hc]
          simp only [Found.map, Found.beyond, hself]
          exact hobject.object fun h => hname (Token.text.inj (Option.some.inj h))

/-! ## Values -/

/-- A word is spelled by its token. -/
theorem spends_readWord (value : Value) {b : UInt8} {word : Bytes}
    (hw : (value, b, word) ∈ words) {found : Maybe Unit text}
    (hr : readWord word text = .ok found) (he : Ends isOrdinary found.rest) :
    Spends (tokens (b :: text)) value.tokens (tokens found.rest) := by
  have hv : value.tokens = [.word (b :: word)] := by
    simp only [words, List.mem_cons, Prod.mk.injEq, List.not_mem_nil, or_false] at hw
    rcases hw with ⟨rfl, rfl, rfl⟩ | ⟨rfl, rfl, rfl⟩ | ⟨rfl, rfl, rfl⟩ <;>
      rw [Value.tokens] <;> decide
  have ht := tokens_word hw he
  rw [← readWord_eq hr] at ht
  rw [ht, hv]
  exact spends_word (b :: word)

/-- A number is spelled by its token. -/
theorem spends_readNumber {negative : Bool} {n : Number}
    (hr : Reads (readNumber negative) text n rest) (he : Ends isOrdinary rest) :
    Spends (tokens ((if negative then [0x2d] else []) ++ text)) (Value.number n).tokens
      (tokens rest) := by
  obtain ⟨spelling, rfl, hs, ho, hrun⟩ := readNumber_text_eq hr
  have hne : (if negative then [0x2d] else []) ++ spelling ≠ [] := by
    intro h
    rw [h] at hrun
    cases hrun
  rw [← List.append_assoc, tokens_run hne ho he, hrun, Value.tokens, ← hs]
  exact spends_number _

/-- A value is spelled by the tokens up to its end. -/
theorem readValue_tells (depth : Nat) : Tells (readValue depth) Value.tokens := by
  induction depth using Nat.strongRecOn with
  | ind depth ih =>
    intro text found hr hstops hn
    unfold readValue at hr
    split at hr
    · cases hr
    next b rest h hs =>
      rw [tokens_skipBlanks hs] at hn ⊢
      simp only at hr
      -- The three words come first, then numbers, strings, lists and objects.
      split at hr
      next hb =>
        split at hr
        · cases hr
        next word hw =>
          cases hr
          exact hb ▸ spends_readWord .null (by simp [words]) hw hstops.1
      split at hr
      next hb =>
        split at hr
        · cases hr
        next word hw =>
          cases hr
          exact hb ▸ spends_readWord (.bool true) (by simp [words]) hw hstops.1
      split at hr
      next hb =>
        split at hr
        · cases hr
        next word hw =>
          cases hr
          exact hb ▸ spends_readWord (.bool false) (by simp [words]) hw hstops.1
      split at hr
      next hb =>
        split at hr
        · cases hr
        next number hv =>
          cases hr
          exact hb ▸ spends_readNumber ⟨number.shorter, hv⟩ hstops.1
      split at hr
      · split at hr
        · cases hr
        next number hv =>
          cases hr
          exact spends_readNumber ⟨number.shorter, hv⟩ hstops.1
      split at hr
      next hb =>
        split at hr
        · cases hr
        next string hv =>
          cases hr
          rw [hb, tokens_quote ⟨string.shorter, hv⟩]
          exact spends_text string.value hstops.2
      split at hr
      next hb =>
        cases depth with
        | zero => cases hr
        | succ below =>
          simp only at hr
          split at hr
          · cases hr
          next items hv =>
            cases hr
            rw [hb, tokens_mark (by decide)] at hn ⊢
            obtain ⟨values, hvalues, hcloses⟩ :=
              readItems_closes (ih below (Nat.lt_succ_self _)) hv hn
            have hitems : (Value.array items.value).tokens =
                .mark 0x5b :: joined 0x5d true (values.map Value.tokens) := by
              rw [hvalues, Value.tokens, itemTokens_eq_map, List.reverse_nil, List.nil_append]
            exact hitems ▸ hcloses.list
      split at hr
      next hb =>
        cases depth with
        | zero => cases hr
        | succ below =>
          simp only at hr
          split at hr
          · cases hr
          next object hv =>
            cases hr
            rw [hb, tokens_mark (by decide)] at hn ⊢
            exact readFreeObject_spends (ih below (Nat.lt_succ_self _)) hv hn
      · cases hr

/-- The tokens of a text that holds a document are those of the document, once they are settled,
if no object names a member twice. -/
theorem ofText_tokens {payload : String} {document : Value}
    (hd : Value.ofText payload = .ok document) (hn : repeats (tokens (.ofText payload)) = false) :
    settled (tokens (.ofText payload)) = document.tokens := by
  unfold Value.ofText Value.ofBytes readAll at hd
  split at hd
  · cases hd
  next value rest h hv =>
    split at hd
    next hs =>
      cases hd
      have hspends := readValue_tells maxDepth hv (stops_of_end hs) hn
      have hsettles := hspends.settles
      rwa [tokens_skipBlanks hs, tokens_nil, settled_nil, List.append_nil] at hsettles
    · cases hd

end

end BusClient.Json
