import BusClient.Proofs.Json.Tokenwise
import BusClient.Proofs.Package.Completion

/-!
# What completing the paths does to the text

Completing the paths of a payload rewrites all of its text. Token by token the new text is the
settled old one, in which each marked record has another string for its path and nothing else is
changed. A number keeps all its digits, and nothing but an object of the reserved name is taken
for something else.
-/

namespace BusClient.Json

variable {α β : Type}

/-! ## A value in its place -/

/-- The parts around one part are spelled around it, whatever it is. -/
theorem joined_append (close : UInt8) (first : Bool) (front back : List (List Token)) :
    ∃ before after, ∀ part, joined close first (front ++ part :: back) =
      before ++ (part ++ after) := by
  induction front generalizing first with
  | nil =>
    cases first with
    | true => exact ⟨[], joined close false back, fun part => rfl⟩
    | false => exact ⟨[.mark 0x2c], joined close false back, fun part => rfl⟩
  | cons head front ih =>
    obtain ⟨before, after, h⟩ := ih false
    cases first with
    | true => exact ⟨head ++ before, after, fun part => by
        rw [List.cons_append, joined, h, List.append_assoc]⟩
    | false => exact ⟨.mark 0x2c :: (head ++ before), after, fun part => by
        rw [List.cons_append, joined, h, List.cons_append, List.append_assoc]⟩

namespace Members

/-- A member that is put takes the place of the one of its name. -/
theorem exists_put_eq {members : Members} {name : String} {value : Value}
    (hn : members.names.Nodup) (hv : members.get? name = some value) :
    ∃ front back, members = front ++ (name, value) :: back ∧
      ∀ other, members.put name other = front ++ (name, other) :: back := by
  obtain ⟨m, hm, rfl⟩ := Option.map_eq_some_iff.mp hv
  obtain ⟨hname, front, back, rfl, hf⟩ := List.find?_eq_some_iff_append.mp hm
  obtain ⟨other, value⟩ := m
  obtain rfl : other = name := eq_of_beq hname
  have hb : ∀ m ∈ back, (m.1 == other) = false := by
    intro m hm
    have hnot : other ∉ names back := by
      rw [names, List.map_append, List.nodup_append, List.map_cons, List.nodup_cons] at hn
      exact hn.2.1.1
    rw [beq_eq_false_iff_ne]
    exact fun he => hnot (he ▸ List.mem_map_of_mem hm)
  have hkeep : ∀ (new : Value) (ms : Members), (∀ m ∈ ms, (m.1 == other) = false) →
      ms.map (fun m => if m.1 == other then (other, new) else m) = ms := by
    intro new ms h
    have hid : ∀ m ∈ ms, (if m.1 == other then (other, new) else m) = id m := by
      intro m hm
      rw [h m hm, if_neg (by decide), id]
    rw [List.map_congr_left hid, List.map_id]
  have hfront : ∀ m ∈ front, (m.1 == other) = false := by
    intro m hm
    simpa using hf m hm
  refine ⟨front, back, rfl, fun new => ?_⟩
  rw [put, if_pos (has_of_get? hv), List.map_append, List.map_cons, hkeep new front hfront,
    hkeep new back hb, if_pos hname]

/-- The value of a member is spelled in one place. -/
theorem tokens_put {members : Members} {name : String} {value : Value}
    (hn : members.names.Nodup) (hv : members.get? name = some value) :
    ∃ before after, (Value.object members).tokens = before ++ (value.tokens ++ after) ∧
      ∀ other, (Value.object (members.put name other)).tokens =
        before ++ (other.tokens ++ after) := by
  obtain ⟨front, back, hm, hp⟩ := exists_put_eq hn hv
  obtain ⟨before, after, h⟩ :=
    joined_append 0x7d true (front.map tokensOfMember) (back.map tokensOfMember)
  have ht : ∀ other, (Value.object (front ++ (name, other) :: back)).tokens =
      (.mark 0x7b :: before ++ [.text name, .mark 0x3a]) ++ (other.tokens ++ after) := by
    intro other
    rw [Value.tokens, memberTokens_eq_map, List.map_append, List.map_cons, h, tokensOfMember]
    simp
  refine ⟨.mark 0x7b :: before ++ [.text name, .mark 0x3a], after, ?_, fun other => ?_⟩
  · rw [hm]
    exact ht value
  · rw [hp]
    exact ht other

end Members

end BusClient.Json

namespace BusClient.Package

open Json

/-! ## Records and documents -/

/-- The tokens of a record before and after. Those of a marked one differ in the string of its
path, which stands where any other path would stand. -/
inductive Retells (record : Members) : List Token → List Token → Prop
  | unmarked (hm : ¬ Marked record) :
      Retells record (Value.object record).tokens (Value.object record).tokens
  | marked (hm : Marked record) {before after : List Token} {old : String}
      (ho : record.get? "path" = some (.string old))
      (hp : ∀ path, (Value.object (record.put "path" (.string path))).tokens =
        before ++ .text path :: after)
      (ht : (Value.object record).tokens = before ++ .text old :: after) (new : String) :
      Retells record (before ++ .text old :: after) (before ++ .text new :: after)

/-- The tokens of a document before and after: those of its record, or of its records in turn. -/
inductive RetellsDocument : Value → List Token → List Token → Prop
  | record {record : Members} {ts ts' : List Token} (h : Retells record ts ts') :
      RetellsDocument (.object record) ts ts'
  | records {records : List Members} {parts : List (List Token × List Token)}
      (h : List.Forall₂ (fun record part => Retells record part.1 part.2) records parts) :
      RetellsDocument (.array (records.map .object))
        (.mark 0x5b :: joined 0x5d true (parts.map (·.1)))
        (.mark 0x5b :: joined 0x5d true (parts.map (·.2)))

/-- A token before and after. A number keeps its digits, and nothing becomes another kind of
token. -/
inductive Keeps : Token → Token → Prop
  | mark (b : UInt8) : Keeps (.mark b) (.mark b)
  | word (spelling : Bytes) : Keeps (.word spelling) (.word spelling)
  | number {spelling spelling' : Bytes} (hs : spelling' = respell spelling)
      (hd : spelling'.filter Digit.isByte = spelling.filter Digit.isByte) :
      Keeps (.number spelling) (.number spelling')
  | text (old new : String) : Keeps (.text old) (.text new)

variable {package : Package} {record after : Members}

/-- A record is completed token by token. -/
theorem Completes.retells (h : Completes package record after) (hn : record.names.Nodup) :
    Retells record (Value.object record).tokens (Value.object after).tokens := by
  by_cases hm : Marked record
  · obtain ⟨info, hd, hmark⟩ := hm
    obtain ⟨_, directory, old, _, _, ho, he⟩ := h.marked info hd hmark
    obtain ⟨before, behind, ht, hp⟩ := Members.tokens_put hn ho
    rw [he, hp, ht]
    exact .marked ⟨info, hd, hmark⟩ ho (fun path => hp (.string path)) ht _
  · rw [h.unmarked hm]
    exact .unmarked hm

/-- Records are completed one after the other. -/
theorem retells_of_forall₂ {records afters : List Members} {depth : Nat}
    (h : List.Forall₂ (Completes package) records afters)
    (hr : ∀ value ∈ records.map Value.object, Reached (depth + 1) value) :
    ∃ parts : List (List Token × List Token),
      List.Forall₂ (fun record part => Retells record part.1 part.2) records parts ∧
        parts.map (·.1) = itemTokens (records.map .object) ∧
        parts.map (·.2) = itemTokens (afters.map .object) := by
  induction h with
  | nil => exact ⟨[], .nil, rfl, rfl⟩
  | @cons record after records afters hc _ ih =>
    rw [List.map_cons, List.forall_mem_cons] at hr
    obtain ⟨parts, hp, hb, ha⟩ := ih hr.2
    refine ⟨((Value.object record).tokens, (Value.object after).tokens) :: parts,
      .cons (hc.retells (reached_object_iff.mp hr.1).1) hp, ?_, ?_⟩
    · rw [List.map_cons, List.map_cons, itemTokens, hb]
    · rw [List.map_cons, List.map_cons, itemTokens, ha]

/-- A document is completed token by token. -/
theorem CompletesDocument.retells {document resolved : Value} {depth : Nat}
    (h : CompletesDocument package document resolved) (hr : Reached (depth + 2) document) :
    RetellsDocument document document.tokens resolved.tokens := by
  cases h with
  | record h => exact .record (h.retells (reached_object_iff.mp hr).1)
  | records hn h =>
    obtain ⟨parts, hp, hb, ha⟩ := retells_of_forall₂ h (reached_array_iff.mp hr)
    rw [Value.tokens, Value.tokens, ← hb, ← ha]
    exact .records hp

/-! ## Kinds and digits -/

/-- Strings may change, and nothing else. -/
inductive Rewords : Token → Token → Prop
  | same (t : Token) : Rewords t t
  | text (old new : String) : Rewords (.text old) (.text new)

theorem rewords_refl (ts : List Token) : List.Forall₂ Rewords ts ts :=
  List.forall₂_same.mpr fun t _ => .same t

/-- Of a record only a string changes. -/
theorem Retells.rewords {ts ts' : List Token} (h : Retells record ts ts') :
    List.Forall₂ Rewords ts ts' := by
  cases h with
  | unmarked => exact rewords_refl _
  | @marked _ before after old _ _ _ new =>
    exact List.rel_append (rewords_refl before) (.cons (.text old new) (rewords_refl after))

/-- What holds of the parts of a container holds of the whole. -/
theorem rewords_joined (close : UInt8) (first : Bool) {parts parts' : List (List Token)}
    (h : List.Forall₂ (List.Forall₂ Rewords) parts parts') :
    List.Forall₂ Rewords (joined close first parts) (joined close first parts') := by
  induction h generalizing first with
  | nil => exact rewords_refl _
  | cons hp _ ih =>
    cases first with
    | true => exact List.rel_append hp (ih false)
    | false => exact .cons (.same _) (List.rel_append hp (ih false))

/-- Of a document only strings change. -/
theorem RetellsDocument.rewords {document : Value} {ts ts' : List Token}
    (h : RetellsDocument document ts ts') : List.Forall₂ Rewords ts ts' := by
  cases h with
  | record h => exact h.rewords
  | records h =>
    refine .cons (.same _) (rewords_joined 0x5d true ?_)
    induction h with
    | nil => exact .nil
    | cons hp _ ih => exact .cons hp.rewords ih

/-- A token that is settled and perhaps reworded keeps its digits and its kind. -/
theorem keeps_of_rewords {t t' : Token} (h : Rewords t.respelled t') : Keeps t t' := by
  cases t with
  | mark b =>
    cases h
    exact .mark b
  | word spelling =>
    cases h
    exact .word spelling
  | number spelling =>
    cases h
    exact .number rfl (respell_digits spelling)
  | text old =>
    cases h with
    | same => exact .text old old
    | text _ new => exact .text old new

/-! ## The text -/

/-- Of a payload in which no object names a member twice the completed text has the same tokens,
once these are settled, up to the paths of the marked records. Numbers keep their digits, and
nothing becomes another kind of token than it was, unless the reserved name opens an object. -/
theorem completePaths_retells (config : Configuration) (package : Package)
    (appId payload text : String) (hc : config.package = some package)
    (ha : package.appId = some appId) (hn : repeats (tokens (.ofText payload)) = false)
    (h : completePaths config.package payload = .ok text) :
    (∃ document, Value.ofText payload = .ok document ∧
        RetellsDocument document (settled (tokens (.ofText payload)))
          (tokens (.ofText text))) ∧
      List.Forall₂ Keeps (collapse (tokens (.ofText payload))) (tokens (.ofText text)) ∧
      ((∀ front rest, tokens (.ofText payload) ≠
          front ++ .mark 0x7b :: .text "$serde_json::private::Number" :: rest) →
        List.Forall₂ Keeps (tokens (.ofText payload)) (tokens (.ofText text))) := by
  rw [hc, completePaths_of_some ha, completePayload] at h
  split at h
  · cases h
  next document hd =>
    split at h
    · cases h
    next resolved hr =>
      cases h
      have hretells := (resolveDocument_eq_ok_iff.mp hr).retells
        (exists_ofText_iff.mp ⟨payload, hd⟩)
      rw [← ofText_tokens hd hn, ← tokens_indented resolved] at hretells
      have hkeeps : List.Forall₂ Keeps (collapse (tokens (.ofText payload)))
          (tokens (.ofText resolved.indented)) := by
        have hrewords := hretells.rewords
        rw [settled, List.forall₂_map_left_iff] at hrewords
        exact hrewords.imp fun _ _ => keeps_of_rewords
      refine ⟨⟨document, hd, hretells⟩, hkeeps, fun hfree => ?_⟩
      rwa [collapse_eq_self hfree] at hkeeps

/-- A payload of a marked record and of one that is not, with an exponent that is spelled anew and
a number that comes from an object. -/
theorem completePaths_retells_mixed :
    let package : Package := ⟨some "org.example.app", [("type-a", "/global/type-a")]⟩
    let config : Configuration := ⟨"/run/bus", none, some package⟩
    let payload := "[\x7b\"path\":\"\\u0061.bin\",\"app_info\":" ++
      "\"\x7b\\\"is_rpk\\\":\\\"T\\\",\\\"res_type\\\":\\\"type-a\\\"\x7d\"\x7d," ++
      "\x7b\"app_info\":\"\x7b\x7d\",\"of\":[1E5,\x7b\"path\":-0.10\x7d," ++
      "\x7b\"$serde_json::private::Number\":\"7\"\x7d]\x7d]"
    let text := "[\n  \x7b\n    \"path\": \"/global/type-a/a.bin\",\n    \"app_info\": " ++
      "\"\x7b\\\"is_rpk\\\":\\\"T\\\",\\\"res_type\\\":\\\"type-a\\\"\x7d\"\n  \x7d,\n" ++
      "  \x7b\n    \"app_info\": \"\x7b\x7d\",\n    \"of\": [\n" ++
      "      1e+5,\n      \x7b\n        \"path\": -0.10\n      \x7d,\n      7\n    ]\n  \x7d\n]"
    repeats (tokens (.ofText payload)) = false ∧
      completePaths config.package payload = .ok text ∧
      ∃ document, Value.ofText payload = .ok document ∧
        RetellsDocument document (settled (tokens (.ofText payload)))
          (tokens (.ofText text)) := by
  intro package config payload text
  have hn : repeats (tokens (.ofText payload)) = false := by decide +kernel
  have h : completePaths config.package payload = .ok text := by decide +kernel
  exact ⟨hn, h, (completePaths_retells config package _ payload text rfl rfl hn h).1⟩

/-- Of a payload without marked records an exponent is spelled anew all the same, and an object of
the reserved name is no object any more. -/
theorem completePaths_unsettled :
    let package : Package := ⟨some "org.example.app", []⟩
    let config : Configuration := ⟨"/run/bus", none, some package⟩
    let payload := "\x7b\"app_info\":\"\x7b\x7d\",\"size\":1E5," ++
      "\"of\":\x7b\"$serde_json::private::Number\":\"7\"\x7d\x7d"
    let text := "\x7b\n  \"app_info\": \"\x7b\x7d\",\n  \"size\": 1e+5,\n  \"of\": 7\n\x7d"
    repeats (tokens (.ofText payload)) = false ∧
      completePaths config.package payload = .ok text ∧
      .number (.ofText "1E5") ∈ tokens (.ofText payload) ∧
      .number (.ofText "1E5") ∉ tokens (.ofText text) ∧
      (tokens (.ofText payload)).count (.mark 0x7b) = 2 ∧
      (tokens (.ofText text)).count (.mark 0x7b) = 1 := by
  decide +kernel

end BusClient.Package
