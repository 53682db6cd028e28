import Mathlib.Data.List.Forall2
import Dialogue.Proofs.Match.Captured
import Dialogue.Proofs.Match.Filled

/-!
# Dictionaries whose payloads can be filled

A dictionary is well formed if each marker in a payload has its place in the pattern: there are enough words `*`, or
enough words of the entity.  Then every match fills the payload (`Dictionary.lookup_of_wellFormed`), because the
words of the pattern are as many as what was captured:

* `Cut.count_entity` — the entities, and `Cut.count_wildcard` — the wildcards;
* `Cut.exists_captured` — so a marker that has a place stands for something;
* `Captures.exists_fill` — a payload is filled word by word.
-/

namespace Dialogue

open Text

/-! ### Statements -/

/-- the pattern word that an entity with a tag takes the place of -/
def entityWord (tag : String) : String :=
  tag ++ "_MKR"

/-- a pattern has a word for what a marker stands for -/
def Marker.HasPlace (pattern : List String) : Marker → Prop
  | .wildcard n => n < pattern.count Dialogue.wildcard
  | .entity tag n => n < pattern.count (entityWord tag)

instance (pattern : List String) : DecidablePred (Marker.HasPlace pattern)
  | .wildcard n => inferInstanceAs (Decidable (n < _))
  | .entity _ n => inferInstanceAs (Decidable (n < _))

/-- a word without the semicolon behind it -/
def bare (word : List Char) : List Char :=
  if word.getLast? = some ';' then word.dropLast else word

/-- each marker in a payload, with a semicolon behind it or not, has a place in the pattern -/
def Fillable (pattern : List String) (payload : String) : Prop :=
  ∀ word ∈ words payload.toList, ∀ marker ∈ Marker.parse? (bare word), marker.HasPlace pattern

instance (pattern : List String) (payload : String) : Decidable (Fillable pattern payload) := by
  unfold Fillable
  infer_instance

/-- each marker in a payload of a dictionary has a place in the pattern of the payload -/
def Dictionary.WellFormed (d : Dictionary) : Prop :=
  ∀ pattern payload, d.payload? pattern = some payload → Fillable pattern payload

/-- no word is `*`, and none is spelled as an entity is -/
def Utterance.Unmarked (u : Utterance) : Prop :=
  ∀ w, Token.literal w ∈ u.tokens → w ≠ wildcard ∧ ¬ "_MKR".toList <:+ w.toList

/-- what a marker stands for among the blocks of a match: the words of a wildcard, or the value of an entity -/
def Block.captured? (bs : List Block) : Marker → Option String
  | .wildcard n => (bs.filterMap Block.taken?)[n]?
  | .entity tag n => ((bs.flatMap Block.tokens).filterMap (Token.valueOf? tag))[n]?

/-- a word of a payload, and what stands in its place: a marker gives way to what was captured, and the semicolon
behind it stays -/
inductive Replaced (captured? : Marker → Option String) : List Char → String → Prop
  | word {body ending : List Char} (hending : Captures.IsEnding body ending) (h : Marker.parse? body = none) :
    Replaced captured? (body ++ ending) (String.ofList (body ++ ending))
  | marker {body ending : List Char} {marker : Marker} {v : String} (hending : Captures.IsEnding body ending)
    (h : Marker.parse? body = some marker) (hv : captured? marker = some v) :
    Replaced captured? (body ++ ending) (v ++ String.ofList ending)

/-! ### The words of a pattern and what was captured -/

theorem Token.spelling_eq_entityWord_iff {tag : String} {t : Token}
    (ht : ∀ w, t = .literal w → ¬ "_MKR".toList <:+ w.toList) :
    t.spelling = entityWord tag ↔ ∃ v, t = .entity tag v := by
  cases t with
  | literal w =>
    have hw : w ≠ entityWord tag := by
      rintro rfl
      refine ht _ rfl ⟨tag.toList, ?_⟩
      rw [entityWord, String.toList_append]
    simpa [spelling] using hw
  | entity tag' v =>
    have hinj : tag' ++ "_MKR" = tag ++ "_MKR" ↔ tag' = tag := by
      rw [← String.toList_inj, String.toList_append, String.toList_append, List.append_left_inj, String.toList_inj]
    simp [spelling, entityWord, hinj]

theorem wildcard_ne_entityWord (tag : String) : wildcard ≠ entityWord tag := by
  intro h
  have hlast := congrArg (fun s => s.toList.getLast?) h
  simp [entityWord, wildcard] at hlast

/-- one block spells an entity as often as there is one in it -/
theorem Block.count_entity {b : Block} (hb : ∀ w, Token.literal w ∈ b.tokens → ¬ "_MKR".toList <:+ w.toList)
    (tag : String) : [b.word].count (entityWord tag) = (b.tokens.filterMap (Token.valueOf? tag)).length := by
  cases b with
  | token t =>
    have hspelling : t.spelling = entityWord tag ↔ ∃ v, t = .entity tag v :=
      Token.spelling_eq_entityWord_iff fun w hw => hb w (by simp [tokens, hw])
    by_cases h : t.spelling = entityWord tag
    · obtain ⟨v, rfl⟩ := hspelling.1 h
      simp [word, tokens, h, Token.valueOf?]
    · have hnone : t.valueOf? tag = none := by
        cases t with
        | literal w => rfl
        | entity tag' v =>
          refine if_neg ?_
          rintro rfl
          exact h (hspelling.2 ⟨v, rfl⟩)
      simp [word, tokens, h, hnone]
  | wild ws =>
    have hnone : ws.filterMap (fun w => (Token.literal w).valueOf? tag) = [] := by
      simp [Token.valueOf?]
    simp [word, tokens, wildcard_ne_entityWord tag, List.filterMap_map, hnone]

namespace Cut

variable {ts : List Token} {pattern : List String} {c : Captures} {bs : List Block}

theorem count_wildcard (h : Cut ts pattern c bs) (hts : Token.literal wildcard ∉ ts) :
    pattern.count wildcard = (bs.filterMap Block.taken?).length := by
  rw [← h.words_eq]
  exact Block.count_wildcard fun t ht => h.spelling_ne hts ht

theorem count_entity (h : Cut ts pattern c bs)
    (hts : ∀ w, Token.literal w ∈ ts → ¬ "_MKR".toList <:+ w.toList) (tag : String) :
    pattern.count (entityWord tag) = ((bs.flatMap Block.tokens).filterMap (Token.valueOf? tag)).length := by
  have hblocks : ∀ b ∈ bs, ∀ w, Token.literal w ∈ b.tokens → ¬ "_MKR".toList <:+ w.toList := by
    intro b hb w hw
    refine hts w ?_
    rw [← h.tokens_eq]
    exact List.mem_flatMap.2 ⟨b, hb, hw⟩
  rw [← h.words_eq]
  clear h
  induction bs with
  | nil => rfl
  | cons b bs ih =>
    rw [List.forall_mem_cons] at hblocks
    have hb := Block.count_entity hblocks.1 tag
    have hbs := ih hblocks.2
    rw [List.map_cons, ← List.singleton_append, List.count_append, List.flatMap_cons, List.filterMap_append,
      List.length_append, hb, hbs]

/-- what the captures have for a marker is what stands for it among the blocks -/
theorem resolve?_eq (h : Cut ts pattern c bs) (marker : Marker) : c.resolve? marker = Block.captured? bs marker := by
  cases marker with
  | wildcard n => rw [Captures.resolve?, h.wildcards_eq, Block.captured?]
  | entity tag n =>
    have hvalues := h.values_eq tag
    rw [← h.tokens_eq, Captures.values] at hvalues
    rw [Captures.resolve?, Block.captured?, ← hvalues]
    cases Entries.get? tag c.entities with
    | none => rfl
    | some values => rfl

/-- a marker that has a place in the pattern stands for something -/
theorem exists_captured {u : Utterance} (h : Cut u.tokens pattern c bs) (hu : u.Unmarked) {marker : Marker}
    (hplace : marker.HasPlace pattern) : ∃ v, Block.captured? bs marker = some v := by
  cases marker with
  | wildcard n =>
    have hlength := h.count_wildcard fun hmem => (hu _ hmem).1 rfl
    rw [Marker.HasPlace, hlength] at hplace
    exact ⟨_, List.getElem?_eq_getElem hplace⟩
  | entity tag n =>
    have hlength := h.count_entity (fun w hw => (hu w hw).2) tag
    rw [Marker.HasPlace, hlength] at hplace
    exact ⟨_, List.getElem?_eq_getElem hplace⟩

end Cut

/-! ### Filling -/

theorem bare_append {body ending : List Char} (h : Captures.IsEnding body ending) : bare (body ++ ending) = body := by
  unfold bare
  rcases h with rfl | ⟨rfl, hlast⟩
  · rw [if_pos List.getLast?_concat, List.dropLast_concat]
  · rw [List.append_nil, if_neg hlast]

theorem exists_mapM_eq_ok {α β ε : Type} {f : α → Except ε β} {R : α → β → Prop} {xs : List α}
    (h : ∀ x ∈ xs, ∃ y, f x = .ok y ∧ R x y) : ∃ ys, xs.mapM f = .ok ys ∧ List.Forall₂ R xs ys := by
  induction xs with
  | nil => exact ⟨[], rfl, .nil⟩
  | cons x xs ih =>
    rw [List.forall_mem_cons] at h
    obtain ⟨⟨y, hy, hR⟩, hxs⟩ := h
    obtain ⟨ys, hys, hRs⟩ := ih hxs
    refine ⟨y :: ys, ?_, .cons hR hRs⟩
    rw [List.mapM_cons, hy, hys]
    rfl

/-- a payload is filled if there is something for each of its markers, each word in its place -/
theorem Captures.exists_fill {c : Captures} {payload : String}
    (h : ∀ word ∈ words payload.toList, ∀ marker ∈ Marker.parse? (bare word), ∃ v, c.resolve? marker = some v) :
    ∃ ss, c.fill payload = .ok (spaced ss) ∧ List.Forall₂ (Replaced c.resolve?) (words payload.toList) ss := by
  have hwords : ∀ w ∈ words payload.toList, ∃ s, c.fillWord w = .ok s ∧ Replaced c.resolve? w s := by
    intro w hw
    obtain ⟨body, ending, rfl, hending⟩ := exists_isEnding w
    have hfill := fillWord_append hending c
    cases hmarker : Marker.parse? body with
    | none =>
      rw [hmarker] at hfill
      exact ⟨_, hfill, .word hending hmarker⟩
    | some marker =>
      obtain ⟨v, hv⟩ := h _ hw marker (by rw [bare_append hending, hmarker, Option.mem_some_iff])
      rw [hmarker] at hfill
      simp only [hv] at hfill
      exact ⟨_, hfill, .marker hending hmarker hv⟩
  obtain ⟨ss, hss, hreplaced⟩ := exists_mapM_eq_ok hwords
  refine ⟨ss, ?_, hreplaced⟩
  rw [fill, hss]
  rfl

/-! ### Spoken words -/

/-- a spoken word has no capitals, and no asterisk -/
theorem Text.Spoken.unmarked {w : String} (h : Spoken w) : w ≠ wildcard ∧ ¬ "_MKR".toList <:+ w.toList := by
  constructor
  · rintro rfl
    have hstar := h.2 '*' (by simp [wildcard])
    exact hstar.ne (d := '*') (by decide) (by decide) rfl
  · rintro ⟨start, hw⟩
    have hcapital := (h.2 'M' (by rw [← hw]; simp)).2
    exact hcapital (by decide)

theorem Labels.literal_of_mem {known : String → List String → String → Prop} {ts us : List Token}
    (h : Labels known ts us) {word : String} (hword : Token.literal word ∈ us) : Token.literal word ∈ ts := by
  induction h with
  | nil => exact hword
  | keep t _ ih =>
    rcases List.mem_cons.1 hword with rfl | hword
    · exact List.mem_cons_self
    · exact List.mem_cons_of_mem t (ih hword)
  | entity _ _ _ ih =>
    rcases List.mem_cons.1 hword with heq | hword
    · cases heq
    · exact List.mem_append_right _ (ih hword)

theorem Extractor.literal_of_mem_chain {es : List Extractor} {u v : Utterance} (h : v ∈ chain es [u]) {word : String}
    (hword : Token.literal word ∈ v.tokens) : Token.literal word ∈ u.tokens := by
  obtain ⟨r, hr, -, hlabels⟩ := (mem_chain_iff_exists es).1 h
  rw [List.mem_singleton.1 hr] at hlabels
  exact hlabels.literal_of_mem hword

/-- no reading of a text has a word that is spelled as a wildcard or as an entity is -/
theorem Extractor.unmarked_of_mem_chain {es : List Extractor} {text : String} {v : Utterance}
    (h : v ∈ chain es [.parse text]) : v.Unmarked := by
  intro word hword
  have hspoken : (Token.literal word).Heard := Utterance.heard_parse text _ (literal_of_mem_chain h hword)
  exact Spoken.unmarked hspoken

namespace Dictionary

theorem payload?_of_find? {d : Dictionary} {ts : List Token} {m : Match} (h : Match.find? d ts = some m) :
    ∃ payload, d.payload? m.pattern = some payload := by
  obtain ⟨p, -, h⟩ := Option.bind_eq_some_iff.1 h
  rw [Progress.finish?, Option.ite_none_right_eq_some] at h
  obtain ⟨hcomplete, h⟩ := h
  cases h
  exact Option.isSome_iff_exists.1 hcomplete

/-- **A well-formed dictionary never fails.**  An utterance that matches a pattern gives the words of its payload,
with what the blocks of the match captured in place of the markers; one that matches no pattern gives nothing.
Every reading of a text by extractors is such an utterance. -/
theorem lookup_of_wellFormed {d : Dictionary} (hd : d.WellFormed) :
    (∀ u : Utterance, u.Unmarked →
      (∀ marker, d.lookup u ≠ .error marker) ∧
      (Match.find? d u.tokens = none → d.lookup u = .ok none) ∧
      ∀ m, Match.find? d u.tokens = some m →
        ∃ payload bs ss, d.payload? m.pattern = some payload ∧ Cut u.tokens m.pattern m.captures bs ∧
          List.Forall₂ (Replaced (Block.captured? bs)) (words payload.toList) ss ∧
          d.lookup u = .ok (some (spaced ss))) ∧
    ∀ (w : Workflow) (es : List Extractor), w.Extracts es → ∀ (text : String) (v : Utterance),
      w.Reads (.parse text) v → v.Unmarked := by
  refine ⟨fun u hu => ?_, fun w es hw text v hv => Extractor.unmarked_of_mem_chain ((w.reads_iff hw).1 hv)⟩
  have hnone : Match.find? d u.tokens = none → d.lookup u = .ok none := by
    intro h
    rw [lookup, h]
  have hsome : ∀ m, Match.find? d u.tokens = some m →
      ∃ payload bs ss, d.payload? m.pattern = some payload ∧ Cut u.tokens m.pattern m.captures bs ∧
        List.Forall₂ (Replaced (Block.captured? bs)) (words payload.toList) ss ∧
        d.lookup u = .ok (some (spaced ss)) := by
    intro m hm
    obtain ⟨payload, hpayload⟩ := payload?_of_find? hm
    obtain ⟨bs, hcut⟩ := Match.exists_cut hm
    have hresolve : m.captures.resolve? = Block.captured? bs := funext hcut.resolve?_eq
    -- the cut has a block for every marker, since the payload is well formed for its pattern
    have hcaptured : ∀ word ∈ words payload.toList, ∀ marker ∈ Marker.parse? (bare word),
        ∃ v, m.captures.resolve? marker = some v := by
      intro word hword marker hmarker
      rw [hresolve]
      exact hcut.exists_captured hu (hd _ _ hpayload word hword marker hmarker)
    obtain ⟨ss, hfill, hreplaced⟩ := Captures.exists_fill hcaptured
    rw [hresolve] at hreplaced
    refine ⟨payload, bs, ss, hpayload, hcut, hreplaced, ?_⟩
    rw [lookup, hm]
    simp only [hpayload, Option.getD_some, hfill]
    rfl
  refine ⟨fun marker hmarker => ?_, hnone, hsome⟩
  cases hm : Match.find? d u.tokens with
  | none =>
    rw [hnone hm] at hmarker
    cases hmarker
  | some m =>
    obtain ⟨_, _, _, -, -, -, hlookup⟩ := hsome m hm
    rw [hlookup] at hmarker
    cases hmarker

/-- a pattern with two entities of a tag that ends as an entity is spelled, and a wildcard -/
def transfer : Dictionary :=
  Dictionary.empty.insert ["from", "x_MKR_MKR", "to", "x_MKR_MKR", "*"]
    "utt:/objects.to -> x_MKR_MKR_1; utt:/objects.note -> WC_0;"

theorem wellFormed_transfer : transfer.WellFormed := by
  intro pattern payload hpayload
  rw [transfer, payload?_insert] at hpayload
  split at hpayload
  · next hpattern =>
    rw [payload?_empty, Option.getD_none, Option.some_inj] at hpayload
    rw [hpattern, ← hpayload]
    decide
  · rw [payload?_empty] at hpayload
    cases hpayload

theorem lookup_of_wellFormed_transfer :
    transfer.WellFormed ∧
    let u : Utterance := ⟨[.literal "from", .entity "x_MKR" "rome", .literal "to", .entity "x_MKR" "new york",
      .literal "right", .literal "now"], "from Rome to New York right now"⟩
    u.Unmarked ∧ (∀ marker, transfer.lookup u ≠ .error marker) ∧
      transfer.lookup u = .ok (some "utt:/objects.to -> new york; utt:/objects.note -> right now;") ∧
      ∃ payload bs ss, transfer.payload? ["from", "x_MKR_MKR", "to", "x_MKR_MKR", "*"] = some payload ∧
        Cut u.tokens ["from", "x_MKR_MKR", "to", "x_MKR_MKR", "*"]
          ⟨["right now"], [("x_MKR", ["rome", "new york"])]⟩ bs ∧
        List.Forall₂ (Replaced (Block.captured? bs)) (words payload.toList) ss ∧
        transfer.lookup u = .ok (some (spaced ss)) := by
  refine ⟨wellFormed_transfer, ?_⟩
  intro u
  have hwords : ∀ w ∈ ["from", "to", "right", "now"], w ≠ wildcard ∧ ¬ "_MKR".toList <:+ w.toList := by decide
  have hu : u.Unmarked := by
    intro w hw
    exact hwords w (by simpa [u] using hw)
  have hfind : Match.find? transfer u.tokens = some ⟨["from", "x_MKR_MKR", "to", "x_MKR_MKR", "*"],
      ⟨["right now"], [("x_MKR", ["rome", "new york"])]⟩⟩ := by decide
  have hlookup := (lookup_of_wellFormed wellFormed_transfer).1 u hu
  exact ⟨hu, hlookup.1, by decide, hlookup.2.2 _ hfind⟩

end Dictionary

end Dialogue
