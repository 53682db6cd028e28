import Dialogue.Proofs.Readings
import Dialogue.Proofs.Text.Words

/-!
# Readings and choices

The terms that are found in an utterance are in the order of their spans, so a choice of spans that do not overlap is a
sequence of places in the utterance, one behind the other.  A reading is made for each such choice: it cuts the tokens
into pieces, of which the terms at these places give way to entities and all others stay
(`Gazetteer.readings_chosen`).

* `Gazetteer.pairwise_occurrences` — terms are found by start and then by stop;
* `Gazetteer.exists_divides` — the labelling divides the tokens at the chosen spans;
* `Piece.eq_of_covered` — pieces are known by the tokens that they cover and those that stand for them.
-/

namespace Dialogue

open Text

/-! ### Spans in order -/

namespace Span

variable {s t : Span}

theorem stop_le_start (ht : t.start < t.stop) (h : s.before t = true) (hapart : s.overlaps t = false) :
    s.stop ≤ t.start := by
  rw [before_iff] at h
  unfold overlaps at hapart
  simp only [Bool.and_eq_false_iff, decide_eq_false_iff_not] at hapart
  omega

/-- of spans that are one behind the other, one that starts no later than the others is the first -/
theorem exists_eq_cons {spans : List Span} (horder : spans.Pairwise fun s t => s.stop ≤ t.start)
    (hpositive : ∀ t ∈ spans, t.start < t.stop) (hs : s ∈ spans) (hfirst : ∀ t ∈ spans, s.start ≤ t.start) :
    ∃ rest, spans = s :: rest := by
  cases spans with
  | nil => cases hs
  | cons t rest =>
    rcases List.mem_cons.1 hs with rfl | hbehind
    · exact ⟨rest, rfl⟩
    · have hstop : t.stop ≤ s.start := (List.pairwise_cons.1 horder).1 s hbehind
      have hlt : t.start < t.stop := hpositive t List.mem_cons_self
      have hle : s.start ≤ t.start := hfirst t List.mem_cons_self
      omega

end Span

/-- runs of words start where they are looked for, or behind it -/
theorem Utterance.start_le_of_mem_runsFrom {start : Nat} {words : List String} {ts : List Token} {r : WordRun}
    (h : r ∈ runsFrom start words ts) : start ≤ r.start := by
  induction ts generalizing start words with
  | nil =>
    obtain ⟨-, rfl⟩ := mem_closeRun_iff.1 h
    exact Nat.le_refl start
  | cons t ts ih =>
    cases t with
    | literal w => exact ih h
    | entity tag value =>
      rcases List.mem_append.1 h with h | h
      · obtain ⟨-, rfl⟩ := mem_closeRun_iff.1 h
        exact Nat.le_refl start
      · have hle := ih h
        omega

/-- a run of words stops before the next one starts -/
theorem Utterance.pairwise_runsFrom (start : Nat) (words : List String) (ts : List Token) :
    (runsFrom start words ts).Pairwise fun r r' => r.start + r.words.length ≤ r'.start := by
  have hclose (start : Nat) (words : List String) :
      (closeRun start words).Pairwise fun r r' => r.start + r.words.length ≤ r'.start := by
    unfold closeRun
    split
    · exact .nil
    · exact List.pairwise_singleton _ _
  induction ts generalizing start words with
  | nil => exact hclose start words
  | cons t ts ih =>
    cases t with
    | literal w => exact ih start (words ++ [w])
    | entity tag value =>
      refine List.pairwise_append.2 ⟨hclose start words, ih _ [], ?_⟩
      intro r hr r' hr'
      obtain ⟨-, rfl⟩ := mem_closeRun_iff.1 hr
      have hle := start_le_of_mem_runsFrom hr'
      simp only
      omega

namespace Gazetteer

variable {g : Gazetteer} {u : Utterance} {f : Found}

/-- **The terms of an utterance are found by start, and then by stop.** -/
theorem pairwise_occurrences (g : Gazetteer) (u : Utterance) :
    (g.occurrences u).Pairwise fun f f' => f.span.before f'.span = true := by
  unfold occurrences
  rw [List.pairwise_flatMap]
  constructor
  · intro r hr
    rw [List.pairwise_map]
    refine (g.pairwise_find r.words).imp ?_
    intro f f' h
    rw [Span.before_iff] at h ⊢
    unfold Span.shift
    simp only
    omega
  · refine (Utterance.pairwise_runsFrom 0 [] u.tokens).imp ?_
    intro r r' hrr f hf f' hf'
    obtain ⟨f₀, hf₀, rfl⟩ := List.mem_map.1 hf
    obtain ⟨f₀', hf₀', rfl⟩ := List.mem_map.1 hf'
    -- a term ends with its run, and the next run begins behind that
    obtain ⟨before, ws, after, hwords, hne, -, hspan⟩ := mem_find_iff.1 hf₀
    have hlength : 0 < ws.length := List.length_pos_iff.2 hne
    have hshort : before.length + ws.length ≤ r.words.length := by
      rw [hwords, List.length_append, List.length_append]
      omega
    rw [Span.before_iff]
    unfold Span.shift
    rw [hspan]
    simp only
    omega

theorem start_lt_stop (h : f ∈ g.occurrences u) : f.span.start < f.span.stop := by
  obtain ⟨ws, hne, -, -, hstop⟩ := mem_occurrences_iff.1 h
  have hlength : 0 < ws.length := List.length_pos_iff.2 hne
  omega

theorem nodup_spans (g : Gazetteer) (u : Utterance) : ((g.occurrences u).map Found.span).Nodup := by
  unfold List.Nodup
  rw [List.pairwise_map]
  exact (g.pairwise_occurrences u).imp Span.ne_of_before

theorem pairwise_chosen {chosen : List Span} (h : chosen ∈ Span.compatibleSubsets ((g.occurrences u).map Found.span)) :
    chosen.Pairwise fun s t => s.stop ≤ t.start := by
  obtain ⟨hsub, hapart⟩ := Span.mem_compatibleSubsets_iff.1 h
  have hbefore : chosen.Pairwise fun s t => s.before t = true := by
    refine List.Pairwise.sublist hsub ?_
    rw [List.pairwise_map]
    exact g.pairwise_occurrences u
  refine (hbefore.and hapart).imp_of_mem ?_
  intro s t hs ht hst
  obtain ⟨f, hf, rfl⟩ := List.mem_map.1 (hsub.subset ht)
  exact Span.stop_le_start (start_lt_stop hf) hst.1 hst.2

end Gazetteer

/-! ### Pieces of an utterance -/

/-- a part of an utterance in one of its readings: a token that stays, or the words of a term -/
inductive Piece where
  | kept (t : Token)
  | term (words : List String) (value : String)

namespace Piece

/-- the tokens of the utterance that a piece covers -/
def covered : Piece → List Token
  | kept t => [t]
  | term words _ => words.map .literal

/-- the token of the reading that stands for a piece -/
def token (tag : String) : Piece → Token
  | kept t => t
  | term _ value => .entity tag value

/-- the terms among pieces, of which the first covers the token at position `i` -/
def found : Nat → List Piece → List Found
  | _, [] => []
  | i, kept _ :: ps => found (i + 1) ps
  | i, term words value :: ps => ⟨⟨i, i + words.length⟩, value⟩ :: found (i + words.length) ps

/-- words are known by their spelling, if other words begin with them or they with others -/
theorem words_eq_of_spaced {words words' : List String} {ts ts' : List Token} (hne : words ≠ []) (hne' : words' ≠ [])
    (hspaced : spaced words = spaced words') (htokens : words.map .literal ++ ts = words'.map .literal ++ ts') :
    words = words' := by
  rcases List.append_eq_append_iff.1 htokens with ⟨more, hmore, -⟩ | ⟨more, hmore, -⟩
  · obtain ⟨vs, ws, rfl, hvs, -⟩ := List.map_eq_append_iff.1 hmore
    obtain rfl := Token.literal_injective.list_map hvs
    rw [eq_nil_of_spaced_append hne hspaced.symm, List.append_nil]
  · obtain ⟨vs, ws, rfl, hvs, -⟩ := List.map_eq_append_iff.1 hmore
    obtain rfl := Token.literal_injective.list_map hvs
    rw [eq_nil_of_spaced_append hne' hspaced, List.append_nil]

/-- a piece that has the words of a text for its value -/
def Spelled : Piece → Prop
  | kept _ => True
  | term words value => words ≠ [] ∧ value = spaced words

/-- a piece is known by its token and by the tokens from it on -/
theorem eq_of_append {tag : String} {p q : Piece} {ts ts' : List Token} (hp : p.Spelled) (hq : q.Spelled)
    (htoken : p.token tag = q.token tag) (hcovered : p.covered ++ ts = q.covered ++ ts') : p = q := by
  -- an entity is no word
  have hentity {words : List String} {value : String} {ts ts' : List Token} (hne : words ≠ []) :
      words.map Token.literal ++ ts ≠ .entity tag value :: ts' := by
    obtain ⟨w, words, rfl⟩ := List.exists_cons_of_ne_nil hne
    simp
  cases p with
  | kept t =>
    cases q with
    | kept t' => exact congrArg kept htoken
    | term words value =>
      obtain rfl : t = .entity tag value := htoken
      exact (hentity hq.1 hcovered.symm).elim
  | term words value =>
    cases q with
    | kept t =>
      obtain rfl : .entity tag value = t := htoken
      exact (hentity hp.1 hcovered).elim
    | term words' value' =>
      obtain rfl : value = value' := (Token.entity.inj htoken).2
      rw [words_eq_of_spaced hp.1 hq.1 (hp.2.symm.trans hq.2) hcovered]

/-- the words of a term are known by its value, and so pieces by their tokens -/
theorem eq_of_covered {tag : String} {ps qs : List Piece} (hps : ∀ p ∈ ps, p.Spelled) (hqs : ∀ q ∈ qs, q.Spelled)
    (hcovered : ps.flatMap covered = qs.flatMap covered) (htoken : ps.map (token tag) = qs.map (token tag)) :
    ps = qs := by
  induction ps generalizing qs with
  | nil =>
    rw [List.map_nil] at htoken
    exact (List.map_eq_nil_iff.1 htoken.symm).symm
  | cons p ps ih =>
    cases qs with
    | nil => simp at htoken
    | cons q qs =>
      rw [List.map_cons, List.map_cons, List.cons.injEq] at htoken
      rw [List.flatMap_cons, List.flatMap_cons] at hcovered
      rw [List.forall_mem_cons] at hps hqs
      obtain rfl : p = q := eq_of_append hps.1 hqs.1 htoken.1 hcovered
      rw [ih hps.2 hqs.2 (List.append_cancel_left hcovered) htoken.2]

end Piece

namespace Gazetteer

variable {g : Gazetteer} {u : Utterance} {tag value : String} {occurring : List Found} {chosen spans : List Span}
  {i : Nat} {ts us : List Token} {ps : List Piece} {f : Found}

/-- pieces of some tokens, of which the first is at position `i`: the terms among them are at some spans and occur
there, and the tokens that stand for the pieces are others -/
structure Divides (g : Gazetteer) (occurring : List Found) (tag : String) (i : Nat) (ts : List Token)
    (spans : List Span) (us : List Token) (ps : List Piece) : Prop where
  covers : ps.flatMap Piece.covered = ts
  tokens : ps.map (Piece.token tag) = us
  spans : (Piece.found i ps).map Found.span = spans
  occur : ∀ f ∈ Piece.found i ps, f ∈ occurring
  terms : ∀ words value, Piece.term words value ∈ ps → words ≠ [] ∧ g.terms.payload? words = some value

namespace Divides

theorem nil (g : Gazetteer) (occurring : List Found) (tag : String) (i : Nat) :
    g.Divides occurring tag i [] [] [] [] :=
  ⟨rfl, rfl, rfl, by simp [Piece.found], by simp⟩

theorem kept (h : g.Divides occurring tag (i + 1) ts spans us ps) (t : Token) :
    g.Divides occurring tag i (t :: ts) spans (t :: us) (.kept t :: ps) where
  covers := by rw [List.flatMap_cons, h.covers]; rfl
  tokens := by rw [List.map_cons, h.tokens]; rfl
  spans := h.spans
  occur := h.occur
  terms words value hmem := h.terms words value (by simpa using hmem)

theorem term {words : List String} (h : g.Divides occurring tag (i + words.length) ts spans us ps) (hne : words ≠ [])
    (hterm : g.terms.payload? words = some value) (hoccurs : ⟨⟨i, i + words.length⟩, value⟩ ∈ occurring) :
    g.Divides occurring tag i (words.map .literal ++ ts) (⟨i, i + words.length⟩ :: spans) (.entity tag value :: us)
      (.term words value :: ps) where
  covers := by rw [List.flatMap_cons, h.covers]; rfl
  tokens := by rw [List.map_cons, h.tokens]; rfl
  spans := by rw [Piece.found, List.map_cons, h.spans]
  occur f hf := by
    rcases List.mem_cons.1 hf with rfl | hf
    · exact hoccurs
    · exact h.occur f hf
  terms words' value' hmem := by
    rcases List.mem_cons.1 hmem with heq | hmem
    · cases heq
      exact ⟨hne, hterm⟩
    · exact h.terms words' value' hmem

/-- the value of each term is its words, if that is so in the gazetteer -/
theorem spelled (h : g.Divides occurring tag i ts spans us ps)
    (hspaced : ∀ words value, g.terms.payload? words = some value → value = spaced words) :
    ∀ p ∈ ps, p.Spelled := by
  intro p hp
  cases p with
  | kept t => trivial
  | term words value => exact (h.terms words value hp).imp_right (hspaced words value)

/-- which terms give way to entities can be seen from the entities, if each term is its words -/
theorem spans_unique {spans' : List Span} {ps' : List Piece}
    (hspaced : ∀ words value, g.terms.payload? words = some value → value = spaced words)
    (h : g.Divides occurring tag i ts spans us ps) (h' : g.Divides occurring tag i ts spans' us ps') :
    spans = spans' := by
  have hps : ps = ps' :=
    Piece.eq_of_covered (h.spelled hspaced) (h'.spelled hspaced) (h.covers.trans h'.covers.symm)
      (h.tokens.trans h'.tokens.symm)
  rw [← h.spans, ← h'.spans, hps]

end Divides

/-! ### What the labelling does -/

theorem Finds.start_lt_stop (h : g.Finds occurring i ts) (hf : f ∈ occurring) (hi : i ≤ f.span.start) :
    f.span.start < f.span.stop := by
  obtain ⟨ws, hne, -, -, hstop⟩ := (h f (f.span.start - i) (by omega)).1 hf
  have hlength : 0 < ws.length := List.length_pos_iff.2 hne
  omega

theorem Finds.start_lt_of_nil (h : g.Finds occurring i []) (hf : f ∈ occurring) : f.span.start < i := by
  by_contra hi
  obtain ⟨ws, hne, -, ⟨before, after, hnil, -⟩, -⟩ := (h f (f.span.start - i) (by omega)).1 hf
  simp [hne] at hnil

/-- spans of terms that are found, none of them before position `i` -/
def Ahead (occurring : List Found) (i : Nat) (spans : List Span) : Prop :=
  ∀ s ∈ spans, i ≤ s.start ∧ ∃ f ∈ occurring, f.span = s

namespace Ahead

variable {s : Span}

theorem start_lt_stop (hspans : Ahead occurring i spans) (h : g.Finds occurring i ts) (hs : s ∈ spans) :
    s.start < s.stop := by
  obtain ⟨hi, f, hf, rfl⟩ := hspans s hs
  exact h.start_lt_stop hf hi

theorem eq_nil (hspans : Ahead occurring i spans) (h : g.Finds occurring i []) : spans = [] := by
  rw [List.eq_nil_iff_forall_not_mem]
  intro s hs
  obtain ⟨hi, f, hf, rfl⟩ := hspans s hs
  exact hi.not_gt (h.start_lt_of_nil hf)

/-- spans of which none is at the first token are behind it -/
theorem next (hspans : Ahead occurring i spans) (hmiss : ∀ s ∈ spans, s.start ≠ i) : Ahead occurring (i + 1) spans :=
  fun s hs => ⟨(hspans s hs).1.lt_of_ne' (hmiss s hs), (hspans s hs).2⟩

/-- of spans in order all but the first are behind it -/
theorem rest (hspans : Ahead occurring i (s :: spans)) (horder : ∀ t ∈ spans, s.stop ≤ t.start) :
    Ahead occurring s.stop spans :=
  fun t ht => ⟨horder t ht, (hspans t (List.mem_cons_of_mem _ ht)).2⟩

end Ahead

/-- **The labelling divides the tokens** at the spans that are chosen, of which those before the first token do not
count: by induction on the number of tokens, where a term takes away as many as it has words. -/
theorem exists_divides (h : g.Finds occurring i ts) (hspans : Ahead occurring i spans)
    (horder : spans.Pairwise fun s t => s.stop ≤ t.start)
    (hchosen : ∀ f ∈ occurring, i ≤ f.span.start → (f.span ∈ chosen ↔ f.span ∈ spans)) :
    ∃ ps, g.Divides occurring tag i ts spans (label tag occurring chosen i 0 ts) ps := by
  induction hn : ts.length using Nat.strongRecOn generalizing i ts spans with
  | ind n ih =>
    cases ts with
    | nil =>
      rw [hspans.eq_nil h, label]
      exact ⟨[], .nil g occurring tag i⟩
    | cons t ts =>
      cases hhit : occurring.find? fun f => f.span.start == i && chosen.contains f.span with
      | none =>
        rw [find?_chosen_eq_none_iff] at hhit
        have hmiss : ∀ s ∈ spans, s.start ≠ i := by
          rintro s hs hstart
          obtain ⟨hi, f, hf, rfl⟩ := hspans s hs
          exact hhit f hf hstart ((hchosen f hf hi).2 hs)
        obtain ⟨ps, hps⟩ := ih ts.length (by rw [← hn, List.length_cons]; omega) h.tail (hspans.next hmiss) horder
          (fun f hf hi => hchosen f hf (by omega)) rfl
        rw [label_keep hhit]
        exact ⟨.kept t :: ps, hps.kept t⟩
      | some f =>
        obtain ⟨hf, rfl, hmem⟩ := chosen_of_find? hhit
        rw [hchosen f hf le_rfl] at hmem
        -- the spans are in order, so that of the term is the first of them
        obtain ⟨rest, rfl⟩ := Span.exists_eq_cons horder (fun s hs => hspans.start_lt_stop h hs) hmem
          fun s hs => (hspans s hs).1
        rw [List.pairwise_cons] at horder
        obtain ⟨words, hne, hterm, hplace, hstop⟩ := (h f 0 rfl).1 hf
        obtain ⟨after, hts⟩ := wordsAt_zero_iff.1 hplace
        have hlength : 0 < words.length := List.length_pos_iff.2 hne
        rw [hts] at h hn ⊢
        rw [List.length_append, List.length_map] at hn
        have hlater : Ahead occurring (f.span.start + words.length) rest := hstop ▸ hspans.rest horder.1
        have hrest : ∀ f' ∈ occurring, f.span.start + words.length ≤ f'.span.start →
            (f'.span ∈ chosen ↔ f'.span ∈ rest) := by
          intro f' hf' hi
          rw [hchosen f' hf' (by omega), List.mem_cons]
          refine or_iff_right fun heq => ?_
          rw [heq] at hi
          omega
        obtain ⟨ps, hps⟩ := ih after.length (by omega) h.behind hlater horder.2 hrest rfl
        have hspan : (⟨f.span.start, f.span.start + words.length⟩ : Span) = f.span := by
          rw [← hstop]
        have hdivides := hps.term hne hterm (hspan.symm ▸ hf)
        rw [hspan] at hdivides
        rw [label_term hne hhit hstop]
        exact ⟨.term words f.term :: ps, hdivides⟩

/-! ### Readings -/

/-- **Each reading belongs to a choice of terms.**  For every choice of spans that do not overlap there is one reading,
in the same order, and the first one is the utterance itself.  The tokens of the utterance are divided into pieces: the
terms among them are those at the chosen spans, and each is an entity in the reading; all other pieces are tokens that
stay.  If the terms are those of a text, as those of every gazetteer that is loaded, no reading is there twice. -/
theorem readings_chosen (g : Gazetteer) (tag : String) (u : Utterance) :
    List.Forall₂ (fun chosen v => v.typed = u.typed ∧
        ∃ ps, g.Divides (g.occurrences u) tag 0 u.tokens chosen v.tokens ps)
      (Span.compatibleSubsets ((g.occurrences u).map Found.span)) (g.readings u tag) ∧
      (g.readings u tag).head? = some u ∧ ∀ text, g = .ofTerms text → (g.readings u tag).Nodup := by
  have hdivides : ∀ chosen ∈ Span.compatibleSubsets ((g.occurrences u).map Found.span),
      ∃ ps, g.Divides (g.occurrences u) tag 0 u.tokens chosen (label tag (g.occurrences u) chosen 0 0 u.tokens) ps := by
    intro chosen hchosen
    have hsub : chosen.Sublist ((g.occurrences u).map Found.span) := (Span.mem_compatibleSubsets_iff.1 hchosen).1
    refine exists_divides (g.finds_occurrences u) ?_ (pairwise_chosen hchosen) fun f _ _ => Iff.rfl
    intro s hs
    exact ⟨Nat.zero_le _, List.mem_map.1 (hsub.subset hs)⟩
  refine ⟨?_, g.head?_readings u tag, ?_⟩
  · unfold readings
    rw [List.forall₂_map_right_iff, List.forall₂_same]
    intro chosen hchosen
    exact ⟨rfl, hdivides chosen hchosen⟩
  · rintro text rfl
    unfold readings
    refine List.Nodup.map_on ?_ (Span.nodup_compatibleSubsets (nodup_spans _ u))
    intro chosen hchosen chosen' hchosen' heq
    obtain ⟨ps, hps⟩ := hdivides chosen hchosen
    obtain ⟨ps', hps'⟩ := hdivides chosen' hchosen'
    rw [(Utterance.mk.inj heq).1] at hps
    exact hps.spans_unique (fun words value => eq_spaced_of_payload?) hps'

theorem readings_chosen_york :
    let g := ofTerms "new york\nyork"
    let u : Utterance := ⟨[.literal "new", .literal "york"], "New York"⟩
    g.readings u "city" = [u, { u with tokens := [.entity "city" "new york"] },
      { u with tokens := [.literal "new", .entity "city" "york"] }] ∧ (g.readings u "city").Nodup := by
  intro g u
  obtain ⟨-, -, hnodup⟩ := readings_chosen g "city" u
  exact ⟨by decide, hnodup _ rfl⟩

end Gazetteer

end Dialogue
