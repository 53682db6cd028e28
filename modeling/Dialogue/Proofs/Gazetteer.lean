import Mathlib.Data.List.Dedup
import Mathlib.Data.List.Pairwise
import Dialogue.Proofs.Search

/-!
# Terms among tokens

A gazetteer finds every place at which tokens are the words of a term (`Gazetteer.mem_occurrences_iff`), and a reading
of an utterance is the utterance with an entity in place of the words at some of these places
(`Gazetteer.mem_readings_iff`).

* `Utterance.mem_wordRuns_iff` — words that follow one another are in one run;
* `Labels` — some words give way to entities, in one pass over the tokens;
* `Gazetteer.labels_label`, `Gazetteer.Finds.exists_chosen` — which is what the choice of some spans does.
-/

namespace Dialogue

/-! ### Runs of words -/

/-- tokens that are a run of words at a place among others -/
def WordsAt (ts : List Token) (start : Nat) (ws : List String) : Prop :=
  ∃ before after, ts = before ++ ws.map .literal ++ after ∧ before.length = start

theorem mem_closeRun_iff {start : Nat} {words : List String} {r : WordRun} :
    r ∈ Utterance.closeRun start words ↔ words ≠ [] ∧ r = ⟨start, words⟩ := by
  unfold Utterance.closeRun
  cases words with
  | nil => simp
  | cons w words => simp

/-- words that follow one another are among the words before the first entity, or behind it -/
theorem wordsAt_entity_iff {words ws : List String} (hne : ws ≠ []) {tag value : String} {ts : List Token} {i : Nat} :
    WordsAt (words.map .literal ++ .entity tag value :: ts) i ws ↔
      WordsAt (words.map .literal) i ws ∨ ∃ j, WordsAt ts j ws ∧ i = words.length + 1 + j := by
  constructor
  · rintro ⟨before, after, hts, hi⟩
    rcases List.append_eq_append_iff.1 hts with ⟨middle, hbefore, hafter⟩ | ⟨middle, hwords, -⟩
    · cases middle with
      | nil =>
        rw [List.append_nil] at hbefore
        exact .inl ⟨before, [], by rw [List.append_nil, hbefore], hi⟩
      | cons t middle =>
        rw [List.cons_append, List.cons.injEq] at hafter
        obtain ⟨rfl, rfl⟩ := hafter
        rcases List.append_eq_append_iff.1 hbefore with ⟨start, -, hws⟩ | ⟨start, hstart, hws⟩
        · -- an entity is no word
          have hmem : Token.entity tag value ∈ ws.map Token.literal := by simp [hws]
          simp at hmem
        · cases start with
          | nil =>
            obtain ⟨w, ws, rfl⟩ := List.exists_cons_of_ne_nil hne
            simp at hws
          | cons t start =>
            rw [List.cons_append, List.cons.injEq] at hws
            refine .inr ⟨start.length, ⟨start, after, by rw [hws.2], rfl⟩, ?_⟩
            rw [← hi, hstart]
            simp
            omega
    · exact .inl ⟨before, middle, hwords, hi⟩
  · rintro (⟨before, after, hwords, hi⟩ | ⟨j, ⟨before, after, rfl, hj⟩, rfl⟩)
    · exact ⟨before, after ++ .entity tag value :: ts, by rw [hwords]; simp, hi⟩
    · refine ⟨words.map .literal ++ .entity tag value :: before, after, by simp, ?_⟩
      simp
      omega

theorem wordsAt_map_iff {words ws : List String} {i : Nat} :
    WordsAt (words.map .literal) i ws ↔ ∃ before after, words = before ++ ws ++ after ∧ before.length = i := by
  constructor
  · rintro ⟨before, after, hwords, hi⟩
    obtain ⟨vs, us, rfl, hvs, rfl⟩ := List.map_eq_append_iff.1 hwords
    obtain ⟨vs, us', rfl, rfl, hus⟩ := List.map_eq_append_iff.1 hvs
    rw [Token.literal_injective.list_map hus]
    exact ⟨vs, us, rfl, by rw [← hi, List.length_map]⟩
  · rintro ⟨before, after, rfl, hi⟩
    exact ⟨before.map .literal, after.map .literal, by simp, by rw [List.length_map, hi]⟩

/-- **Words that follow one another are in one run.** -/
theorem Utterance.mem_runsFrom_iff {ws : List String} (hne : ws ≠ []) {i : Nat} (start : Nat) (words : List String)
    (ts : List Token) :
    (∃ r ∈ runsFrom start words ts, ∃ j, i = r.start + j ∧ WordsAt (r.words.map .literal) j ws) ↔
      ∃ j, i = start + j ∧ WordsAt (words.map .literal ++ ts) j ws := by
  -- the run that an entity or the end closes is the words so far
  have hclose (start : Nat) (words : List String) :
      (∃ r ∈ closeRun start words, ∃ j, i = r.start + j ∧ WordsAt (r.words.map .literal) j ws) ↔
        ∃ j, i = start + j ∧ WordsAt (words.map .literal) j ws := by
    constructor
    · rintro ⟨r, hr, j, hj⟩
      obtain ⟨-, rfl⟩ := mem_closeRun_iff.1 hr
      exact ⟨j, hj⟩
    · rintro ⟨j, hi, hj⟩
      refine ⟨⟨start, words⟩, mem_closeRun_iff.2 ⟨?_, rfl⟩, j, hi, hj⟩
      rintro rfl
      obtain ⟨before, after, hwords, -⟩ := hj
      simp [hne] at hwords
  induction ts generalizing start words with
  | nil =>
    rw [runsFrom, hclose, List.append_nil]
  | cons t ts ih =>
    cases t with
    | literal w =>
      have hrun := ih start (words ++ [w])
      rw [List.map_append, List.append_assoc] at hrun
      exact hrun
    | entity tag value =>
      rw [runsFrom]
      simp only [List.mem_append, or_and_right, exists_or, hclose, ih, wordsAt_entity_iff hne, and_or_left,
        List.map_nil, List.nil_append]
      refine or_congr Iff.rfl ⟨?_, ?_⟩
      · rintro ⟨j, rfl, hj⟩
        exact ⟨words.length + 1 + j, by omega, j, hj, rfl⟩
      · rintro ⟨_, rfl, j, hj, rfl⟩
        exact ⟨j, by omega, hj⟩

theorem wordsAt_zero_iff {ts : List Token} {ws : List String} :
    WordsAt ts 0 ws ↔ ∃ after, ts = ws.map .literal ++ after := by
  constructor
  · rintro ⟨before, after, rfl, hlength⟩
    rw [List.length_eq_zero_iff] at hlength
    subst hlength
    exact ⟨after, rfl⟩
  · rintro ⟨after, rfl⟩
    exact ⟨[], after, rfl, rfl⟩

/-- what is behind some tokens does not depend on them -/
theorem wordsAt_append_iff {xs ts : List Token} {j : Nat} {ws : List String} :
    WordsAt (xs ++ ts) (xs.length + j) ws ↔ WordsAt ts j ws := by
  constructor
  · rintro ⟨before, after, hts, hlength⟩
    rw [List.append_assoc] at hts
    rcases List.append_eq_append_iff.1 hts with ⟨middle, rfl, rfl⟩ | ⟨middle, rfl, hafter⟩
    · refine ⟨middle, after, (List.append_assoc ..).symm, ?_⟩
      rw [List.length_append] at hlength
      omega
    · have hmiddle : middle = [] := by
        rw [List.length_append] at hlength
        rw [← List.length_eq_zero_iff]
        omega
      have hj : j = 0 := by
        rw [hmiddle, List.append_nil] at hlength
        omega
      rw [hmiddle, List.nil_append] at hafter
      exact ⟨[], after, by rw [← hafter, List.nil_append], hj.symm⟩
  · rintro ⟨before, after, rfl, rfl⟩
    exact ⟨xs ++ before, after, by simp, List.length_append⟩

/-- **A gazetteer finds a term wherever its words are among the tokens of an utterance.** -/
theorem Gazetteer.mem_occurrences_iff {g : Gazetteer} {u : Utterance} {f : Found} :
    f ∈ g.occurrences u ↔
      ∃ ws, ws ≠ [] ∧ g.terms.payload? ws = some f.term ∧ WordsAt u.tokens f.span.start ws ∧
        f.span.stop = f.span.start + ws.length := by
  have hruns {ws : List String} (hne : ws ≠ []) (i : Nat) := Utterance.mem_runsFrom_iff hne (i := i) 0 [] u.tokens
  unfold occurrences Utterance.wordRuns
  simp only [List.mem_flatMap, List.mem_map, mem_find_iff]
  constructor
  · rintro ⟨r, hr, f', ⟨before, ws, after, hwords, hne, hterm, hspan⟩, rfl⟩
    have hat : WordsAt (r.words.map .literal) before.length ws := wordsAt_map_iff.2 ⟨before, after, hwords, rfl⟩
    obtain ⟨_, hi, hplace⟩ := (hruns hne _).1 ⟨r, hr, before.length, rfl, hat⟩
    rw [Nat.zero_add] at hi
    subst hi
    rw [hspan]
    refine ⟨ws, hne, hterm, ?_, Nat.add_right_comm ..⟩
    rw [Span.shift, Nat.add_comm]
    exact hplace
  · rintro ⟨ws, hne, hterm, hplace, hstop⟩
    obtain ⟨r, hr, j, hi, hat⟩ := (hruns hne _).2 ⟨_, (Nat.zero_add _).symm, hplace⟩
    obtain ⟨before, after, hwords, rfl⟩ := wordsAt_map_iff.1 hat
    refine ⟨r, hr, ⟨⟨before.length, before.length + ws.length⟩, f.term⟩,
      ⟨before, ws, after, hwords, hne, hterm, rfl⟩, ?_⟩
    obtain ⟨⟨start, stop⟩, term⟩ := f
    simp only [Span.shift, Found.mk.injEq, Span.mk.injEq, and_true]
    simp only at hi hstop
    omega

/-! ### Entities in place of words -/

/-- some words of the first tokens give way to entities in the second: `known` gives a tag and a value for them; all
other tokens stay -/
inductive Labels (known : String → List String → String → Prop) : List Token → List Token → Prop
  | nil : Labels known [] []
  | keep (t : Token) {ts us : List Token} (h : Labels known ts us) : Labels known (t :: ts) (t :: us)
  | entity {tag value : String} {ws : List String} {ts us : List Token} (hne : ws ≠ [])
    (hknown : known tag ws value) (h : Labels known ts us) :
    Labels known (ws.map .literal ++ ts) (.entity tag value :: us)

namespace Gazetteer

variable {g : Gazetteer} {tag : String} {found : List Found} {chosen : List Span} {i : Nat} {ts us : List Token}

/-- what a gazetteer knows if its terms get a tag -/
def Knows (g : Gazetteer) (tag : String) (t : String) (ws : List String) (value : String) : Prop :=
  t = tag ∧ g.terms.payload? ws = some value

/-- the terms among tokens, of which the first is at position `i`, are those that were found from there on -/
def Finds (g : Gazetteer) (found : List Found) (i : Nat) (ts : List Token) : Prop :=
  ∀ f j, f.span.start = i + j → (f ∈ found ↔
    ∃ ws, ws ≠ [] ∧ g.terms.payload? ws = some f.term ∧ WordsAt ts j ws ∧ f.span.stop = f.span.start + ws.length)

theorem finds_occurrences (g : Gazetteer) (u : Utterance) : g.Finds (g.occurrences u) 0 u.tokens := by
  intro f j hj
  rw [Nat.zero_add] at hj
  rw [mem_occurrences_iff, hj]

theorem Finds.append {xs : List Token} (h : g.Finds found i (xs ++ ts)) : g.Finds found (i + xs.length) ts := by
  intro f j hj
  rw [h f (xs.length + j) (by omega)]
  simp only [wordsAt_append_iff]

theorem Finds.tail {t : Token} (h : g.Finds found i (t :: ts)) : g.Finds found (i + 1) ts := by
  rw [← List.singleton_append] at h
  exact h.append

theorem Finds.behind {ws : List String} (h : g.Finds found i (ws.map .literal ++ ts)) :
    g.Finds found (i + ws.length) ts := by
  have hbehind := h.append
  rwa [List.length_map] at hbehind

/-- the words of a term are found where the tokens begin with them -/
theorem Finds.mem_of_term {ws : List String} {value : String} (h : g.Finds found i (ws.map .literal ++ ts))
    (hne : ws ≠ []) (hterm : g.terms.payload? ws = some value) :
    (⟨⟨i, i + ws.length⟩, value⟩ : Found) ∈ found := by
  rw [h ⟨⟨i, i + ws.length⟩, value⟩ 0 rfl]
  exact ⟨ws, hne, hterm, wordsAt_zero_iff.2 ⟨ts, rfl⟩, rfl⟩

/-- and nothing else is found at their place -/
theorem Finds.term_eq {ws : List String} {value : String} {f : Found} (h : g.Finds found i (ws.map .literal ++ ts))
    (hterm : g.terms.payload? ws = some value) (hf : f ∈ found) (hspan : f.span = ⟨i, i + ws.length⟩) :
    f.term = value := by
  have hstart : f.span.start = i := by rw [hspan]
  obtain ⟨vs, -, hterm', hplace, hstop⟩ := (h f 0 hstart).1 hf
  obtain ⟨after, hvs⟩ := wordsAt_zero_iff.1 hplace
  rw [hspan, Nat.add_right_inj] at hstop
  have hwords : ws.map Token.literal = vs.map Token.literal :=
    (List.append_inj hvs (by rw [List.length_map, List.length_map, hstop])).1
  rw [← Token.literal_injective.list_map hwords, hterm, Option.some_inj] at hterm'
  exact hterm'.symm

/-! ### What the labelling does -/

/-- the term that gives way at a position is one that was found there and is chosen -/
theorem chosen_of_find? {f : Found}
    (h : found.find? (fun f => f.span.start == i && chosen.contains f.span) = some f) :
    f ∈ found ∧ f.span.start = i ∧ f.span ∈ chosen := by
  have hf := List.find?_some h
  rw [Bool.and_eq_true, beq_iff_eq, List.contains_iff_mem] at hf
  exact ⟨List.mem_of_find?_eq_some h, hf⟩

theorem find?_chosen_eq_none_iff :
    found.find? (fun f => f.span.start == i && chosen.contains f.span) = none ↔
      ∀ f ∈ found, f.span.start = i → f.span ∉ chosen := by
  simp only [List.find?_eq_none, Bool.and_eq_true, beq_iff_eq, List.contains_iff_mem, not_and]

theorem label_keep (hmiss : ∀ f ∈ found, f.span.start = i → f.span ∉ chosen) (tag : String) (t : Token)
    (ts : List Token) : label tag found chosen i 0 (t :: ts) = t :: label tag found chosen (i + 1) 0 ts := by
  rw [label, find?_chosen_eq_none_iff.2 hmiss]

theorem label_skip (tag : String) (found : List Found) (chosen : List Span) (i skip : Nat) (ts : List Token) :
    label tag found chosen i skip ts = label tag found chosen (i + skip) 0 (ts.drop skip) := by
  induction ts generalizing i skip with
  | nil => simp [label]
  | cons t ts ih =>
    cases skip with
    | zero => rfl
    | succ skip =>
      rw [label, ih, List.drop_succ_cons, Nat.add_right_comm, Nat.add_assoc]

/-- a term that is chosen gives way to an entity, and the labelling goes on behind its words -/
theorem label_term {ws : List String} {f : Found} (hne : ws ≠ [])
    (hhit : found.find? (fun f => f.span.start == i && chosen.contains f.span) = some f)
    (hstop : f.span.stop = f.span.start + ws.length) (ts : List Token) :
    label tag found chosen i 0 (ws.map .literal ++ ts) =
      .entity tag f.term :: label tag found chosen (i + ws.length) 0 ts := by
  obtain ⟨w, ws, rfl⟩ := List.exists_cons_of_ne_nil hne
  have hlength : f.span.length - 1 = ws.length := by
    rw [Span.length, hstop, List.length_cons]
    omega
  have hdrop : (ws.map Token.literal ++ ts).drop ws.length = ts := by
    rw [List.drop_append_of_le_length (by simp)]
    simp
  rw [List.map_cons, List.cons_append, label, hhit]
  simp only [hlength]
  rw [label_skip, hdrop, List.length_cons, Nat.add_right_comm, Nat.add_assoc]

/-- the words of a term give way if they are what is chosen of all that begins with them -/
theorem label_of_only {ws : List String} {value : String} (h : g.Finds found i (ws.map .literal ++ ts)) (hne : ws ≠ [])
    (hterm : g.terms.payload? ws = some value) (hmem : ⟨i, i + ws.length⟩ ∈ chosen)
    (honly : ∀ f ∈ found, f.span.start = i → f.span ∈ chosen → f.span = ⟨i, i + ws.length⟩) :
    label tag found chosen i 0 (ws.map .literal ++ ts) =
      .entity tag value :: label tag found chosen (i + ws.length) 0 ts := by
  obtain ⟨f, hhit⟩ : ∃ f, found.find? (fun f => f.span.start == i && chosen.contains f.span) = some f := by
    rw [← Option.ne_none_iff_exists', ne_eq, find?_chosen_eq_none_iff]
    exact fun hmiss => hmiss _ (h.mem_of_term hne hterm) rfl hmem
  obtain ⟨hf, hstart, hchosen⟩ := chosen_of_find? hhit
  have hspan : f.span = ⟨i, i + ws.length⟩ := honly f hf hstart hchosen
  rw [label_term hne hhit (by rw [hspan]), h.term_eq hterm hf hspan]

/-- **Whatever spans are chosen**, terms give way to entities. -/
theorem labels_label (h : g.Finds found i ts) : Labels (g.Knows tag) ts (label tag found chosen i 0 ts) := by
  induction hn : ts.length using Nat.strongRecOn generalizing i ts with
  | ind n ih =>
    cases ts with
    | nil =>
      rw [label]
      exact .nil
    | cons t ts =>
      cases hhit : found.find? fun f => f.span.start == i && chosen.contains f.span with
      | none =>
        rw [label, hhit]
        exact .keep t (ih ts.length (by rw [← hn, List.length_cons]; omega) h.tail rfl)
      | some f =>
        obtain ⟨hf, hstart, -⟩ := chosen_of_find? hhit
        obtain ⟨ws, hne, hterm, hplace, hstop⟩ := (h f 0 hstart).1 hf
        obtain ⟨after, hts⟩ := wordsAt_zero_iff.1 hplace
        have hlength := List.length_pos_iff.2 hne
        rw [hts] at h hn ⊢
        rw [label_term hne hhit hstop]
        rw [List.length_append, List.length_map] at hn
        exact .entity hne ⟨rfl, hterm⟩ (ih after.length (by omega) h.behind rfl)

/-- the spans of some entities: words that give way to entities are the terms at some spans that do not overlap, and
the labelling with these spans, whatever other spans are chosen before them, has these entities -/
theorem Finds.exists_chosen (h : g.Finds found i ts) (hlabels : Labels (g.Knows tag) ts us) :
    ∃ spans : List Span, (∀ s ∈ spans, i ≤ s.start) ∧ spans.Pairwise (fun s t => s.overlaps t = false) ∧
      (∀ s ∈ spans, s ∈ found.map Found.span) ∧
      ∀ chosen, (∀ f ∈ found, i ≤ f.span.start → (f.span ∈ chosen ↔ f.span ∈ spans)) →
        label tag found chosen i 0 ts = us := by
  induction hlabels generalizing i with
  | nil => exact ⟨[], by simp, .nil, by simp, fun chosen _ => by rw [label]⟩
  | @keep t ts us _ ih =>
    obtain ⟨spans, hstart, hapart, hfound, hlabel⟩ := ih h.tail
    have hlater {s : Span} (hs : s ∈ spans) : i < s.start := hstart s hs
    refine ⟨spans, fun s hs => (hlater hs).le, hapart, hfound, fun chosen hchosen => ?_⟩
    have hmiss : ∀ f ∈ found, f.span.start = i → f.span ∉ chosen := by
      intro f hf hi hmem
      exact (hlater ((hchosen f hf hi.ge).1 hmem)).ne' hi
    rw [label_keep hmiss, hlabel chosen fun f hf hi => hchosen f hf (by omega)]
  | @entity tag' value ws ts us hne hknown _ ih =>
    obtain ⟨rfl, hterm⟩ := hknown
    obtain ⟨spans, hstart, hapart, hfound, hlabel⟩ := ih h.behind
    have hlength := List.length_pos_iff.2 hne
    have hlater {s : Span} (hs : s ∈ spans) : i < s.start := by
      have := hstart s hs
      omega
    refine ⟨⟨i, i + ws.length⟩ :: spans, ?_, ?_, ?_, fun chosen hchosen => ?_⟩
    · exact List.forall_mem_cons.2 ⟨le_rfl, fun s hs => (hlater hs).le⟩
    · refine List.pairwise_cons.2 ⟨fun s hs => ?_, hapart⟩
      have := hstart s hs
      simp only [Span.overlaps, Bool.and_eq_false_iff, decide_eq_false_iff_not]
      omega
    · exact List.forall_mem_cons.2 ⟨List.mem_map.2 ⟨_, h.mem_of_term hne hterm, rfl⟩, hfound⟩
    · have hmem : (⟨i, i + ws.length⟩ : Span) ∈ chosen :=
        (hchosen _ (h.mem_of_term hne hterm) le_rfl).2 List.mem_cons_self
      rw [label_of_only h hne hterm hmem, hlabel]
      · -- of the spans from there on, only that of the entity begins before the words behind it
        intro f hf hi
        rw [hchosen f hf (by omega), List.mem_cons]
        refine or_iff_right fun hspan => ?_
        rw [hspan] at hi
        simp only at hi
        omega
      · intro f hf hi hf'
        refine (List.mem_cons.1 ((hchosen f hf hi.ge).1 hf')).resolve_right fun hs => ?_
        exact (hlater hs).ne' hi

/-- **The readings of an utterance** are the utterance with entities in place of some of its terms. -/
theorem mem_readings_iff {u v : Utterance} :
    v ∈ g.readings u tag ↔ v.typed = u.typed ∧ Labels (g.Knows tag) u.tokens v.tokens := by
  have hfinds := g.finds_occurrences u
  unfold readings
  simp only [List.mem_map, Span.mem_compatibleSubsets_iff]
  constructor
  · rintro ⟨chosen, -, rfl⟩
    exact ⟨rfl, labels_label hfinds⟩
  · rintro ⟨htyped, hlabels⟩
    obtain ⟨spans, -, hapart, hfound, hlabel⟩ := hfinds.exists_chosen hlabels
    -- the spans of the entities, in the order in which they were found
    let chosen := (((g.occurrences u).map Found.span).filter (· ∈ spans)).dedup
    have hmem : ∀ s, s ∈ chosen ↔ s ∈ (g.occurrences u).map Found.span ∧ s ∈ spans := by
      intro s
      simp only [chosen, List.mem_dedup, List.mem_filter, decide_eq_true_eq]
    have hsymm : Std.Symm fun s t : Span => s.overlaps t = false := by
      refine ⟨fun s t hst => ?_⟩
      rw [Span.overlaps_comm, hst]
    refine ⟨chosen, ⟨(List.dedup_sublist _).trans List.filter_sublist, ?_⟩, ?_⟩
    · refine (List.nodup_dedup _).pairwise_of_forall_ne fun s hs t ht hne => ?_
      exact hapart.forall ((hmem s).1 hs).2 ((hmem t).1 ht).2 hne
    · have htokens := hlabel chosen fun f hf _ => by
        rw [hmem]
        exact and_iff_right (List.mem_map.2 ⟨f, hf, rfl⟩)
      rw [htokens]
      cases v
      simp only at htyped
      rw [htyped]

end Gazetteer

end Dialogue
