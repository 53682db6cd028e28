import Dialogue.Bot.Reading
import Dialogue.Proofs.Gazetteer
import Dialogue.Proofs.Gazetteer.Lines

/-!
# Labellings

A workflow whose utterance processors are extractors reads an utterance with each of them in turn, so that a later one
sees tokens that an earlier one has changed.  Its readings are those that come from one choice of words, each with an
extractor that knows them (`Workflow.readings_labellings`).

* `Labels.trans` — the entities of two labellings, one after the other, are those of one: they are in place of
  different words;
* `Labels.exists_between` — conversely, the entities of a labelling can be put in place one extractor at a time;
* `Extractor.mem_chain_iff` — so a chain of extractors labels with what any of them knows.
-/

namespace Dialogue

open Text

/-! ### One labelling after another -/

namespace Labels

variable {known known₁ known₂ : String → List String → String → Prop} {ts us vs : List Token}

theorem mono (h : Labels known₁ ts us) (hknown : ∀ tag ws value, known₁ tag ws value → known₂ tag ws value) :
    Labels known₂ ts us := by
  induction h with
  | nil => exact .nil
  | keep t _ ih => exact .keep t ih
  | entity hne h _ ih => exact .entity hne (hknown _ _ _ h) ih

theorem keep_append (xs : List Token) (h : Labels known ts us) : Labels known (xs ++ ts) (xs ++ us) := by
  induction xs with
  | nil => exact h
  | cons x xs ih => exact .keep x ih

theorem refl (known : String → List String → String → Prop) (ts : List Token) : Labels known ts ts := by
  rw [← List.append_nil ts]
  exact Labels.nil.keep_append ts

theorem eq_of_forall_not (h : Labels known ts us) (hknown : ∀ tag ws value, ¬ known tag ws value) : us = ts := by
  induction h with
  | nil => rfl
  | keep t _ ih => rw [ih]
  | entity _ h => exact absurd h (hknown _ _ _)

/-- words are there only because they have stayed -/
theorem exists_of_words {ws : List String} (h : Labels known ts (ws.map .literal ++ us)) :
    ∃ ts', ts = ws.map .literal ++ ts' ∧ Labels known ts' us := by
  induction ws generalizing ts with
  | nil => exact ⟨ts, rfl, h⟩
  | cons w ws ih =>
    rw [List.map_cons, List.cons_append] at h
    cases h with
    | keep t h =>
      obtain ⟨ts', rfl, hrest⟩ := ih h
      exact ⟨ts', rfl, hrest⟩

/-- **Two labellings, one after the other, are one**: what the second takes for a term are words of the first
tokens. -/
theorem trans (h₁ : Labels known₁ ts us) (h₂ : Labels known₂ us vs) :
    Labels (fun tag ws value => known₁ tag ws value ∨ known₂ tag ws value) ts vs := by
  induction h₂ generalizing ts with
  | nil =>
    cases h₁
    exact .nil
  | keep t _ ih =>
    cases h₁ with
    | keep t h => exact .keep t (ih h)
    | entity hne hknown h => exact .entity hne (.inl hknown) (ih h)
  | entity hne hknown _ ih =>
    obtain ⟨ts', rfl, h⟩ := exists_of_words h₁
    exact .entity hne (.inr hknown) (ih h)

/-- **A labelling can be made in two steps**: first the entities of one kind, then those of the other. -/
theorem exists_between (h : Labels (fun tag ws value => known₁ tag ws value ∨ known₂ tag ws value) ts vs) :
    ∃ us, Labels known₁ ts us ∧ Labels known₂ us vs := by
  induction h with
  | nil => exact ⟨[], .nil, .nil⟩
  | keep t _ ih =>
    obtain ⟨us, h₁, h₂⟩ := ih
    exact ⟨t :: us, .keep t h₁, .keep t h₂⟩
  | @entity tag value ws ts vs hne hknown _ ih =>
    obtain ⟨us, h₁, h₂⟩ := ih
    rcases hknown with hknown | hknown
    · exact ⟨.entity tag value :: us, .entity hne hknown h₁, .keep _ h₂⟩
    · -- the words stay in the first step
      exact ⟨ws.map .literal ++ us, h₁.keep_append _, .entity hne hknown h₂⟩

end Labels

/-! ### Each reading once -/

section AddUnseen

variable {α : Type} [DecidableEq α] {seen xs : List α} {x : α}

theorem mem_addUnseen_iff : x ∈ addUnseen seen xs ↔ x ∈ seen ∨ x ∈ xs := by
  induction xs generalizing seen with
  | nil => simp [addUnseen]
  | cons y ys ih =>
    refine ih.trans ?_
    dsimp only
    split
    · next hy =>
      rw [List.mem_cons]
      constructor
      · exact Or.imp_right .inr
      · rintro (h | rfl | h)
        · exact .inl h
        · exact .inl hy
        · exact .inr h
    · rw [List.mem_append, List.mem_singleton, List.mem_cons, or_assoc]

theorem nodup_addUnseen (h : seen.Nodup) (xs : List α) : (addUnseen seen xs).Nodup := by
  induction xs generalizing seen with
  | nil => exact h
  | cons y ys ih =>
    refine ih ?_
    dsimp only
    split
    · exact h
    · next hy =>
      have hapart : ∀ x ∈ seen, x ≠ y := fun x hx => ne_of_mem_of_not_mem hx hy
      exact List.nodup_append.2 ⟨h, List.nodup_singleton y, by simpa using hapart⟩

theorem prefix_addUnseen (seen xs : List α) : seen <+: addUnseen seen xs := by
  induction xs generalizing seen with
  | nil => exact List.prefix_rfl
  | cons y ys ih =>
    refine List.IsPrefix.trans ?_ (ih _)
    dsimp only
    split
    · exact List.prefix_rfl
    · exact List.prefix_append seen [y]

end AddUnseen

namespace Gazetteer

variable {g : Gazetteer}

theorem label_nil (tag : String) (found : List Found) (i : Nat) (ts : List Token) :
    label tag found [] i 0 ts = ts := by
  induction ts generalizing i with
  | nil => rfl
  | cons t ts ih =>
    have hmiss : (found.find? fun f => f.span.start == i && [].contains f.span) = none := by simp
    rw [label, hmiss]
    simp only [ih]

/-- the first reading of an utterance is the utterance itself -/
theorem head?_readings (g : Gazetteer) (u : Utterance) (tag : String) : (g.readings u tag).head? = some u := by
  rw [readings, List.head?_map, Span.head?_compatibleSubsets, Option.map_some, label_nil]

end Gazetteer

/-! ### Chains of extractors -/

/-- whether an extractor finds the terms of a text -/
def Extractor.FindsTerms (e : Extractor) : Prop := ∃ terms, e.gazetteer = .ofTerms terms

namespace Extractor

variable {e : Extractor} {us : List Utterance} {u v : Utterance}

/-- the readings of some utterances with one more extractor, each once -/
theorem mem_foldl_readings_iff {next : List Utterance} :
    v ∈ us.foldl (fun next r => addUnseen next (e.readings r)) next ↔ v ∈ next ∨ ∃ u ∈ us, v ∈ e.readings u := by
  induction us generalizing next with
  | nil => simp
  | cons u us ih =>
    rw [List.foldl_cons, ih, mem_addUnseen_iff, List.exists_mem_cons_iff, or_assoc]

theorem nodup_foldl_readings (e : Extractor) (us : List Utterance) :
    (us.foldl (fun next r => addUnseen next (e.readings r)) []).Nodup :=
  List.foldlRecOn (motive := List.Nodup) us _ List.nodup_nil fun _ h r _ => nodup_addUnseen h (e.readings r)

/-- what was read first is read first again -/
theorem head?_foldl_readings (h : us.head? = some u) :
    (us.foldl (fun next r => addUnseen next (e.readings r)) []).head? = some u := by
  obtain ⟨us, rfl⟩ := List.head?_eq_some_iff.1 h
  obtain ⟨rest, hrest⟩ := List.head?_eq_some_iff.1 (e.gazetteer.head?_readings u e.tag)
  have hfirst : [u] <+: addUnseen [] (e.readings u) := by
    rw [readings, hrest]
    exact prefix_addUnseen [u] rest
  have hprefix : [u] <+: us.foldl (fun next r => addUnseen next (e.readings r)) (addUnseen [] (e.readings u)) :=
    List.foldlRecOn (motive := ([u] <+: ·)) us _ hfirst fun next h r _ => h.trans (prefix_addUnseen next _)
  obtain ⟨rest, hrest⟩ := hprefix
  rw [List.foldl_cons, ← hrest]
  rfl

/-- some utterances, read with each of the extractors in turn -/
def chain (es : List Extractor) (us : List Utterance) : List Utterance :=
  es.foldl (fun readings e => readings.foldl (fun next r => addUnseen next (e.readings r)) []) us

/-- what any of the extractors knows: its terms get its tag, and their words stand in the entity with spaces between
them -/
def AnyKnows (es : List Extractor) (tag : String) (ws : List String) (value : String) : Prop :=
  value = spaced ws ∧ ∃ e ∈ es, e.tag = tag ∧ e.gazetteer.terms.isComplete ws = true

/-- a chain of extractors labels with what any of them knows -/
theorem mem_chain_iff_exists (es : List Extractor) {us : List Utterance} {v : Utterance} :
    v ∈ chain es us ↔ ∃ u ∈ us, v.typed = u.typed ∧
      Labels (fun tag ws value => ∃ e ∈ es, e.gazetteer.Knows e.tag tag ws value) u.tokens v.tokens := by
  unfold chain
  induction es generalizing us with
  | nil =>
    constructor
    · intro h
      exact ⟨v, h, rfl, .refl _ _⟩
    · rintro ⟨u, hu, htyped, h⟩
      have htokens : v.tokens = u.tokens := h.eq_of_forall_not (by simp)
      have hv : v = u := by
        cases u
        cases v
        exact congrArg₂ Utterance.mk htokens htyped
      rw [hv]
      exact hu
  | cons e es ih =>
    rw [List.foldl_cons, ih]
    simp only [mem_foldl_readings_iff, List.not_mem_nil, false_or, List.exists_mem_cons_iff]
    constructor
    · rintro ⟨r, ⟨u, hu, hr⟩, htyped, h⟩
      obtain ⟨htyped', h'⟩ := Gazetteer.mem_readings_iff.1 hr
      exact ⟨u, hu, htyped.trans htyped', h'.trans h⟩
    · rintro ⟨u, hu, htyped, h⟩
      obtain ⟨ts, h₁, h₂⟩ := h.exists_between
      exact ⟨⟨ts, u.typed⟩, ⟨u, hu, Gazetteer.mem_readings_iff.2 ⟨rfl, h₁⟩⟩, htyped, h₂⟩

theorem anyKnows_iff {es : List Extractor} (hes : ∀ e ∈ es, e.FindsTerms) (tag : String) (ws : List String)
    (value : String) : AnyKnows es tag ws value ↔ ∃ e ∈ es, e.gazetteer.Knows e.tag tag ws value := by
  constructor
  · rintro ⟨rfl, e, he, rfl, hws⟩
    obtain ⟨term, hterm⟩ := Option.isSome_iff_exists.1 hws
    obtain ⟨text, htext⟩ := hes e he
    have hspaced : term = spaced ws := by
      rw [htext] at hterm
      exact Gazetteer.eq_spaced_of_payload? hterm
    exact ⟨e, he, rfl, by rw [hterm, hspaced]⟩
  · rintro ⟨e, he, rfl, hvalue⟩
    obtain ⟨text, htext⟩ := hes e he
    refine ⟨?_, e, he, rfl, Option.isSome_iff_exists.2 ⟨value, hvalue⟩⟩
    rw [htext] at hvalue
    exact Gazetteer.eq_spaced_of_payload? hvalue

theorem mem_chain_iff {es : List Extractor} (hes : ∀ e ∈ es, e.FindsTerms) :
    v ∈ chain es [u] ↔ v.typed = u.typed ∧ Labels (AnyKnows es) u.tokens v.tokens := by
  rw [mem_chain_iff_exists]
  simp only [List.mem_singleton, exists_eq_left]
  refine and_congr_right fun _ => ⟨fun h => h.mono ?_, fun h => h.mono ?_⟩
  · exact fun tag ws value => (anyKnows_iff hes tag ws value).2
  · exact fun tag ws value => (anyKnows_iff hes tag ws value).1

/-- the first reading is the utterance itself, and no reading is there twice, however many extractors there are -/
theorem head?_and_nodup_chain (es : List Extractor) (hhead : us.head? = some u) (hnodup : us.Nodup) :
    (chain es us).head? = some u ∧ (chain es us).Nodup := by
  unfold chain
  induction es generalizing us with
  | nil => exact ⟨hhead, hnodup⟩
  | cons e es ih => exact ih (head?_foldl_readings hhead) (e.nodup_foldl_readings us)

end Extractor

namespace Workflow

/-- the utterance processors of a workflow are extractors -/
def Extracts (w : Workflow) (es : List Extractor) : Prop :=
  w.utteranceProcessors = es.map Extractor.processor

variable {w : Workflow} {es : List Extractor} {u v : Utterance}

theorem extracts_basic (name : String) (es : List Extractor) : (basic name es).Extracts es :=
  rfl

/-- extractors never fail -/
theorem readings_of_extracts (hw : w.Extracts es) (u : Utterance) : w.readings u = .ok (Extractor.chain es [u]) := by
  have hstep (e : Extractor) (us next : List Utterance) :
      us.foldlM (fun next r => return addUnseen next (← e.processor.process r)) next =
        (.ok (us.foldl (fun next r => addUnseen next (e.readings r)) next) :
          Except DialogueError (List Utterance)) := by
    induction us generalizing next with
    | nil => rfl
    | cons u us ih => exact ih _
  have hchain (es : List Extractor) (us : List Utterance) :
      (es.map Extractor.processor).foldlM (fun readings p =>
          readings.foldlM (fun next r => return addUnseen next (← p.process r)) []) us =
        (.ok (Extractor.chain es us) : Except DialogueError (List Utterance)) := by
    induction es generalizing us with
    | nil => rfl
    | cons e es ih =>
      rw [List.map_cons, List.foldlM_cons, hstep]
      exact ih _
  rw [readings, hw]
  exact hchain es [u]

theorem reads_iff (hw : w.Extracts es) : w.Reads u v ↔ v ∈ Extractor.chain es [u] := by
  rw [Reads, readings_of_extracts hw]
  simp

/-- **The readings of an utterance are its labellings** with the terms of all extractors, in whatever order these
read it: each is there once, and the first is the utterance itself. -/
theorem readings_labellings (w : Workflow) (es : List Extractor) (hw : w.Extracts es) (hes : ∀ e ∈ es, e.FindsTerms)
    (u : Utterance) :
    ∃ vs, w.readings u = .ok vs ∧ vs.Nodup ∧ vs.head? = some u ∧
      (∀ v, v ∈ vs ↔ v.typed = u.typed ∧ Labels (Extractor.AnyKnows es) u.tokens v.tokens) ∧
      ∀ (w' : Workflow) (es' : List Extractor), w'.Extracts es' → es'.Perm es →
        ∃ vs', w'.readings u = .ok vs' ∧ ∀ v, v ∈ vs' ↔ v ∈ vs := by
  obtain ⟨hhead, hnodup⟩ :=
    Extractor.head?_and_nodup_chain es (rfl : [u].head? = some u) (List.nodup_singleton u)
  refine ⟨_, readings_of_extracts hw u, hnodup, hhead, fun v => Extractor.mem_chain_iff hes, ?_⟩
  intro w' es' hw' hperm
  have hes' : ∀ e ∈ es', e.FindsTerms := fun e he => hes e (hperm.mem_iff.1 he)
  have hknows : Extractor.AnyKnows es' = Extractor.AnyKnows es := by
    funext tag ws value
    simp only [Extractor.AnyKnows, hperm.mem_iff]
  refine ⟨_, readings_of_extracts hw' u, fun v => ?_⟩
  rw [Extractor.mem_chain_iff hes, Extractor.mem_chain_iff hes', hknows]

def travel : List Extractor :=
  [⟨"city", .ofTerms "new york\nyork"⟩, ⟨"day", .ofTerms "new year\nyork day"⟩]

theorem readings_labellings_travel :
    (basic "travel" travel).Extracts travel ∧ (∀ e ∈ travel, e.FindsTerms) ∧
    let u : Utterance := ⟨[.literal "new", .literal "york", .entity "x" "y", .literal "york", .literal "day"], ""⟩
    let v : Utterance := ⟨[.entity "city" "new york", .entity "x" "y", .entity "day" "york day"], ""⟩
    ∃ vs, (basic "travel" travel).readings u = .ok vs ∧ vs.Nodup ∧ vs.length = 9 ∧ v ∈ vs ∧
      (basic "travel" travel.reverse).Reads u v := by
  have hes : ∀ e ∈ travel, e.FindsTerms := by
    intro e he
    simp only [travel, List.mem_cons, List.not_mem_nil, or_false] at he
    rcases he with rfl | rfl
    · exact ⟨_, rfl⟩
    · exact ⟨_, rfl⟩
  have hextracts : (basic "travel" travel).Extracts travel := extracts_basic _ _
  refine ⟨hextracts, hes, ?_⟩
  intro u v
  obtain ⟨vs, hvs, hnodup, -, -, hperm⟩ := readings_labellings _ travel hextracts hes u
  obtain ⟨vs', hvs', hsame⟩ := hperm (basic "travel" travel.reverse) _ (extracts_basic _ _) travel.reverse_perm
  have hchain : vs = Extractor.chain travel [u] := Except.ok.inj (hvs.symm.trans (readings_of_extracts hextracts u))
  have hv : v ∈ vs := by
    rw [hchain]
    decide
  refine ⟨vs, hvs, hnodup, ?_, hv, vs', hvs', (hsame v).2 hv⟩
  rw [hchain]
  decide

end Workflow

end Dialogue
