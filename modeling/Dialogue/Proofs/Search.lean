import Mathlib.Data.List.Basic
import Mathlib.Data.List.Range
import Dialogue.Gazetteer
import Dialogue.Proofs.Dictionary
import Dialogue.Proofs.Span

/-!
# Every span tried

A gazetteer looks for terms from each position on, and stops when no term goes on with the words that it has seen.
What it finds is what is found when every span is tried, because a term is never behind words that none goes on with.

* `Span.mem_below_iff`, `Span.pairwise_below` — the spans that are tried;
* `Gazetteer.payload?_eq_none_of_cut` — behind words that no term goes on with there is no term;
* `Gazetteer.findFrom_eq`, `Gazetteer.findAt_eq` — the search from one position on, and from all;
* `Gazetteer.find_eq` — what is found is what is found at every span;
* `Gazetteer.mem_find_iff`, `Gazetteer.pairwise_find` — the terms among words, and their order.
-/

namespace Dialogue

/-! ### Spans -/

namespace Span

/-- every span of the first `n` positions that has a position, by start and then by stop -/
def below (n : Nat) : List Span :=
  (List.range n).flatMap fun start => (List.range' (start + 1) (n - start)).map (Span.mk start)

theorem mem_below_iff {n : Nat} {s : Span} : s ∈ below n ↔ s.start < s.stop ∧ s.stop ≤ n := by
  unfold below
  simp only [List.mem_flatMap, List.mem_range, List.mem_map, List.mem_range'_1]
  constructor
  · rintro ⟨start, hstart, stop, hstop, rfl⟩
    simp only
    omega
  · rintro ⟨hpositive, hstop⟩
    exact ⟨s.start, by omega, s.stop, by omega, rfl⟩

/-- the spans are in order, so none is there twice -/
theorem pairwise_below (n : Nat) : (below n).Pairwise fun s t => s.before t = true := by
  unfold below
  rw [List.pairwise_flatMap]
  constructor
  · intro start _
    rw [List.pairwise_map]
    have hstops : (List.range' (start + 1) (n - start)).Pairwise (· < ·) := List.pairwise_lt_range'
    refine hstops.imp ?_
    intro stop stop' h
    exact before_iff.2 (.inr ⟨rfl, h⟩)
  · refine List.pairwise_lt_range.imp ?_
    intro start start' h s hs t ht
    obtain ⟨stop, -, rfl⟩ := List.mem_map.1 hs
    obtain ⟨stop', -, rfl⟩ := List.mem_map.1 ht
    exact before_iff.2 (.inl h)

end Span

namespace Gazetteer

variable {g : Gazetteer} {seen words : List String} {f : Found}

/-- what is found at a span, if its words are those of a term -/
def foundAt? (g : Gazetteer) (words : List String) (s : Span) : Option Found :=
  (g.terms.payload? (s.slice words)).map (Found.mk s)

/-! ### The search from one position on -/

/-- behind words that no term goes on with there is no term -/
theorem payload?_eq_none_of_cut (hcut : g.terms.continues seen = false) (us : List String) :
    g.terms.payload? (seen ++ us) = none := by
  rw [Option.eq_none_iff_forall_not_mem]
  intro term hterm
  rw [Dictionary.continues_of_payload? hterm] at hcut
  cases hcut

/-- **The cut loses nothing**: from one position on, every longer row of words is tried. -/
theorem findFrom_eq (g : Gazetteer) (start : Nat) (seen ws : List String) :
    g.findFrom start seen ws = (List.range' (seen.length + 1) ws.length).filterMap fun n =>
      (g.terms.payload? ((seen ++ ws).take n)).map (Found.mk ⟨start, start + n⟩) := by
  induction ws generalizing seen with
  | nil => rfl
  | cons w ws ih =>
    have htake : (seen ++ w :: ws).take (seen.length + 1) = seen ++ [w] := by
      rw [List.take_append, List.take_of_length_le (by omega), Nat.add_sub_cancel_left]
      rfl
    have hrest : (seen ++ [w]) ++ ws = seen ++ w :: ws := by rw [List.append_assoc, List.singleton_append]
    have ih := ih (seen ++ [w])
    rw [hrest, List.length_append, List.length_singleton] at ih
    rw [findFrom, List.length_cons, List.range'_succ, List.filterMap_cons, htake]
    simp only [List.length_append, List.length_singleton, ih]
    by_cases hgoes : g.terms.continues (seen ++ [w]) = true
    · rw [if_pos hgoes]
      cases g.terms.payload? (seen ++ [w]) <;> rfl
    · rw [if_neg hgoes]
      have hcut : g.terms.continues (seen ++ [w]) = false := by simpa using hgoes
      have hnone := payload?_eq_none_of_cut hcut []
      rw [List.append_nil] at hnone
      rw [hnone, Option.map_none]
      -- every longer row of words begins with those that no term goes on with
      refine (List.filterMap_eq_nil_iff.2 ?_).symm
      intro n hn
      rw [List.mem_range'_1] at hn
      have hlonger : (seen ++ w :: ws).take n = (seen ++ [w]) ++ ws.take (n - (seen.length + 1)) := by
        rw [← hrest, List.take_append, List.take_of_length_le (by simp; omega)]
        simp
      rw [hlonger, payload?_eq_none_of_cut hcut, Option.map_none]

theorem findFrom_nil_eq (g : Gazetteer) {start : Nat} {ws : List String} (hws : words.drop start = ws) :
    g.findFrom start [] ws =
      ((List.range' (start + 1) ws.length).map (Span.mk start)).filterMap (g.foundAt? words) := by
  have hshift : List.range' (start + 1) ws.length = (List.range' 1 ws.length).map (start + ·) := by
    rw [List.map_add_range']
  rw [findFrom_eq, hshift, List.filterMap_map, List.filterMap_map]
  apply List.filterMap_congr
  intro n hn
  simp only [Function.comp, foundAt?, Span.slice, Span.length, hws, Nat.add_sub_cancel_left, List.nil_append]

/-! ### The search from all positions on -/

theorem findAt_eq (g : Gazetteer) {start : Nat} {ws : List String} (hws : words.drop start = ws) :
    g.findAt start ws = (List.range' start ws.length).flatMap fun i =>
      ((List.range' (i + 1) (words.length - i)).map (Span.mk i)).filterMap (g.foundAt? words) := by
  induction ws generalizing start with
  | nil => rfl
  | cons w ws ih =>
    have hlength : words.length - start = (w :: ws).length := by rw [← hws, List.length_drop]
    have hrest : words.drop (start + 1) = ws := by
      rw [← List.drop_drop, hws]
      rfl
    rw [findAt, ih hrest, List.length_cons, List.range'_succ, List.flatMap_cons, findFrom_nil_eq g hws, hlength]

/-- **What is found is what is found at every span.** -/
theorem find_eq (g : Gazetteer) (words : List String) :
    g.find words = (Span.below words.length).filterMap (g.foundAt? words) := by
  unfold find Span.below
  rw [findAt_eq g (List.drop_zero (l := words)), List.filterMap_flatMap, List.range_eq_range']

/-- **A gazetteer finds a term wherever its words are.** -/
theorem mem_find_iff : f ∈ g.find words ↔
    ∃ before us after, words = before ++ us ++ after ∧ us ≠ [] ∧ g.terms.payload? us = some f.term ∧
      f.span = ⟨before.length, before.length + us.length⟩ := by
  rw [find_eq, List.mem_filterMap]
  simp only [Span.mem_below_iff, foundAt?, Option.map_eq_some_iff]
  constructor
  · rintro ⟨s, ⟨hpositive, hstop⟩, term, hterm, rfl⟩
    have hlength : (s.slice words).length = s.stop - s.start := Span.length_slice hstop
    refine ⟨words.take s.start, s.slice words, words.drop s.stop, (Span.take_slice_drop hpositive.le words).symm, ?_,
      hterm, ?_⟩
    · rw [← List.length_pos_iff]
      omega
    · have hstart : (words.take s.start).length = s.start := List.length_take_of_le (by omega)
      rw [hlength, hstart, Nat.add_sub_cancel' hpositive.le]
  · rintro ⟨before, us, after, rfl, hne, hterm, hspan⟩
    have hlength : 0 < us.length := List.length_pos_iff.2 hne
    refine ⟨f.span, ?_, f.term, ?_, rfl⟩
    · rw [hspan, List.length_append, List.length_append]
      simp only
      omega
    · rw [hspan, Span.slice_append, hterm]

/-- **Terms are found by start, and then by stop.** -/
theorem pairwise_find (g : Gazetteer) (words : List String) :
    (g.find words).Pairwise fun f f' => f.span.before f'.span = true := by
  rw [find_eq, List.pairwise_filterMap]
  refine (Span.pairwise_below words.length).imp ?_
  intro s t h f hf f' hf'
  obtain ⟨term, -, rfl⟩ := Option.map_eq_some_iff.1 hf
  obtain ⟨term', -, rfl⟩ := Option.map_eq_some_iff.1 hf'
  exact h

end Gazetteer

end Dialogue
