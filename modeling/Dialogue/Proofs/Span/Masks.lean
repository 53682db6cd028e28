import Mathlib.Data.List.Basic
import Mathlib.Data.List.Induction
import Mathlib.Data.List.Nodup
import Mathlib.Data.Nat.Bitwise
import Dialogue.Proofs.Span

/-!
# Choices as binary numbers

A number selects the positions at which it has a one, the last digit being the first position.  The choices of spans
are what the numbers select, in order, less the selections in which two positions hold spans that overlap.

* `Span.selections_succ` — one more position doubles the selections, first those without it;
* `Span.mem_selections_iff`, `Span.nodup_selections` — every selection is there, and it is there once;
* `Span.apart_concat_iff` — what is asked of a selection that has the last position, too;
* `Span.compatibleSubsets_eq` — the choices of spans are the selections that remain.
-/

namespace Dialogue.Span

/-! ### Selections of positions -/

/-- the positions below `n` at which a number has a one -/
def places (n mask : Nat) : List Nat :=
  (List.range n).filter mask.testBit

/-- what the numbers of `n` binary digits select, in the order of the numbers -/
def selections (n : Nat) : List (List Nat) :=
  (List.range (2 ^ n)).map (places n)

/-- a number without the new digit selects what it did before -/
theorem places_succ_of_lt {n mask : Nat} (h : mask < 2 ^ n) : places (n + 1) mask = places n mask := by
  unfold places
  rw [List.range_succ, List.filter_append, List.filter_singleton, Nat.testBit_lt_two_pow h]
  exact List.append_nil _

/-- the new digit selects the new position -/
theorem places_succ_two_pow_add {n mask : Nat} (h : mask < 2 ^ n) :
    places (n + 1) (2 ^ n + mask) = places n mask ++ [n] := by
  have hnew : (2 ^ n + mask).testBit n = true := by
    rw [Nat.testBit_two_pow_add_eq, Nat.testBit_lt_two_pow h]
    rfl
  have hold : (List.range n).filter (2 ^ n + mask).testBit = (List.range n).filter mask.testBit := by
    apply List.filter_congr
    intro i hi
    exact Nat.testBit_two_pow_add_gt (List.mem_range.1 hi) mask
  unfold places
  rw [List.range_succ, List.filter_append, List.filter_singleton, hnew, hold]
  rfl

/-- one more position doubles the selections, first those without it -/
theorem selections_succ (n : Nat) : selections (n + 1) = selections n ++ (selections n).map (· ++ [n]) := by
  unfold selections
  rw [pow_succ, Nat.mul_two, List.range_add, List.map_append, List.map_map, List.map_map]
  congr 1
  · apply List.map_congr_left
    intro mask hmask
    exact places_succ_of_lt (List.mem_range.1 hmask)
  · apply List.map_congr_left
    intro mask hmask
    exact places_succ_two_pow_add (List.mem_range.1 hmask)

/-- **Every selection of positions is there.** -/
theorem mem_selections_iff {n : Nat} {ps : List Nat} : ps ∈ selections n ↔ ps.Sublist (List.range n) := by
  induction n generalizing ps with
  | zero =>
    have hzero : selections 0 = [[]] := rfl
    rw [hzero, List.mem_singleton, List.range_zero, List.sublist_nil]
  | succ n ih =>
    rw [selections_succ, List.mem_append, List.mem_map, ih, List.range_succ, sublist_concat_iff]
    refine or_congr Iff.rfl ?_
    constructor
    · rintro ⟨qs, hqs, rfl⟩
      exact ⟨qs, rfl, ih.1 hqs⟩
    · rintro ⟨qs, rfl, hqs⟩
      exact ⟨qs, ih.2 hqs, rfl⟩

theorem lt_of_mem_selections {n : Nat} {ps : List Nat} (h : ps ∈ selections n) {i : Nat} (hi : i ∈ ps) : i < n :=
  List.mem_range.1 ((mem_selections_iff.1 h).subset hi)

/-- **No selection of positions is there twice.** -/
theorem nodup_selections (n : Nat) : (selections n).Nodup := by
  induction n with
  | zero => exact List.nodup_singleton []
  | succ n ih =>
    rw [selections_succ, List.nodup_append]
    refine ⟨ih, ?_, ?_⟩
    · exact ih.map fun ps qs h => List.append_cancel_right h
    · intro ps hps qs hqs heq
      obtain ⟨rs, -, rfl⟩ := List.mem_map.1 hqs
      have hn : n < n := lt_of_mem_selections hps (by simp [heq])
      exact Nat.lt_irrefl n hn

/-! ### Spans at positions -/

def pick (spans : List Span) (ps : List Nat) : List Span :=
  ps.filterMap (spans[·]?)

/-- no two of the positions hold spans that overlap -/
def Apart (spans : List Span) (ps : List Nat) : Prop :=
  ∀ i ∈ ps, ∀ j ∈ ps, i ≠ j → ∀ s ∈ spans[i]?, ∀ t ∈ spans[j]?, s.overlaps t = false

instance (spans : List Span) : DecidablePred (Apart spans) := fun ps => by
  unfold Apart
  infer_instance

section Concat

variable {spans : List Span} {ps : List Nat}

/-- a span behind the others changes nothing at their positions -/
theorem getElem?_concat_of_mem (h : ps ∈ selections spans.length) (s : Span) {i : Nat} (hi : i ∈ ps) :
    (spans ++ [s])[i]? = spans[i]? :=
  List.getElem?_append_left (lt_of_mem_selections h hi)

theorem pick_concat_of_mem (h : ps ∈ selections spans.length) (s : Span) : pick (spans ++ [s]) ps = pick spans ps := by
  apply List.filterMap_congr
  intro i hi
  exact getElem?_concat_of_mem h s hi

theorem pick_concat_last (h : ps ∈ selections spans.length) (s : Span) :
    pick (spans ++ [s]) (ps ++ [spans.length]) = pick spans ps ++ [s] := by
  have hlast : pick (spans ++ [s]) [spans.length] = [s] := by simp [pick]
  have happend : pick (spans ++ [s]) (ps ++ [spans.length]) =
      pick (spans ++ [s]) ps ++ pick (spans ++ [s]) [spans.length] := List.filterMap_append
  rw [happend, pick_concat_of_mem h s, hlast]

theorem apart_concat_of_mem (h : ps ∈ selections spans.length) (s : Span) :
    Apart (spans ++ [s]) ps ↔ Apart spans ps := by
  unfold Apart
  refine forall₂_congr fun i hi => forall₂_congr fun j hj => ?_
  rw [getElem?_concat_of_mem h s hi, getElem?_concat_of_mem h s hj]

/-- a selection that has the last position, too, is apart if the others are, and the last span overlaps none -/
theorem apart_concat_iff (h : ps ∈ selections spans.length) (s : Span) :
    Apart (spans ++ [s]) (ps ++ [spans.length]) ↔ Apart spans ps ∧ ∀ t ∈ pick spans ps, t.overlaps s = false := by
  have hlast : (spans ++ [s])[spans.length]? = some s := by simp
  rw [← apart_concat_of_mem h s, ← pick_concat_of_mem h s]
  unfold pick
  constructor
  · intro hapart
    refine ⟨fun i hi j hj => hapart i (by simp [hi]) j (by simp [hj]), ?_⟩
    intro t ht
    obtain ⟨i, hi, hit⟩ := List.mem_filterMap.1 ht
    have hne : i ≠ spans.length := (lt_of_mem_selections h hi).ne
    exact hapart i (by simp [hi]) spans.length (by simp) hne t hit s hlast
  · rintro ⟨hapart, hs⟩ i hi j hj hne u hu v hv
    have hof {k : Nat} (hk : k ∈ ps) {t : Span} (ht : (spans ++ [s])[k]? = some t) : t.overlaps s = false :=
      hs t (List.mem_filterMap.2 ⟨k, hk, ht⟩)
    -- one of the two may be the last span
    rw [List.mem_append, List.mem_singleton] at hi hj
    rcases hi with hi | rfl <;> rcases hj with hj | rfl
    · exact hapart i hi j hj hne u hu v hv
    · rw [hlast] at hv
      cases hv
      exact hof hi hu
    · rw [hlast] at hu
      cases hu
      rw [overlaps_comm]
      exact hof hj hv
    · exact absurd rfl hne

end Concat

/-! ### Choices of spans -/

/-- the selections that a span can join are those that are apart with its position -/
theorem extensions_map_pick (spans : List Span) (s : Span) :
    extensions s (((selections spans.length).filter (Apart spans ·)).map (pick spans)) =
      (((selections spans.length).map (· ++ [spans.length])).filter (Apart (spans ++ [s]) ·)).map
        (pick (spans ++ [s])) := by
  unfold extensions
  rw [List.filter_map, List.filter_filter, List.map_map, List.filter_map, List.map_map]
  have hfilter : (selections spans.length).filter
      (fun ps => ((fun c : List Span => c.all fun t => !t.overlaps s) ∘ pick spans) ps && decide (Apart spans ps)) =
      (selections spans.length).filter ((fun ps => decide (Apart (spans ++ [s]) ps)) ∘ (· ++ [spans.length])) := by
    apply List.filter_congr
    intro ps hps
    rw [Bool.eq_iff_iff]
    simp [apart_concat_iff hps, and_comm]
  rw [hfilter]
  apply List.map_congr_left
  intro ps hps
  exact (pick_concat_last (List.mem_filter.1 hps).1 s).symm

/-- the choices of spans are the selections of positions that are apart -/
theorem compatibleSubsets_eq (spans : List Span) :
    compatibleSubsets spans = ((selections spans.length).filter (Apart spans ·)).map (pick spans) := by
  induction spans using List.reverseRecOn with
  | nil => rfl
  | append_singleton spans s ih =>
    have hold : (selections spans.length).filter (Apart (spans ++ [s]) ·) =
        (selections spans.length).filter (Apart spans ·) := by
      apply List.filter_congr
      intro ps hps
      simp only [apart_concat_of_mem hps s]
    have hpick : ((selections spans.length).filter (Apart spans ·)).map (pick (spans ++ [s])) =
        ((selections spans.length).filter (Apart spans ·)).map (pick spans) := by
      apply List.map_congr_left
      intro ps hps
      exact pick_concat_of_mem (List.mem_filter.1 hps).1 s
    rw [compatibleSubsets_concat, ih, List.length_append, List.length_singleton, selections_succ,
      List.filter_append, List.map_append, hold, hpick, extensions_map_pick]

/-- **The choices of spans**, in the order of the numbers that select them.  Each number of as many binary digits as
there are spans selects the positions at which it has a one, the first span standing for the last digit; so every
selection of positions is there, and none is there twice.  The choices are the spans at the positions of those
selections in which no two different positions hold spans that overlap.  Spans that have positions overlap exactly if
they have one in common. -/
theorem compatibleSubsets_masks (spans : List Span) :
    compatibleSubsets spans =
        (((List.range (2 ^ spans.length)).map (places spans.length)).filter (Apart spans ·)).map (pick spans) ∧
      ((List.range (2 ^ spans.length)).map (places spans.length)).Nodup ∧
      (∀ ps, ps ∈ (List.range (2 ^ spans.length)).map (places spans.length) ↔
        ps.Sublist (List.range spans.length)) ∧
      ∀ s t : Span, s.start < s.stop → t.start < t.stop →
        (s.overlaps t = true ↔ ∃ i, (s.start ≤ i ∧ i < s.stop) ∧ t.start ≤ i ∧ i < t.stop) := by
  refine ⟨compatibleSubsets_eq spans, nodup_selections spans.length, ?_, ?_⟩
  · intro ps
    exact mem_selections_iff
  · intro s t hs ht
    exact overlaps_iff_exists hs ht

/-- an empty span is there twice, inside a longer one; position 1 is in two spans -/
theorem compatibleSubsets_masks_repeated :
    compatibleSubsets [⟨0, 2⟩, ⟨1, 1⟩, ⟨1, 1⟩] = [[], [⟨0, 2⟩], [⟨1, 1⟩], [⟨1, 1⟩], [⟨1, 1⟩, ⟨1, 1⟩]] ∧
      (0 < 2 ∧ 1 < 3) ∧ overlaps ⟨0, 2⟩ ⟨1, 3⟩ = true := by
  obtain ⟨hmasks, -, -, hoverlaps⟩ := compatibleSubsets_masks [⟨0, 2⟩, ⟨1, 1⟩, ⟨1, 1⟩]
  refine ⟨hmasks.trans (by decide), by decide, ?_⟩
  exact (hoverlaps ⟨0, 2⟩ ⟨1, 3⟩ (by decide) (by decide)).2 ⟨1, by decide⟩

end Dialogue.Span
