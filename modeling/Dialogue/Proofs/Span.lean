import Mathlib.Data.List.Basic
import Mathlib.Data.List.Induction
import Mathlib.Data.List.Nodup
import Dialogue.Span

/-!
# Spans

The order of spans, what is at their positions, and the choices of spans that do not overlap.

* `Span.before_iff` — the order of spans;
* `Span.overlaps_iff_exists` — spans overlap if they have a position in common;
* `Span.length_slice` — the items at the positions of a span;
* `Span.mem_compatibleSubsets_iff` — the choices of spans are the selections in which no two spans overlap, each once
  if the spans are (`Span.nodup_compatibleSubsets`).
-/

namespace Dialogue.Span

variable {s t : Span}

/-! ### Order and overlap -/

theorem before_iff : s.before t = true ↔ s.start < t.start ∨ s.start = t.start ∧ s.stop < t.stop := by
  unfold before
  simp

theorem ne_of_before (h : s.before t = true) : s ≠ t := by
  rintro rfl
  rw [before_iff] at h
  omega

theorem overlaps_comm (s t : Span) : s.overlaps t = t.overlaps s := by
  rw [overlaps, overlaps, Bool.and_comm]

/-- spans that have positions overlap if they have one in common -/
theorem overlaps_iff_exists (hs : s.start < s.stop) (ht : t.start < t.stop) :
    s.overlaps t = true ↔ ∃ i, (s.start ≤ i ∧ i < s.stop) ∧ t.start ≤ i ∧ i < t.stop := by
  rw [overlaps, Bool.and_eq_true, decide_eq_true_eq, decide_eq_true_eq]
  constructor
  · intro h
    -- the later of the two starts
    refine ⟨max s.start t.start, ?_, ?_⟩ <;> omega
  · rintro ⟨i, hi⟩
    omega

/-! ### Items at positions -/

/-- the items at the positions of a span -/
def slice {α : Type} (s : Span) (xs : List α) : List α :=
  (xs.drop s.start).take s.length

theorem length_slice {α : Type} {xs : List α} (h : s.stop ≤ xs.length) : (s.slice xs).length = s.length := by
  unfold slice length
  rw [List.length_take, List.length_drop]
  omega

theorem slice_eq_nil_iff {α : Type} {xs : List α} (h : s.stop ≤ xs.length) : s.slice xs = [] ↔ s.stop ≤ s.start := by
  rw [← List.length_eq_zero_iff, length_slice h, length, Nat.sub_eq_zero_iff_le]

theorem slice_concat {α : Type} {xs : List α} {start i : Nat} {x : α} (hstart : start ≤ i) (hx : xs[i]? = some x) :
    slice ⟨start, i + 1⟩ xs = slice ⟨start, i⟩ xs ++ [x] := by
  have hlength : i + 1 - start = i - start + 1 := Nat.succ_sub hstart
  have hlast : (xs.drop start)[i - start]? = some x := by
    rw [List.getElem?_drop, Nat.add_sub_cancel' hstart, hx]
  unfold slice length
  rw [hlength, List.take_add_one, hlast]
  rfl

theorem take_slice_drop {α : Type} (h : s.start ≤ s.stop) (xs : List α) :
    xs.take s.start ++ s.slice xs ++ xs.drop s.stop = xs := by
  have hbehind : (xs.drop s.start).drop s.length = xs.drop s.stop := by
    rw [List.drop_drop, length, Nat.add_sub_cancel' h]
  unfold slice
  rw [List.append_assoc, ← hbehind, List.take_append_drop, List.take_append_drop]

theorem slice_append {α : Type} (before xs after : List α) :
    slice ⟨before.length, before.length + xs.length⟩ (before ++ xs ++ after) = xs := by
  unfold slice length
  rw [List.append_assoc, List.drop_left, Nat.add_sub_cancel_left, List.take_left]

/-! ### Choices -/

/-- the span that is given up or taken last is the one that was seen last -/
theorem compatibleSubsets_concat (spans : List Span) (s : Span) :
    compatibleSubsets (spans ++ [s]) = compatibleSubsets spans ++ extensions s (compatibleSubsets spans) := by
  rw [compatibleSubsets, List.foldl_concat]
  rfl

theorem mem_extensions_iff {chosen : List (List Span)} {c : List Span} :
    c ∈ extensions s chosen ↔ ∃ c' ∈ chosen, (∀ t ∈ c', t.overlaps s = false) ∧ c = c' ++ [s] := by
  unfold extensions
  simp only [List.mem_map, List.mem_filter, List.all_eq_true, Bool.not_eq_true']
  constructor
  · rintro ⟨c', ⟨hc', hs⟩, rfl⟩
    exact ⟨c', hc', hs, rfl⟩
  · rintro ⟨c', hc', hs, rfl⟩
    exact ⟨c', ⟨hc', hs⟩, rfl⟩

/-- a selection from a list with one more item at its end has this item at its end, or does not have it -/
theorem sublist_concat_iff {α : Type} {xs ys : List α} {y : α} :
    xs.Sublist (ys ++ [y]) ↔ xs.Sublist ys ∨ ∃ xs', xs = xs' ++ [y] ∧ xs'.Sublist ys := by
  rw [List.sublist_append_iff]
  constructor
  · rintro ⟨xs', last, rfl, hxs', hlast⟩
    rcases List.sublist_singleton.1 hlast with rfl | rfl
    · rw [List.append_nil]
      exact .inl hxs'
    · exact .inr ⟨xs', rfl, hxs'⟩
  · rintro (hxs | ⟨xs', rfl, hxs'⟩)
    · exact ⟨xs, [], (List.append_nil xs).symm, hxs, List.nil_sublist _⟩
    · exact ⟨xs', [y], rfl, hxs', List.Sublist.refl _⟩

/-- **The choices of spans** are the selections in which no two spans overlap. -/
theorem mem_compatibleSubsets_iff {spans c : List Span} :
    c ∈ compatibleSubsets spans ↔ c.Sublist spans ∧ c.Pairwise fun s t => s.overlaps t = false := by
  induction spans using List.reverseRecOn generalizing c with
  | nil =>
    have hempty : compatibleSubsets [] = [[]] := rfl
    rw [hempty, List.mem_singleton, List.sublist_nil]
    constructor
    · rintro rfl
      exact ⟨rfl, .nil⟩
    · exact fun h => h.1
  | append_singleton spans s ih =>
    rw [compatibleSubsets_concat, List.mem_append, ih, mem_extensions_iff, sublist_concat_iff]
    constructor
    · rintro (⟨hc, hapart⟩ | ⟨c', hc', hs, rfl⟩)
      · exact ⟨.inl hc, hapart⟩
      · obtain ⟨hsub, hapart⟩ := ih.1 hc'
        refine ⟨.inr ⟨c', rfl, hsub⟩, ?_⟩
        rw [List.pairwise_append]
        refine ⟨hapart, List.pairwise_singleton _ _, fun t ht u hu => ?_⟩
        rw [List.mem_singleton.1 hu]
        exact hs t ht
    · rintro ⟨hc | ⟨c', rfl, hc'⟩, hapart⟩
      · exact .inl ⟨hc, hapart⟩
      · rw [List.pairwise_append] at hapart
        refine .inr ⟨c', ih.2 ⟨hc', hapart.1⟩, fun t ht => ?_, rfl⟩
        exact hapart.2.2 t ht s (List.mem_singleton_self s)

/-- spans that are there once give each choice once -/
theorem nodup_compatibleSubsets {spans : List Span} (h : spans.Nodup) : (compatibleSubsets spans).Nodup := by
  induction spans using List.reverseRecOn with
  | nil => exact List.nodup_singleton []
  | append_singleton spans s ih =>
    rw [List.nodup_append] at h
    obtain ⟨hspans, -, hnew⟩ := h
    have hs : s ∉ spans := fun hmem => hnew s hmem s (List.mem_singleton_self s) rfl
    rw [compatibleSubsets_concat, List.nodup_append]
    refine ⟨ih hspans, ?_, ?_⟩
    · unfold extensions
      refine List.Nodup.map ?_ ((ih hspans).filter _)
      intro c c' hcc
      exact List.append_cancel_right hcc
    · intro c hc c' hc' heq
      obtain ⟨c₀, -, -, hlast⟩ := mem_extensions_iff.1 hc'
      have hsub : c.Sublist spans := (mem_compatibleSubsets_iff.1 hc).1
      rw [heq, hlast] at hsub
      exact hs (hsub.subset (by simp))

theorem head?_compatibleSubsets (spans : List Span) : (compatibleSubsets spans).head? = some [] := by
  induction spans using List.reverseRecOn with
  | nil => rfl
  | append_singleton spans s ih =>
    rw [compatibleSubsets_concat, List.head?_append, ih]
    rfl

end Dialogue.Span
