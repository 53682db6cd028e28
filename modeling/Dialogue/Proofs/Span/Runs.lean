import Mathlib.Algebra.GroupWithZero.Nat
import Mathlib.Data.List.Count
import Mathlib.Data.List.Sort
import Dialogue.Proofs.Span

/-!
# Runs of positions

The positions that satisfy a condition fall into runs: spans of such positions with no other at either end.  One pass
over the positions lists them.

* `Span.mem_runsFrom_iff`, `Span.pairwise_runsFrom` — the pass lists every run, in order;
* `Span.sum_length_runsFrom` — together the runs have as many positions as satisfy the condition;
* `Span.eq_runs` — no other list has the runs in order.
-/

namespace Dialogue.Span

/-- a run: positions that satisfy `p`, of which there is none at either end -/
structure IsRun (p : Nat → Bool) (s : Span) : Prop where
  start_lt_stop : s.start < s.stop
  inside : ∀ i, s.start ≤ i → i < s.stop → p i = true
  before_start : ∀ i, i + 1 = s.start → p i = false
  at_stop : p s.stop = false

/-- the run from `start` up to position `i`, if there is a position between -/
def endRun (start i : Nat) : List Span :=
  if start < i then [⟨start, i⟩] else []

/-- the runs among the `n` positions from `i` on, when all positions from `start` up to `i` belong to one -/
def runsFrom (p : Nat → Bool) (start i : Nat) : Nat → List Span
  | 0 => endRun start i
  | n + 1 => if p i then runsFrom p start (i + 1) n else endRun start i ++ runsFrom p (i + 1) (i + 1) n

/-- the runs among the first `n` positions -/
def runs (p : Nat → Bool) (n : Nat) : List Span :=
  runsFrom p 0 0 n

variable {p : Nat → Bool} {s : Span} {start i n : Nat}

/-! ### The run that has begun -/

/-- a run that began at `start` has come up to position `i`; it may have no position yet -/
structure Begun (p : Nat → Bool) (start i : Nat) : Prop where
  start_le : start ≤ i
  inside : ∀ j, start ≤ j → j < i → p j = true
  before_start : ∀ j, j + 1 = start → p j = false

theorem begun_zero (p : Nat → Bool) : Begun p 0 0 where
  start_le := Nat.le_refl 0
  inside j _ hj := absurd hj (Nat.not_lt_zero j)
  before_start j hj := absurd hj (Nat.succ_ne_zero j)

/-- behind a position that does not satisfy the condition a run can begin -/
theorem begun_succ (hi : p i = false) : Begun p (i + 1) (i + 1) where
  start_le := Nat.le_refl (i + 1)
  inside j hstart hstop := absurd hstart (Nat.not_le.2 hstop)
  before_start j hj := by
    rw [Nat.succ.inj hj]
    exact hi

theorem Begun.next (h : Begun p start i) (hi : p i = true) : Begun p start (i + 1) where
  start_le := Nat.le_succ_of_le h.start_le
  inside j hstart hstop := by
    rcases Nat.lt_succ_iff_lt_or_eq.1 hstop with hlt | rfl
    · exact h.inside j hstart hlt
    · exact hi
  before_start := h.before_start

/-- the run ends, and there is no other up to its end -/
theorem Begun.mem_endRun_iff (h : Begun p start i) (hi : p i = false) :
    s ∈ endRun start i ↔ IsRun p s ∧ start ≤ s.start ∧ s.start ≤ i := by
  unfold endRun
  constructor
  · intro hs
    split at hs
    · next hlt =>
      rw [List.mem_singleton.1 hs]
      exact ⟨⟨hlt, h.inside, h.before_start, hi⟩, Nat.le_refl start, h.start_le⟩
    · cases hs
  · rintro ⟨hrun, hstart, hle⟩
    -- a run that starts later would have a position before it that satisfies the condition
    have hi' : s.start ≠ i := by
      rintro rfl
      rw [hrun.inside s.start (Nat.le_refl _) hrun.start_lt_stop] at hi
      cases hi
    have hfirst : s.start = start := by
      by_contra hne
      have hbefore : p (s.start - 1) = false := hrun.before_start (s.start - 1) (by omega)
      rw [h.inside (s.start - 1) (by omega) (by omega)] at hbefore
      cases hbefore
    have hlow : ¬ s.stop < i := by
      intro hlt
      have hstop := hrun.at_stop
      rw [h.inside s.stop (by have := hrun.start_lt_stop; omega) hlt] at hstop
      cases hstop
    have hhigh : ¬ i < s.stop := by
      intro hlt
      rw [hrun.inside i hle hlt] at hi
      cases hi
    have hs : s = ⟨start, i⟩ := by
      rw [← hfirst, ← Nat.le_antisymm (Nat.not_lt.1 hhigh) (Nat.not_lt.1 hlow)]
    rw [if_pos (by omega), hs]
    exact List.mem_singleton_self _

/-! ### All runs -/

/-- **Every run is listed.** -/
theorem mem_runsFrom_iff (h : Begun p start i) (hend : ∀ j, i + n ≤ j → p j = false) :
    s ∈ runsFrom p start i n ↔ IsRun p s ∧ start ≤ s.start := by
  have hstarts (hrun : IsRun p s) : p s.start = true := hrun.inside s.start (Nat.le_refl _) hrun.start_lt_stop
  induction n generalizing start i with
  | zero =>
    rw [runsFrom, h.mem_endRun_iff (hend i (Nat.le_refl i))]
    constructor
    · exact fun hs => ⟨hs.1, hs.2.1⟩
    · rintro ⟨hrun, hstart⟩
      refine ⟨hrun, hstart, ?_⟩
      by_contra hlt
      rw [hend s.start (by omega)] at hstarts
      cases hstarts hrun
  | succ n ih =>
    have hend' : ∀ j, i + 1 + n ≤ j → p j = false := fun j hj => hend j (by omega)
    rw [runsFrom]
    by_cases hi : p i = true
    · rw [if_pos hi]
      exact ih (h.next hi) hend'
    · have hi' : p i = false := by simpa using hi
      have hstart := h.start_le
      have hrest : s ∈ runsFrom p (i + 1) (i + 1) n ↔ IsRun p s ∧ i + 1 ≤ s.start := ih (begun_succ hi') hend'
      rw [if_neg hi, List.mem_append, h.mem_endRun_iff hi', hrest, ← and_or_left]
      refine and_congr_right fun hrun => ?_
      constructor <;> omega

/-- **The runs are listed in order.** -/
theorem pairwise_runsFrom (h : Begun p start i) (hend : ∀ j, i + n ≤ j → p j = false) :
    (runsFrom p start i n).Pairwise fun s t => s.before t = true := by
  have hone (start i : Nat) : (endRun start i).Pairwise fun s t => s.before t = true := by
    unfold endRun
    split
    · exact List.pairwise_singleton _ _
    · exact .nil
  induction n generalizing start i with
  | zero => exact hone start i
  | succ n ih =>
    have hend' : ∀ j, i + 1 + n ≤ j → p j = false := fun j hj => hend j (by omega)
    rw [runsFrom]
    by_cases hi : p i = true
    · rw [if_pos hi]
      exact ih (h.next hi) hend'
    · have hi' : p i = false := by simpa using hi
      rw [if_neg hi, List.pairwise_append]
      refine ⟨hone start i, ih (begun_succ hi') hend', ?_⟩
      intro s hs t ht
      obtain ⟨-, -, hle⟩ := (h.mem_endRun_iff hi').1 hs
      obtain ⟨-, hlt⟩ := (mem_runsFrom_iff (begun_succ hi') hend').1 ht
      exact before_iff.2 (.inl (by omega))

/-- **Together the runs have as many positions as satisfy the condition.** -/
theorem sum_length_runsFrom (hstart : start ≤ i) :
    ((runsFrom p start i n).map length).sum = (i - start) + (List.range' i n).countP p := by
  have hone (start i : Nat) : ((endRun start i).map length).sum = i - start := by
    unfold endRun
    split
    · simp [length]
    · simp
      omega
  induction n generalizing start i with
  | zero =>
    rw [runsFrom, hone]
    rfl
  | succ n ih =>
    rw [runsFrom, List.range'_succ, List.countP_cons]
    by_cases hi : p i = true
    · have hnext : start ≤ i + 1 := Nat.le_succ_of_le hstart
      rw [if_pos hi, if_pos hi, ih hnext]
      omega
    · rw [if_neg hi, if_neg hi, List.map_append, List.sum_append, hone, ih (Nat.le_refl (i + 1))]
      omega

theorem mem_runs_iff (hend : ∀ j, n ≤ j → p j = false) : s ∈ runs p n ↔ IsRun p s := by
  unfold runs
  rw [mem_runsFrom_iff (begun_zero p) (by simpa using hend)]
  exact and_iff_left (Nat.zero_le s.start)

theorem pairwise_runs (hend : ∀ j, n ≤ j → p j = false) : (runs p n).Pairwise fun s t => s.before t = true :=
  pairwise_runsFrom (begun_zero p) (by simpa using hend)

theorem sum_length_runs (p : Nat → Bool) (n : Nat) : ((runs p n).map length).sum = (List.range n).countP p := by
  unfold runs
  rw [sum_length_runsFrom (Nat.le_refl 0), List.range_eq_range', Nat.sub_zero, Nat.zero_add]

/-- **No other list has the runs in order.** -/
theorem eq_runs (hend : ∀ j, n ≤ j → p j = false) {spans : List Span}
    (horder : spans.Pairwise fun s t => s.before t = true) (hruns : ∀ s, s ∈ spans ↔ IsRun p s) :
    spans = runs p n := by
  have hirrefl : Std.Irrefl fun s t : Span => s.before t = true := ⟨fun s h => ne_of_before h rfl⟩
  have hantisymm : Std.Antisymm fun s t : Span => s.before t = true := by
    refine ⟨fun s t hst hts => ?_⟩
    rw [before_iff] at hst hts
    omega
  refine horder.eq_of_mem_iff (pairwise_runs hend) ?_
  intro s
  rw [hruns, mem_runs_iff hend]

end Dialogue.Span
