import Dialogue.Proofs.Except
import Dialogue.Path.Parse

/-!
# The segments of a path

A list of segments is a path exactly when it is not empty, no key is empty and only the last sigil is that of a
scalar (`ofSegments?_eq_none_iff`).
-/

namespace Dialogue

theorem PathFault.first?_eq_none_iff {n : Nat} {ss : List Segment} :
    first? n ss = none ↔ (∀ s ∈ ss, s.key ≠ "") ∧ ∀ s ∈ ss.dropLast, s.sigil.isScalar = false := by
  induction ss generalizing n with
  | nil => simp [first?]
  | cons s ss ih =>
    cases ss with
    | nil => by_cases h : s.key = "" <;> simp [first?, h]
    | cons t ts =>
      rw [first?, List.dropLast_cons_cons]
      by_cases hk : s.key = ""
      · simp [hk]
      · by_cases hs : s.sigil.isScalar = true
        · simp [hk, hs]
        · rw [if_neg hk, if_neg (by simp [hs]), ih]
          simp [hk, hs]

theorem PathFault.ofSegments?_eq_none_iff {ss : List Segment} :
    ofSegments? ss = none ↔
      ss ≠ [] ∧ (∀ s ∈ ss, s.key ≠ "") ∧ ∀ s ∈ ss.dropLast, s.sigil.isScalar = false := by
  cases ss with
  | nil => simp [ofSegments?]
  | cons s ss => simp [ofSegments?, first?_eq_none_iff]

namespace Path

theorem isScalar_of_mem_inner {p : Path} {s : Segment} (h : s ∈ p.inner) : s.sigil.isScalar = false :=
  (PathFault.ofSegments?_eq_none_iff.1 p.sound).2.2 s h

theorem ofSegments_eq_ok {ss : List Segment} {p : Path} : ofSegments ss = .ok p ↔ p.segments = ss := by
  unfold ofSegments
  split
  · next f hf =>
    constructor
    · intro h
      cases h
    intro h
    have := p.sound
    rw [h, hf] at this
    cases this
  · constructor
    · intro h
      cases h
      rfl
    · rintro rfl
      rfl

theorem join_eq_ok {p q r : Path} : p.join q = .ok r ↔ r.segments = p.segments ++ q.segments := by
  rw [join, mapError_eq_ok, ofSegments_eq_ok]

end Path

end Dialogue
