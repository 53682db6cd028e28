import Mathlib.Data.List.Basic
import Dialogue.Goal
import Dialogue.Proofs.Except

/-!
# Constraints that hold

A constraint holds in a snapshot if its validator accepts what is in its slot.  Once all slots of a goal can be read,
its violations are those of the constraints that do not hold, in order (`Goal.eq_of_violations`).
-/

namespace Dialogue

variable {c : Constraint} {g : Goal} {s : Snapshot} {vs : List Violation}

namespace Constraint

/-- whether the slot of a constraint can be read and what is in it is accepted -/
def holds (c : Constraint) (s : Snapshot) : Bool :=
  match s.get c.slot with
  | .ok value => c.validator.accepts value
  | .error _ => false

/-- what there is to say where a constraint does not hold -/
def violation (c : Constraint) : Violation :=
  ⟨c.slot, c.prompt, c.errorMessage⟩

theorem eq_of_check {o : Option Violation} (h : c.check s = .ok o) :
    o = if c.holds s then none else some c.violation := by
  obtain ⟨value, hvalue, h⟩ := bind_eq_ok.1 h
  rw [pure_eq_ok] at h
  rw [← h, holds, hvalue]
  rfl

end Constraint

namespace Goal

/-- **The violations of a goal** are those of the constraints that do not hold, in order. -/
theorem eq_of_violations (h : g.violations s = .ok vs) :
    vs = (g.constraints.filter fun c => !c.holds s).map Constraint.violation := by
  obtain ⟨os, hos, h⟩ := bind_eq_ok.1 h
  rw [mapM_eq_ok] at hos
  rw [pure_eq_ok] at h
  rw [← h]
  generalize g.constraints = cs at hos
  clear h
  induction hos with
  | nil => rfl
  | @cons c o cs os hc _ ih =>
    rw [Constraint.eq_of_check hc]
    by_cases hholds : c.holds s = true
    · simpa [hholds] using ih
    · simpa [hholds] using ih

theorem violations_nil_iff (h : g.violations s = .ok vs) : vs = [] ↔ ∀ c ∈ g.constraints, c.holds s = true := by
  rw [eq_of_violations h, List.map_eq_nil_iff, List.filter_eq_nil_iff]
  simp

theorem head?_violations (h : g.violations s = .ok vs) :
    vs.head? = (g.constraints.find? fun c => !c.holds s).map Constraint.violation := by
  rw [eq_of_violations h, List.head?_map, List.head?_filter]

/-- what does not hold is not among what holds -/
theorem countP_add_length_violations (h : g.violations s = .ok vs) :
    g.constraints.countP (·.holds s) + vs.length = g.constraints.length := by
  rw [eq_of_violations h, List.length_map, ← List.countP_eq_length_filter]
  simpa using (List.length_eq_countP_add_countP (fun c : Constraint => c.holds s)).symm

end Goal

end Dialogue
