import Dialogue.Prompt
import Dialogue.Proofs.Edits

/-!
# Taking an answer

An answer is written to the slot that the pending prompt asks about (`Snapshot.steps_of_takeAnswer`); where yes or no
is asked for, it is stored as a truth value (`Snapshot.yesOrNo?_of_answerNode?`).
-/

namespace Dialogue

open Slots

namespace Snapshot

variable {s s' : Snapshot} {p : ScopedPath}

theorem under?_of_textAt {o : Option String} (hs : s.RootedAt p.scope) (hp : p.path.Plain) (h : s.textAt p = .ok o) :
    (s.under? p.place).map Node.text = o := by
  obtain ⟨o, ho, h⟩ := bind_eq_ok.1 h
  rw [pure_eq_ok] at h
  rw [under?_get hs hp ho, h]

theorem flag_of_under? {x : Bool} (hs : s.RootedAt p.scope) (hp : p.path.Plain)
    (hv : s.under? p.place = some (.bool true)) (h : s.flag p = .ok x) : x = true := by
  obtain ⟨o, ho, h⟩ := bind_eq_ok.1 h
  rw [under?_get hs hp ho] at hv
  subst hv
  cases h
  rfl

/-- there is an answer, which goes to a path -/
structure Answers (s : Snapshot) (answer target : String) (value : Node) (p : ScopedPath) : Prop where
  answered : s.textAt answerValue = .ok (some answer)
  asked : s.textAt answerSlot = .ok (some target)
  stored : s.answerNode? answer = .ok (some value)
  goes : ScopedPath.parse target = .ok p

/-- an answer is written to the slot that was asked about, if there are an answer and a slot -/
theorem steps_of_takeAnswer (h : s.takeAnswer = .ok s') :
    s' = s ∨ ∃ answer target value p, s.Answers answer target value p ∧ s.put p (some value) = .ok s' := by
  obtain ⟨o, hanswer, h⟩ := bind_eq_ok.1 h
  cases o with
  | none =>
    cases h
    exact .inl rfl
  | some answer =>
    obtain ⟨o, htarget, h⟩ := bind_eq_ok.1 h
    cases o with
    | none =>
      cases h
      exact .inl rfl
    | some target =>
      obtain ⟨o, hvalue, h⟩ := bind_eq_ok.1 h
      cases o with
      | none =>
        cases h
        exact .inl rfl
      | some value =>
        obtain ⟨p, hp, h⟩ := bind_eq_ok.1 h
        exact .inr ⟨answer, target, value, p, ⟨hanswer, htarget, hvalue, hp⟩, h⟩

/-- an answer of yes or no is stored as such -/
theorem yesOrNo?_of_answerNode? {answer : String} {value : Node} (hs : s.RootedAt .utterance)
    (hboolean : s.under? answerBoolean.place = some (.bool true)) (h : s.answerNode? answer = .ok (some value)) :
    ∃ x, yesOrNo? answer = some x ∧ value = .bool x := by
  obtain ⟨x, hx, h⟩ := bind_eq_ok.1 h
  obtain rfl := flag_of_under? hs (by decide) hboolean hx
  simp only [if_true, pure_eq_ok] at h
  obtain ⟨y, hy, rfl⟩ := Option.map_eq_some_iff.1 h
  exact ⟨y, hy, rfl⟩

end Snapshot

end Dialogue
