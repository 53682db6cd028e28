import Dialogue.Bot.Reading
import Dialogue.Proofs.Entries
import Dialogue.Proofs.Except

/-!
# What resolving a goal gives

A response to a goal has one of five forms: it asks for a slot, it runs the actions of the goal at once, it asks the
user to agree, it gives way to another goal, or it completes the goal that the user has agreed to
(`Bot.resolution_of_resolve`).  In a workflow with the built-in stages, the response to an utterance is the response to
one of its readings, or to nothing (`Bot.responds_of_respond`).
-/

namespace Dialogue

open Slots

theorem liftState_eq_ok {α : Type} {x : Except StateError α} {a : α} :
    (liftM x : Except DialogueError α) = .ok a ↔ x = .ok a :=
  mapError_eq_ok

/-- the stages of a workflow after the reading of an utterance are the built-in ones -/
structure Workflow.BuiltIn (w : Workflow) : Prop where
  matcher : w.goalMatcher = .explicit
  handler : w.promptHandler = .default
  resolver : w.goalResolver = .validating

theorem Workflow.builtIn_basic (name : String) (es : List Extractor) : (basic name es).BuiltIn :=
  ⟨rfl, rfl, rfl⟩

namespace Bot

/-- so are those of the workflow in use -/
def BuiltIn (b : Bot) : Prop :=
  ∀ w, b.workflow = .ok w → w.BuiltIn

theorem builtIn_of_basic {b : Bot} {name : String} {es : List Extractor} (h : b.workflows = [.basic name es]) :
    b.BuiltIn := by
  intro w hw
  rw [workflow, h] at hw
  cases hw
  exact Workflow.builtIn_basic name es

def HasGoal (b : Bot) (g : Goal) : Prop :=
  ∃ name, b.goal name = .ok g

def HasAction (b : Bot) (a : Action) : Prop :=
  ∃ name, b.action name = .ok a

theorem mem_of_goal {b : Bot} {name : String} {g : Goal} (h : b.goal name = .ok g) : (name, g) ∈ b.goals := by
  rw [Repertoire.goal, Repertoire.goal?] at h
  split at h
  · next hg =>
    cases h
    exact Entries.mem_of_get? hg
  · cases h

theorem mem_of_action {b : Bot} {name : String} {a : Action} (h : b.action name = .ok a) : (name, a) ∈ b.actions := by
  rw [Repertoire.action] at h
  split at h
  · next ha =>
    cases h
    exact Entries.mem_of_get? ha
  · cases h

/-- the forms of a response to a goal -/
inductive Resolution (b : Bot) (g : Goal) (s : Snapshot) : Response → Prop
  | asks (v : Violation) (score : Score) (hv : ∃ c ∈ g.constraints, c.slot = v.slot) :
    Resolution b g s (g.ask v s score)
  | succeeds (summary : String) (actions : List Action) (hg : g.confirmOnValid = false)
      (hactions : b.successActions g = .ok actions) :
    Resolution b g s {
      spoken := summary
      snapshot := s
      score := .one
      commands := [.remove prompt, .put intentValidated (.bool true)]
      actions := actions }
  | asksToConfirm (summary : String) (hg : g.confirmOnValid = true) : Resolution b g s (g.askToConfirm summary s)
  | denies (next : Goal) (hg : g.confirmOnValid = true) (hnext : b.HasGoal next) :
    Resolution b g s {
      spoken := next.initialResponsePrompt.getD ""
      snapshot := s
      score := .one
      commands := [.switchGoal .utterance next.name, .put intentValidated (.bool false)] }
  | completes (actions : List Action) (hg : g.confirmOnValid = true)
      (hagreed : s.get intentConfirmed = .ok (some (.bool true))) (hactions : b.successActions g = .ok actions) :
    Resolution b g s {
      spoken := ""
      snapshot := s
      score := .one
      commands := [.completeGoal, .put intentValidated (.bool true), .remove prompt]
      actions := actions }

variable {b : Bot} {g : Goal} {s : Snapshot} {r : Response}

theorem hasAction_of_mem {actions : List Action} (h : b.successActions g = .ok actions) {a : Action}
    (ha : a ∈ actions) : b.HasAction a := by
  obtain ⟨name, -, hname⟩ := exists_of_mem_mapM h ha
  exact ⟨name, hname⟩

theorem slot_of_mem_violations {vs : List Violation} (h : g.violations s = .ok vs) {v : Violation} (hv : v ∈ vs) :
    ∃ c ∈ g.constraints, c.slot = v.slot := by
  obtain ⟨os, hos, h⟩ := bind_eq_ok.1 h
  rw [pure_eq_ok] at h
  subst h
  obtain ⟨o, ho, he⟩ := List.mem_filterMap.1 hv
  obtain ⟨c, hc, hcheck⟩ := exists_of_mem_mapM hos ho
  refine ⟨c, hc, ?_⟩
  obtain ⟨value, -, hcheck⟩ := bind_eq_ok.1 hcheck
  rw [pure_eq_ok, ← id_eq o, he, Constraint.violation?, Option.ite_none_left_eq_some] at hcheck
  obtain ⟨-, hcheck⟩ := hcheck
  cases hcheck
  rfl

theorem bool_of_asBool? {o : Option Node} {x : Bool} (h : o.bind Node.asBool? = some x) : o = some (.bool x) := by
  obtain ⟨v, rfl, hv⟩ := Option.bind_eq_some_iff.1 h
  cases v with
  | bool y =>
    cases hv
    rfl
  | _ => cases hv

theorem steps_of_deny (h : b.deny g s = .ok r) :
    ∃ next, b.HasGoal next ∧ r = {
      spoken := next.initialResponsePrompt.getD ""
      snapshot := s
      score := .one
      commands := [.switchGoal .utterance next.name, .put intentValidated (.bool false)] } := by
  rw [Repertoire.deny] at h
  split at h
  · obtain ⟨next, hnext, h⟩ := bind_eq_ok.1 h
    cases h
    exact ⟨next, ⟨_, hnext⟩, rfl⟩
  · cases h

/-- what can be said and done about a goal whose constraints hold, and when -/
theorem cases_of_succeed (h : b.succeed g s = .ok r) :
    (g.confirmOnValid = false ∧ ∃ summary actions, b.successActions g = .ok actions ∧
      r = ⟨summary, s, .one, [.remove prompt, .put intentValidated (.bool true)], actions⟩) ∨
    g.confirmOnValid = true ∧ ∃ o, s.get intentConfirmed = .ok o ∧
      ((o.bind Node.asBool? = none ∧ ∃ summary, r = g.askToConfirm summary s) ∨
        (o = some (.bool false) ∧ b.deny g s = .ok r) ∨
        o = some (.bool true) ∧ ∃ actions, b.successActions g = .ok actions ∧
          r = ⟨"", s, .one, [.completeGoal, .put intentValidated (.bool true), .remove prompt], actions⟩) := by
  obtain ⟨summary, -, h⟩ := bind_eq_ok.1 h
  cases hg : g.confirmOnValid with
  | false =>
    simp only [hg, Bool.not_false, if_true] at h
    obtain ⟨actions, hactions, h⟩ := bind_eq_ok.1 h
    cases h
    exact .inl ⟨rfl, summary, actions, hactions, rfl⟩
  | true =>
    simp only [hg, Bool.not_true, Bool.false_eq_true, if_false] at h
    obtain ⟨o, ho, h⟩ := bind_eq_ok.1 h
    rw [liftState_eq_ok] at ho
    refine .inr ⟨rfl, o, ho, ?_⟩
    split at h
    · next hnone =>
      cases h
      exact .inl ⟨hnone, summary, rfl⟩
    · next hfalse => exact .inr (.inl ⟨bool_of_asBool? hfalse, h⟩)
    · next htrue =>
      obtain ⟨actions, hactions, h⟩ := bind_eq_ok.1 h
      cases h
      exact .inr (.inr ⟨bool_of_asBool? htrue, actions, hactions, rfl⟩)

theorem resolution_of_succeed (h : b.succeed g s = .ok r) : b.Resolution g s r := by
  rcases cases_of_succeed h with ⟨hg, summary, actions, hactions, rfl⟩ | ⟨hg, o, ho, hanswer⟩
  · exact .succeeds summary actions hg hactions
  · rcases hanswer with ⟨-, summary, rfl⟩ | ⟨-, hdeny⟩ | ⟨rfl, actions, hactions, rfl⟩
    · exact .asksToConfirm summary hg
    · obtain ⟨next, hnext, rfl⟩ := steps_of_deny hdeny
      exact .denies next hg hnext
    · exact .completes actions hg ho hactions

/-- **Every response to a goal has one of the five forms.** -/
theorem resolution_of_resolve (h : b.resolve g s = .ok r) : b.Resolution g s r := by
  obtain ⟨vs, hvs, h⟩ := bind_eq_ok.1 h
  rw [liftState_eq_ok] at hvs
  cases vs with
  | nil => exact resolution_of_succeed h
  | cons v vs =>
    cases h
    exact .asks v _ (slot_of_mem_violations hvs List.mem_cons_self)

namespace Resolution

/-- resolving changes nothing -/
theorem snapshot_eq (h : b.Resolution g s r) : r.snapshot = s := by
  cases h <;> rfl

theorem hasAction (h : b.Resolution g s r) {a : Action} (ha : a ∈ r.actions) : b.HasAction a := by
  cases h with
  | succeeds _ _ _ hactions => exact hasAction_of_mem hactions ha
  | completes _ _ _ hactions => exact hasAction_of_mem hactions ha
  | _ => cases ha

/-- the actions of a goal that asks the user to agree run only once the user has agreed -/
theorem agreed (h : b.Resolution g s r) (hg : g.confirmOnValid = true) (hr : r.actions ≠ []) :
    s.get intentConfirmed = .ok (some (.bool true)) ∧
      r.commands = [.completeGoal, .put intentValidated (.bool true), .remove prompt] := by
  cases h with
  | completes _ _ hagreed _ => exact ⟨hagreed, rfl⟩
  | succeeds _ _ hg' _ =>
    rw [hg] at hg'
    cases hg'
  | _ => exact absurd rfl hr

end Resolution

/-! ### Readings -/

variable {w : Workflow}

/-- how a reading of an utterance comes to a response by the built-in stages: its payload leads to the snapshot `s₁`,
the active goal of which is `g`, and with the answer to the pending prompt that becomes `s₂` -/
structure Responds (b : Bot) (s : Snapshot) (u : Utterance) (s₁ : Snapshot) (g : Goal) (s₂ : Snapshot)
    (r : Response) : Prop where
  payload : ∃ payload cs, b.dictionary.lookup u = .ok (some payload) ∧ Command.parseAll payload = .ok cs ∧
    s.update cs = .ok s₁
  active : ∃ name, s₁.textAt intentName = .ok (some name) ∧ b.goal name = .ok g
  answered : s₁.takeAnswer = .ok s₂
  resolved : b.resolve g s₂ = .ok r

theorem activeGoal_eq_some (h : b.activeGoal s = .ok (some g)) :
    ∃ name, s.textAt intentName = .ok (some name) ∧ b.goal name = .ok g := by
  obtain ⟨o, ho, h⟩ := bind_eq_ok.1 h
  rw [liftState_eq_ok] at ho
  cases o with
  | none => cases h
  | some name =>
    obtain ⟨g', hg, h⟩ := bind_eq_ok.1 h
    cases h
    exact ⟨name, ho, hg⟩

/-- the stages that a reading goes through, whatever they do -/
theorem steps_of_candidate {u : Utterance} (h : b.candidate w s u = .ok (some r)) :
    ∃ payload cs s₁ g s₂, b.dictionary.lookup u = .ok (some payload) ∧ Command.parseAll payload = .ok cs ∧
      s.update cs = .ok s₁ ∧ w.goalMatcher.assign b.toRepertoire s₁ = .ok (some g) ∧
      w.promptHandler.handle s₁ = .ok s₂ ∧ w.goalResolver.resolve b.toRepertoire g s₂ = .ok r := by
  rw [candidate] at h
  split at h
  · cases h
  · cases h
  · next payload hlookup =>
    obtain ⟨cs, hcs, h⟩ := bind_eq_ok.1 h
    obtain ⟨s₁, hs₁, h⟩ := bind_eq_ok.1 h
    obtain ⟨o, ho, h⟩ := bind_eq_ok.1 h
    rw [liftState_eq_ok] at hcs hs₁
    cases o with
    | none => cases h
    | some g =>
      obtain ⟨s₂, hs₂, h⟩ := bind_eq_ok.1 h
      obtain ⟨r', hr, h⟩ := bind_eq_ok.1 h
      cases h
      exact ⟨payload, cs, s₁, g, s₂, hlookup, hcs, hs₁, ho, hs₂, hr⟩

theorem responds_of_candidate {u : Utterance} (hw : w.BuiltIn) (h : b.candidate w s u = .ok (some r)) :
    ∃ s₁ g s₂, b.Responds s u s₁ g s₂ r := by
  obtain ⟨payload, cs, s₁, g, s₂, hlookup, hcs, hs₁, hg, hs₂, hr⟩ := steps_of_candidate h
  rw [hw.matcher] at hg
  rw [hw.handler, PromptHandler.default, liftState_eq_ok] at hs₂
  rw [hw.resolver] at hr
  exact ⟨s₁, g, s₂, ⟨payload, cs, hlookup, hcs, hs₁⟩, activeGoal_eq_some hg, hs₂, hr⟩

theorem better_eq_some {best : Option Response} {r' : Response} (h : better best r = some r') :
    best = some r' ∨ r = r' := by
  cases best with
  | none =>
    cases h
    exact .inr rfl
  | some old =>
    rw [better] at h
    split at h
    · cases h
      exact .inr rfl
    · exact .inl h

theorem candidate_of_bestOf {us : List Utterance} {best : Option Response} (h : b.bestOf w s us best = .ok (some r)) :
    best = some r ∨ ∃ u ∈ us, b.candidate w s u = .ok (some r) := by
  induction us generalizing best with
  | nil =>
    cases h
    exact .inl rfl
  | cons u us ih =>
    have later (hbest : ∃ u' ∈ us, b.candidate w s u' = .ok (some r)) :
        ∃ u' ∈ u :: us, b.candidate w s u' = .ok (some r) := by
      obtain ⟨u', hu', hc⟩ := hbest
      exact ⟨u', List.mem_cons_of_mem u hu', hc⟩
    rw [bestOf] at h
    split at h
    · next r' hr' =>
      rcases ih h with hbest | hbest
      · rcases better_eq_some hbest with hbest | rfl
        · exact .inl hbest
        · exact .inr ⟨u, List.mem_cons_self, hr'⟩
      · exact .inr (later hbest)
    · exact (ih h).imp_right later
    · split at h
      · exact (ih h).imp_right later
      · cases h

/-- the response to an utterance comes from one of its readings, or there is nothing to say -/
theorem candidate_of_respond {u : Utterance} (h : b.respond w u s = .ok r) :
    r = .ofNothing s ∨ ∃ u', w.Reads u u' ∧ b.candidate w s u' = .ok (some r) := by
  obtain ⟨us, hus, h⟩ := bind_eq_ok.1 h
  obtain ⟨o, ho, h⟩ := bind_eq_ok.1 h
  rw [pure_eq_ok] at h
  subst h
  cases o with
  | none => exact .inl rfl
  | some r =>
    rcases candidate_of_bestOf ho with h | ⟨u', hu', hc⟩
    · cases h
    · exact .inr ⟨u', ⟨us, hus, hu'⟩, hc⟩

theorem responds_of_respond {u : Utterance} (hw : w.BuiltIn) (h : b.respond w u s = .ok r) :
    r = .ofNothing s ∨ ∃ u', w.Reads u u' ∧ ∃ s₁ g s₂, b.Responds s u' s₁ g s₂ r :=
  (candidate_of_respond h).imp_right fun ⟨u', hu', hc⟩ => ⟨u', hu', responds_of_candidate hw hc⟩

end Bot

end Dialogue
