import Dialogue.Proofs.Bot.Asked
import Dialogue.Proofs.Bot.WellFormed
import Dialogue.Proofs.Goal

/-!
# What lets the actions of a goal run

A response is a list of commands, and what counts is what they leave in the snapshot.  They note the goal as valid,
and its actions run, exactly if the goal is approved: all its constraints hold, and the user has agreed to it where it
asks for that (`Bot.gated_of_resolve`).

* `Bot.runs_of_succeed` — a goal that is approved runs its actions;
* `Bot.waits_of_succeed` — a goal that waits for the user's agreement does not;
* `Bot.exists_update_of_agreed`, `Bot.exists_update_of_waiting` — their commands succeed, and note which of them it is.
-/

namespace Dialogue

open Slots Snapshot

/-- all constraints of a goal hold, and the user has agreed to it if it asks for that -/
structure Goal.Approved (g : Goal) (s : Snapshot) : Prop where
  valid : ∀ c ∈ g.constraints, c.holds s = true
  agreed : g.confirmOnValid = true → s.get intentConfirmed = .ok (some (.bool true))

namespace Bot

variable {b : Bot} {g : Goal} {s s' : Snapshot} {r : Response} {m : GoalStack} {x : Bool}

/-! ### Which response there is -/

/-- **A goal that is approved runs its actions**, all of them and in order. -/
theorem runs_of_succeed (hagreed : g.confirmOnValid = true → s.get intentConfirmed = .ok (some (.bool true)))
    (h : b.succeed g s = .ok r) : r.score = .one ∧ b.successActions g = .ok r.actions ∧
      (r.commands = [.remove prompt, .put intentValidated (.bool true)] ∨
        r.commands = [.completeGoal, .put intentValidated (.bool true), .remove prompt]) := by
  rcases cases_of_succeed h with ⟨-, summary, actions, hactions, rfl⟩ | ⟨hg, o, ho, hanswer⟩
  · exact ⟨rfl, hactions, .inl rfl⟩
  · rw [hagreed hg] at ho
    cases ho
    rcases hanswer with ⟨hnone, -⟩ | ⟨hfalse, -⟩ | ⟨-, actions, hactions, rfl⟩
    · cases hnone
    · cases hfalse
    · exact ⟨rfl, hactions, .inr rfl⟩

/-- **A goal that waits for the user's agreement** asks for it, or gives way to another goal. -/
theorem waits_of_succeed (hnot : ¬ (g.confirmOnValid = true → s.get intentConfirmed = .ok (some (.bool true))))
    (h : b.succeed g s = .ok r) : r.score = .one ∧ r.actions = [] ∧
      ((∃ summary, r = g.askToConfirm summary s) ∨
        ∃ name, r.commands = [.switchGoal .utterance name, .put intentValidated (.bool false)]) := by
  rw [Classical.not_imp] at hnot
  rcases cases_of_succeed h with ⟨hg, -⟩ | ⟨-, o, ho, hanswer⟩
  · rw [hnot.1] at hg
    cases hg
  · rcases hanswer with ⟨-, summary, rfl⟩ | ⟨-, hdeny⟩ | ⟨rfl, -⟩
    · exact ⟨rfl, rfl, .inl ⟨summary, rfl⟩⟩
    · obtain ⟨next, -, rfl⟩ := steps_of_deny hdeny
      exact ⟨rfl, rfl, .inr ⟨next.name, rfl⟩⟩
    · exact absurd ho hnot.2

theorem score_of_succeed (h : b.succeed g s = .ok r) : r.score = .one := by
  by_cases hagreed : g.confirmOnValid = true → s.get intentConfirmed = .ok (some (.bool true))
  · exact (runs_of_succeed hagreed h).1
  · exact (waits_of_succeed hagreed h).1

/-! ### What it leaves -/

theorem get_validated (h : s.under? intentValidated.place = some (.bool x)) :
    s.get intentValidated = .ok (some (.bool x)) :=
  Store.read_of_under? (by decide) h rfl

/-- a goal that runs its actions at once forgets the prompt -/
theorem exists_update_succeeded (hs : s.KeepsGoals) :
    ∃ s', s.update [.remove prompt, .put intentValidated (.bool true)] = .ok s' ∧
      s'.get intentValidated = .ok (some (.bool true)) := by
  obtain ⟨s', hupdate, hvalidated, -⟩ :=
    exists_update_prompt hs.utterance hs.conversation hs.intent (List.forall_mem_nil _) true
  exact ⟨s', hupdate, get_validated hvalidated⟩

theorem exists_update_toConfirm (hs : s.KeepsGoals) (g : Goal) (summary : String) :
    ∃ s', s.update (g.askToConfirm summary s).commands = .ok s' ∧
      s'.get intentValidated = .ok (some (.bool false)) := by
  obtain ⟨s', hupdate, hvalidated, -⟩ :=
    exists_update_prompt hs.utterance hs.conversation hs.intent (entryOf_askingToConfirm g) false
  exact ⟨s', hupdate, get_validated hvalidated⟩

/-- a goal can give way to another -/
theorem exists_update_denied (hs : s.KeepsGoals) (name : String) :
    ∃ s', s.update [.switchGoal .utterance name, .put intentValidated (.bool false)] = .ok s' ∧
      s'.get intentValidated = .ok (some (.bool false)) := by
  obtain ⟨m, hm⟩ := hs.exists_shows
  obtain ⟨s₁, hswitch, h₁, -⟩ := hm.exists_switch name
  obtain ⟨s', hrun, hvalidated, -⟩ := exists_run_validated h₁.utterance h₁.intent false
  refine ⟨s', ?_, get_validated hvalidated⟩
  exact update_cons_eq_ok.2 ⟨s₁, hswitch, update_cons_eq_ok.2 ⟨s', hrun, rfl⟩⟩

/-- a goal can be completed, after which nothing is asked -/
theorem exists_update_completed (hs : s.KeepsGoals) (hword : Indexed s) :
    ∃ s', s.update [.completeGoal, .put intentValidated (.bool true), .remove prompt] = .ok s' ∧
      s'.get intentValidated = .ok (some (.bool true)) := by
  obtain ⟨m, hm⟩ := hs.exists_shows
  obtain ⟨s₁, hcomplete, h₁, -⟩ := hm.exists_complete (hword.length_le hm)
  obtain ⟨s₂, hrun, hvalidated, hnoted⟩ := exists_run_validated h₁.utterance h₁.intent true
  have hconv : s₂.RootedAt .conversation := hnoted.rootedAt h₁.conversation
  obtain ⟨s', hremove, -⟩ := exists_remove (reaches_of_rootedAt (p := prompt) hconv rfl)
  refine ⟨s', ?_, get_validated ?_⟩
  · refine update_cons_eq_ok.2 ⟨s₁, hcomplete, update_cons_eq_ok.2 ⟨s₂, hrun, ?_⟩⟩
    exact update_cons_eq_ok.2 ⟨s', run_remove hremove, rfl⟩
  · rw [under?_remove_of_apart hremove (by decide), hvalidated]

/-- a goal that runs its actions is noted as valid -/
theorem exists_update_of_agreed (hs : s.KeepsGoals) (hword : Indexed s)
    (hagreed : g.confirmOnValid = true → s.get intentConfirmed = .ok (some (.bool true)))
    (h : b.succeed g s = .ok r) :
    ∃ s', s.update r.commands = .ok s' ∧ s'.get intentValidated = .ok (some (.bool true)) := by
  obtain ⟨-, -, hcommands | hcommands⟩ := runs_of_succeed hagreed h
  · rw [hcommands]
    exact exists_update_succeeded hs
  · rw [hcommands]
    exact exists_update_completed hs hword

theorem exists_update_of_waiting (hs : s.KeepsGoals)
    (hnot : ¬ (g.confirmOnValid = true → s.get intentConfirmed = .ok (some (.bool true))))
    (h : b.succeed g s = .ok r) :
    ∃ s', s.update r.commands = .ok s' ∧ s'.get intentValidated = .ok (some (.bool false)) := by
  obtain ⟨-, -, ⟨summary, rfl⟩ | ⟨name, hcommands⟩⟩ := waits_of_succeed hnot h
  · exact exists_update_toConfirm hs g summary
  · rw [hcommands]
    exact exists_update_denied hs name

/-! ### The gate -/

/-- **The actions of a goal run exactly if it is approved.**  In a snapshot with a history of goals the commands of a
response succeed, and then it is noted that the goal is valid exactly if it is approved; its actions are those of the
goal, in order, in this case and none in any other.  If a constraint does not hold, the prompt is afterwards the
question of the first such constraint, its slot and the name of the goal.  A completion names the last goal by its
index, a number of 64 bits, so there cannot be more goals than that. -/
theorem gated_of_resolve (hs : s.KeepsGoals) (hword : Indexed s) (h : b.resolve g s = .ok r) :
    ∃ s', r.snapshot.update r.commands = .ok s' ∧
      (∃ x, s'.get intentValidated = .ok (some (.bool x)) ∧ (x = true ↔ g.Approved s)) ∧
      (g.Approved s → List.Forall₂ (fun name a => b.action name = .ok a) g.successActions r.actions) ∧
      (¬ g.Approved s → r.actions = []) ∧
      ∀ c, (g.constraints.find? fun c => !c.holds s) = some c → s'.get prompt =
        .ok (some (.map [("intent", .str g.name), ("question", .str c.prompt), ("slot", .str c.slot.text)])) := by
  have hsnapshot : r.snapshot = s := (resolution_of_resolve h).snapshot_eq
  obtain ⟨vs, hvs, h⟩ := bind_eq_ok.1 h
  rw [liftState_eq_ok] at hvs
  have hvalid := Goal.violations_nil_iff hvs
  have hfirst := Goal.head?_violations hvs
  rw [hsnapshot]
  cases vs with
  | cons v vs =>
    cases h
    have hnot : ¬ g.Approved s := fun happroved => List.cons_ne_nil v vs (hvalid.2 happroved.valid)
    obtain ⟨s', hupdate, hvalidated, hprompt⟩ := exists_update_asking hs.utterance hs.conversation hs.intent g v
      (.of (g.constraints.length - (v :: vs).length) g.constraints.length)
    refine ⟨s', hupdate, ⟨false, get_validated hvalidated, by simp [hnot]⟩, fun happroved => absurd happroved hnot,
      fun _ => rfl, fun c hc => ?_⟩
    rw [hc, List.head?_cons, Option.map_some, Option.some_inj] at hfirst
    rw [hfirst] at hprompt
    exact Store.read_of_under? (by decide) hprompt rfl
  | nil =>
    have hall : ∀ c ∈ g.constraints, c.holds s = true := hvalid.1 rfl
    have hnone (c : Constraint) (hc : (g.constraints.find? fun c => !c.holds s) = some c) : False := by
      rw [hc] at hfirst
      cases hfirst
    by_cases hagreed : g.confirmOnValid = true → s.get intentConfirmed = .ok (some (.bool true))
    · have happroved : g.Approved s := ⟨hall, hagreed⟩
      obtain ⟨-, hactions, -⟩ := runs_of_succeed hagreed h
      obtain ⟨s', hupdate, hvalidated⟩ := exists_update_of_agreed hs hword hagreed h
      exact ⟨s', hupdate, ⟨true, hvalidated, by simp [happroved]⟩, fun _ => mapM_eq_ok.1 hactions,
        fun hnot => absurd happroved hnot, fun c hc => (hnone c hc).elim⟩
    · have hnot : ¬ g.Approved s := fun happroved => hagreed happroved.agreed
      obtain ⟨-, hactions, -⟩ := waits_of_succeed hagreed h
      obtain ⟨s', hupdate, hvalidated⟩ := exists_update_of_waiting hs hagreed h
      exact ⟨s', hupdate, ⟨false, hvalidated, by simp [hnot]⟩, fun happroved => absurd happroved hnot,
        fun _ => hactions, fun c hc => (hnone c hc).elim⟩

/-- a goal that the user has agreed to runs its action, and one that lacks a title asks for it, although the prompt of
another goal is left over -/
theorem gated_of_resolve_relaySecond :
    (relayAgreed.snapshot.KeepsGoals ∧ Indexed relayAgreed.snapshot ∧
      relay.resolve relaySecond relayAgreed.snapshot = .ok relayAgreed ∧
      ∃ s', relayAgreed.snapshot.update relayAgreed.commands = .ok s' ∧
        s'.get intentValidated = .ok (some (.bool true)) ∧ relayAgreed.actions.length = 1) ∧
    errandBegun.KeepsGoals ∧ Indexed errandBegun ∧
      errander.resolve errand errandBegun = .ok (errand.ask noTitle errandBegun (.of 0 1)) ∧
      ∃ s', errandBegun.update (errand.ask noTitle errandBegun (.of 0 1)).commands = .ok s' ∧
        s'.get intentValidated = .ok (some (.bool false)) ∧ s'.get prompt = .ok (some (.map titlePrompt)) := by
  constructor
  · have hs : relayAgreed.snapshot.KeepsGoals := by
      refine ⟨rfl, rfl, fun v hv => ?_, fun v hv => ?_, fun v hv => ⟨["first"], ?_⟩⟩
      all_goals
        cases hv
        rfl
    have hword : Indexed relayAgreed.snapshot := by
      intro items hitems
      cases hitems
      decide
    have happroved : relaySecond.Approved relayAgreed.snapshot := ⟨List.forall_mem_nil _, fun _ => by rfl⟩
    have hresolve : relay.resolve relaySecond relayAgreed.snapshot = .ok relayAgreed := by rfl
    obtain ⟨s', hupdate, ⟨x, hx, hiff⟩, hactions, -, -⟩ := gated_of_resolve hs hword hresolve
    rw [hiff.2 happroved] at hx
    exact ⟨hs, hword, hresolve, s', hupdate, hx, (hactions happroved).length_eq.symm⟩
  · have hs : errandBegun.KeepsGoals := by
      refine ⟨rfl, rfl, fun v hv => ?_, fun v hv => ?_, fun v hv => ?_⟩
      · cases hv
        rfl
      · cases hv
        rfl
      · cases hv
    have hword : Indexed errandBegun := by
      intro items hitems
      cases hitems
    have hresolve : errander.resolve errand errandBegun = .ok (errand.ask noTitle errandBegun (.of 0 1)) := by rfl
    obtain ⟨s', hupdate, ⟨x, hx, hiff⟩, -, -, hprompt⟩ := gated_of_resolve hs hword hresolve
    have hnot : ¬ errand.Approved errandBegun := by
      intro happroved
      have hholds := happroved.valid _ List.mem_cons_self
      revert hholds
      decide
    have hfalse : x = false := Bool.eq_false_iff.2 fun htrue => hnot (hiff.1 htrue)
    rw [hfalse] at hx
    exact ⟨hs, hword, hresolve, s', hupdate, hx, hprompt ⟨titleSlot, "What?", none, .notNull⟩ (by rfl)⟩

end Bot

end Dialogue
