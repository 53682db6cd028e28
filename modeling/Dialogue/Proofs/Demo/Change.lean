import Dialogue.Demo.Tickets
import Dialogue.Proofs.Bot.Resolve
import Dialogue.Proofs.Completion
import Dialogue.Proofs.Goal
import Dialogue.Proofs.Store.Guarded

/-!
# Changes of a ticket

A slot of the ticket is changed to a text that its constraints accept, or the slot stays and their complaints are said.
They are asked about the text, and not about what it becomes in the slot.

* `Demo.changes_of_act`: the commands of a change;
* `Demo.get_of_changes`, `Demo.under?_of_refused`: what is in the slot after them, and what a refused text leaves;
* `Demo.keepsConstraints_iff`: the changes after which the constraints hold.
-/

namespace Dialogue

open Slots

theorem Goal.holds_of_mem_constraintsFor {g : Goal} {p : ScopedPath} {c : Constraint} {s : Snapshot} {o : Option Node}
    (hc : c ∈ g.constraintsFor p) (h : s.get p = .ok o) : c.holds s = c.validator.accepts o := by
  have hslot : c.slot = p := by simpa using (List.mem_filter.1 hc).2
  rw [Constraint.holds, hslot, h]

namespace Demo

variable {name t : String} {runs : Nat} {goals : List (String × Goal)} {g : Goal} {s s' : Snapshot} {p : ScopedPath}
  {value : Option Node} {v : SlotValue} {cs : List Command}

theorem complaints_eq_nil_iff {constraints : List Constraint} :
    complaints constraints value = [] ↔ ∀ c ∈ constraints, c.validator.accepts value = true := by
  rw [complaints, List.map_eq_nil_iff, List.filterMap_eq_nil_iff]
  refine forall₂_congr fun c _ => ?_
  unfold Constraint.violation?
  split
  · next h => exact iff_of_true rfl h
  · next h => exact iff_of_false (by simp) h

/-- the commands of a change of a slot: the complaints about the text, nothing if there is no text, or the text and the
way back to the goal -/
inductive Changes (g : Goal) (p : ScopedPath) : Option Node → List Command → Prop
  | refused {value : Option Node} {c : Constraint} (hc : c ∈ g.constraintsFor p)
      (h : c.validator.accepts value = false) :
      Changes g p value [.put actionSpoken (.str (Text.spaced (complaints (g.constraintsFor p) value)))]
  | missing (h : ∀ c ∈ g.constraintsFor p, c.validator.accepts none = true) : Changes g p none []
  | stored {text : String} (h : ∀ c ∈ g.constraintsFor p, c.validator.accepts (some (.str text)) = true) :
      Changes g p (some (.str text)) [.put p (.str text), .completeGoal]

/-- **The commands of a change** of the slot that is named. -/
theorem changes_of_act (h : (changeTicket name).act runs goals s = .ok cs)
    (ht : s.textAt changedProperty = .ok (some t)) (hp : ScopedPath.parse t = .ok p) :
    ∃ g value, Entries.get? ticketGoal goals = some g ∧ s.get changedValue = .ok value ∧ Changes g p value cs := by
  obtain ⟨o, ho, h⟩ := bind_eq_ok.1 h
  rw [liftState_eq_ok, ht] at ho
  cases ho
  obtain ⟨p', hp', h⟩ := bind_eq_ok.1 h
  rw [liftState_eq_ok, hp] at hp'
  cases hp'
  obtain ⟨value, hvalue, h⟩ := bind_eq_ok.1 h
  rw [liftState_eq_ok] at hvalue
  cases hg : Entries.get? ticketGoal goals with
  | none =>
    rw [hg] at h
    cases h
  | some g =>
    rw [hg] at h
    refine ⟨g, value, rfl, hvalue, ?_⟩
    cases hsaid : complaints (g.constraintsFor p) value with
    | nil =>
      have haccepts := complaints_eq_nil_iff.1 hsaid
      simp only [hsaid] at h
      cases value with
      | none =>
        cases h
        exact .missing haccepts
      | some v =>
        cases h
        -- the new value is a text
        have hkind : v.sigil = .str := Store.sigil_of_read hvalue
        cases v with
        | str text => exact .stored haccepts
        | _ => cases hkind
    | cons said more =>
      simp only [hsaid] at h
      cases h
      have hnot : ¬ ∀ c ∈ g.constraintsFor p, c.validator.accepts value = true := by
        rw [← complaints_eq_nil_iff, hsaid]
        exact List.cons_ne_nil said more
      simp only [not_forall] at hnot
      obtain ⟨c, hc, hrefused⟩ := hnot
      rw [← hsaid]
      exact .refused hc (by simpa using hrefused)

/-- **What is in the slot after it was changed.** -/
theorem get_of_changes (h : Changes g p value cs) (hupdate : s.update cs = .ok s')
    (hapart : Command.ApartFromCompletion p) (hset : Command.set p v ∈ cs) :
    ∃ text, v = .literal (.str text) ∧ s'.get p = .ok (s.found? p text) ∧
      (p = actionSpoken ∨ value = some (.str text) ∧
        ∀ c ∈ g.constraintsFor p, c.validator.accepts (some (.str text)) = true) := by
  cases h with
  | refused hc hrefused =>
    obtain ⟨s₁, hrun, hend⟩ := Snapshot.update_cons_eq_ok.1 hupdate
    cases hend
    cases List.mem_singleton.1 hset
    exact ⟨_, rfl, Snapshot.get_of_put_text (Command.put_of_run hrun), .inl rfl⟩
  | missing haccepts => cases hset
  | @stored text haccepts =>
    obtain ⟨s₁, hrun, hrest⟩ := Snapshot.update_cons_eq_ok.1 hupdate
    obtain ⟨s₂, hcomplete, hend⟩ := Snapshot.update_cons_eq_ok.1 hrest
    cases hend
    have hput : s.put p (some (.str text)) = .ok s₁ := Command.put_of_run hrun
    have hv : v = .literal (.str text) := by
      rcases List.mem_cons.1 hset with heq | hmem
      · cases heq
        rfl
      · cases List.mem_singleton.1 hmem
    refine ⟨text, hv, ?_, .inr ⟨rfl, haccepts⟩⟩
    rw [Command.get_of_completeGoal hapart hput hcomplete]
    exact Snapshot.get_of_put_text hput

/-- **What a refused text leaves**: everything but what is said. -/
theorem under?_of_refused (h : Changes g p value cs) (hupdate : s.update cs = .ok s')
    (hrefused : ∃ c ∈ g.constraintsFor p, c.validator.accepts value = false) {q : Place}
    (hq : actionSpoken.place.Apart q) : s'.under? q = s.under? q := by
  obtain ⟨c, hc, hnot⟩ := hrefused
  cases h with
  | refused _ _ =>
    obtain ⟨s₁, hrun, hend⟩ := Snapshot.update_cons_eq_ok.1 hupdate
    cases hend
    exact Snapshot.under?_put_of_apart (Command.put_of_run hrun) hq
  | missing haccepts =>
    rw [haccepts c hc] at hnot
    cases hnot
  | stored haccepts =>
    rw [haccepts c hc] at hnot
    cases hnot

/-- whether a change keeps the constraints on the slot: where it was changed they hold after it, and where one of them
refuses the text, everything but what is said is as it was -/
structure KeepsConstraints (g : Goal) (p : ScopedPath) (value : Option Node) (cs : List Command) (s s' : Snapshot) :
    Prop where
  changed : (∃ v, Command.set p v ∈ cs) → ∀ c ∈ g.constraintsFor p, c.holds s' = true
  refused : (∃ c ∈ g.constraintsFor p, c.validator.accepts value = false) →
    ∀ q, actionSpoken.place.Apart q → s'.under? q = s.under? q

/-- **A change keeps the constraints on the slot if and only if they accept what the text becomes there.**  In a slot of
texts that is always so, unless an index is past the end of its list, or the slot is the one of what is said.  A refused
text changes nothing but what is said. -/
theorem keepsConstraints_iff (hact : (changeTicket name).act runs goals s = .ok cs)
    (ht : s.textAt changedProperty = .ok (some t)) (hp : ScopedPath.parse t = .ok p) (hupdate : s.update cs = .ok s') :
    ∃ g value, Entries.get? ticketGoal goals = some g ∧ s.get changedValue = .ok value ∧
      ((∃ c ∈ g.constraintsFor p, c.validator.accepts value = false) →
        ∀ q, actionSpoken.place.Apart q → s'.under? q = s.under? q) ∧
      (Command.ApartFromCompletion p →
        (∀ v, Command.set p v ∈ cs → ∃ text, v = .literal (.str text) ∧ s'.get p = .ok (s.found? p text)) ∧
          (KeepsConstraints g p value cs s s' ↔
            ∀ text, Command.put p (.str text) ∈ cs →
              ∀ c ∈ g.constraintsFor p, c.validator.accepts (s.found? p text) = true) ∧
          (p.path.leaf.sigil = .str → s.Within p → p ≠ actionSpoken → KeepsConstraints g p value cs s s')) := by
  obtain ⟨g, value, hg, hvalue, hchanges⟩ := changes_of_act hact ht hp
  have hrefused : (∃ c ∈ g.constraintsFor p, c.validator.accepts value = false) →
      ∀ q, actionSpoken.place.Apart q → s'.under? q = s.under? q :=
    fun hrefused q hq => under?_of_refused hchanges hupdate hrefused hq
  refine ⟨g, value, hg, hvalue, hrefused, fun hapart => ?_⟩
  have hiff : KeepsConstraints g p value cs s s' ↔ ∀ text, Command.put p (.str text) ∈ cs →
      ∀ c ∈ g.constraintsFor p, c.validator.accepts (s.found? p text) = true := by
    constructor
    · intro hkeeps text hset c hc
      obtain ⟨text', htext, hget, -⟩ := get_of_changes hchanges hupdate hapart hset
      cases htext
      have hholds := hkeeps.changed ⟨_, hset⟩ c hc
      rwa [Goal.holds_of_mem_constraintsFor hc hget] at hholds
    · intro haccepts
      refine ⟨?_, hrefused⟩
      rintro ⟨v, hset⟩ c hc
      obtain ⟨text, rfl, hget, -⟩ := get_of_changes hchanges hupdate hapart hset
      rw [Goal.holds_of_mem_constraintsFor hc hget]
      exact haccepts text hset c hc
  refine ⟨fun v hset => ?_, hiff, fun hkind hwithin hne => hiff.2 fun text hset c hc => ?_⟩
  · obtain ⟨text, hv, hget, -⟩ := get_of_changes hchanges hupdate hapart hset
    exact ⟨text, hv, hget⟩
  · obtain ⟨text', htext, -, hor⟩ := get_of_changes hchanges hupdate hapart hset
    cases htext
    obtain ⟨-, haccepts⟩ := hor.resolve_left hne
    have hfound : s.found? p text = some (.str text) := by
      rw [Snapshot.found?, if_pos hwithin, hkind]
      rfl
    rw [hfound]
    exact haccepts c hc

def ticketPriority : ScopedPath :=
  ⟨.utterance, ⟨[⟨.map, "objects"⟩, ⟨.map, "ticket"⟩, ⟨.str, "priority"⟩], by decide⟩⟩

def ticketUrgent : ScopedPath :=
  ⟨.utterance, ⟨[⟨.map, "objects"⟩, ⟨.map, "ticket"⟩, ⟨.bool, "urgent"⟩], by decide⟩⟩

def checkedTicket : Goal where
  name := ticketGoal
  constraints := [⟨ticketPriority, "What priority?", none, .oneOf ["high", "low"]⟩,
    ⟨ticketUrgent, "Is it urgent?", none, .oneOf ["yes", "no"]⟩]

def wish (slot text : String) (objects : List (String × Node)) : Snapshot :=
  ⟨.empty, .empty,
    .ofMap [("objects", .map (("changeTicket", .map [("property", .str slot), ("value", .str text)]) :: objects))]⟩

def lowered (objects : List (String × Node)) : Snapshot :=
  wish "utt:/objects/ticket.priority" "Low" objects

def urged (objects : List (String × Node)) : Snapshot :=
  wish "utt:/objects/ticket?urgent" "yes" objects

/-- the priority becomes one that its constraint accepts, which holds then -/
theorem keepsConstraints_iff_lowered :
    (changeTicket "change").act 0 [(ticketGoal, checkedTicket)] (lowered []) =
        .ok [.put ticketPriority (.str "Low"), .completeGoal] ∧
      (lowered []).update [.put ticketPriority (.str "Low"), .completeGoal] =
        .ok (lowered [("ticket", .map [("priority", .str "Low")])]) ∧
      (checkedTicket.constraintsFor ticketPriority).length = 1 ∧
      KeepsConstraints checkedTicket ticketPriority (some (.str "Low"))
        [.put ticketPriority (.str "Low"), .completeGoal] (lowered [])
        (lowered [("ticket", .map [("priority", .str "Low")])]) := by
  have hact : (changeTicket "change").act 0 [(ticketGoal, checkedTicket)] (lowered []) =
      .ok [.put ticketPriority (.str "Low"), .completeGoal] := by
    rfl
  have hupdate : (lowered []).update [.put ticketPriority (.str "Low"), .completeGoal] =
      .ok (lowered [("ticket", .map [("priority", .str "Low")])]) := by
    rfl
  have hapart : Command.ApartFromCompletion ticketPriority := ⟨by decide, by decide, by decide⟩
  obtain ⟨g, value, hg, hvalue, -, hchanged⟩ := keepsConstraints_iff hact (by rfl) (by rfl) hupdate
  cases hg
  cases hvalue
  obtain ⟨-, -, hkeeps⟩ := hchanged hapart
  exact ⟨hact, hupdate, by rfl, hkeeps rfl (by decide) (by decide)⟩

/-- a truth value is changed to a text that its constraint accepts; it becomes false, which the constraint refuses -/
theorem not_keepsConstraints_urged :
    (changeTicket "change").act 0 [(ticketGoal, checkedTicket)] (urged []) =
        .ok [.put ticketUrgent (.str "yes"), .completeGoal] ∧
      (urged []).update [.put ticketUrgent (.str "yes"), .completeGoal] =
        .ok (urged [("ticket", .map [("urgent", .bool false)])]) ∧
      ¬ KeepsConstraints checkedTicket ticketUrgent (some (.str "yes"))
        [.put ticketUrgent (.str "yes"), .completeGoal] (urged [])
        (urged [("ticket", .map [("urgent", .bool false)])]) := by
  refine ⟨by rfl, by rfl, fun hkeeps => ?_⟩
  have hholds := hkeeps.changed ⟨_, List.mem_cons_self⟩
    ⟨ticketUrgent, "Is it urgent?", none, .oneOf ["yes", "no"]⟩
    (List.mem_filter.2 ⟨List.mem_cons_of_mem _ List.mem_cons_self, by decide⟩)
  have hnot : Constraint.holds ⟨ticketUrgent, "Is it urgent?", none, .oneOf ["yes", "no"]⟩
      (urged [("ticket", .map [("urgent", .bool false)])]) = false := by
    rfl
  rw [hnot] at hholds
  cases hholds

end Demo

end Dialogue
