import Mathlib.Data.List.Induction
import Dialogue.Proofs.Store.Open

/-!
# The history of goals

Switches and completions are three steps each, which leave notes for one another in the utterance, and the goals that
were interrupted are a list in the conversation.  Seen from outside they are the moves of a stack:

* `Snapshot.shows_switch`, `Snapshot.shows_complete`: a command is one move of the stack;
* `Snapshot.update_moves`: so is every sequence of commands, which succeeds and changes nothing else.
-/

namespace Dialogue

open Slots

/-- the name of the active goal, and the goals that were interrupted, the last one last -/
structure GoalStack where
  active : Option String
  history : List String
  deriving DecidableEq, Repr

/-- what can be done to a stack of goals -/
inductive GoalMove where
  | switch (goal : String)
  | complete
  deriving DecidableEq, Repr

def GoalMove.command : GoalMove → Command
  | .switch goal => .switchGoal .utterance goal
  | .complete => .completeGoal

namespace GoalStack

/-- another goal becomes active, and the one that it interrupts is pushed -/
def switch (m : GoalStack) (goal : String) : GoalStack where
  active := some goal
  history := m.history ++ (m.active.filter (· ≠ goal)).toList

/-- the goal that was interrupted last becomes active again -/
def complete (m : GoalStack) : GoalStack :=
  match m.history.getLast? with
  | some goal => ⟨some goal, m.history.dropLast⟩
  | none => m

def step (m : GoalStack) : GoalMove → GoalStack
  | .switch goal => m.switch goal
  | .complete => m.complete

def run (m : GoalStack) (moves : List GoalMove) : GoalStack :=
  moves.foldl step m

theorem run_concat (m : GoalStack) (moves : List GoalMove) (move : GoalMove) :
    m.run (moves ++ [move]) = (m.run moves).step move :=
  List.foldl_concat ..

theorem length_step_le (m : GoalStack) (move : GoalMove) :
    (m.step move).history.length ≤ m.history.length + 1 := by
  cases move with
  | switch goal =>
    simp only [step, switch, List.length_append]
    cases m.active.filter (· ≠ goal) <;> simp
  | complete =>
    simp only [step, complete]
    split
    · simp only [List.length_dropLast]
      omega
    · omega

/-- a history grows by one goal a move at most -/
theorem length_run_le (m : GoalStack) (moves : List GoalMove) :
    (m.run moves).history.length ≤ m.history.length + moves.length := by
  induction moves using List.reverseRecOn with
  | nil => exact Nat.le_refl _
  | append_singleton moves move ih =>
    have hstep := length_step_le (m.run moves) move
    rw [run_concat, List.length_append, List.length_singleton]
    omega

end GoalStack

namespace Snapshot

variable {s s' : Snapshot} {m : GoalStack} {p : ScopedPath} {q : Place} {goal : String}

/-- a snapshot that holds a stack of goals; no history is an empty one -/
structure Shows (s : Snapshot) (m : GoalStack) : Prop where
  utterance : s.RootedAt .utterance
  conversation : s.RootedAt .conversation
  intent : s.Fits intent.place .map
  active : s.under? intentName.place = m.active.map .str
  history : s.under? previousIntents.place = some (.list (m.history.map .str)) ∨
    s.under? previousIntents.place = none ∧ m.history = []

/-- the notes that the steps of a command leave for one another -/
def Note (p : ScopedPath) : Prop :=
  p = previousIntent ∨ p = nextIntent

namespace Shows

theorem str_injective : Function.Injective Node.str := by
  intro x y h
  injection h

theorem unique {m' : GoalStack} (h : s.Shows m) (h' : s.Shows m') : m = m' := by
  have hactive : m.active = m'.active := Option.map_injective str_injective (h.active.symm.trans h'.active)
  have hhistory : m.history = m'.history := by
    rcases h.history with hlist | ⟨hnone, hempty⟩
    · rcases h'.history with hlist' | ⟨hnone', -⟩
      · rw [hlist, Option.some.injEq, Node.list.injEq] at hlist'
        exact List.map_injective_iff.2 str_injective hlist'
      · rw [hlist] at hnone'
        cases hnone'
    · rcases h'.history with hlist' | ⟨-, hempty'⟩
      · rw [hnone] at hlist'
        cases hlist'
      · rw [hempty, hempty']
  cases m
  cases m'
  cases hactive
  cases hhistory
  rfl

theorem reaches_note (h : s.Shows m) (hp : Note p) : s.Reaches p := by
  rcases hp with rfl | rfl <;> exact reaches_of_rootedAt h.utterance rfl

theorem reaches_name (h : s.Shows m) : s.Reaches intentName :=
  reaches_of_fits h.utterance h.intent rfl

theorem reaches_history (h : s.Shows m) : s.Reaches previousIntents :=
  reaches_of_rootedAt h.conversation rfl

theorem get_active (h : s.Shows m) : s.get intentName = .ok (m.active.map .str) := by
  rw [← h.active]
  refine get_eq h.reaches_name fun w hw => ?_
  rw [h.active] at hw
  obtain ⟨g, -, rfl⟩ := Option.map_eq_some_iff.1 hw
  rfl

theorem get_history (h : s.Shows m) : ∃ o, s.get previousIntents = .ok o ∧
    (o = some (.list (m.history.map .str)) ∨ o = none ∧ m.history = []) := by
  refine ⟨_, get_eq h.reaches_history fun w hw => ?_, h.history⟩
  rcases h.history with hlist | ⟨hnone, -⟩
  · rw [hlist] at hw
    cases hw
    rfl
  · rw [hnone] at hw
    cases hw

/-- what is done elsewhere leaves the stack as it was -/
theorem congr (h : s.Shows m) (hutt : s'.RootedAt .utterance) (hconv : s'.RootedAt .conversation)
    (hintent : s'.Fits Slots.intent.place .map) (hname : s'.under? intentName.place = s.under? intentName.place)
    (hhistory : s'.under? previousIntents.place = s.under? previousIntents.place) : s'.Shows m :=
  ⟨hutt, hconv, hintent, hname.trans h.active, by rw [hhistory]; exact h.history⟩

theorem exists_put_note (h : s.Shows m) (hp : Note p) (goal : String) :
    ∃ s', s.put p (some (.str goal)) = .ok s' ∧ s'.Shows m ∧ s'.under? p.place = some (.str goal) := by
  have hw : p.path.leaf.sigil = .str := by rcases hp with rfl | rfl <;> rfl
  obtain ⟨s', hput, hnote⟩ := exists_put_scalar (v := .str goal) (w := .str goal) (h.reaches_note hp)
    (by rw [hw]; rfl) (by rw [hw]; rfl)
  have hstays {q : Place} (hq : p.place.Apart q) : s'.under? q = s.under? q := under?_put_of_apart hput hq
  refine ⟨s', hput, h.congr (rootedAt_put hput h.utterance) (rootedAt_put hput h.conversation)
    (h.intent.of_eq (hstays ?_)) (hstays ?_) (hstays ?_), hnote⟩
  all_goals rcases hp with rfl | rfl <;> decide

theorem exists_remove_note (h : s.Shows m) (hp : Note p) :
    ∃ s', s.remove p = .ok s' ∧ s'.Shows m ∧ s'.under? p.place = none := by
  obtain ⟨s', hremove, hnone⟩ := exists_remove (h.reaches_note hp)
  have hstays {q : Place} (hq : p.place.Apart q) : s'.under? q = s.under? q := under?_remove_of_apart hremove hq
  refine ⟨s', hremove, h.congr (rootedAt_remove hremove h.utterance) (rootedAt_remove hremove h.conversation)
    (h.intent.of_eq (hstays ?_)) (hstays ?_) (hstays ?_), hnone⟩
  all_goals rcases hp with rfl | rfl <;> decide

theorem get_note (h : s.Shows m) (hp : Note p) {o : Option String} (hnote : s.under? p.place = o.map .str) :
    s.get p = .ok (o.map .str) := by
  rw [← hnote]
  refine get_eq (h.reaches_note hp) fun w hw => ?_
  rw [hnote] at hw
  obtain ⟨g, -, rfl⟩ := Option.map_eq_some_iff.1 hw
  rcases hp with rfl | rfl <;> rfl

theorem exists_put_name (h : s.Shows m) (goal : String) :
    ∃ s', s.put intentName (some (.str goal)) = .ok s' ∧ s'.Shows { m with active := some goal } := by
  obtain ⟨s', hput, hname⟩ := exists_put_scalar (v := .str goal) (w := .str goal) h.reaches_name rfl rfl
  have hhistory : s'.under? previousIntents.place = s.under? previousIntents.place :=
    under?_put_of_apart hput (by decide)
  refine ⟨s', hput, rootedAt_put hput h.utterance, rootedAt_put hput h.conversation, ?_, hname, ?_⟩
  · exact fits_put (p := intentName) [⟨.map, "intent"⟩] h.utterance rfl (by decide) hput
  · rw [hhistory]
    exact h.history

theorem exists_push (h : s.Shows m) (goal : String) :
    ∃ s', s.put previousIntents (some (.str goal)) = .ok s' ∧ s'.Shows ⟨m.active, m.history ++ [goal]⟩ := by
  have hleaf : Node.leafValue previousIntents.path (s.under? previousIntents.place) (some (.str goal)) =
      .ok (some (.list ((m.history ++ [goal]).map .str))) := by
    rcases h.history with hlist | ⟨hnone, hempty⟩
    · rw [hlist, List.map_append]
      rfl
    · rw [hnone, hempty]
      rfl
  obtain ⟨s', hput⟩ := exists_put h.reaches_history ⟨_, hleaf⟩
  obtain ⟨new, hnew, hunder⟩ := under?_put h.conversation h.reaches_history.plain hput
  rw [hleaf] at hnew
  cases hnew
  have hstays {q : Place} (hq : previousIntents.place.Apart q) : s'.under? q = s.under? q :=
    under?_put_of_apart hput hq
  exact ⟨s', hput, rootedAt_put hput h.utterance, rootedAt_put hput h.conversation,
    h.intent.of_eq (hstays (by decide)), (hstays (by decide)).trans h.active, .inl hunder⟩

/-- the goal that was pushed last can be taken off -/
theorem exists_pop (h : s.Shows m) (hne : m.history ≠ []) (hword : m.history.length ≤ Number.maxWord) :
    ∃ s', s.remove (previousIntentAt (m.history.length - 1)) = .ok s' ∧
      s'.Shows ⟨m.active, m.history.dropLast⟩ := by
  have hlist := h.history.resolve_right fun hnone => hne hnone.2
  have hlength : 0 < m.history.length := List.length_pos_iff.2 hne
  obtain ⟨store, hdelete, hunder⟩ := Store.exists_delete_item (p := (previousIntentAt (m.history.length - 1)).path)
    h.conversation rfl hlist (Number.readIndex?_toString (by omega))
    (by rw [List.length_map]; omega)
  have hremove : s.remove (previousIntentAt (m.history.length - 1)) = .ok (s.withStore .conversation store) :=
    remove_eq_ok.2 ⟨store, hdelete, rfl⟩
  have hstays (ks : List String) :
      (s.withStore .conversation store).under? (.utterance, ks) = s.under? (.utterance, ks) :=
    rfl
  have hlast : (m.history.map Node.str).eraseIdx (m.history.length - 1) = m.history.dropLast.map .str := by
    rw [List.map_dropLast, ← List.eraseIdx_length_sub_one, List.length_map]
  refine ⟨_, hremove, rootedAt_remove hremove h.utterance, rootedAt_remove hremove h.conversation,
    h.intent.of_eq (hstays _), (hstays _).trans h.active, .inl ?_⟩
  rw [← hlast]
  exact hunder

/-! ### One command

What a command does before and after its own change: a note is taken of a goal, and the goal is pushed or taken off. -/

/-- a switch notes the goal that it interrupts, if it interrupts one -/
theorem exists_pre_switch (h : s.Shows m) (goal : String) :
    ∃ s', (Command.switchGoal .utterance goal).pre s = .ok s' ∧ s'.Shows m ∧
      s'.under? previousIntent.place = (m.active.filter (· ≠ goal)).map .str := by
  obtain ⟨s₁, hforget, h₁, hnote₁⟩ := h.exists_remove_note (.inl rfl)
  cases hactive : m.active with
  | none =>
    refine ⟨s₁, bind_eq_ok.2 ⟨s₁, hforget, bind_eq_ok.2 ⟨_, h₁.get_active, ?_⟩⟩, h₁, hnote₁⟩
    rw [hactive]
    rfl
  | some old =>
    by_cases hsame : old = goal
    · refine ⟨s₁, bind_eq_ok.2 ⟨s₁, hforget, bind_eq_ok.2 ⟨_, h₁.get_active, ?_⟩⟩, h₁, ?_⟩
      · simp [hactive, hsame, pure, Except.pure]
      · simp [hnote₁, hsame, Option.filter_some]
    · obtain ⟨s₂, htake, h₂, hnote₂⟩ := h₁.exists_put_note (.inl rfl) old
      refine ⟨s₂, bind_eq_ok.2 ⟨s₁, hforget, bind_eq_ok.2 ⟨_, h₁.get_active, ?_⟩⟩, h₂, ?_⟩
      · simp [hactive, hsame, htake]
      · simp [hnote₂, hsame, Option.filter_some]

/-- the goal that is noted is pushed when the other one is active -/
theorem exists_post_switch (h : s.Shows m) {interrupted : Option String}
    (hnote : s.under? previousIntent.place = interrupted.map .str) (goal : String) :
    ∃ s', (Command.switchGoal .utterance goal).post s = .ok s' ∧
      s'.Shows { m with history := m.history ++ interrupted.toList } ∧ s'.under? previousIntent.place = none := by
  have hget : s.get previousIntent = .ok (interrupted.map .str) := h.get_note (.inl rfl) hnote
  cases interrupted with
  | none =>
    refine ⟨s, bind_eq_ok.2 ⟨_, hget, rfl⟩, ?_, hnote⟩
    rw [Option.toList_none, List.append_nil]
    exact h
  | some old =>
    obtain ⟨s₁, hpush, h₁⟩ := h.exists_push old
    obtain ⟨s₂, hdone, h₂, hnone⟩ := h₁.exists_remove_note (p := previousIntent) (.inl rfl)
    exact ⟨s₂, bind_eq_ok.2 ⟨_, hget, bind_eq_ok.2 ⟨s₁, hpush, hdone⟩⟩, h₂, hnone⟩

/-- **A switch is a push**: it takes a note of the goal that it interrupts, if it interrupts one, and pushes it once
the other one is active. -/
theorem exists_switch (h : s.Shows m) (goal : String) :
    ∃ s', (Command.switchGoal .utterance goal).run s = .ok s' ∧ s'.Shows (m.switch goal) ∧
      s'.under? previousIntent.place = none := by
  obtain ⟨s₁, hpre, h₁, hnote₁⟩ := h.exists_pre_switch goal
  obtain ⟨s₂, hname, h₂⟩ := h₁.exists_put_name goal
  have hnote₂ : s₂.under? previousIntent.place = (m.active.filter (· ≠ goal)).map .str :=
    (under?_put_of_apart hname (by decide)).trans hnote₁
  obtain ⟨s₃, hpost, h₃, hnone⟩ := h₂.exists_post_switch hnote₂ goal
  exact ⟨s₃, bind_eq_ok.2 ⟨s₁, hpre, bind_eq_ok.2 ⟨s₂, hname, hpost⟩⟩, h₃, hnone⟩

/-- a completion notes the goal that was interrupted last -/
theorem exists_pre_complete (h : s.Shows m) :
    ∃ s', Command.completeGoal.pre s = .ok s' ∧ s'.Shows m ∧
      s'.under? nextIntent.place = m.history.getLast?.map .str := by
  obtain ⟨s₁, hforget, h₁, hnote₁⟩ := h.exists_remove_note (.inr rfl)
  obtain ⟨o, hget, hhistory⟩ := h₁.get_history
  have hlast : (o.bind fun v => v.asList?.bind List.getLast?) = m.history.getLast?.map .str := by
    rcases hhistory with rfl | ⟨rfl, hempty⟩
    · simp [Node.asList?, List.getLast?_map]
    · simp [hempty]
  cases hgoal : m.history.getLast? with
  | none =>
    refine ⟨s₁, bind_eq_ok.2 ⟨s₁, hforget, bind_eq_ok.2 ⟨o, hget, ?_⟩⟩, h₁, hnote₁⟩
    simp only [hlast, hgoal, Option.map_none]
    rfl
  | some goal =>
    obtain ⟨s₂, htake, h₂, hnote₂⟩ := h₁.exists_put_note (.inr rfl) goal
    refine ⟨s₂, bind_eq_ok.2 ⟨s₁, hforget, bind_eq_ok.2 ⟨o, hget, ?_⟩⟩, h₂, hnote₂⟩
    simp only [hlast, hgoal, Option.map_some]
    exact htake

/-- the goal that is noted becomes active, and is taken off the history by its index -/
theorem exists_post_complete (h : s.Shows m) (hword : m.history.length ≤ Number.maxWord)
    (hnote : s.under? nextIntent.place = m.history.getLast?.map .str) :
    ∃ s', Command.completeGoal.post s = .ok s' ∧ s'.Shows m.complete ∧ s'.under? nextIntent.place = none := by
  have hget : s.get nextIntent = .ok (m.history.getLast?.map .str) := h.get_note (.inr rfl) hnote
  cases hgoal : m.history.getLast? with
  | none =>
    rw [hgoal] at hget hnote
    refine ⟨s, bind_eq_ok.2 ⟨_, hget, rfl⟩, ?_, hnote⟩
    rw [GoalStack.complete, hgoal]
    exact h
  | some goal =>
    rw [hgoal] at hget
    have hne : m.history ≠ [] := by
      rintro hnil
      simp [hnil] at hgoal
    have hdepth : 0 < m.history.length := List.length_pos_iff.2 hne
    obtain ⟨o, hold, hhistory⟩ := h.get_history
    obtain rfl := hhistory.resolve_right fun hnone => hne hnone.2
    obtain ⟨s₁, hname, h₁⟩ := h.exists_put_name goal
    obtain ⟨s₂, hpop, h₂⟩ := h₁.exists_pop hne hword
    obtain ⟨s₃, hdone, h₃, hnone⟩ := h₂.exists_remove_note (p := nextIntent) (.inr rfl)
    refine ⟨s₃, bind_eq_ok.2 ⟨_, hget, bind_eq_ok.2 ⟨_, hold, bind_eq_ok.2 ⟨s₁, hname, ?_⟩⟩⟩, ?_, hnone⟩
    · simp only [Option.bind_some, Node.asList?, Option.map_some, Option.getD_some, List.length_map, if_pos hdepth]
      exact bind_eq_ok.2 ⟨s₂, hpop, hdone⟩
    · rw [GoalStack.complete, hgoal]
      exact h₃

/-- **A completion is a pop**: it takes a note of the goal that was interrupted last, makes it active and takes it off
the history. -/
theorem exists_complete (h : s.Shows m) (hword : m.history.length ≤ Number.maxWord) :
    ∃ s', Command.completeGoal.run s = .ok s' ∧ s'.Shows m.complete ∧ s'.under? nextIntent.place = none := by
  obtain ⟨s₁, hpre, h₁, hnote₁⟩ := h.exists_pre_complete
  obtain ⟨s₂, hpost, h₂, hnone⟩ := h₁.exists_post_complete hword hnote₁
  exact ⟨s₂, bind_eq_ok.2 ⟨s₁, hpre, bind_eq_ok.2 ⟨s₁, rfl, hpost⟩⟩, h₂, hnone⟩

theorem exists_move (h : s.Shows m) (move : GoalMove)
    (hword : move = .complete → m.history.length ≤ Number.maxWord) :
    ∃ s', move.command.run s = .ok s' ∧ s'.Shows (m.step move) ∧
      (∀ goal, move = .switch goal → s'.under? previousIntent.place = none) ∧
      (move = .complete → s'.under? nextIntent.place = none) := by
  cases move with
  | switch goal =>
    obtain ⟨s', hrun, hs', hnote⟩ := h.exists_switch goal
    exact ⟨s', hrun, hs', fun _ _ => hnote, nofun⟩
  | complete =>
    obtain ⟨s', hrun, hs', hnote⟩ := h.exists_complete (hword rfl)
    exact ⟨s', hrun, hs', nofun, fun _ => hnote⟩

end Shows

/-! ### Sequences of commands -/

/-- a place that has nothing to do with the stack of goals -/
structure ApartFromGoals (q : Place) : Prop where
  name : intentName.place.Apart q
  history : previousIntents.place.Apart q
  previous : previousIntent.place.Apart q
  next : nextIntent.place.Apart q

theorem avoids_switchGoal (hname : intentName.place.Apart q) (hhistory : previousIntents.place.Apart q)
    (hprevious : previousIntent.place.Apart q) (goal : String) :
    (Command.switchGoal .utterance goal).Avoids q := by
  constructor
  · rintro r (rfl | rfl | rfl)
    · exact hname
    · exact hprevious
    · exact hhistory
  · rintro r rfl
    exact hprevious

theorem avoids_completeGoal (hname : intentName.place.Apart q) (hhistory : previousIntents.place.Apart q)
    (hnext : nextIntent.place.Apart q) : Command.completeGoal.Avoids q := by
  constructor
  · rintro r (rfl | rfl)
    · exact hnext
    · exact hname
  · rintro r (rfl | ⟨n, rfl⟩)
    · exact hnext
    · exact fun hscope => (hhistory hscope).append_left [toString n]

theorem ApartFromGoals.avoids (hq : ApartFromGoals q) (move : GoalMove) : move.command.Avoids q := by
  cases move with
  | switch goal => exact avoids_switchGoal hq.name hq.history hq.previous goal
  | complete => exact avoids_completeGoal hq.name hq.history hq.next

/-- a sequence of commands is as many moves of the stack, and each kind of command that is among them leaves no note:
by induction on the commands, of which the last one leaves the notes of the other kind alone -/
theorem Shows.exists_update (h : s.Shows m) (moves : List GoalMove)
    (hword : ∀ made, made ++ [.complete] <+: moves → (m.run made).history.length ≤ Number.maxWord) :
    ∃ s', s.update (moves.map GoalMove.command) = .ok s' ∧ s'.Shows (m.run moves) ∧
      (∀ goal, .switch goal ∈ moves → s'.under? previousIntent.place = none) ∧
      (.complete ∈ moves → s'.under? nextIntent.place = none) := by
  induction moves using List.reverseRecOn with
  | nil => exact ⟨s, rfl, h, nofun, nofun⟩
  | append_singleton moves move ih =>
    obtain ⟨s₁, hupdate, h₁, hprevious, hnext⟩ :=
      ih fun made hmade => hword made (hmade.trans (List.prefix_append moves [move]))
    obtain ⟨s₂, hrun, h₂, hprevious', hnext'⟩ := h₁.exists_move move fun hmove =>
      hword moves (hmove ▸ List.prefix_rfl)
    have hlast : s₁.update [move.command] = .ok s₂ := update_cons_eq_ok.2 ⟨s₂, hrun, rfl⟩
    have hstays {q : Place} (hq : move.command.Avoids q) : s₂.under? q = s₁.under? q :=
      under?_of_update_of_avoids (List.forall_mem_singleton.2 hq) hlast
    refine ⟨s₂, ?_, ?_, fun goal hgoal => ?_, fun hcomplete => ?_⟩
    · rw [List.map_append]
      exact update_append_eq_ok.2 ⟨s₁, hupdate, hlast⟩
    · rw [GoalStack.run_concat]
      exact h₂
    · cases move with
      | switch goal' => exact hprevious' goal' rfl
      | complete =>
        rw [hstays (avoids_completeGoal (by decide) (by decide) (by decide))]
        exact hprevious goal (by simpa using hgoal)
    · cases move with
      | switch goal =>
        rw [hstays (avoids_switchGoal (by decide) (by decide) (by decide) goal)]
        exact hnext (by simpa using hcomplete)
      | complete => exact hnext' rfl

/-- a snapshot of which the active goal is absent or a map, its name absent or a string, and the history absent or a
list of strings -/
structure KeepsGoals (s : Snapshot) : Prop where
  utterance : s.RootedAt .utterance
  conversation : s.RootedAt .conversation
  intent : s.Fits intent.place .map
  name : s.Fits intentName.place .str
  history : ∀ v, s.under? previousIntents.place = some v → ∃ goals : List String, v = .list (goals.map .str)

theorem exists_map_str {o : Option Node} (h : ∀ v, o = some v → v.sigil = .str) :
    ∃ name : Option String, o = name.map .str := by
  cases o with
  | none => exact ⟨none, rfl⟩
  | some v =>
    have hv := h v rfl
    cases v with
    | str name => exact ⟨some name, rfl⟩
    | _ => cases hv

theorem KeepsGoals.exists_shows (h : s.KeepsGoals) : ∃ m, s.Shows m := by
  obtain ⟨active, hactive⟩ := exists_map_str h.name
  cases hhistory : s.under? previousIntents.place with
  | none => exact ⟨⟨active, []⟩, h.utterance, h.conversation, h.intent, hactive, .inr ⟨hhistory, rfl⟩⟩
  | some v =>
    obtain ⟨goals, rfl⟩ := h.history v hhistory
    exact ⟨⟨active, goals⟩, h.utterance, h.conversation, h.intent, hactive, .inl hhistory⟩

/-- **The history of goals is a stack.**  Every sequence of switches and completions succeeds and makes the moves of
the stack that the snapshot holds; each kind of command that is among them has removed its note, and nothing else
changes.  A completion names the last goal by its index, a number of 64 bits, so there cannot be more goals than
that. -/
theorem update_moves (hs : s.KeepsGoals) :
    ∃ m, s.Shows m ∧ ∀ moves,
      (∀ made, made ++ [.complete] <+: moves → (m.run made).history.length ≤ Number.maxWord) →
      ∃ s', s.update (moves.map GoalMove.command) = .ok s' ∧ s'.Shows (m.run moves) ∧
        (∀ goal, .switch goal ∈ moves → s'.get previousIntent = .ok none) ∧
        (.complete ∈ moves → s'.get nextIntent = .ok none) ∧
        ∀ q, ApartFromGoals q → s'.under? q = s.under? q := by
  obtain ⟨m, h⟩ := hs.exists_shows
  refine ⟨m, h, fun moves hword => ?_⟩
  obtain ⟨s', hupdate, h', hprevious, hnext⟩ := h.exists_update moves hword
  refine ⟨s', hupdate, h', fun goal hgoal => ?_, fun hcomplete => ?_, fun q hq => ?_⟩
  · exact h'.get_note (.inl rfl) (o := none) (hprevious goal hgoal)
  · exact h'.get_note (.inr rfl) (o := none) (hnext hcomplete)
  · refine under?_of_update_of_avoids (fun c hc => ?_) hupdate
    obtain ⟨move, -, rfl⟩ := List.mem_map.1 hc
    exact hq.avoids move

/-- paying interrupts booking, although a note of another goal is left over; then booking is taken up again, and then
the goal before it -/
theorem update_moves_interrupted :
    KeepsGoals ⟨.empty, ⟨.map [("previousIntents", .list [.str "greet"])]⟩,
      ⟨.map [("intent", .map [("name", .str "book")]), ("previousIntent", .str "stray")]⟩⟩ ∧
    ∃ s', update ⟨.empty, ⟨.map [("previousIntents", .list [.str "greet"])]⟩,
        ⟨.map [("intent", .map [("name", .str "book")]), ("previousIntent", .str "stray")]⟩⟩
        [.switchGoal .utterance "pay", .completeGoal, .completeGoal] = .ok s' ∧
      s'.Shows ⟨some "greet", []⟩ ∧ s'.get previousIntent = .ok none ∧ s'.get nextIntent = .ok none := by
  have hs : KeepsGoals ⟨.empty, ⟨.map [("previousIntents", .list [.str "greet"])]⟩,
      ⟨.map [("intent", .map [("name", .str "book")]), ("previousIntent", .str "stray")]⟩⟩ := by
    refine ⟨rfl, rfl, fun v hv => ?_, fun v hv => ?_, fun v hv => ⟨["greet"], ?_⟩⟩
    all_goals
      cases hv
      rfl
  obtain ⟨m, hm, hmoves⟩ := update_moves hs
  obtain rfl : m = ⟨some "book", ["greet"]⟩ := hm.unique ⟨rfl, rfl, hs.intent, rfl, .inl rfl⟩
  obtain ⟨s', hupdate, hs', hprevious, hnext, -⟩ := hmoves [.switch "pay", .complete, .complete] fun made hmade => by
    have hlength := GoalStack.length_run_le ⟨some "book", ["greet"]⟩ made
    have hshort := hmade.length_le
    rw [List.length_append] at hshort
    simp only [List.length_cons, List.length_nil, Number.maxWord] at hlength hshort ⊢
    omega
  exact ⟨hs, s', hupdate, hs', hprevious "pay" (by decide), hnext (by decide)⟩

end Snapshot

end Dialogue
