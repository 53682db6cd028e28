import Dialogue.Proofs.Bot.Resolve
import Dialogue.Registry.Build

/-!
# Bots that are built

A bot is checked once, when it is built: every action and every goal that one of its goals names is there.  What is
left to go wrong when a goal is resolved are the stores, and a goal that asks the user to agree and names no goal for
users who do not.

* `Registry.builtIn_of_buildBot` — the stages of a bot that is built are those of the registry;
* `Registry.provides_of_buildBot` — what is checked of the goals of a bot that is built;
* `Bot.error_of_resolve` — how a goal whose names are all there can fail to be resolved;
* `Registry.resolve_of_buildBot` — the two put together.
-/

namespace Dialogue

open Slots

theorem liftState_eq_error {α : Type} {x : Except StateError α} {e : DialogueError} :
    (liftM x : Except DialogueError α) = .error e ↔ ∃ e', x = .error e' ∧ .state e' = e :=
  mapError_eq_error

/-- the user does not agree to a goal that could be reached, and the goal names none that takes over then -/
structure Goal.DeniedInVain (g : Goal) (s : Snapshot) : Prop where
  confirms : g.confirmOnValid = true
  unnamed : g.denyGoal = none
  holds : g.violations s = .ok []
  rendered : ∃ summary, g.renderSuccess s = .ok summary
  denied : s.get intentConfirmed = .ok (some (.bool false))

/-- a bot has what a goal names -/
structure Bot.Provides (b : Bot) (g : Goal) : Prop where
  actions : ∃ actions, b.successActions g = .ok actions
  denial : ∀ name, g.denyGoal = some name → ∃ next, b.goal name = .ok next

namespace Bot

variable {b : Bot} {g : Goal} {s : Snapshot} {e : DialogueError}

/-- what is missing when a denial leads nowhere -/
def noDenyGoal (g : Goal) : DialogueError :=
  .missingProperty ("goal " ++ g.name) "denyGoal"

theorem Provides.successActions_ne_error (h : b.Provides g) : b.successActions g ≠ .error e := by
  obtain ⟨actions, hactions⟩ := h.actions
  rw [hactions]
  intro he
  cases he

theorem error_of_deny (h : b.Provides g) (he : b.deny g s = .error e) : g.denyGoal = none ∧ e = noDenyGoal g := by
  rw [Repertoire.deny] at he
  split at he
  · next name hname =>
    obtain ⟨next, hnext⟩ := h.denial name hname
    rw [hnext] at he
    cases he
  · next hnone =>
    cases he
    cases hdeny : g.denyGoal with
    | none => exact ⟨rfl, rfl⟩
    | some name => exact absurd hdeny (hnone name)

theorem error_of_succeed (h : b.Provides g) (hholds : g.violations s = .ok []) (he : b.succeed g s = .error e) :
    (∃ e', e = .state e') ∨ g.DeniedInVain s ∧ e = noDenyGoal g := by
  rcases bind_eq_error.1 he with hrender | ⟨summary, hsummary, he⟩
  · obtain ⟨e', -, rfl⟩ := liftState_eq_error.1 hrender
    exact .inl ⟨e', rfl⟩
  rw [liftState_eq_ok] at hsummary
  cases hg : g.confirmOnValid with
  | false =>
    simp only [hg, Bool.not_false, if_true] at he
    rcases bind_eq_error.1 he with hactions | ⟨actions, -, he⟩
    · exact absurd hactions h.successActions_ne_error
    · cases he
  | true =>
    simp only [hg, Bool.not_true, Bool.false_eq_true, if_false] at he
    rcases bind_eq_error.1 he with hget | ⟨o, ho, he⟩
    · obtain ⟨e', -, rfl⟩ := liftState_eq_error.1 hget
      exact .inl ⟨e', rfl⟩
    rw [liftState_eq_ok] at ho
    split at he
    · cases he
    · next hfalse =>
      obtain ⟨hnone, rfl⟩ := error_of_deny h he
      obtain rfl := bool_of_asBool? hfalse
      exact .inr ⟨⟨hg, hnone, hholds, ⟨summary, hsummary⟩, ho⟩, rfl⟩
    · rcases bind_eq_error.1 he with hactions | ⟨actions, -, he⟩
      · exact absurd hactions h.successActions_ne_error
      · cases he

/-- A goal whose names are all there fails to be resolved for a fault of a store, or for a denial that leads
nowhere. -/
theorem error_of_resolve (h : b.Provides g) (he : b.resolve g s = .error e) :
    (∃ e', e = .state e') ∨ g.DeniedInVain s ∧ e = noDenyGoal g := by
  rcases bind_eq_error.1 he with hviolations | ⟨vs, hvs, he⟩
  · obtain ⟨e', -, rfl⟩ := liftState_eq_error.1 hviolations
    exact .inl ⟨e', rfl⟩
  rw [liftState_eq_ok] at hvs
  cases vs with
  | nil => exact error_of_succeed h hvs he
  | cons v vs => cases he

theorem resolve_of_deniedInVain (h : g.DeniedInVain s) : b.resolve g s = .error (noDenyGoal g) := by
  obtain ⟨summary, hsummary⟩ := h.rendered
  have hdeny : b.deny g s = .error (noDenyGoal g) := by
    rw [Repertoire.deny, h.unnamed]
    rfl
  refine bind_eq_error.2 (.inr ⟨[], liftState_eq_ok.2 h.holds, ?_⟩)
  refine bind_eq_error.2 (.inr ⟨summary, liftState_eq_ok.2 hsummary, ?_⟩)
  simp only [h.confirms, Bool.not_true, Bool.false_eq_true, if_false]
  exact bind_eq_error.2 (.inr ⟨_, liftState_eq_ok.2 h.denied, hdeny⟩)

end Bot

namespace Registry

variable {r : Registry} {fs : Files} {c : BotConfig} {b : Bot} {name : String} {g : Goal}

/-! ### Built-in stages -/

/-- whatever stage a registry makes is the built-in one of its kind, but for those that read utterances -/
structure BuiltIn (r : Registry) : Prop where
  matcher : ∀ f ∈ r.goalMatchers, ∀ p m, f.2 p = .ok m → m = .explicit
  resolver : ∀ f ∈ r.goalResolvers, ∀ p m, f.2 p = .ok m → m = .validating
  handler : ∀ f ∈ r.promptHandlers, ∀ p m, f.2 p = .ok m → m = .default

theorem builtIn_builtins : builtins.BuiltIn := by
  constructor
  all_goals
    intro f hf p m hm
    obtain rfl := List.mem_singleton.1 hf
    cases hm
    rfl

/-- if all that can be made is one component, then that is the first of those that are made, or used for want of any -/
theorem head?_of_build {α : Type} {x : α} {xs : List α} {kind : ComponentKind} {factories : List (String × Factory α)}
    {cs : List ComponentConfig} (h : ∀ f ∈ factories, ∀ p y, f.2 p = .ok y → y = x)
    (hxs : cs.mapM (build kind factories fs) = .ok xs) : xs.head?.getD x = x := by
  cases xs with
  | nil => rfl
  | cons y ys =>
    obtain ⟨config, -, hy⟩ := exists_of_mem_mapM hxs (List.mem_cons_self (a := y))
    rw [build, Factory.make] at hy
    split at hy
    · next make hmake => exact h _ (Entries.mem_of_get? hmake) _ y hy
    · cases hy

theorem builtIn_of_buildWorkflow {w : Workflow} {wc : WorkflowConfig} (hr : r.BuiltIn)
    (hw : r.buildWorkflow fs wc = .ok w) : w.BuiltIn := by
  obtain ⟨ps, -, hw⟩ := bind_eq_ok.1 hw
  obtain ⟨ms, hms, hw⟩ := bind_eq_ok.1 hw
  obtain ⟨rs, hrs, hw⟩ := bind_eq_ok.1 hw
  obtain ⟨hs, hhs, hw⟩ := bind_eq_ok.1 hw
  cases hw
  exact ⟨head?_of_build hr.matcher hms, head?_of_build hr.handler hhs, head?_of_build hr.resolver hrs⟩

/-- actions and goals leave the workflows as they are -/
theorem workflows_foldl (actions : List (String × Action)) (goals : List Goal) (b : Bot) :
    (goals.foldl Bot.addGoal (actions.foldl (fun b a => b.addAction a.1 a.2) b)).workflows = b.workflows := by
  have hgoals (b : Bot) : (goals.foldl Bot.addGoal b).workflows = b.workflows := by
    induction goals generalizing b with
    | nil => rfl
    | cons g goals ih => exact ih _
  rw [hgoals]
  induction actions generalizing b with
  | nil => rfl
  | cons a actions ih => exact ih _

/-- a bot has the built-in stages if the registry that it is built from has no others -/
theorem builtIn_of_buildBot (hr : r.BuiltIn) (hb : r.buildBot fs c = .ok b) : b.BuiltIn := by
  obtain ⟨dictionary, -, hb⟩ := bind_eq_ok.1 hb
  obtain ⟨workflows, hworkflows, hb⟩ := bind_eq_ok.1 hb
  obtain ⟨processors, -, hb⟩ := bind_eq_ok.1 hb
  obtain ⟨actions, -, hb⟩ := bind_eq_ok.1 hb
  obtain ⟨goals, -, hb⟩ := bind_eq_ok.1 hb
  obtain ⟨units, -, hb⟩ := bind_eq_ok.1 hb
  cases hb
  intro w hw
  have hmem : w ∈ workflows := by
    rw [Bot.workflow, workflows_foldl] at hw
    split at hw
    · next w' hw' =>
      cases hw
      exact List.mem_of_head? hw'
    · cases hw
  obtain ⟨wc, -, hw⟩ := exists_of_mem_mapM hworkflows hmem
  exact builtIn_of_buildWorkflow hr hw

/-! ### What is there -/

theorem provides_of_checkGoal {u : Unit} (h : checkGoal b g = .ok u) : b.Provides g := by
  obtain ⟨actions, hactions, h⟩ := bind_eq_ok.1 h
  refine ⟨⟨actions, hactions⟩, ?_⟩
  intro name hname
  rw [hname] at h
  obtain ⟨next, hnext, -⟩ := bind_eq_ok.1 h
  exact ⟨next, hnext⟩

/-- a bot that is built has what its goals name, also if several goals of one name were configured -/
theorem provides_of_buildBot (hb : r.buildBot fs c = .ok b) (hg : (name, g) ∈ b.goals) : b.Provides g := by
  obtain ⟨dictionary, -, hb⟩ := bind_eq_ok.1 hb
  obtain ⟨workflows, -, hb⟩ := bind_eq_ok.1 hb
  obtain ⟨processors, -, hb⟩ := bind_eq_ok.1 hb
  obtain ⟨actions, -, hb⟩ := bind_eq_ok.1 hb
  obtain ⟨goals, -, hb⟩ := bind_eq_ok.1 hb
  obtain ⟨units, hchecks, hb⟩ := bind_eq_ok.1 hb
  cases hb
  obtain ⟨u, -, hcheck⟩ := exists_of_mapM hchecks hg
  exact provides_of_checkGoal hcheck

/-- **What a bot is checked for when it is built**: no goal of it fails to be resolved because an action or a goal is
missing.  A property is missing in one case: the goal asks the user to agree, the user does not, and the goal names
none that takes over. -/
theorem resolve_of_buildBot (hb : r.buildBot fs c = .ok b) (hg : (name, g) ∈ b.goals) (s : Snapshot) :
    (∀ action, b.resolve g s ≠ .error (.unknownAction action)) ∧
      (∀ goal, b.resolve g s ≠ .error (.unknownGoal goal)) ∧
      ∀ component property, b.resolve g s = .error (.missingProperty component property) ↔
        component = "goal " ++ g.name ∧ property = "denyGoal" ∧ g.DeniedInVain s := by
  have hprovides := provides_of_buildBot hb hg
  refine ⟨?_, ?_, ?_⟩
  · intro action he
    rcases Bot.error_of_resolve hprovides he with ⟨e', h⟩ | ⟨-, h⟩ <;> cases h
  · intro goal he
    rcases Bot.error_of_resolve hprovides he with ⟨e', h⟩ | ⟨-, h⟩ <;> cases h
  · intro component property
    constructor
    · intro he
      rcases Bot.error_of_resolve hprovides he with ⟨e', h⟩ | ⟨hvain, h⟩
      · cases h
      · cases h
        exact ⟨rfl, rfl, hvain⟩
    · rintro ⟨rfl, rfl, hvain⟩
      exact Bot.resolve_of_deniedInVain hvain

/-- a bot with a goal that asks the user to agree and names none that takes over -/
def orderConfig : BotConfig where
  name := "orders"
  dict := "rows.csv"
  workflows := [⟨"default", [], [], [], []⟩]
  actionProcessors := []
  actions := []
  goals := [{
    name := "order"
    constraints := []
    successTemplate := []
    successActions := []
    confirmOnValid := true
    initialResponsePrompt := none
    denyGoal := none
    objectSlots := [] }]

def blankFiles : Files :=
  ⟨"", fun _ => some ""⟩

def order : Goal where
  name := "order"
  confirmOnValid := true

def orders : Bot where
  name := "orders"
  dictionary := .empty
  workflows := [.basic "default"]
  processors := []
  actions := []
  goals := [("order", order)]

def disagreed : Snapshot :=
  ⟨.empty, .empty, ⟨.map [("intent", .map [("confirmed", .bool false)])]⟩⟩

theorem buildBot_orderConfig : builtins.buildBot blankFiles orderConfig = .ok orders := by
  rfl

theorem deniedInVain_disagreed : order.DeniedInVain disagreed :=
  ⟨rfl, rfl, rfl, ⟨"", by rfl⟩, by rfl⟩

/-- the user does not agree to an order, and nothing takes over -/
theorem resolve_of_buildBot_orders :
    builtins.buildBot blankFiles orderConfig = .ok orders ∧ ("order", order) ∈ orders.goals ∧
      (∀ action, orders.resolve order disagreed ≠ .error (.unknownAction action)) ∧
      orders.resolve order disagreed = .error (.missingProperty "goal order" "denyGoal") := by
  have hmem : ("order", order) ∈ orders.goals := List.mem_singleton.2 rfl
  obtain ⟨hactions, -, hmissing⟩ := resolve_of_buildBot buildBot_orderConfig hmem disagreed
  exact ⟨buildBot_orderConfig, hmem, hactions, (hmissing _ _).2 ⟨rfl, rfl, deniedInVain_disagreed⟩⟩

/-- A bot can be built although a goal of it lacks a property that is needed when the user does not agree. -/
theorem not_settled_of_buildBot :
    ¬ ∀ (r : Registry) (fs : Files) (c : BotConfig) (b : Bot), r.buildBot fs c = .ok b →
      ∀ name g, (name, g) ∈ b.goals → ∀ s : Snapshot,
        (∀ action, b.resolve g s ≠ .error (.unknownAction action)) ∧
          (∀ goal, b.resolve g s ≠ .error (.unknownGoal goal)) ∧
          ∀ component property, b.resolve g s ≠ .error (.missingProperty component property) := by
  intro h
  have hmem : ("order", order) ∈ orders.goals := List.mem_singleton.2 rfl
  obtain ⟨-, -, hmissing⟩ := h builtins blankFiles orderConfig orders buildBot_orderConfig "order" order hmem disagreed
  exact hmissing "goal order" "denyGoal" (Bot.resolve_of_deniedInVain deniedInVain_disagreed)

end Registry

end Dialogue
