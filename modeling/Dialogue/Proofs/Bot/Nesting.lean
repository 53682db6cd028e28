import Mathlib.Data.Fintype.EquivFin
import Mathlib.Data.Set.Finite.List
import Mathlib.Order.WellFounded
import Dialogue.Proofs.Bot.Seen

/-!
# Actions inside actions

The limit on how many actions run inside each other is never the reason that a run fails, unless the actions go on for
ever: `Bot.returns_iff` says that the run of an action comes to an end exactly if it does not begin an endless chain of
actions, each of which starts inside the one before it.  Where no goal leads back to itself, there is no such chain.

* `Finishes` — a run does not meet the limit; `finishes_bind_iff` follows it through a `do`;
* `Bot.process_of_le` — once a run finishes, a higher limit changes nothing;
* `Bot.finishes_process_iff` — a run finishes with the limit `n + 1` exactly if every run that it calls finishes with
  the limit `n`; a chain of calls is then an induction on the limit one way, and on the chain the other way.
-/

namespace Dialogue

open Slots

/-! ### Runs that do not meet the limit -/

section

variable {α β : Type} {t t' : Tally} {m m' : Run α} {f f' : α → Run β}

/-- a run ends, well or not, without meeting the limit -/
def Finishes (m : Run α) (t : Tally) : Prop :=
  ∀ t', m.run.run t ≠ (.error .unfinished, t')

theorem Yields.finishes {x : α} (h : Yields m t x t') : Finishes m t := by
  intro u hu
  rw [Yields, hu] at h
  cases h

theorem finishes_pure (x : α) (t : Tally) : Finishes (pure x) t :=
  Yields.finishes (yields_pure.2 ⟨rfl, rfl⟩)

theorem finishes_liftState (x : Except StateError α) (t : Tally) : Finishes (liftM x : Run α) t := by
  intro u hu
  cases x <;> cases hu

theorem finishes_liftDialogue (x : Except DialogueError α) (t : Tally) : Finishes (liftM x : Run α) t := by
  intro u hu
  cases x <;> cases hu

theorem finishes_bind_iff :
    Finishes (m >>= f) t ↔ Finishes m t ∧ ∀ x u, Yields m t x u → Finishes (f x) u := by
  unfold Finishes Yields
  rw [ExceptT.run_bind, StateT.run_bind]
  cases h : m.run.run t with
  | mk x u =>
    cases x with
    | error e =>
      constructor
      · intro hbind
        refine ⟨fun t' ht' => ?_, fun x u hx => ?_⟩
        · cases ht'
          exact hbind _ rfl
        · cases hx
      · rintro ⟨hm, -⟩ t' ht'
        cases ht'
        exact hm _ rfl
    | ok x =>
      constructor
      · intro hbind
        refine ⟨fun t' ht' => ?_, fun x' u' hx => ?_⟩
        · cases ht'
        · cases hx
          exact hbind
      · rintro ⟨-, hf⟩
        exact hf x u rfl

/-- the second run does as the first one does, unless that meets the limit -/
def Refines (m m' : Run α) : Prop :=
  ∀ t, Finishes m t → m'.run.run t = m.run.run t

theorem Refines.refl (m : Run α) : Refines m m :=
  fun _ _ => rfl

theorem Refines.bind (h : Refines m m') (hf : ∀ x, Refines (f x) (f' x)) : Refines (m >>= f) (m' >>= f') := by
  intro t ht
  obtain ⟨hm, hfx⟩ := finishes_bind_iff.1 ht
  rw [ExceptT.run_bind, ExceptT.run_bind, StateT.run_bind, StateT.run_bind, h t hm]
  cases hx : m.run.run t with
  | mk x u =>
    cases x with
    | error e => rfl
    | ok x => exact hf x u (hfx x u hx)

theorem Refines.foldlM {γ : Type} {g g' : β → γ → Run β} (h : ∀ y c, Refines (g y c) (g' y c)) (cs : List γ) (y : β) :
    Refines (cs.foldlM g y) (cs.foldlM g' y) := by
  induction cs generalizing y with
  | nil => exact .refl _
  | cons c cs ih =>
    rw [List.foldlM_cons, List.foldlM_cons]
    exact (h y c).bind ih

end

namespace Bot

variable {b : Bot} {n k : Nat} {p : Processor} {a c : Action} {as : List Action} {s s' v : Snapshot}
  {t t' u w : Tally} {before after : Option String} {o : Outcome}

/-! ### Higher limits -/

theorem Refines.revalidate {f f' : Action → Snapshot → Run Outcome} (h : ∀ a s, Refines (f a s) (f' a s))
    (name : String) (s : Snapshot) : Refines (b.revalidate f name s) (b.revalidate f' name s) := by
  unfold Bot.revalidate
  refine .bind (.refl _) fun g => .bind (.refl _) fun r => .bind (.refl _) fun s₁ => .bind (.refl _) fun said =>
    .bind (.foldlM (fun (said, s) a => ?_) _ _) fun _ => .refl _
  exact .bind (h a s) fun _ => .refl _

theorem refines_process_succ (b : Bot) (n : Nat) (p : Processor) (a : Action) (s : Snapshot) :
    Refines (b.process n p a s) (b.process (n + 1) p a s) := by
  induction n generalizing p a s with
  | zero =>
    intro t ht
    exact absurd rfl (ht t)
  | succ n ih =>
    cases p with
    | plain => exact .refl _
    | revalidating =>
      rw [process, process]
      refine .bind (.refl _) fun before => .bind (.refl _) fun s₁ => .bind (.refl _) fun after => ?_
      cases before with
      | none => exact .refl _
      | some old =>
        cases after with
        | none => exact .refl _
        | some new =>
          dsimp only
          split
          · exact .refl _
          · exact .bind (Refines.revalidate (fun a s => ih b.processor a s) new _) fun _ => .refl _

/-- **Once a run finishes, a higher limit changes nothing.** -/
theorem process_of_le (hk : n ≤ k) (h : Finishes (b.process n p a s) t) :
    (b.process k p a s).run.run t = (b.process n p a s).run.run t := by
  induction hk with
  | refl => rfl
  | @step k _ ih =>
    have hfinishes : Finishes (b.process k p a s) t := by
      intro t' ht'
      rw [ih] at ht'
      exact h t' ht'
    exact (refines_process_succ b k p a s t hfinishes).trans ih

/-- a run that finishes with some limit does what it does with any other limit with which it ends well -/
theorem yields_of_finishes (h : Yields (b.process k p a s) t o u) (hn : Finishes (b.process n p a s) t) :
    Yields (b.process n p a s) t o u := by
  rcases Nat.le_total n k with hle | hle
  · rw [Yields, ← process_of_le hle hn]
    exact h
  · rw [Yields, process_of_le hle h.finishes]
    exact h

theorem finishes_of_le (hle : n ≤ k) (h : Finishes (b.process n p a s) t) : Finishes (b.process k p a s) t := by
  intro t' ht'
  rw [process_of_le hle h] at ht'
  exact h t' ht'

theorem Ran.of_le (hle : n ≤ k) (h : b.Ran n as s t s' t') : b.Ran k as s t s' t' := by
  induction h with
  | nil => exact .nil
  | cons hfirst _ ih =>
    refine .cons ?_ ih
    rw [Yields, process_of_le hle hfirst.finishes]
    exact hfirst

/-! ### Actions one after the other -/

/-- each of the actions that starts finishes -/
def AllFinish (b : Bot) (n : Nat) (as : List Action) (s : Snapshot) (t : Tally) : Prop :=
  ∀ ds c es v w, as = ds ++ c :: es → b.Ran n ds s t v w → Finishes (b.process n b.processor c v) w

theorem allFinish_nil (b : Bot) (n : Nat) (s : Snapshot) (t : Tally) : b.AllFinish n [] s t := by
  intro ds c es v w hnil
  simp at hnil

/-- the actions finish if the first one does and, if it ends well, those behind it do -/
theorem allFinish_cons_iff :
    b.AllFinish n (a :: as) s t ↔ Finishes (b.process n b.processor a s) t ∧
      ∀ o u, Yields (b.process n b.processor a s) t o u → b.AllFinish n as o.snapshot u := by
  constructor
  · intro h
    refine ⟨h [] a as s t rfl .nil, fun o u ho ds c es v w has hran => ?_⟩
    exact h (a :: ds) c es v w (by rw [has, List.cons_append]) (.cons ho hran)
  · rintro ⟨hfirst, hrest⟩ ds c es v w has hran
    cases hran with
    | nil =>
      cases has
      exact hfirst
    | cons ho hran =>
      rw [List.cons_append, List.cons.injEq] at has
      obtain ⟨rfl, has⟩ := has
      exact hrest _ _ ho _ _ _ _ _ has hran

theorem AllFinish.left {ds : List Action} (h : b.AllFinish n (as ++ ds) s t) : b.AllFinish n as s t := by
  intro cs c es v w has hran
  exact h cs c (es ++ ds) v w (by rw [has, List.append_assoc, List.cons_append]) hran

/-- actions that have run with some limit have run with any limit with which they finish -/
theorem Ran.of_allFinish (h : b.Ran k as s t s' t') (hn : b.AllFinish n as s t) : b.Ran n as s t s' t' := by
  induction h with
  | nil => exact .nil
  | cons hfirst _ ih =>
    obtain ⟨hfinishes, hrest⟩ := allFinish_cons_iff.1 hn
    have hfirst' := yields_of_finishes hfirst hfinishes
    exact .cons hfirst' (ih (hrest _ _ hfirst'))

theorem finishes_foldlM_iff {say : String → Option String → String} {said : String} :
    Finishes (as.foldlM (fun (said, s) a => do
        let o ← b.process n b.processor a s
        return (say said o.spoken, o.snapshot)) (said, s)) t ↔ b.AllFinish n as s t := by
  induction as generalizing said s t with
  | nil => exact iff_of_true (finishes_pure _ _) (allFinish_nil b n s t)
  | cons a as ih =>
    simp only [List.foldlM_cons, finishes_bind_iff, yields_bind, yields_pure, allFinish_cons_iff]
    constructor
    · rintro ⟨⟨hfirst, -⟩, hrest⟩
      exact ⟨hfirst, fun o u ho => ih.1 (hrest _ u ⟨o, u, ho, rfl, rfl⟩)⟩
    · rintro ⟨hfirst, hrest⟩
      refine ⟨⟨hfirst, fun o u _ => finishes_pure _ _⟩, ?_⟩
      rintro _ _ ⟨o, u, ho, rfl, rfl⟩
      exact ih.2 (hrest o _ ho)

/-- for some limit each of the actions finishes, if each one does for some limit of its own -/
theorem exists_allFinish
    (h : ∀ k ds c es v w, as = ds ++ c :: es → b.Ran k ds s t v w → ∃ n, Finishes (b.process n b.processor c v) w) :
    ∃ n, b.AllFinish n as s t := by
  induction as generalizing s t with
  | nil => exact ⟨0, allFinish_nil b 0 s t⟩
  | cons a as ih =>
    obtain ⟨k, hk⟩ := h 0 [] a as s t rfl .nil
    by_cases hyields : ∃ o u, Yields (b.process k b.processor a s) t o u
    · obtain ⟨o, u, ho⟩ := hyields
      obtain ⟨n, hn⟩ : ∃ n, b.AllFinish n as o.snapshot u := by
        refine ih fun m ds c es v w has hran => ?_
        have ho' : Yields (b.process (max k m) b.processor a s) t o u :=
          yields_of_finishes ho (finishes_of_le (Nat.le_max_left k m) hk)
        exact h (max k m) (a :: ds) c es v w (by rw [has, List.cons_append])
          (.cons ho' (hran.of_le (Nat.le_max_right k m)))
      refine ⟨max k n, allFinish_cons_iff.2 ⟨finishes_of_le (Nat.le_max_left k n) hk, fun o' u' ho' => ?_⟩⟩
      obtain ⟨rfl, rfl⟩ := (yields_of_finishes ho (finishes_of_le (Nat.le_max_left k n) hk)).unique ho'
      intro ds c es v w has hran
      rw [has] at hn
      exact finishes_of_le (Nat.le_max_right k n) (hn ds c es v w rfl (hran.of_allFinish hn.left))
    · -- the first action fails, and no other one starts
      refine ⟨k, allFinish_cons_iff.2 ⟨hk, fun o u ho => ?_⟩⟩
      exact absurd ⟨o, u, ho⟩ hyields

/-! ### Calls -/

/-- an action makes another goal active, whose response is carried out -/
structure Revalidates (b : Bot) (a : Action) (s : Snapshot) (t : Tally) (g : Goal) (r : Response) (s' : Snapshot)
    (t' : Tally) : Prop where
  steps : ∃ old new s₁, s.textAt intentName = .ok (some old) ∧ Yields (a.run b s) t s₁ t' ∧
    s₁.textAt intentName = .ok (some new) ∧ old ≠ new ∧ b.goal new = .ok g ∧ b.resolveAnew g s₁ = .ok r
  carried : r.snapshot.update r.commands = .ok s'
  spoken : ∃ said, s'.textAt actionSpoken = .ok said

theorem Revalidates.unique {g g' : Goal} {r r' : Response} (h : b.Revalidates a s t g r s' t')
    (h' : b.Revalidates a s t g' r' v u) : g = g' ∧ r = r' ∧ s' = v ∧ t' = u := by
  obtain ⟨old, new, s₁, -, hrun, hnew, -, hg, hr⟩ := h.steps
  obtain ⟨old', new', s₁', -, hrun', hnew', -, hg', hr'⟩ := h'.steps
  obtain ⟨rfl, rfl⟩ := hrun.unique hrun'
  rw [hnew] at hnew'
  cases hnew'
  rw [hg] at hg'
  cases hg'
  rw [hr] at hr'
  cases hr'
  have hcarried := h'.carried
  rw [h.carried] at hcarried
  cases hcarried
  exact ⟨rfl, rfl, rfl, rfl⟩

theorem finishes_run (a : Action) (b : Bot) (s : Snapshot) (t : Tally) : Finishes (a.run b s) t := by
  have hperform (s : Snapshot) (t : Tally) : Finishes (a.perform b s) t := by
    refine finishes_bind_iff.2 ⟨fun t' ht' => ?_, fun tally u _ => ?_⟩
    · cases ht'
    · refine finishes_bind_iff.2 ⟨fun t' ht' => ?_, fun _ u _ => ?_⟩
      · cases ht'
      · exact finishes_liftDialogue _ _
  refine finishes_bind_iff.2 ⟨finishes_liftState _ _, fun s₁ u _ => ?_⟩
  exact finishes_bind_iff.2 ⟨hperform s₁ u, fun cs w _ => finishes_liftState _ _⟩

theorem finishes_plain (b : Bot) (n : Nat) (a : Action) (s : Snapshot) (t : Tally) :
    Finishes (b.process (n + 1) .plain a s) t := by
  rw [process]
  refine finishes_bind_iff.2 ⟨finishes_run a b s t, fun s₁ u _ => ?_⟩
  exact finishes_bind_iff.2 ⟨finishes_liftState _ _, fun _ _ _ => finishes_pure _ _⟩

theorem finishes_revalidate_iff {name : String} :
    Finishes (b.revalidate (b.process n b.processor) name s) t ↔ ∀ g r s', b.goal name = .ok g →
      b.resolveAnew g s = .ok r → r.snapshot.update r.commands = .ok s' →
        (∃ said, s'.textAt actionSpoken = .ok said) → b.AllFinish n r.actions s' t := by
  simp only [revalidate, finishes_bind_iff, finishes_liftDialogue, finishes_liftState, yields_liftDialogue,
    yields_liftState, finishes_foldlM_iff, true_and, implies_true, and_true]
  constructor
  · rintro h g r s' hg hr hs' ⟨said, hsaid⟩
    exact h g t ⟨hg, rfl⟩ r t ⟨hr, rfl⟩ s' t ⟨hs', rfl⟩ said t ⟨hsaid, rfl⟩
  · rintro h g _ ⟨hg, rfl⟩ r _ ⟨hr, rfl⟩ s' _ ⟨hs', rfl⟩ said _ ⟨hsaid, rfl⟩
    exact h g r s' hg hr hs' ⟨said, hsaid⟩

theorem finishes_reopen_iff :
    Finishes (b.reopen n before after s) t ↔ ∀ old new, before = some old → after = some new → old ≠ new →
      Finishes (b.revalidate (b.process n b.processor) new s) t := by
  cases before with
  | none => exact iff_of_true (finishes_pure s t) fun old new hold => by cases hold
  | some old =>
    cases after with
    | none => exact iff_of_true (finishes_pure s t) fun old new _ hnew => by cases hnew
    | some new =>
      by_cases heq : old = new
      · rw [reopen, if_pos heq]
        refine iff_of_true (finishes_pure s t) fun old' new' hold hnew hne => ?_
        cases hold
        cases hnew
        exact absurd heq hne
      · rw [reopen, if_neg heq]
        constructor
        · intro h old' new' hold hnew _
          cases hold
          cases hnew
          exact h
        · intro h
          exact h old new rfl rfl heq

/-- **A run finishes exactly if every run that it calls finishes**, with a limit that is lower by one. -/
theorem finishes_process_iff :
    Finishes (b.process (n + 1) .revalidating a s) t ↔
      ∀ g r s' t', b.Revalidates a s t g r s' t' → b.AllFinish n r.actions s' t' := by
  have hsteps : Finishes (b.process (n + 1) .revalidating a s) t ↔
      ∀ before s₁ u after, s.textAt intentName = .ok before → Yields (a.run b s) t s₁ u →
        s₁.textAt intentName = .ok after → Finishes (b.reopen n before after s₁) u := by
    rw [process_eq]
    simp only [finishes_bind_iff, finishes_liftState, finishes_liftDialogue, finishes_pure, finishes_run,
      yields_liftState, true_and, implies_true, and_true]
    constructor
    · intro h before s₁ u after hbefore hrun hafter
      exact h before t ⟨hbefore, rfl⟩ s₁ u hrun after u ⟨hafter, rfl⟩
    · rintro h before _ ⟨hbefore, rfl⟩ s₁ u hrun after _ ⟨hafter, rfl⟩
      exact h before s₁ _ after hbefore hrun hafter
  rw [hsteps]
  simp only [finishes_reopen_iff, finishes_revalidate_iff]
  constructor
  · rintro h g r s' t' ⟨⟨old, new, s₁, hold, hrun, hnew, hne, hg, hr⟩, hs', hsaid⟩
    exact h _ s₁ t' _ hold hrun hnew old new rfl rfl hne g r s' hg hr hs' hsaid
  · rintro h _ s₁ u _ hold hrun hnew old new rfl rfl hne g r s' hg hr hs' hsaid
    exact h g r s' u ⟨⟨old, new, s₁, hold, hrun, hnew, hne, hg, hr⟩, hs', hsaid⟩

/-! ### Chains of calls -/

/-- an action that starts in a snapshot -/
structure Running where
  action : Action
  snapshot : Snapshot
  tally : Tally

/-- while an action runs, another one starts directly inside it; there goals can be resolved anew in their turn -/
def Nests (b : Bot) (inner outer : Running) : Prop :=
  b.processor = .revalidating ∧ ∃ g r s t n as bs, b.Revalidates outer.action outer.snapshot outer.tally g r s t ∧
    r.actions = as ++ inner.action :: bs ∧ b.Ran n as s t inner.snapshot inner.tally

/-- the run of an action returns: from some limit on it ends in one and the same way, and not for the limit -/
def Returns (b : Bot) (p : Processor) (a : Action) (s : Snapshot) (t : Tally) : Prop :=
  ∃ x t' n, (∀ k, n ≤ k → (b.process k p a s).run.run t = (x, t')) ∧ x ≠ .error .unfinished

theorem returns_iff_exists : b.Returns p a s t ↔ ∃ n, Finishes (b.process n p a s) t := by
  constructor
  · rintro ⟨x, t', n, hrun, hx⟩
    refine ⟨n, fun u hu => hx ?_⟩
    rw [hrun n (Nat.le_refl n)] at hu
    exact congrArg Prod.fst hu
  · rintro ⟨n, h⟩
    refine ⟨_, _, n, fun k hk => process_of_le hk h, fun hx => h ((b.process n p a s).run.run t).2 ?_⟩
    exact Prod.ext hx rfl

/-- a run that finishes begins no endless chain: by induction on its limit -/
theorem acc_of_finishes (h : Finishes (b.process n .revalidating a s) t) : Acc b.Nests ⟨a, s, t⟩ := by
  induction n generalizing a s t with
  | zero => exact absurd rfl (h t)
  | succ n ih =>
    refine Acc.intro _ fun ⟨c, v, w⟩ ⟨hprocessor, g, r, s', t', k, as, bs, hcalls, hactions, hran⟩ => ih ?_
    have hall := finishes_process_iff.1 h g r s' t' hcalls
    rw [hactions] at hall
    have hinner := hall as c bs v w rfl (hran.of_allFinish hall.left)
    rwa [hprocessor] at hinner

/-- a run returns if every run that starts directly inside it does -/
theorem returns_of_calls
    (h : ∀ g r s' t' k as c bs v w, b.Revalidates a s t g r s' t' → r.actions = as ++ c :: bs → b.Ran k as s' t' v w →
      b.Returns b.processor c v w) : b.Returns .revalidating a s t := by
  rw [returns_iff_exists]
  by_cases hcalls : ∃ g r s' t', b.Revalidates a s t g r s' t'
  · obtain ⟨g, r, s', t', hcalls⟩ := hcalls
    obtain ⟨n, hn⟩ : ∃ n, b.AllFinish n r.actions s' t' :=
      exists_allFinish fun k as c bs v w hactions hran =>
        returns_iff_exists.1 (h g r s' t' k as c bs v w hcalls hactions hran)
    refine ⟨n + 1, finishes_process_iff.2 fun g' r' v u hcalls' => ?_⟩
    obtain ⟨-, rfl, rfl, rfl⟩ := hcalls.unique hcalls'
    exact hn
  · refine ⟨1, finishes_process_iff.2 fun g r s' t' hcalls' => ?_⟩
    exact absurd ⟨g, r, s', t', hcalls'⟩ hcalls

theorem returns_plain (b : Bot) (a : Action) (s : Snapshot) (t : Tally) : b.Returns .plain a s t :=
  returns_iff_exists.2 ⟨1, finishes_plain b 0 a s t⟩

/-- an action that begins no endless chain returns: by induction on the actions that start inside it -/
theorem returns_of_acc {x : Running} (h : Acc b.Nests x) : b.Returns .revalidating x.action x.snapshot x.tally := by
  induction h with
  | intro x _ ih =>
    refine returns_of_calls fun g r s' t' k as c bs v w hcalls hactions hran => ?_
    cases hprocessor : b.processor with
    | plain => exact returns_plain b c v w
    | revalidating => exact ih ⟨c, v, w⟩ ⟨hprocessor, g, r, s', t', k, as, bs, hcalls, hactions, hran⟩

/-! ### Goals that lead to goals -/

/-- an action in a response to the first goal can make the second goal active -/
def Leads (b : Bot) (g h : Goal) : Prop :=
  ∃ a, b.Offers g a ∧ ∃ s t r s' t', b.Revalidates a s t h r s' t'

/-- where no goal of the bot leads back to itself, no goal begins an endless chain of goals -/
theorem acc_leads (h : ∀ g, ¬ Relation.TransGen b.Leads g g) (g : Goal) (hg : b.HasGoal g) :
    Acc (fun g' g => b.HasGoal g' ∧ b.Leads g g') g := by
  have hfinite : {g | b.HasGoal g}.Finite := by
    refine (b.goals.map Prod.snd).finite_toSet.subset ?_
    rintro g ⟨name, hname⟩
    exact List.mem_map.2 ⟨_, mem_of_goal hname, rfl⟩
  have : Finite {g // b.HasGoal g} := hfinite.to_subtype
  let later : {g // b.HasGoal g} → {g // b.HasGoal g} → Prop := fun g' g => Relation.TransGen b.Leads g.1 g'.1
  have : IsTrans _ later := ⟨fun _ _ _ h₁ h₂ => h₂.trans h₁⟩
  have : Std.Irrefl later := ⟨fun g => h g.1⟩
  have hlater : WellFounded later := Finite.wellFounded_of_trans_of_irrefl later
  have hall : ∀ x : {g // b.HasGoal g}, Acc (fun g' g => b.HasGoal g' ∧ b.Leads g g') x.1 := by
    intro x
    induction x using hlater.induction with
    | _ x ih => exact Acc.intro _ fun g' ⟨hg', hleads⟩ => ih ⟨g', hg'⟩ (.single hleads)
  exact hall ⟨g, hg⟩

/-- the chain of actions is no longer than the chain of their goals -/
theorem acc_nests_of_acc {g : Goal} (h : Acc (fun g' g => b.HasGoal g' ∧ b.Leads g g') g) (ha : b.Offers g a)
    (s : Snapshot) (t : Tally) : Acc b.Nests ⟨a, s, t⟩ := by
  induction h generalizing a s t with
  | intro g _ ih =>
    refine Acc.intro _ fun ⟨c, v, w⟩ ⟨_, g', r, s', t', k, as, bs, hcalls, hactions, _⟩ => ?_
    obtain ⟨old, new, s₁, -, -, -, -, hg', hr⟩ := hcalls.steps
    have hc : b.Offers g' c := ⟨s₁, r, hr, by simp [hactions]⟩
    exact ih g' ⟨⟨new, hg'⟩, a, ha, s, t, r, s', t', hcalls⟩ hc v w

/-- **When the run of an action returns.**  It does, with an outcome or an error, exactly if it does not begin an
endless chain of actions, each of which starts inside the one before it; so it always does if no goal of the bot leads
back to itself through actions that make other goals active. -/
theorem returns_iff (b : Bot) :
    (∀ p a s t, b.Returns p a s t ↔ p = .plain ∨
      ¬ ∃ chain : Nat → Running, chain 0 = ⟨a, s, t⟩ ∧ ∀ i, b.Nests (chain (i + 1)) (chain i)) ∧
    ((∀ g, ¬ Relation.TransGen b.Leads g g) → ∀ p a s t, b.Returns p a s t) := by
  constructor
  · intro p a s t
    cases p with
    | plain => exact iff_of_true (returns_plain b a s t) (.inl rfl)
    | revalidating =>
      -- an endless chain is what accessibility excludes
      rw [← not_acc_iff_exists_descending_chain, not_not]
      constructor
      · intro h
        obtain ⟨n, hn⟩ := returns_iff_exists.1 h
        exact .inr (acc_of_finishes hn)
      · rintro (hplain | hacc)
        · cases hplain
        · exact returns_of_acc hacc
  · intro h p a s t
    cases p with
    | plain => exact returns_plain b a s t
    | revalidating =>
      refine returns_of_acc (x := ⟨a, s, t⟩) (Acc.intro _ fun ⟨c, v, w⟩ hnests => ?_)
      obtain ⟨-, g, r, s', t', k, as, bs, hcalls, hactions, -⟩ := hnests
      obtain ⟨old, new, s₁, -, -, -, -, hg, hr⟩ := hcalls.steps
      have hc : b.Offers g c := ⟨s₁, r, hr, by simp [hactions]⟩
      exact acc_nests_of_acc (acc_leads h g ⟨new, hg⟩) hc v w

/-- the actions of `reporter` only speak, so that every run of them returns -/
theorem returns_reporter :
    (∀ g, ¬ Relation.TransGen reporter.Leads g g) ∧ ∀ p a s t, reporter.Returns p a s t := by
  have hleads : ∀ g h, ¬ reporter.Leads g h := by
    rintro g h ⟨a, hoffers, s, t, r, s', t', hcalls⟩
    obtain ⟨name, -, ha⟩ := hoffers.action (builtIn_of_basic rfl)
    obtain ⟨old, new, s₁, hold, hrun, hnew, hne, -⟩ := hcalls.steps
    have hspeaks : a.Speaks reporter := by
      obtain ⟨c, hc, hac⟩ := List.mem_map.1 (mem_of_action ha)
      obtain ⟨-, rfl⟩ := Prod.mk.inj hac
      exact speaks_reportActions c hc
    exact hne (eq_of_speaks hspeaks hrun hold hnew)
  have hcyclic : ∀ g, ¬ Relation.TransGen reporter.Leads g g := by
    intro g h
    obtain ⟨g', -, hg'⟩ := Relation.TransGen.tail'_iff.1 h
    exact hleads _ _ hg'
  exact ⟨hcyclic, (returns_iff reporter).2 hcyclic⟩

/-- an action that makes the goal of a name active, and forgets the goal that was -/
def turnTo (name : String) : Action :=
  .script ("to " ++ name) ("utt:/intent.name -> " ++ name ++ "; -! conv:|previousIntents")

/-- a bot with two goals, each of which makes the other one active -/
def carousel : Bot where
  name := "carousel"
  dictionary := .empty
  workflows := [.basic "default"]
  processors := []
  actions := [("to ping", turnTo "ping"), ("to pong", turnTo "pong")]
  goals := [("ping", { name := "ping", successActions := ["to pong"] }),
    ("pong", { name := "pong", successActions := ["to ping"] })]

def carouselAt (name : String) : Snapshot :=
  ⟨.empty, .empty, ⟨.map [("intent", .map [("name", .str name), ("validated", .bool true)])]⟩⟩

/-- the turn to one goal calls the turn to the other -/
theorem revalidates_carousel (t : Tally) :
    (∃ g r t', carousel.Revalidates (turnTo "pong") (carouselAt "ping") t g r (carouselAt "pong") t' ∧
      r.actions = [turnTo "ping"]) ∧
    ∃ g r t', carousel.Revalidates (turnTo "ping") (carouselAt "pong") t g r (carouselAt "ping") t' ∧
      r.actions = [turnTo "pong"] :=
  ⟨⟨_, _, _, ⟨⟨"ping", "pong", carouselAt "pong", by rfl, by rfl, by rfl, by decide, by rfl, by rfl⟩,
      by rfl, ⟨_, by rfl⟩⟩, by rfl⟩,
    ⟨_, _, _, ⟨⟨"pong", "ping", carouselAt "ping", by rfl, by rfl, by rfl, by decide, by rfl, by rfl⟩,
      by rfl, ⟨_, by rfl⟩⟩, by rfl⟩⟩

/-- the turns of `carousel` go on for ever -/
theorem not_returns_carousel : ¬ ∀ b p a s t, Returns b p a s t := by
  have hnever (n : Nat) : ∀ t, ¬ Finishes (carousel.process n .revalidating (turnTo "pong") (carouselAt "ping")) t ∧
      ¬ Finishes (carousel.process n .revalidating (turnTo "ping") (carouselAt "pong")) t := by
    induction n with
    | zero => exact fun t => ⟨fun h => h t rfl, fun h => h t rfl⟩
    | succ n ih =>
      intro t
      obtain ⟨⟨g, r, t₁, hpong, hr⟩, g', r', t₂, hping, hr'⟩ := revalidates_carousel t
      constructor
      · intro h
        have hall := finishes_process_iff.1 h g r _ t₁ hpong
        rw [hr] at hall
        exact (ih t₁).2 (hall [] _ [] _ t₁ rfl .nil)
      · intro h
        have hall := finishes_process_iff.1 h g' r' _ t₂ hping
        rw [hr'] at hall
        exact (ih t₂).1 (hall [] _ [] _ t₂ rfl .nil)
  intro h
  obtain ⟨n, hn⟩ := returns_iff_exists.1 (h carousel .revalidating (turnTo "pong") (carouselAt "ping") [])
  exact (hnever n []).1 hn

end Bot

end Dialogue
