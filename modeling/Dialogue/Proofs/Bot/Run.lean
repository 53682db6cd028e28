import Dialogue.Bot.Answer
import Dialogue.Proofs.Bot.Resolve
import Dialogue.Proofs.Objects

/-!
# The actions of a turn

What happens when the actions of a goal run: each of them can make another goal active, whose actions then run inside
it.  `Bot.Starts` says which actions start in which snapshots, at any depth, and `Bot.Reopens` which goals are
resolved in between.  A property of the snapshot that each step keeps (`Bot.Keeps`) holds wherever an action starts
(`Keeps.of_starts`) and at the end (`Keeps.of_process`).
-/

namespace Dialogue

open Slots

/-! ### Runs that end well -/

section

variable {α β : Type} {t t' : Tally}

/-- a run ends well, and leaves a tally -/
def Yields (m : Run α) (t : Tally) (x : α) (t' : Tally) : Prop :=
  m.run.run t = (.ok x, t')

theorem Yields.unique {m : Run α} {x y : α} {u : Tally} (h : Yields m t x t') (h' : Yields m t y u) :
    x = y ∧ t' = u := by
  unfold Yields at h h'
  rw [h] at h'
  cases h'
  exact ⟨rfl, rfl⟩

theorem yields_pure {x y : α} : Yields (pure x) t y t' ↔ x = y ∧ t' = t := by
  constructor
  · intro h
    cases h
    exact ⟨rfl, rfl⟩
  · rintro ⟨rfl, rfl⟩
    rfl

theorem yields_bind {m : Run α} {f : α → Run β} {y : β} :
    Yields (m >>= f) t y t' ↔ ∃ x u, Yields m t x u ∧ Yields (f x) u y t' := by
  unfold Yields
  rw [ExceptT.run_bind, StateT.run_bind]
  cases h : m.run.run t with
  | mk x u =>
    cases x with
    | error e =>
      constructor
      · intro h
        cases h
      · rintro ⟨x, u, h, -⟩
        cases h
    | ok x =>
      constructor
      · intro h
        exact ⟨x, u, rfl, h⟩
      · rintro ⟨x, u, h, h'⟩
        cases h
        exact h'

theorem yields_liftState {x : Except StateError α} {y : α} :
    Yields (liftM x) t y t' ↔ x = .ok y ∧ t' = t := by
  cases x with
  | error e =>
    constructor
    · intro h
      cases h
    · rintro ⟨h, -⟩
      cases h
  | ok x =>
    constructor
    · intro h
      cases h
      exact ⟨rfl, rfl⟩
    · rintro ⟨h, rfl⟩
      cases h
      rfl

theorem yields_liftDialogue {x : Except DialogueError α} {y : α} :
    Yields (liftM x) t y t' ↔ x = .ok y ∧ t' = t := by
  cases x with
  | error e =>
    constructor
    · intro h
      cases h
    · rintro ⟨h, -⟩
      cases h
  | ok x =>
    constructor
    · intro h
      cases h
      exact ⟨rfl, rfl⟩
    · rintro ⟨h, rfl⟩
      cases h
      rfl

end

/-! ### One action -/

/-- an action takes back what was to be said, and then its commands are carried out -/
theorem Action.update_of_run {a : Action} {b : Bot} {s s' : Snapshot} {t t' : Tally} (h : Yields (a.run b s) t s' t') :
    ∃ s₁ runs cs, s.remove actionSpoken = .ok s₁ ∧ a.act runs b.goals s₁ = .ok cs ∧ s₁.update cs = .ok s' := by
  simp only [Action.run, Action.perform, yields_bind, yields_liftState, yields_liftDialogue] at h
  obtain ⟨s₁, _, ⟨hremove, rfl⟩, cs, _, ⟨tally, _, -, _, _, -, hact, -⟩, hupdate, -⟩ := h
  exact ⟨s₁, _, cs, hremove, hact, hupdate⟩

/-- the root of the utterance is a map where an action runs, and stays one -/
theorem Action.rootedAt_of_run {a : Action} {b : Bot} {s s' : Snapshot} {t t' : Tally}
    (h : Yields (a.run b s) t s' t') : s.RootedAt .utterance ∧ s'.RootedAt .utterance := by
  obtain ⟨s₁, runs, cs, hremove, -, hupdate⟩ := update_of_run h
  obtain ⟨store, hdelete, -⟩ := Snapshot.remove_eq_ok.1 hremove
  have hs : s.RootedAt .utterance := Store.sigil_root_of_delete rfl rfl hdelete
  exact ⟨hs, Snapshot.rootedAt_of_update hupdate (Snapshot.rootedAt_remove hremove hs)⟩

namespace Bot

variable {b : Bot} {n : Nat} {a : Action} {as : List Action} {s s' s₁ s₂ : Snapshot} {t t' u : Tally}
  {before after : Option String}

/-- the goal that an action has made active is resolved, and its actions run -/
def reopen (b : Bot) (n : Nat) (before after : Option String) (s : Snapshot) : Run Snapshot :=
  match before, after with
  | some old, some new => if old = new then pure s else b.revalidate (b.process n b.processor) new s
  | _, _ => pure s

/-- actions run one after the other, each to its end -/
inductive Ran (b : Bot) (n : Nat) : List Action → Snapshot → Tally → Snapshot → Tally → Prop
  | nil {s : Snapshot} {t : Tally} : Ran b n [] s t s t
  | cons {a : Action} {as : List Action} {s s' : Snapshot} {t u t' : Tally} {o : Outcome}
      (h : Yields (b.process n b.processor a s) t o u) (h' : Ran b n as o.snapshot u s' t') :
    Ran b n (a :: as) s t s' t'

theorem ran_of_foldlM {say : String → Option String → String} {said said' : String}
    (h : Yields (as.foldlM (fun (said, s) a => do
        let o ← b.process n b.processor a s
        return (say said o.spoken, o.snapshot)) (said, s)) t (said', s') t') : b.Ran n as s t s' t' := by
  induction as generalizing said s t with
  | nil =>
    rw [List.foldlM_nil, yields_pure] at h
    obtain ⟨h, rfl⟩ := h
    cases h
    exact .nil
  | cons a as ih =>
    simp only [List.foldlM_cons, yields_bind, yields_pure] at h
    obtain ⟨_, u, ⟨o, _, ho, rfl, rfl⟩, h⟩ := h
    exact .cons ho (ih h)

theorem process_zero {p : Processor} {o : Outcome} (h : Yields (b.process 0 p a s) t o t') : False := by
  cases h

theorem run_of_process_plain {o : Outcome} (h : Yields (b.process (n + 1) .plain a s) t o t') :
    Yields (a.run b s) t o.snapshot t' := by
  simp only [process, yields_bind, yields_liftState, yields_pure] at h
  obtain ⟨s₁, u, hrun, _, _, ⟨-, hu⟩, rfl, ht⟩ := h
  rw [ht, hu]
  exact hrun

/-- the run of an action is the action, the goal that it makes active, and a release -/
theorem process_eq (b : Bot) (n : Nat) (a : Action) (s : Snapshot) :
    b.process (n + 1) .revalidating a s = (do
      let before ← s.textAt intentName
      let s ← a.run b s
      let after ← s.textAt intentName
      let s ← b.reopen n before after s
      let s ← b.releaseObjects after s
      return ⟨← s.textAt actionSpoken, s⟩) := by
  rw [process]
  refine bind_congr fun before => bind_congr fun s₁ => bind_congr fun after => ?_
  cases before with
  | none => rfl
  | some old =>
    cases after with
    | none => rfl
    | some new =>
      by_cases heq : old = new
      · rw [reopen, if_pos heq]
        simp only [if_pos heq]
      · rw [reopen, if_neg heq]
        simp only [if_neg heq]

/-- an action has run, and has left the goal `after` active; so have the actions that run inside it, and there the
snapshot `s'` is reached -/
def Ends (b : Bot) (n : Nat) (a : Action) (s : Snapshot) (t : Tally) (after : Option String) (s' : Snapshot)
    (t' : Tally) : Prop :=
  ∃ before s₁ u, s.textAt intentName = .ok before ∧ Yields (a.run b s) t s₁ u ∧ s₁.textAt intentName = .ok after ∧
    Yields (b.reopen n before after s₁) u s' t'

theorem Ends.unique {after' : Option String} (h : b.Ends n a s t after s₁ t') (h' : b.Ends n a s t after' s₂ u) :
    after = after' ∧ s₁ = s₂ := by
  obtain ⟨old, v, w, hold, hrun, hafter, hreopen⟩ := h
  obtain ⟨old', v', w', hold', hrun', hafter', hreopen'⟩ := h'
  obtain ⟨rfl, rfl⟩ := hrun.unique hrun'
  rw [hold] at hold'
  cases hold'
  rw [hafter] at hafter'
  cases hafter'
  exact ⟨rfl, (hreopen.unique hreopen').1⟩

/-- **What the run of one action comes to.** -/
theorem steps_of_process {o : Outcome} (h : Yields (b.process (n + 1) .revalidating a s) t o t') :
    ∃ after s₂, b.Ends n a s t after s₂ t' ∧ b.releaseObjects after s₂ = .ok o.snapshot := by
  rw [process_eq] at h
  simp only [yields_bind, yields_liftState, yields_liftDialogue, yields_pure] at h
  obtain ⟨before, _, ⟨hbefore, rfl⟩, s₁, u, hrun, after, _, ⟨hafter, rfl⟩, s₂, _, hreopen, s₃, _, ⟨hrelease, rfl⟩, _, _,
    ⟨-, rfl⟩, rfl, rfl⟩ := h
  exact ⟨after, s₂, ⟨before, s₁, _, hbefore, hrun, hafter, hreopen⟩, hrelease⟩

/-- where goals are resolved anew, an action among others runs, and then objects are released -/
theorem steps_of_process_revalidating {o : Outcome} (hprocessor : b.processor = .revalidating)
    (h : Yields (b.process n b.processor a s) t o t') :
    ∃ m after s₂, n = m + 1 ∧ b.Ends m a s t after s₂ t' ∧ b.releaseObjects after s₂ = .ok o.snapshot := by
  cases n with
  | zero => exact absurd h process_zero
  | succ m =>
    rw [hprocessor] at h
    obtain ⟨after, s₂, hends, hrelease⟩ := steps_of_process h
    exact ⟨m, after, s₂, rfl, hends, hrelease⟩

/-- an action makes another goal active, which is resolved -/
structure Reopens (b : Bot) (a : Action) (s : Snapshot) (t : Tally) (g : Goal) (s' : Snapshot) (t' : Tally)
    (r : Response) : Prop where
  processor : b.processor = .revalidating
  ran : Yields (a.run b s) t s' t'
  changed : ∃ old new, s.textAt intentName = .ok (some old) ∧ s'.textAt intentName = .ok (some new) ∧ old ≠ new ∧
    b.goal new = .ok g
  resolved : b.resolveAnew g s' = .ok r

theorem Reopens.unique {g g' : Goal} {r r' : Response} {w w' : Tally} (h : b.Reopens a s t g s₁ w r)
    (h' : b.Reopens a s t g' s₂ w' r') : s₁ = s₂ ∧ w = w' ∧ r = r' := by
  obtain ⟨rfl, rfl⟩ := h.ran.unique h'.ran
  obtain ⟨old, new, -, hnew, -, hg⟩ := h.changed
  obtain ⟨old', new', -, hnew', -, hg'⟩ := h'.changed
  rw [hnew] at hnew'
  cases hnew'
  rw [hg] at hg'
  cases hg'
  have hr' := h'.resolved
  rw [h.resolved] at hr'
  cases hr'
  exact ⟨rfl, rfl, rfl⟩

theorem resolve_of_resolveAnew {g : Goal} {r : Response} (hb : b.BuiltIn) (h : b.resolveAnew g s = .ok r) :
    b.resolve g s = .ok r := by
  obtain ⟨w, hw, h⟩ := bind_eq_ok.1 h
  rwa [(hb w hw).resolver] at h

theorem resolution_of_resolveAnew {g : Goal} {r : Response} (hb : b.BuiltIn) (h : b.resolveAnew g s = .ok r) :
    b.Resolution g s r :=
  resolution_of_resolve (resolve_of_resolveAnew hb h)

/-- an action in a response to the goal -/
def Offers (b : Bot) (g : Goal) (a : Action) : Prop :=
  ∃ s r, b.resolveAnew g s = .ok r ∧ a ∈ r.actions

/-- with the built-in stages, it is one of the success actions of the goal -/
theorem Offers.action {g : Goal} (hb : b.BuiltIn) (h : b.Offers g a) :
    ∃ name ∈ g.successActions, b.action name = .ok a := by
  obtain ⟨s, r, hr, ha⟩ := h
  cases resolution_of_resolveAnew hb hr with
  | asks | asksToConfirm | denies => cases ha
  | succeeds _ _ _ hactions => exact exists_of_mem_mapM hactions ha
  | completes _ _ _ hactions => exact exists_of_mem_mapM hactions ha

/-- the actions that a turn begins with are in a response to a goal -/
theorem offers_of_respond {w : Workflow} {u : Utterance} {r : Response} (hw : b.workflow = .ok w)
    (h : b.respond w u s = .ok r) (ha : a ∈ r.actions) : ∃ g, b.Offers g a := by
  rcases candidate_of_respond h with rfl | ⟨u', -, hc⟩
  · cases ha
  · obtain ⟨-, -, -, g, s', -, -, -, -, -, hr⟩ := steps_of_candidate hc
    exact ⟨g, s', r, bind_eq_ok.2 ⟨w, hw, hr⟩, ha⟩

/-- what is done about a goal that is resolved anew -/
theorem steps_of_revalidate {name : String} (h : Yields (b.revalidate (b.process n b.processor) name s) t s' t') :
    ∃ g r s₁ s₂ v, b.goal name = .ok g ∧ b.resolveAnew g s = .ok r ∧ r.snapshot.update r.commands = .ok s₁ ∧
      b.Ran n r.actions s₁ t s₂ t' ∧ s₂.put actionSpoken v = .ok s' := by
  simp only [revalidate, yields_bind, yields_liftDialogue, yields_liftState] at h
  obtain ⟨g, _, ⟨hg, rfl⟩, r, _, ⟨hr, rfl⟩, s₁, _, ⟨hs₁, rfl⟩, said, _, ⟨-, rfl⟩, ⟨said', s₂⟩, u, hran,
    hput, rfl⟩ := h
  exact ⟨g, r, s₁, s₂, _, hg, hr, hs₁, ran_of_foldlM hran, hput⟩

/-- either the active goal stays, or a goal is resolved anew -/
theorem steps_of_reopen (h : Yields (b.reopen n before after s) t s' t') :
    (s' = s ∧ t' = t ∧ ∀ old new, before = some old → after = some new → old = new) ∨
      ∃ old new, before = some old ∧ after = some new ∧ old ≠ new ∧
        Yields (b.revalidate (b.process n b.processor) new s) t s' t' := by
  have stays (h : Yields (pure s) t s' t') (heq : ∀ old new, before = some old → after = some new → old = new) :
      s' = s ∧ t' = t ∧ ∀ old new, before = some old → after = some new → old = new := by
    obtain ⟨rfl, rfl⟩ := yields_pure.1 h
    exact ⟨rfl, rfl, heq⟩
  cases before with
  | none => exact .inl (stays h fun old new hold => by cases hold)
  | some old =>
    cases after with
    | none => exact .inl (stays h fun old new _ hnew => by cases hnew)
    | some new =>
      by_cases hne : old = new
      · rw [reopen, if_pos hne] at h
        refine .inl (stays h fun old new hold hnew => ?_)
        cases hold
        cases hnew
        exact hne
      · rw [reopen, if_neg hne] at h
        exact .inr ⟨old, new, rfl, rfl, hne, h⟩

/-- while actions run one after the other, `n` of them inside each other, an action starts -/
inductive Starts (b : Bot) : Nat → List Action → Snapshot → Tally → Nat → Action → Snapshot → Tally → Prop
  | first {n : Nat} {a : Action} {as : List Action} {s : Snapshot} {t : Tally} :
    Starts b (n + 1) (a :: as) s t n a s t
  | later {n m : Nat} {a c : Action} {as : List Action} {s v : Snapshot} {t u w : Tally} {o : Outcome}
      (h : Yields (b.process n b.processor a s) t o u) (h' : Starts b n as o.snapshot u m c v w) :
    Starts b n (a :: as) s t m c v w
  | inside {n m : Nat} {a c : Action} {as : List Action} {s s₁ s₂ v : Snapshot} {t u w : Tally} {g : Goal}
      {r : Response} (h : b.Reopens a s t g s₁ u r) (hs : r.snapshot.update r.commands = .ok s₂)
      (h' : Starts b n r.actions s₂ u m c v w) :
    Starts b (n + 1) (a :: as) s t m c v w

/-! ### What every step keeps -/

/-- a property of the snapshot that each step of the run of an action keeps, where the stages are the built-in ones -/
structure Keeps (b : Bot) (J : Snapshot → Prop) : Prop where
  builtIn : b.BuiltIn
  act : ∀ {a s t s' t'}, b.HasAction a → J s → Yields (a.run b s) t s' t' → J s'
  resolve : ∀ {g s r s'}, b.HasGoal g → J s → b.Resolution g s r → s.update r.commands = .ok s' → J s'
  release : ∀ {active s s'}, J s → b.releaseObjects active s = .ok s' → J s'
  speak : ∀ {s v s'}, J s → s.put actionSpoken v = .ok s' → J s'

namespace Keeps

variable {J : Snapshot → Prop}

theorem of_resolution (hJ : b.Keeps J) {g : Goal} {r : Response} (hg : b.HasGoal g) (hs : J s)
    (hr : b.Resolution g s r) (h : r.snapshot.update r.commands = .ok s') : J s' := by
  rw [hr.snapshot_eq] at h
  exact hJ.resolve hg hs hr h

theorem of_ran (hprocess : ∀ {a s t o t'}, b.HasAction a → J s → Yields (b.process n b.processor a s) t o t' →
      J o.snapshot) (has : ∀ a ∈ as, b.HasAction a) (hs : J s) (h : b.Ran n as s t s' t') : J s' := by
  induction h with
  | nil => exact hs
  | cons hfirst _ ih =>
    exact ih (fun a ha => has a (List.mem_cons_of_mem _ ha)) (hprocess (has _ List.mem_cons_self) hs hfirst)

theorem of_ends (hJ : b.Keeps J) (hprocess : ∀ {a s t o t'}, b.HasAction a → J s →
      Yields (b.process n b.processor a s) t o t' → J o.snapshot) (ha : b.HasAction a) (hs : J s)
    (h : b.Ends n a s t after s' t') : J s' := by
  obtain ⟨before, s₁, u, -, hrun, -, hreopen⟩ := h
  have h₁ : J s₁ := hJ.act ha hs hrun
  obtain ⟨rfl, -, -⟩ | ⟨old, new, -, -, -, hreval⟩ := steps_of_reopen hreopen
  · exact h₁
  · obtain ⟨g, r, s₂, s₃, v, hg, hr, hs₂, hran, hput⟩ := steps_of_revalidate hreval
    have hres := resolution_of_resolveAnew hJ.builtIn hr
    have h₂ : J s₂ := hJ.of_resolution ⟨_, hg⟩ h₁ hres hs₂
    exact hJ.speak (of_ran hprocess (fun a ha => hres.hasAction ha) h₂ hran) hput

/-- **What each step keeps holds after an action**, with all that runs inside it: by induction on how many actions
can run inside each other. -/
theorem of_process (hJ : b.Keeps J) {p : Processor} {o : Outcome} (ha : b.HasAction a) (hs : J s)
    (h : Yields (b.process n p a s) t o t') : J o.snapshot := by
  induction n generalizing p a s t o t' with
  | zero => exact absurd h process_zero
  | succ n ih =>
    cases p with
    | plain => exact hJ.act ha hs (run_of_process_plain h)
    | revalidating =>
      obtain ⟨after, s₂, hends, hrelease⟩ := steps_of_process h
      exact hJ.release (hJ.of_ends ih ha hs hends) hrelease

/-- what each step keeps holds wherever an action starts -/
theorem of_starts (hJ : b.Keeps J) {m : Nat} {c : Action} {v : Snapshot} {w : Tally} (has : ∀ a ∈ as, b.HasAction a)
    (hs : J s) (h : b.Starts n as s t m c v w) : b.HasAction c ∧ J v := by
  induction h with
  | first => exact ⟨has _ List.mem_cons_self, hs⟩
  | later hfirst _ ih =>
    exact ih (fun a ha => has a (List.mem_cons_of_mem _ ha)) (hJ.of_process (has _ List.mem_cons_self) hs hfirst)
  | inside hreopens hs₂ _ ih =>
    obtain ⟨old, new, -, -, -, hg⟩ := hreopens.changed
    have h₁ := hJ.act (has _ List.mem_cons_self) hs hreopens.ran
    have hres := resolution_of_resolveAnew hJ.builtIn hreopens.resolved
    exact ih (fun a ha => hres.hasAction ha) (hJ.of_resolution ⟨_, hg⟩ h₁ hres hs₂)

end Keeps

/-! ### Released objects -/

theorem edits_of_release {slots : List Path} {W R : ScopedPath → Prop}
    (hR : ∀ slot ∈ slots, ∀ p, objects.join slot = .ok p → R p)
    (h : (slots.foldlM (fun s slot => do s.remove (← objects.join slot)) s : Except DialogueError Snapshot) = .ok s') :
    s.Edits W R s' := by
  induction slots generalizing s with
  | nil =>
    cases h
    exact .refl
  | cons slot slots ih =>
    obtain ⟨s₁, h₁, h⟩ := bind_eq_ok.1 h
    obtain ⟨p, hp, h₁⟩ := bind_eq_ok.1 h₁
    rw [liftState_eq_ok] at hp h₁
    have hrest := ih (fun slot hslot => hR slot (List.mem_cons_of_mem _ hslot)) h
    exact (Snapshot.Edits.of_remove (hR slot List.mem_cons_self p hp) h₁).trans hrest

/-- the goal `active` is found, and its constraints hold, so that its objects are released -/
structure Releases (b : Bot) (active : Option String) (s : Snapshot) (g : Goal) : Prop where
  validated : s.flag intentValidated = .ok true
  found : active.bind b.goal? = some g

theorem Releases.unique {active : Option String} {g g' : Goal} (h : b.Releases active s g)
    (h' : b.Releases active s g') : g = g' :=
  Option.some.inj (h.found.symm.trans h'.found)

theorem steps_of_release {active : Option String} (h : b.releaseObjects active s = .ok s') :
    (s' = s ∧ ∀ g, ¬ b.Releases active s g) ∨ ∃ g, b.Releases active s g ∧
      (g.objectSlots.foldlM (fun s slot => do s.remove (← objects.join slot)) s : Except DialogueError Snapshot) =
        .ok s' := by
  obtain ⟨validated, hvalidated, h⟩ := bind_eq_ok.1 h
  rw [liftState_eq_ok] at hvalidated
  cases validated with
  | false =>
    cases h
    refine .inl ⟨rfl, fun g hg => ?_⟩
    have htrue := hg.validated
    rw [hvalidated] at htrue
    cases htrue
  | true =>
    simp only [if_true] at h
    split at h
    · next g hg => exact .inr ⟨g, ⟨hvalidated, hg⟩, h⟩
    · next hnone =>
      cases h
      refine .inl ⟨rfl, fun g hg => ?_⟩
      have hsome := hg.found
      rw [hnone] at hsome
      cases hsome

theorem edits_releaseObjects {active : Option String} (h : b.releaseObjects active s = .ok s') :
    s.Edits (fun _ => False) (fun p => ∃ ks, p.place = objectAt ks) s' := by
  rcases steps_of_release h with ⟨rfl, -⟩ | ⟨g, -, h⟩
  · exact .refl
  · exact edits_of_release (fun slot _ p hp => ⟨slot.keys, place_of_join hp⟩) h

/-! ### Roots -/

/-- whether the constraints hold is read, so that the root of the utterance is a map -/
theorem rootedAt_of_release {active : Option String} (h : b.releaseObjects active s = .ok s') :
    s.RootedAt .utterance ∧ s'.RootedAt .utterance := by
  obtain ⟨validated, hvalidated, -⟩ := bind_eq_ok.1 h
  rw [liftState_eq_ok] at hvalidated
  obtain ⟨o, ho, -⟩ := bind_eq_ok.1 hvalidated
  have hs : s.RootedAt .utterance := Store.sigil_root_of_read rfl rfl ho
  exact ⟨hs, (edits_releaseObjects h).rootedAt hs⟩

theorem rootedAt_of_process {p : Processor} {o : Outcome} (h : Yields (b.process n p a s) t o t') :
    o.snapshot.RootedAt .utterance := by
  cases n with
  | zero => exact absurd h process_zero
  | succ n =>
    cases p with
    | plain => exact (Action.rootedAt_of_run (run_of_process_plain h)).2
    | revalidating =>
      obtain ⟨after, s₂, -, hrelease⟩ := steps_of_process h
      exact (rootedAt_of_release hrelease).2

theorem Ran.rootedAt (h : b.Ran n as s t s' t') (hs : s.RootedAt .utterance) : s'.RootedAt .utterance := by
  induction h with
  | nil => exact hs
  | cons hfirst _ ih => exact ih (rootedAt_of_process hfirst)

/-! ### The bot's own edits -/

/-- the paths at which the commands of responses write -/
def OwnWrites (p : ScopedPath) : Prop :=
  p ∈ [promptQuestion, promptSlot, promptBoolean, promptIntent, intentValidated, intentName, previousIntent,
    previousIntents, nextIntent]

def OwnRemoves (p : ScopedPath) : Prop :=
  p ∈ [prompt, previousIntent, nextIntent] ∨ ∃ n, p = previousIntentAt n

/-- a command that a response can have -/
def Own (c : Command) : Prop :=
  (∀ p, c.Writes p → OwnWrites p) ∧ ∀ p, c.Removes p → OwnRemoves p

theorem own_put {p : ScopedPath} {v : Node} (hp : OwnWrites p) : Own (.put p v) := by
  refine ⟨?_, fun q hq => hq.elim⟩
  rintro q rfl
  exact hp

theorem own_remove {p : ScopedPath} (hp : OwnRemoves p) : Own (.remove p) := by
  refine ⟨fun q hq => hq.elim, ?_⟩
  rintro q rfl
  exact hp

theorem own_switchGoal (name : String) : Own (.switchGoal .utterance name) := by
  constructor
  · rintro q (rfl | rfl | rfl) <;> simp [OwnWrites, intentName]
  · rintro q rfl
    simp [OwnRemoves]

theorem own_completeGoal : Own .completeGoal := by
  constructor
  · rintro q (rfl | rfl) <;> simp [OwnWrites]
  · rintro q (rfl | ⟨n, rfl⟩)
    · simp [OwnRemoves]
    · exact .inr ⟨n, rfl⟩

theorem Resolution.own {g : Goal} {r : Response} (h : b.Resolution g s r) : ∀ c ∈ r.commands, Own c := by
  have hprompt : Own (.remove prompt) := own_remove (by simp [OwnRemoves])
  have hvalidated (x : Bool) : Own (.put intentValidated (.bool x)) := own_put (by simp [OwnWrites])
  have hquestion (text : String) : Own (.put promptQuestion (.str text)) := own_put (by simp [OwnWrites])
  have hslot (text : String) : Own (.put promptSlot (.str text)) := own_put (by simp [OwnWrites])
  have hintent (text : String) : Own (.put promptIntent (.str text)) := own_put (by simp [OwnWrites])
  cases h with
  | asks v score hv => simp [Goal.ask, hprompt, hvalidated, hquestion, hslot, hintent]
  | succeeds summary actions _ _ => simp [hprompt, hvalidated]
  | asksToConfirm summary _ =>
    have hboolean : Own (.put promptBoolean (.bool true)) := own_put (by simp [OwnWrites])
    simp [Goal.askToConfirm, hprompt, hvalidated, hquestion, hslot, hintent, hboolean]
  | denies next _ _ => simp [own_switchGoal, hvalidated]
  | completes actions _ _ _ => simp [own_completeGoal, hprompt, hvalidated]

theorem Resolution.edits {g : Goal} {r : Response} (h : b.Resolution g s r) (hs : s.update r.commands = .ok s') :
    s.Edits OwnWrites OwnRemoves s' :=
  Snapshot.edits_update (fun c hc => (h.own c hc).1) (fun c hc => (h.own c hc).2) hs

theorem Resolution.validated {g : Goal} {r : Response} (h : b.Resolution g s r) (hr : r.actions ≠ [])
    (hs : s.RootedAt .utterance) (hcarried : s.update r.commands = .ok s') :
    s'.under? intentValidated.place = some (.bool true) := by
  cases h with
  | asks | asksToConfirm | denies => exact absurd rfl hr
  | succeeds => exact Snapshot.under?_of_update_put [_] hs (by decide) rfl rfl hcarried trivial
  | completes =>
    exact Snapshot.under?_of_update_put [_] hs (by decide) rfl rfl hcarried (Command.avoids_remove (by decide))

/-! ### Turns -/

/-- a reading of the input gives the best response by the built-in stages, which is carried out -/
structure Opens (b : Bot) (input : String) (user conv : Store) (s₀ : Snapshot) (u : Utterance) (s₁ : Snapshot)
    (g : Goal) (s₂ : Snapshot) (r : Response) (s₃ : Snapshot) : Prop where
  seeded : (Snapshot.mk user conv .empty).update seeding = .ok s₀
  best : ∃ w, b.workflow = .ok w ∧ w.BuiltIn ∧ w.Reads (.parse input) u ∧ b.respond w (.parse input) s₀ = .ok r
  responds : b.Responds s₀ u s₁ g s₂ r
  carried : s₂.update r.commands = .ok s₃

theorem Opens.builtIn {input : String} {user conv : Store} {s₀ s₃ : Snapshot} {x : Utterance} {g : Goal} {r : Response}
    (h : b.Opens input user conv s₀ x s₁ g s₂ r s₃) : b.BuiltIn := by
  obtain ⟨w, hw, hbuiltIn, -⟩ := h.best
  intro w' hw'
  rw [hw] at hw'
  cases hw'
  exact hbuiltIn

/-- **What a turn comes to.** -/
theorem steps_of_answerWithin {input : String} {user conv : Store} {turn : Turn}
    (h : Yields (b.answerWithin n input user conv) t turn t') :
    ∃ s₀ w r s₁ s₂ goal s₃, (Snapshot.mk user conv .empty).update seeding = .ok s₀ ∧ b.workflow = .ok w ∧
      b.respond w (.parse input) s₀ = .ok r ∧ r.snapshot.update r.commands = .ok s₁ ∧
      b.Ran n r.actions s₁ t s₂ t' ∧ s₂.get intentName = .ok goal ∧ s₂.update (carrying goal) = .ok s₃ ∧
      turn.user = s₃.user ∧ turn.conversation = s₃.conversation := by
  simp only [answerWithin, processAll, yields_bind, yields_liftDialogue, yields_liftState, yields_pure] at h
  obtain ⟨s₀, _, ⟨hs₀, rfl⟩, w, _, ⟨hw, rfl⟩, r, _, ⟨hr, rfl⟩, s₁, _, ⟨hs₁, rfl⟩, ⟨said, s₂⟩, _, hran, goal, _,
    ⟨hgoal, rfl⟩, s₃, _, ⟨hs₃, rfl⟩, rfl, rfl⟩ := h
  exact ⟨s₀, w, r, s₁, s₂, goal, s₃, hs₀, hw, hr, hs₁, ran_of_foldlM hran, hgoal, hs₃, rfl, rfl⟩

end Bot

end Dialogue
