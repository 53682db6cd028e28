import Dialogue.Proofs.Bot.Run

/-!
# Bots that do not count

The commands of an action can depend on how often it has run before.  If they do not, then neither does the result of
a turn: it is a function of the input and of the two stores (`Bot.Steady.answer`).
-/

namespace Dialogue

open Slots

section

variable {α β γ : Type} {m : Run α} {f : α → Run β}

/-- the result of a run does not depend on how often actions have run before -/
def Indifferent (m : Run α) : Prop :=
  ∀ t t', (m.run.run t).1 = (m.run.run t').1

theorem indifferent_pure (x : α) : Indifferent (pure x : Run α) :=
  fun _ _ => rfl

theorem indifferent_throw (h : Halt) : Indifferent (throw h : Run α) :=
  fun _ _ => rfl

theorem indifferent_liftState (x : Except StateError α) : Indifferent (liftM x : Run α) := by
  intro t t'
  cases x <;> rfl

theorem indifferent_liftDialogue (x : Except DialogueError α) : Indifferent (liftM x : Run α) := by
  intro t t'
  cases x <;> rfl

/-- a run that ends well ends so whatever has run before -/
theorem Indifferent.yields {t t' : Tally} {x : α} (hm : Indifferent m) (h : Yields m t x t') (u : Tally) :
    ∃ u', Yields m u x u' := by
  have hresult : (m.run.run u).1 = .ok x := by rw [← hm t u, h]
  exact ⟨(m.run.run u).2, Prod.ext hresult rfl⟩

/-- of what comes first only the results matter that it can give -/
theorem Indifferent.bind (hm : Indifferent m) (hf : ∀ x, (∃ t t', Yields m t x t') → Indifferent (f x)) :
    Indifferent (m >>= f) := by
  intro t t'
  have hfirst := hm t t'
  rw [ExceptT.run_bind, StateT.run_bind, StateT.run_bind]
  cases h : m.run.run t with
  | mk x u =>
    cases h' : m.run.run t' with
    | mk x' u' =>
      rw [h, h'] at hfirst
      obtain rfl : x = x' := hfirst
      cases x with
      | error e => rfl
      | ok x => exact hf x ⟨t, u, h⟩ u u'

theorem Indifferent.foldlM {g : β → γ → Run β} {cs : List γ} (h : ∀ c ∈ cs, ∀ y, Indifferent (g y c)) (y : β) :
    Indifferent (cs.foldlM g y) := by
  induction cs generalizing y with
  | nil => exact indifferent_pure y
  | cons c cs ih =>
    rw [List.forall_mem_cons] at h
    rw [List.foldlM_cons]
    exact (h.1 y).bind fun z _ => ih h.2 z

end

/-- the commands of an action do not depend on how often it has run before -/
def Action.Steady (a : Action) : Prop :=
  ∀ (m n : Nat) (goals : List (String × Goal)) (s : Snapshot), a.act m goals s = a.act n goals s

namespace Bot

variable {b : Bot} {a : Action} {n : Nat} {p : Processor} {s : Snapshot}

/-- no action in a response of the bot counts its runs -/
def Steady (b : Bot) : Prop :=
  ∀ g a, b.Offers g a → a.Steady

/-- with the built-in stages, only the actions that are named matter -/
theorem steady_of_builtIn (hb : b.BuiltIn) (h : ∀ a, b.HasAction a → a.Steady) : b.Steady := by
  intro g a ha
  obtain ⟨name, -, hname⟩ := ha.action hb
  exact h a ⟨name, hname⟩

theorem indifferent_run (ha : a.Steady) (b : Bot) (s : Snapshot) : Indifferent (a.run b s) := by
  have hperform (s : Snapshot) : Indifferent (a.perform b s) := by
    intro t t'
    have hresult (t : Tally) : ((a.perform b s).run.run t).1 =
        (a.act ((Entries.get? a.name t).getD 0) b.goals s).mapError .failed := by rfl
    rw [hresult, hresult, ha]
  unfold Action.run
  exact (indifferent_liftState _).bind fun s _ => (hperform s).bind fun cs _ => indifferent_liftState _

theorem indifferent_revalidate {f : Action → Snapshot → Run Outcome}
    (hf : ∀ g a, b.Offers g a → ∀ s, Indifferent (f a s)) (name : String) (s : Snapshot) :
    Indifferent (b.revalidate f name s) := by
  unfold revalidate
  refine (indifferent_liftDialogue _).bind fun g _ => (indifferent_liftDialogue _).bind fun r hr =>
    (indifferent_liftState _).bind fun s₁ _ => (indifferent_liftState _).bind fun said _ => ?_
  obtain ⟨t, t', hr⟩ := hr
  rw [yields_liftDialogue] at hr
  refine .bind (.foldlM (fun a ha y => ?_) _) fun _ _ => indifferent_liftState _
  exact (hf g a ⟨s, r, hr.1, ha⟩ y.2).bind fun o _ => indifferent_pure _

theorem Steady.process (hb : b.Steady) (ha : a.Steady) (n : Nat) (p : Processor) (s : Snapshot) :
    Indifferent (b.process n p a s) := by
  induction n generalizing p a s with
  | zero => exact indifferent_throw _
  | succ n ih =>
    cases p with
    | plain =>
      rw [Bot.process]
      exact (indifferent_run ha b s).bind fun s _ => (indifferent_liftState _).bind fun _ _ => indifferent_pure _
    | revalidating =>
      rw [Bot.process]
      have hrest (after : Option String) (s : Snapshot) :
          Indifferent (do let s ← b.releaseObjects after s; return Outcome.mk (← s.textAt actionSpoken) s) :=
        (indifferent_liftDialogue _).bind fun _ _ => (indifferent_liftState _).bind fun _ _ => indifferent_pure _
      refine (indifferent_liftState _).bind fun before _ => (indifferent_run ha b s).bind fun s₁ _ =>
        (indifferent_liftState _).bind fun after _ => ?_
      cases before with
      | none => exact hrest after s₁
      | some old =>
        cases after with
        | none => exact hrest none s₁
        | some new =>
          dsimp only
          split
          · exact hrest (some new) s₁
          · -- the goal that the action has made active starts actions of its own
            have hagain := indifferent_revalidate (f := b.process n b.processor)
              (fun g a ha s => ih (hb g a ha) b.processor s) new s₁
            exact hagain.bind fun s₂ _ => hrest (some new) s₂

theorem Steady.processAll (hb : b.Steady) {actions : List Action} (hactions : ∀ a ∈ actions, a.Steady) (n : Nat)
    (reply : String) (s : Snapshot) : Indifferent (b.processAll n actions reply s) := by
  refine .foldlM (fun a ha y => ?_) _
  exact (hb.process (hactions a ha) n b.processor y.2).bind fun _ _ => indifferent_pure _

/-- **Whether and how a turn ends is a function of the input and the stores**, if no action counts its runs. -/
theorem Steady.answerWithin (hb : b.Steady) (n : Nat) (input : String) (user conv : Store) :
    Indifferent (b.answerWithin n input user conv) := by
  unfold Bot.answerWithin
  refine (indifferent_liftState _).bind fun s₀ _ => (indifferent_liftDialogue _).bind fun w hw =>
    (indifferent_liftDialogue _).bind fun r hr => (indifferent_liftState _).bind fun s₁ _ => ?_
  obtain ⟨t, t', hw⟩ := hw
  obtain ⟨u, u', hr⟩ := hr
  rw [yields_liftDialogue] at hw hr
  have hactions : ∀ a ∈ r.actions, a.Steady := by
    intro a ha
    obtain ⟨g, hoffers⟩ := offers_of_respond hw.1 hr.1 ha
    exact hb g a hoffers
  exact (hb.processAll hactions n r.spoken s₁).bind fun y _ => (indifferent_liftState _).bind fun goal _ =>
    (indifferent_liftState _).bind fun s₄ _ => indifferent_pure _

theorem Steady.answer (hb : b.Steady) (input : String) (user conv : Store) : Indifferent (b.answer input user conv) :=
  hb.answerWithin nestingLimit input user conv

end Bot

end Dialogue
