import Dialogue.Proofs.Bot.Release
import Dialogue.Proofs.Path.Objects
import Dialogue.Proofs.Store.Branches

/-!
# What the actions of a goal see

The actions of a goal run because its constraints hold.  Where they write nothing but what they want said, the first of
them sees the objects that the goal was resolved with; the others do so only as long as nothing has been released
(`Bot.sees_iff`), because objects are released after each action and not after the last one.

* `Snapshot.get_of_objects`, `Goal.violations_of_objects` — constraints on objects depend on the objects only;
* `Bot.Undertakes.resolved` — a goal is resolved in the snapshot in which its actions are found.
-/

namespace Dialogue

open Slots Snapshot

/-! ### Constraints on objects -/

/-- what is read below the objects depends on the objects only -/
theorem Snapshot.get_of_objects {s s' : Snapshot} {p : ScopedPath} (hp : p.BelowObjects) (hs : s.RootedAt .utterance)
    (hs' : s'.RootedAt .utterance) (h : s'.under? objects.place = s.under? objects.place) : s'.get p = s.get p := by
  obtain ⟨hscope, seg, segs, hsegments⟩ := hp
  rw [under?_objects, under?_objects] at h
  rw [get, get, Store.read, Store.read, hscope, hsegments]
  refine Node.readFrom_congr ?_ fun slot hslot => ?_
  · rw [Node.slot_of_map hs, Node.slot_of_map hs']
  · rw [Node.eq_key_of_slot? hs hslot]
    exact h

/-- the violations of constraints on objects depend on the objects only -/
theorem Goal.violations_of_objects {g : Goal} {s s' : Snapshot} (hg : ∀ c ∈ g.constraints, c.slot.BelowObjects)
    (hs : s.RootedAt .utterance) (hs' : s'.RootedAt .utterance)
    (h : s'.under? objects.place = s.under? objects.place) : g.violations s' = g.violations s := by
  have hchecks : ∀ c ∈ g.constraints, c.check s' = c.check s := by
    intro c hc
    rw [Constraint.check, Constraint.check, get_of_objects (hg c hc) hs hs' h]
  rw [violations, violations, mapM_congr hchecks]

namespace Bot

variable {b : Bot} {n m : Nat} {input : String} {user conv : Store} {t u w : Tally} {g : Goal} {r : Response}
  {s s' v : Snapshot} {a c : Action} {as bs : List Action}

/-! ### What the actions of a goal see -/

/-- in a turn, the response to a goal is carried out, be it the goal that the utterance is about or one that an action
makes active; `m` actions can then run inside each other -/
inductive Undertakes (b : Bot) (n : Nat) (input : String) (user conv : Store) (t : Tally) :
    Goal → Snapshot → Response → Snapshot → Nat → Tally → Prop
  | answered {s₀ s₁ s s' : Snapshot} {x : Utterance} {g : Goal} {r : Response}
      (h : b.Opens input user conv s₀ x s₁ g s r s') : Undertakes b n input user conv t g s r s' n t
  | reopened {s₀ s₁ s₂ s₃ v s s' : Snapshot} {x : Utterance} {g g' : Goal} {r r' : Response} {m : Nat} {a : Action}
      {w w' : Tally} (h : b.Opens input user conv s₀ x s₁ g s₂ r s₃) (hstarts : b.Starts n r.actions s₃ t m a v w)
      (hreopens : b.Reopens a v w g' s w' r') (hcarried : s.update r'.commands = .ok s') :
    Undertakes b n input user conv t g' s r' s' m w'

/-- what is carried out is the response to the goal, in an utterance whose root is a map -/
theorem Undertakes.resolved (h : b.Undertakes n input user conv t g s r s' m u) :
    b.BuiltIn ∧ b.resolve g s = .ok r ∧ s.update r.commands = .ok s' ∧ s.RootedAt .utterance := by
  cases h with
  | answered h =>
    have hs₀ : RootedAt _ .utterance := rootedAt_of_update h.seeded rfl
    exact ⟨h.builtIn, h.responds.resolved, h.carried, (rootedAt_of_opens h hs₀).1⟩
  | reopened h _ hreopens hcarried =>
    exact ⟨h.builtIn, resolve_of_resolveAnew h.builtIn hreopens.resolved, hcarried,
      (Action.rootedAt_of_run hreopens.ran).2⟩

theorem violations_of_resolve (h : b.resolve g s = .ok r) (hr : r.actions ≠ []) : g.violations s = .ok [] := by
  obtain ⟨vs, hvs, h⟩ := bind_eq_ok.1 h
  rw [liftState_eq_ok] at hvs
  cases vs with
  | nil => exact hvs
  | cons violation vs =>
    cases h
    exact absurd rfl hr

/-- the constraints of a goal hold, and the objects are those that it was resolved with -/
structure Sees (g : Goal) (s v : Snapshot) : Prop where
  holds : g.violations v = .ok []
  objects : v.under? objects.place = s.under? objects.place

/-- **What the actions of a goal see.**  Where the actions of a goal write nothing but what they want said, one of them
sees the objects that the goal was resolved with, and its constraints hold, exactly if nothing was there of what has
been released after the actions before it.  The first action always does; before any other one, the objects of the goal
that is active when the actions begin have been released, and no others. -/
theorem sees_iff (hprocessor : b.processor = .revalidating) (hconstraints : ∀ c ∈ g.constraints, c.slot.BelowObjects)
    (h : b.Undertakes n input user conv t g s r s' m u) (hspeaks : ∀ a ∈ r.actions, a.Speaks b)
    (has : r.actions = as ++ a :: bs) (hran : b.Ran m as s' u v w) :
    (Sees g s v ↔ ∀ p, b.Released m as s' u p → ∀ slot ∈ p.objectSlots, s.object? slot = none) ∧
      (as = [] → Sees g s v) ∧
      ∀ p, s'.under? intentName.place = some (.str p.name) → b.goal? p.name = some p → as ≠ [] →
        ∀ p', b.Released m as s' u p' ↔ p' = p := by
  obtain ⟨hbuiltIn, hresolve, hcarried, hs⟩ := h.resolved
  have hres := resolution_of_resolve hresolve
  have hne : r.actions ≠ [] := by simp [has]
  have hbefore : ∀ c ∈ as, c ∈ r.actions := fun c hc => by
    rw [has]
    exact List.mem_append_left _ hc
  have hspeaks : ∀ c ∈ as, c.Speaks b := fun c hc => hspeaks c (hbefore c hc)
  have hs' : s'.RootedAt .utterance := rootedAt_of_update hcarried hs
  have hv : v.RootedAt .utterance := hran.rootedAt hs'
  have hsame : s'.under? objects.place = s.under? objects.place :=
    (hres.edits hcarried).under?_of_apart (q := objectAt []) (fun _ => apart_of_ownWrites) fun _ => apart_of_ownRemoves
  have hstrips : Strips (fun slot => ∃ p, b.Released m as s' u p ∧ slot ∈ p.objectSlots) s' v :=
    (tracks_strips hbuiltIn).of_ran hprocessor (actElsewhere_of_speaks hspeaks (by decide)) hran
  have hobjects : v.under? objects.place = s.under? objects.place ↔
      ∀ p, b.Released m as s' u p → ∀ slot ∈ p.objectSlots, s.object? slot = none := by
    rw [← hsame, hstrips.same_iff]
    simp only [object?_congr hsame]
    exact ⟨fun hnone p hp slot hslot => hnone slot ⟨p, hp, hslot⟩,
      fun hnone slot ⟨p, hp, hslot⟩ => hnone p hp slot hslot⟩
  have hiff : Sees g s v ↔ ∀ p, b.Released m as s' u p → ∀ slot ∈ p.objectSlots, s.object? slot = none := by
    refine ⟨fun hsees => hobjects.1 hsees.objects, fun hnone => ⟨?_, hobjects.2 hnone⟩⟩
    rw [Goal.violations_of_objects hconstraints hs hv (hobjects.2 hnone)]
    exact violations_of_resolve hresolve hne
  refine ⟨hiff, ?_, fun p hname hp hne' p' => ?_⟩
  · rintro rfl
    exact hiff.2 fun p hp => absurd hp not_released_nil
  · have hvalidated := hres.validated hne hs hcarried
    exact released_iff_of_active hprocessor hp hne' (actElsewhere_of_speaks hspeaks (by decide))
      ⟨hs', hname, hvalidated⟩ hran

def titleSlot : ScopedPath :=
  ⟨.utterance, ⟨[⟨.map, "objects"⟩, ⟨.map, "ticket"⟩, ⟨.str, "title"⟩], by decide⟩⟩

/-- a goal with an object that its second action says -/
def report : Goal where
  name := "report"
  constraints := [⟨titleSlot, "What?", none, .notNull⟩]
  successActions := ["first", "second"]
  objectSlots := [ticketObject]

def reportActions : List Action :=
  [.script "first" "utt:/action.spoken -> first",
    .script "second" "utt:/action.spoken -> \x7butt:/objects/ticket.title\x7d"]

def reporter : Bot where
  name := "reporter"
  dictionary := Dictionary.empty.insert ["say"] "utt:/intent.name -> report; utt:/objects/ticket.title -> hello"
  workflows := [.basic "default"]
  processors := []
  actions := reportActions.map fun a => (a.name, a)
  goals := [("report", report)]

def reportTurn (intent objects rest : List (String × Node)) : Snapshot :=
  ⟨.empty, .empty, ⟨.map (rest ++ [("intent", .map intent), ("objects", .map objects), ("prompt", .map [])])⟩⟩

def reportObjects : List (String × Node) :=
  [("ticket", .map [("title", .str "hello")])]

def reportResponse : Response where
  spoken := ""
  snapshot := reportTurn [("name", .str "report")] reportObjects []
  score := .one
  commands := [.remove prompt, .put intentValidated (.bool true)]
  actions := reportActions

theorem undertakes_report : reporter.Undertakes nestingLimit "say" .empty .empty [] report
    (reportTurn [("name", .str "report")] reportObjects []) reportResponse
    (reportTurn [("name", .str "report"), ("validated", .bool true)] reportObjects []) nestingLimit [] := by
  have hopens : reporter.Opens "say" .empty .empty (reportTurn [] [] []) (.parse "say")
      (reportTurn [("name", .str "report")] reportObjects []) report
      (reportTurn [("name", .str "report")] reportObjects []) reportResponse
      (reportTurn [("name", .str "report"), ("validated", .bool true)] reportObjects []) :=
    ⟨by rfl, ⟨_, by rfl, Workflow.builtIn_basic _ _, ⟨_, by rfl, List.mem_singleton_self _⟩, by rfl⟩,
      ⟨⟨"utt:/intent.name -> report; utt:/objects/ticket.title -> hello", _, by rfl, by rfl, by rfl⟩,
        ⟨"report", by rfl, by rfl⟩, by rfl, by rfl⟩, by rfl⟩
  exact .answered hopens

/-- the first action runs, and then the ticket is gone -/
theorem ran_report : reporter.Ran nestingLimit [.script "first" "utt:/action.spoken -> first"]
    (reportTurn [("name", .str "report"), ("validated", .bool true)] reportObjects []) []
    (reportTurn [("name", .str "report"), ("validated", .bool true)] [] [("action", .map [("spoken", .str "first")])])
    [("first", 1)] := by
  have hfirst : Yields (reporter.process nestingLimit reporter.processor (.script "first" "utt:/action.spoken -> first")
      (reportTurn [("name", .str "report"), ("validated", .bool true)] reportObjects [])) []
      ⟨some "first", reportTurn [("name", .str "report"), ("validated", .bool true)] []
        [("action", .map [("spoken", .str "first")])]⟩ [("first", 1)] := by rfl
  exact .cons hfirst .nil

theorem belowObjects_report : ∀ c ∈ report.constraints, c.slot.BelowObjects := by
  intro c hc
  obtain rfl := List.mem_singleton.1 hc
  exact ⟨rfl, _, _, rfl⟩

theorem speaks_reportActions : ∀ a ∈ reportActions, a.Speaks reporter := by
  intro a ha runs s cs hact c hc p hp
  simp only [reportActions, List.mem_cons, List.not_mem_nil, or_false] at ha
  rcases ha with rfl | rfl
  · cases hact
    obtain rfl := List.mem_singleton.1 hc
    exact hp.elim id False.elim
  · cases hact
    obtain rfl := List.mem_singleton.1 hc
    exact hp.elim id False.elim

/-- after the first action the ticket is released, and the second action does not see it -/
theorem sees_report :
    reporter.Undertakes nestingLimit "say" .empty .empty [] report
        (reportTurn [("name", .str "report")] reportObjects []) reportResponse
        (reportTurn [("name", .str "report"), ("validated", .bool true)] reportObjects []) nestingLimit [] ∧
      (∀ p, reporter.Released nestingLimit [.script "first" "utt:/action.spoken -> first"]
        (reportTurn [("name", .str "report"), ("validated", .bool true)] reportObjects []) [] p ↔ p = report) ∧
      ¬ Sees report (reportTurn [("name", .str "report")] reportObjects [])
        (reportTurn [("name", .str "report"), ("validated", .bool true)] []
          [("action", .map [("spoken", .str "first")])]) := by
  obtain ⟨hiff, -, hreleased⟩ :=
    sees_iff (by rfl) belowObjects_report undertakes_report speaks_reportActions (by rfl) ran_report
  have hreleased := hreleased report (by rfl) (by rfl) (List.cons_ne_nil _ _)
  refine ⟨undertakes_report, hreleased, fun hsees => ?_⟩
  have hnone := hiff.1 hsees report ((hreleased report).2 rfl) ticketObject (List.mem_singleton_self _)
  have hticket : (reportTurn [("name", .str "report")] reportObjects []).object? ticketObject =
      some (.map [("title", .str "hello")]) := by rfl
  rw [hticket] at hnone
  cases hnone

/-- not every action sees the objects that its goal was resolved with -/
theorem not_sees_report :
    ¬ ∀ (b : Bot) (n m : Nat) (input : String) (user conv : Store) (t u w : Tally) (g : Goal) (s s' v : Snapshot)
        (r : Response) (as bs : List Action) (a : Action), b.processor = .revalidating →
      (∀ c ∈ g.constraints, c.slot.BelowObjects) → b.Undertakes n input user conv t g s r s' m u →
      (∀ a ∈ r.actions, a.Speaks b) → r.actions = as ++ a :: bs → b.Ran m as s' u v w → Sees g s v := by
  intro h
  have hsees := h reporter _ _ _ _ _ _ _ _ _ _ _ _ _ _ _ _ (by rfl) belowObjects_report
    undertakes_report speaks_reportActions (by rfl) ran_report
  have hobjects : some (Node.map []) = some (.map reportObjects) := hsees.objects
  cases hobjects

end Bot

end Dialogue
