import Dialogue.Bot.Basic

/-!
# Running actions

An action can change the active goal; then the new goal is resolved in the same turn, and its actions run in their
turn, and so on.  Such a chain need not end, so the number of actions that run inside each other is bounded, and a
turn in which the bound is met is `unfinished`.
-/

namespace Dialogue

open Slots

/-- why a turn ends without an answer -/
inductive Halt where
  | failed (e : DialogueError)
  | unfinished

/-- how often each action of a bot has run -/
abbrev Tally := List (String × Nat)

/-- what happens in a turn: the tally goes on even if the turn fails -/
abbrev Run := ExceptT Halt (StateM Tally)

instance : MonadLift (Except DialogueError) Run where
  monadLift x := ExceptT.mk (pure (x.mapError .failed))

instance : MonadLift (Except StateError) Run where
  monadLift x := ExceptT.mk (pure (x.mapError fun e => .failed (.state e)))

/-- what an action wants said, and the snapshot after it -/
structure Outcome where
  spoken : Option String
  snapshot : Snapshot

namespace Action

/-- the commands of an action, which has run once more after that -/
def perform (a : Action) (b : Bot) (s : Snapshot) : Run (List Command) := do
  let runs := (Entries.get? a.name (← get)).getD 0
  modify (Entries.insert a.name (runs + 1))
  a.act runs b.goals s

def run (a : Action) (b : Bot) (s : Snapshot) : Run Snapshot := do
  let s ← s.remove actionSpoken
  let commands ← a.perform b s
  s.update commands

end Action

namespace Bot

/-- the snapshot without the objects of the active goal, once its constraints hold -/
def releaseObjects (b : Bot) (active : Option String) (s : Snapshot) : Except DialogueError Snapshot := do
  if ← s.flag intentValidated then
    match active.bind b.goal? with
    | some g => g.objectSlots.foldlM (fun s slot => do s.remove (← objects.join slot)) s
    | none => return s
  else return s

/-- what is said so far, and then what an action wants said, on a line of its own -/
def sayMore (spoken : String) : Option String → String
  | some more => spoken ++ "\n" ++ more
  | none => spoken

/-- what is said and done about a goal that an action has made active -/
def resolveAnew (b : Bot) (g : Goal) (s : Snapshot) : Except DialogueError Response := do
  let workflow ← b.workflow
  workflow.goalResolver.resolve b.toRepertoire g s

/-- resolves a goal that an action has made active, and runs its actions by `runAction` -/
def revalidate (b : Bot) (runAction : Action → Snapshot → Run Outcome) (name : String) (s : Snapshot) :
    Run Snapshot := do
  let goal ← b.goal name
  let response ← b.resolveAnew goal s
  let s ← response.snapshot.update response.commands
  let said := (← s.textAt actionSpoken).getD ""
  let said := if response.spoken = "" then said else sayMore said (some response.spoken)
  let (said, s) ← response.actions.foldlM (fun (said, s) a => do
    let outcome ← runAction a s
    return (sayMore said outcome.spoken, outcome.snapshot)) (said, s)
  s.put actionSpoken (some (.str said))

/-- runs an action; `n` actions can run inside each other -/
def process (b : Bot) : Nat → Processor → Action → Snapshot → Run Outcome
  | 0, _, _, _ => throw .unfinished
  | _ + 1, .plain, a, s => do
    let s ← a.run b s
    return ⟨← s.textAt actionSpoken, s⟩
  | n + 1, .revalidating, a, s => do
    let before ← s.textAt intentName
    let s ← a.run b s
    let after ← s.textAt intentName
    let s ← match before, after with
      | some old, some new => if old = new then pure s else b.revalidate (process b n b.processor) new s
      | _, _ => pure s
    let s ← b.releaseObjects after s
    return ⟨← s.textAt actionSpoken, s⟩

end Bot

end Dialogue
