import Dialogue.Command.Basic
import Dialogue.Snapshot

/-!
# Carrying out commands

A command is carried out in three steps.  The steps before and after keep the history of goals: a switch pushes the
goal that it interrupts, and a completion takes up the one that was interrupted last.
-/

namespace Dialogue

namespace Command

open Slots

/-- notes the goal that a switch interrupts or a completion returns to -/
def pre (c : Command) (s : Snapshot) : Except StateError Snapshot :=
  match c with
  | .switchGoal _ goal => do
    let s ← s.remove previousIntent
    match ← s.get intentName with
    | some (.str current) => if current ≠ goal then s.put previousIntent (some (.str current)) else return s
    | _ => return s
  | .completeGoal => do
    let s ← s.remove nextIntent
    match (← s.get previousIntents).bind fun v => v.asList?.bind List.getLast? with
    | some goal => s.put nextIntent (some goal)
    | none => return s
  | _ => .ok s

/-- makes the change itself -/
def apply (c : Command) (s : Snapshot) : Except StateError Snapshot :=
  match c with
  | .set target (.literal v) => s.put target (some v)
  | .set target (.fetch source) => do s.put target (← s.get source)
  | .set _ (.marker m) => .error (.unresolved m)
  | .remove target => s.remove target
  | .switchGoal scope goal => s.put (intentNameIn scope) (some (.str goal))
  | .completeGoal => .ok s

/-- pushes the goal that was interrupted, or takes up the goal that was noted -/
def post (c : Command) (s : Snapshot) : Except StateError Snapshot :=
  match c with
  | .switchGoal _ _ => do
    match ← s.get previousIntent with
    | some goal => (← s.put previousIntents (some goal)).remove previousIntent
    | none => return s
  | .completeGoal => do
    match ← s.get nextIntent with
    | none => return s
    | some goal =>
      let depth := (((← s.get previousIntents).bind Node.asList?).map List.length).getD 0
      let s ← s.put intentName (some goal)
      let s ← if 0 < depth then s.remove (previousIntentAt (depth - 1)) else pure s
      s.remove nextIntent
  | _ => .ok s

def run (c : Command) (s : Snapshot) : Except StateError Snapshot := do
  c.post (← c.apply (← c.pre s))

end Command

/-- carries out commands one after the other, all or none -/
def Snapshot.update (s : Snapshot) (cs : List Command) : Except StateError Snapshot :=
  cs.foldlM (fun s c => c.run s) s

end Dialogue
