import Dialogue.Registry.Basic

/-!
# The actions of a ticket tracker

A small example of actions: one that files a ticket, and one that changes the ticket being filed.
-/

namespace Dialogue.Demo

open Slots

def ticketNumber : ScopedPath :=
  ⟨.utterance, ⟨[⟨.map, "objects"⟩, ⟨.map, "ticket"⟩, ⟨.str, "number"⟩], by decide⟩⟩

/-- the slot of the ticket that is to be changed -/
def changedProperty : ScopedPath :=
  ⟨.utterance, ⟨[⟨.map, "objects"⟩, ⟨.map, "changeTicket"⟩, ⟨.str, "property"⟩], by decide⟩⟩

def changedValue : ScopedPath :=
  ⟨.utterance, ⟨[⟨.map, "objects"⟩, ⟨.map, "changeTicket"⟩, ⟨.str, "value"⟩], by decide⟩⟩

/-- the goal whose constraints a new value must meet -/
def ticketGoal : String := "createTicket"

/-- the id of the `n`-th ticket, with at least three digits -/
def ticketId (n : Nat) : String :=
  let digits := Nat.toDigits 10 n
  "ABC-" ++ String.ofList (List.replicate (3 - digits.length) '0' ++ digits)

/-- files a ticket and says its id; the tickets are numbered by the runs of the action -/
def createTicket (name : String) : Action where
  name := name
  act runs _ _ :=
    let id := ticketId (runs + 1)
    .ok [.put ticketNumber (.str id), .put actionSpoken (.str ("Created ticket " ++ id ++ " in JIRA"))]

/-- what is said about a value that constraints do not accept -/
def complaints (cs : List Constraint) (value : Option Node) : List String :=
  (cs.filterMap fun c => c.violation? value).map fun v => v.message.getD v.prompt

/-- changes one slot of the ticket and goes back to filing it, if the new value meets the constraints on the slot -/
def changeTicket (name : String) : Action where
  name := name
  act _ goals s := do
    let some property ← s.textAt changedProperty | return []
    let property ← ScopedPath.parse property
    let value ← s.get changedValue
    match Entries.get? ticketGoal goals with
    | none => throw (.unknownGoal ticketGoal)
    | some goal =>
      match complaints (goal.constraintsFor property) value with
      | [] =>
        match value with
        | none => return []
        | some v => return [.put property v, .completeGoal]
      | said => return [.put actionSpoken (.str (Text.spaced said))]

def registry : Registry :=
  (Registry.builtins.addAction "createTicket" fun p => .ok (createTicket p.component)).addAction
    "changeTicket" fun p => .ok (changeTicket p.component)

end Dialogue.Demo
