import Dialogue.Snapshot
import Dialogue.Validator

/-!
# Goals

What a user can be about to do: the slots that must be filled for it, what is said then, and the actions that do it.
-/

namespace Dialogue

/-- what the value of a slot must be like, and what is asked for until it is -/
structure Constraint where
  slot : ScopedPath
  prompt : String
  errorMessage : Option String
  validator : Validator

/-- a constraint that does not hold -/
structure Violation where
  slot : ScopedPath
  prompt : String
  message : Option String
  deriving DecidableEq

namespace Constraint

/-- the violation that a value is, if it is one -/
def violation? (c : Constraint) (value : Option Node) : Option Violation :=
  if c.validator.accepts value then none else some ⟨c.slot, c.prompt, c.errorMessage⟩

def check (c : Constraint) (s : Snapshot) : Except StateError (Option Violation) := do
  return c.violation? (← s.get c.slot)

end Constraint

/-- what a user can be about to do -/
structure Goal where
  name : String
  constraints : List Constraint := []
  /-- said once all constraints hold; the pieces make one text -/
  successTemplate : List String := []
  /-- the names of the actions that do it -/
  successActions : List String := []
  /-- whether the user is asked to agree before the actions run -/
  confirmOnValid : Bool := false
  /-- said when another goal gives way to this one -/
  initialResponsePrompt : Option String := none
  /-- the goal that takes over when the user does not agree -/
  denyGoal : Option String := none
  /-- the objects that belong to the goal -/
  objectSlots : List Path := []

namespace Goal

def constraintsFor (g : Goal) (slot : ScopedPath) : List Constraint :=
  g.constraints.filter fun c => c.slot = slot

/-- the constraints that do not hold, in order -/
def violations (g : Goal) (s : Snapshot) : Except StateError (List Violation) := do
  return (← g.constraints.mapM fun c => c.check s).filterMap id

/-- a word of a template: `<path>rest` is the text of a value, and nothing for none, and then the rest -/
def renderWord (s : Snapshot) (word : List Char) : Except StateError String :=
  match (Text.dropStart? ['<'] word).bind (Text.cutAt ['>']) with
  | none => .ok (String.ofList word)
  | some (path, rest) => do
    let value ← s.textAt (← ScopedPath.parse (String.ofList path))
    return value.getD "" ++ String.ofList rest

/-- what is said once all constraints hold -/
def renderSuccess (g : Goal) (s : Snapshot) : Except StateError String := do
  return Text.spaced (← (Text.words (String.join g.successTemplate).toList).mapM (renderWord s))

end Goal

end Dialogue
