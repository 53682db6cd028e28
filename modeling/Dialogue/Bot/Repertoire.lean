import Dialogue.Command.Run
import Dialogue.DialogueError
import Dialogue.Goal

/-!
# What a bot knows

A bot knows what can be said to it, the goals that a user can have, and the actions that reach them.  The stages of its
workflows see no more of it than that.
-/

namespace Dialogue

/-- what is done once a goal is reached: commands, that depend on how often the action has run before, on the goals
of its bot and on the snapshot -/
structure Action where
  /-- the name under which the runs of the action are counted -/
  name : String
  act : Nat → List (String × Goal) → Snapshot → Except DialogueError (List Command)

/-- what a bot knows -/
structure Repertoire where
  name : String
  dictionary : Dictionary
  actions : List (String × Action)
  goals : List (String × Goal)

namespace Repertoire

def goal? (b : Repertoire) (name : String) : Option Goal :=
  Entries.get? name b.goals

/-- the goal of a name, which must exist -/
def goal (b : Repertoire) (name : String) : Except DialogueError Goal :=
  match b.goal? name with
  | some g => .ok g
  | none => .error (.unknownGoal name)

/-- the action of a name, which must exist -/
def action (b : Repertoire) (name : String) : Except DialogueError Action :=
  match Entries.get? name b.actions with
  | some a => .ok a
  | none => .error (.unknownAction name)

end Repertoire

end Dialogue
