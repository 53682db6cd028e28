import Dialogue.Bot.Basic

/-!
# Scripted actions

Actions whose commands are written down.
-/

namespace Dialogue

/-- the command that a clause writes, or the completion of the active goal, as it is shown -/
def Command.parseShown (clause : String) : Except StateError Command :=
  if clause = Command.completeGoal.text then .ok .completeGoal else Command.parse clause

/-- the action with the commands of a text, with semicolons between them -/
def Action.script (name text : String) : Action where
  name := name
  act _ _ _ := do
    let commands ← ((Command.clauses text).mapM Command.parseShown : Except StateError (List Command))
    return commands

end Dialogue
