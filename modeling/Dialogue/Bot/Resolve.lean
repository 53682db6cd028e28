import Dialogue.Bot.Response

/-!
# Resolving goals

What is said and done about a goal: as long as a constraint does not hold, its prompt is asked; then the user may
have to agree; then the actions of the goal run.
-/

namespace Dialogue

open Slots

def confirmationQuestion : String :=
  "Is that okay?"

namespace Goal

/-- asks for the slot of a violation -/
def ask (g : Goal) (v : Violation) (s : Snapshot) (score : Score) : Response where
  spoken := v.prompt
  snapshot := s
  score := score
  commands := [
    .remove prompt,
    .put promptQuestion (.str v.prompt),
    .put promptSlot (.str v.slot.text),
    .put promptIntent (.str g.name),
    .put intentValidated (.bool false)]

/-- asks the user to agree -/
def askToConfirm (g : Goal) (summary : String) (s : Snapshot) : Response where
  spoken := summary ++ "\n" ++ confirmationQuestion
  snapshot := s
  score := .one
  commands := [
    .remove prompt,
    .put promptQuestion (.str confirmationQuestion),
    .put promptSlot (.str intentConfirmed.text),
    .put promptBoolean (.bool true),
    .put promptIntent (.str g.name),
    .put intentValidated (.bool false)]

end Goal

namespace Repertoire

/-- the active goal, if there is one -/
def activeGoal (b : Repertoire) (s : Snapshot) : Except DialogueError (Option Goal) := do
  match ← s.textAt intentName with
  | none => return none
  | some name => return some (← b.goal name)

def successActions (b : Repertoire) (g : Goal) : Except DialogueError (List Action) :=
  g.successActions.mapM b.action

/-- gives way to the goal for users who do not agree -/
def deny (b : Repertoire) (g : Goal) (s : Snapshot) : Except DialogueError Response := do
  let some name := g.denyGoal | throw (.missingProperty ("goal " ++ g.name) "denyGoal")
  let next ← b.goal name
  return {
    spoken := next.initialResponsePrompt.getD ""
    snapshot := s
    score := .one
    commands := [.switchGoal .utterance next.name, .put intentValidated (.bool false)] }

/-- what is said and done about a goal whose constraints hold -/
def succeed (b : Repertoire) (g : Goal) (s : Snapshot) : Except DialogueError Response := do
  let summary ← g.renderSuccess s
  if !g.confirmOnValid then
    return {
      spoken := summary
      snapshot := s
      score := .one
      commands := [.remove prompt, .put intentValidated (.bool true)]
      actions := ← b.successActions g }
  else match (← s.get intentConfirmed).bind Node.asBool? with
    | none => return g.askToConfirm summary s
    | some false => b.deny g s
    | some true =>
      return {
        spoken := ""
        snapshot := s
        score := .one
        commands := [.completeGoal, .put intentValidated (.bool true), .remove prompt]
        actions := ← b.successActions g }

/-- what is said and done about a goal -/
def resolve (b : Repertoire) (g : Goal) (s : Snapshot) : Except DialogueError Response := do
  let violations ← g.violations s
  match violations with
  | v :: _ => return g.ask v s (.of (g.constraints.length - violations.length) g.constraints.length)
  | [] => b.succeed g s

end Repertoire

end Dialogue
