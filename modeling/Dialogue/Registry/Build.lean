import Dialogue.Config.Basic
import Dialogue.Registry.Basic

/-!
# Building bots

A bot is built from its configuration with the components of a registry.  A bot that is built has every action and
every goal that its goals name.
-/

namespace Dialogue

/-- the component under a key -/
def Factory.make {α : Type} (kind : ComponentKind) (factories : List (String × Factory α)) (key : String) :
    Factory α := fun p =>
  match Entries.get? key factories with
  | some make => make p
  | none => .error (.unknownComponent kind key)

namespace Registry

/-- the component that a configuration names -/
def build {α : Type} (kind : ComponentKind) (factories : List (String × Factory α)) (fs : Files)
    (c : ComponentConfig) : Except DialogueError α :=
  Factory.make kind factories c.kind ⟨c.kind, c.props, fs⟩

/-- a workflow, all of whose components are known -/
def buildWorkflow (r : Registry) (fs : Files) (c : WorkflowConfig) : Except DialogueError Workflow := do
  let utteranceProcessors ← c.utteranceProcessors.mapM (build .utteranceProcessor r.utteranceProcessors fs)
  let goalMatchers ← c.goalMatchers.mapM (build .goalMatcher r.goalMatchers fs)
  let goalResolvers ← c.goalResolvers.mapM (build .goalResolver r.goalResolvers fs)
  let promptHandlers ← c.promptHandlers.mapM (build .promptHandler r.promptHandlers fs)
  return ⟨c.name, utteranceProcessors, goalMatchers, goalResolvers, promptHandlers⟩

/-- an action, under the name that goals give it -/
def buildAction (r : Registry) (fs : Files) (c : ActionConfig) : Except DialogueError (String × Action) := do
  return (c.name, ← Factory.make .action r.actions c.kind ⟨c.name, c.props, fs⟩)

def buildConstraint (r : Registry) (fs : Files) (c : ConstraintConfig) : Except DialogueError Constraint := do
  let validator ← Factory.make .validator r.validators c.validator ⟨c.validator, c.validatorParams, fs⟩
  let slot ← ScopedPath.parse c.slot
  return ⟨slot, c.prompt, c.errorMessage, validator⟩

def buildGoal (r : Registry) (fs : Files) (c : GoalConfig) : Except DialogueError Goal := do
  let constraints ← c.constraints.mapM (r.buildConstraint fs)
  let objectSlots ← (c.objectSlots.mapM Path.parse : Except StateError (List Path))
  return {
    name := c.name
    constraints := constraints
    successTemplate := c.successTemplate
    successActions := c.successActions
    confirmOnValid := c.confirmOnValid
    initialResponsePrompt := c.initialResponsePrompt
    denyGoal := c.denyGoal
    objectSlots := objectSlots }

/-- the actions and the goal that a goal names must be there -/
def checkGoal (b : Bot) (g : Goal) : Except DialogueError Unit := do
  let _ ← g.successActions.mapM b.action
  match g.denyGoal with
  | some name =>
    let _ ← b.goal name
  | none => return

def buildDictionary (fs : Files) (file : String) : Except DialogueError Dictionary := do
  let rows ← fs.text file
  (Dictionary.ofRows rows).mapError .malformedRow

def buildBot (r : Registry) (fs : Files) (c : BotConfig) : Except DialogueError Bot := do
  let dictionary ← buildDictionary fs c.dict
  let workflows ← c.workflows.mapM (r.buildWorkflow fs)
  let processors ← c.actionProcessors.mapM (build .actionProcessor r.actionProcessors fs)
  let actions ← c.actions.mapM (r.buildAction fs)
  let goals ← c.goals.mapM (r.buildGoal fs)
  let bot := actions.foldl (fun b a => b.addAction a.1 a.2) (.ofDictionary c.name dictionary workflows processors)
  let bot := goals.foldl Bot.addGoal bot
  let _ ← bot.goals.mapM fun g => checkGoal bot g.2
  return bot

end Registry

end Dialogue
