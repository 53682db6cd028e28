import Dialogue.Config.Basic
import Dialogue.Json.Basic

/-!
# Configurations as JSON

Every field is written, also one that may be left out.
-/

namespace Dialogue

/-- an object of texts -/
def Json.ofTexts (texts : List (String × String)) : Json :=
  .obj (texts.map fun (k, s) => (k, .str s))

def ComponentConfig.toJson (c : ComponentConfig) : Json :=
  .obj [("kind", .str c.kind), ("props", .ofTexts c.props)]

def WorkflowConfig.toJson (c : WorkflowConfig) : Json :=
  .obj [
    ("name", .str c.name),
    ("utteranceProcessors", .list (c.utteranceProcessors.map ComponentConfig.toJson)),
    ("goalMatchers", .list (c.goalMatchers.map ComponentConfig.toJson)),
    ("goalResolvers", .list (c.goalResolvers.map ComponentConfig.toJson)),
    ("promptHandlers", .list (c.promptHandlers.map ComponentConfig.toJson))]

def ActionConfig.toJson (c : ActionConfig) : Json :=
  .obj [("name", .str c.name), ("kind", .str c.kind), ("props", .ofTexts c.props)]

def ConstraintConfig.toJson (c : ConstraintConfig) : Json :=
  .obj [
    ("slot", .str c.slot),
    ("prompt", .str c.prompt),
    ("errorMessage", .ofText? c.errorMessage),
    ("validator", .str c.validator),
    ("validatorParams", .ofTexts c.validatorParams)]

def GoalConfig.toJson (c : GoalConfig) : Json :=
  .obj [
    ("name", .str c.name),
    ("constraints", .list (c.constraints.map ConstraintConfig.toJson)),
    ("successTemplate", .list (c.successTemplate.map .str)),
    ("successActions", .list (c.successActions.map .str)),
    ("confirmOnValid", .bool c.confirmOnValid),
    ("initialResponsePrompt", .ofText? c.initialResponsePrompt),
    ("denyGoal", .ofText? c.denyGoal),
    ("objectSlots", .list (c.objectSlots.map .str))]

def BotConfig.toJson (c : BotConfig) : Json :=
  .obj [
    ("name", .str c.name),
    ("lookup", .obj [("dict", .str c.dict)]),
    ("workflows", .list (c.workflows.map WorkflowConfig.toJson)),
    ("actionProcessors", .list (c.actionProcessors.map ComponentConfig.toJson)),
    ("actions", .list (c.actions.map ActionConfig.toJson)),
    ("goals", .list (c.goals.map GoalConfig.toJson))]

def Config.toJson (c : Config) : Json :=
  .obj [("bots", .list (c.bots.map BotConfig.toJson))]

end Dialogue
