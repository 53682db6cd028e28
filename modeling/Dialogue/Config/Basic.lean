/-!
# Configurations

What bots are made of: the files and components that they name.
-/

namespace Dialogue

/-- a component by its kind, with its properties -/
structure ComponentConfig where
  kind : String
  props : List (String × String)
  deriving DecidableEq, Repr

/-- the components of a workflow -/
structure WorkflowConfig where
  name : String
  utteranceProcessors : List ComponentConfig
  goalMatchers : List ComponentConfig
  goalResolvers : List ComponentConfig
  promptHandlers : List ComponentConfig
  deriving DecidableEq, Repr

structure ActionConfig where
  name : String
  kind : String
  props : List (String × String)
  deriving DecidableEq, Repr

/-- a constraint of a goal -/
structure ConstraintConfig where
  slot : String
  prompt : String
  errorMessage : Option String
  validator : String
  validatorParams : List (String × String)
  deriving DecidableEq, Repr

structure GoalConfig where
  name : String
  constraints : List ConstraintConfig
  successTemplate : List String
  successActions : List String
  confirmOnValid : Bool
  initialResponsePrompt : Option String
  denyGoal : Option String
  objectSlots : List String
  deriving DecidableEq, Repr

/-- a bot; `dict` is the file with its phrases -/
structure BotConfig where
  name : String
  dict : String
  workflows : List WorkflowConfig
  actionProcessors : List ComponentConfig
  actions : List ActionConfig
  goals : List GoalConfig
  deriving DecidableEq, Repr

structure Config where
  bots : List BotConfig
  deriving DecidableEq, Repr

end Dialogue
