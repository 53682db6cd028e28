import Dialogue.Config.Basic
import Dialogue.Json.Reader
import Dialogue.Json.Record

/-!
# Configurations from JSON
-/

namespace Dialogue

open Json

def ComponentConfig.ofJson? (j : Json) : Option ComponentConfig := do
  let r ← record? ["kind", "props"] j
  return {
    kind := ← r.get "kind" text?
    props := ← r.getOr "props" [] textsByKey? }

def WorkflowConfig.ofJson? (j : Json) : Option WorkflowConfig := do
  let r ← record? ["name", "utteranceProcessors", "goalMatchers", "goalResolvers", "promptHandlers"] j
  return {
    name := ← r.get "name" text?
    utteranceProcessors := ← r.getOr "utteranceProcessors" [] (listOf? ComponentConfig.ofJson?)
    goalMatchers := ← r.getOr "goalMatchers" [] (listOf? ComponentConfig.ofJson?)
    goalResolvers := ← r.getOr "goalResolvers" [] (listOf? ComponentConfig.ofJson?)
    promptHandlers := ← r.getOr "promptHandlers" [] (listOf? ComponentConfig.ofJson?) }

def ActionConfig.ofJson? (j : Json) : Option ActionConfig := do
  let r ← record? ["name", "kind", "props"] j
  return {
    name := ← r.get "name" text?
    kind := ← r.get "kind" text?
    props := ← r.getOr "props" [] textsByKey? }

def ConstraintConfig.ofJson? (j : Json) : Option ConstraintConfig := do
  let r ← record? ["slot", "prompt", "errorMessage", "validator", "validatorParams"] j
  return {
    slot := ← r.get "slot" text?
    prompt := ← r.get "prompt" text?
    errorMessage := ← r.getOr "errorMessage" none textOrNull?
    validator := ← r.get "validator" text?
    validatorParams := ← r.getOr "validatorParams" [] textsByKey? }

def GoalConfig.ofJson? (j : Json) : Option GoalConfig := do
  let r ← record? ["name", "constraints", "successTemplate", "successActions", "confirmOnValid",
    "initialResponsePrompt", "denyGoal", "objectSlots"] j
  return {
    name := ← r.get "name" text?
    constraints := ← r.getOr "constraints" [] (listOf? ConstraintConfig.ofJson?)
    successTemplate := ← r.getOr "successTemplate" [] (listOf? text?)
    successActions := ← r.getOr "successActions" [] (listOf? text?)
    confirmOnValid := ← r.getOr "confirmOnValid" false bool?
    initialResponsePrompt := ← r.getOr "initialResponsePrompt" none textOrNull?
    denyGoal := ← r.getOr "denyGoal" none textOrNull?
    objectSlots := ← r.getOr "objectSlots" [] (listOf? text?) }

/-- the file with the phrases of a bot -/
def BotConfig.dictOfJson? (j : Json) : Option String := do
  let r ← record? ["dict"] j
  r.get "dict" text?

def BotConfig.ofJson? (j : Json) : Option BotConfig := do
  let r ← record? ["name", "lookup", "workflows", "actionProcessors", "actions", "goals"] j
  return {
    name := ← r.get "name" text?
    dict := ← r.get "lookup" BotConfig.dictOfJson?
    workflows := ← r.getOr "workflows" [] (listOf? WorkflowConfig.ofJson?)
    actionProcessors := ← r.getOr "actionProcessors" [] (listOf? ComponentConfig.ofJson?)
    actions := ← r.getOr "actions" [] (listOf? ActionConfig.ofJson?)
    goals := ← r.getOr "goals" [] (listOf? GoalConfig.ofJson?) }

def Config.ofJson? (j : Json) : Option Config := do
  let r ← record? ["bots"] j
  return { bots := ← r.getOr "bots" [] (listOf? BotConfig.ofJson?) }

/-- the configuration that a JSON text writes -/
def Config.read? (text : String) : Option Config := do
  Config.ofJson? (← Json.read? text)

end Dialogue
