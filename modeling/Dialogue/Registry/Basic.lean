import Dialogue.Bot.Basic
import Dialogue.Registry.Props

/-!
# Registries

The components that a configuration can name, each under a key, with what makes them from their properties.
-/

namespace Dialogue

/-- makes a component from its properties -/
abbrev Factory (α : Type) := Props → Except DialogueError α

/-- the components that a configuration can name -/
structure Registry where
  utteranceProcessors : List (String × Factory UtteranceProcessor)
  goalMatchers : List (String × Factory GoalMatcher)
  goalResolvers : List (String × Factory GoalResolver)
  promptHandlers : List (String × Factory PromptHandler)
  actionProcessors : List (String × Factory Processor)
  validators : List (String × Factory Validator)
  actions : List (String × Factory Action)

namespace Registry

def empty : Registry :=
  ⟨[], [], [], [], [], [], []⟩

def entityExtractor : Factory UtteranceProcessor := fun p => do
  let terms ← p.text "dict"
  let tag ← p.get "alias"
  return Extractor.processor ⟨tag, .ofTerms terms⟩

/-- the components that every registry has, but for actions -/
def builtins : Registry where
  utteranceProcessors := [("entityExtractor", entityExtractor)]
  goalMatchers := [("explicit", fun _ => .ok .explicit)]
  goalResolvers := [("validating", fun _ => .ok .validating)]
  promptHandlers := [("default", fun _ => .ok .default)]
  actionProcessors := [("plain", fun _ => .ok .plain), ("revalidating", fun _ => .ok .revalidating)]
  validators := [
    ("contains", fun p => (p.get "match").map .contains),
    ("notNull", fun _ => .ok .notNull),
    ("oneOf", fun p => (p.text "dict").map .ofLines)]
  actions := []

def addAction (r : Registry) (kind : String) (make : Factory Action) : Registry :=
  { r with actions := Entries.insert kind make r.actions }

/-- a list of keys as it is shown -/
def keysText {α : Type} (factories : List (String × α)) : String :=
  "[" ++ ", ".intercalate ((Entries.keys factories).map Text.quote) ++ "]"

def text (r : Registry) : String :=
  "Registry \x7b utterance_processors: " ++ keysText r.utteranceProcessors
    ++ ", goal_matchers: " ++ keysText r.goalMatchers
    ++ ", goal_resolvers: " ++ keysText r.goalResolvers
    ++ ", prompt_handlers: " ++ keysText r.promptHandlers
    ++ ", action_processors: " ++ keysText r.actionProcessors
    ++ ", validators: " ++ keysText r.validators
    ++ ", actions: " ++ keysText r.actions ++ " \x7d"

end Registry

end Dialogue
