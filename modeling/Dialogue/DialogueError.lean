import Dialogue.Dictionary.Rows
import Dialogue.StateError

/-!
# What can go wrong in a dialogue

The causes of failure when bots are loaded and when they answer, and their wording.
-/

namespace Dialogue

/-- the kinds of components that a configuration names -/
inductive ComponentKind where
  | utteranceProcessor
  | goalMatcher
  | goalResolver
  | promptHandler
  | actionProcessor
  | validator
  | action
  deriving DecidableEq, Repr

def ComponentKind.label : ComponentKind → String
  | .utteranceProcessor => "utterance processor"
  | .goalMatcher => "goal matcher"
  | .goalResolver => "goal resolver"
  | .promptHandler => "prompt handler"
  | .actionProcessor => "action processor"
  | .validator => "validator"
  | .action => "action"

/-- what can go wrong in a dialogue -/
inductive DialogueError where
  | state (e : StateError)
  | malformedRow (row : MalformedRow)
  | emptyMarker (m : Marker)
  | unknownGoal (name : String)
  | unknownAction (name : String)
  | unknownComponent (kind : ComponentKind) (key : String)
  | missingProperty (component property : String)
  | unknownBot (name : String)
  | unknownConversation (id : String)
  | noWorkflow (bot : String)
  | unreadable (path : String)
  | malformedConfig

namespace DialogueError

def message : DialogueError → String
  | .state e => e.message
  | .malformedRow r => s!"line {r.line}: " ++ r.fault.message
  | .emptyMarker m => "payload placeholder " ++ m.text ++ " has no captured value"
  | .unknownGoal n => "unknown goal " ++ Text.quote n
  | .unknownAction n => "unknown action " ++ Text.quote n
  | .unknownComponent k key => "no " ++ k.label ++ " is registered under " ++ Text.quote key
  | .missingProperty c p => c ++ " requires the " ++ Text.quote p ++ " property"
  | .unknownBot n => "unknown bot " ++ Text.quote n
  | .unknownConversation id => "unknown conversation " ++ id
  | .noWorkflow b => "bot " ++ Text.quote b ++ " has no workflow"
  | .unreadable p => "failed to read " ++ p
  | .malformedConfig => "invalid configuration"

/-- whether an error is a fault of one reading of an utterance and not of the bot -/
def dropsReading : DialogueError → Bool
  | .state _ => true
  | .malformedRow _ => true
  | .emptyMarker _ => true
  | .unknownGoal _ => true
  | _ => false

end DialogueError

instance : MonadLift (Except StateError) (Except DialogueError) where
  monadLift x := x.mapError .state

end Dialogue
