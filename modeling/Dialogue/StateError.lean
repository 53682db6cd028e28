import Dialogue.Marker
import Dialogue.Node.Text
import Dialogue.Scope
import Dialogue.Text.Quoted

/-!
# What can go wrong in a store

The causes of failure when paths and commands are read or carried out, and their wording.
-/

namespace Dialogue

/-- why a path cannot be followed at a segment -/
inductive Obstacle where
  | noIndex
  | scalar (found : Sigil)
  | shape (expected found : Sigil)
  deriving DecidableEq, Repr

def Obstacle.message : Obstacle → String
  | .noIndex => "list index must be a non-negative integer"
  | .scalar found => "cannot descend into a " ++ found.shape
  | .shape expected found => "expected a " ++ expected.shape ++ " but found a " ++ found.shape

/-- what can go wrong in a store -/
inductive StateError where
  | malformedPath (expression : String) (fault : PathFault)
  | missingScope (text : String)
  | unknownScope (label : String)
  | traversal (path : Path) (segment : Segment) (obstacle : Obstacle)
  | coercion (sigil : Sigil) (value : Node)
  | malformedCommand (text : String)
  | unresolved (marker : Marker)

def StateError.message : StateError → String
  | .malformedPath e f => "malformed path expression " ++ Text.quote e ++ ": " ++ f.message
  | .missingScope t => "malformed path expression " ++ Text.quote t ++ ": expected `scope:expression`"
  | .unknownScope l => "unknown scope label " ++ Text.quote l
  | .traversal p s o =>
    "cannot traverse " ++ Text.quote p.text ++ " at segment " ++ Text.quote s.text ++ ": " ++ o.message
  | .coercion s v => "cannot store " ++ v.text ++ " under the '" ++ String.singleton s.char ++ "' sigil"
  | .malformedCommand t => "malformed command " ++ Text.quote t ++ ": expected `->` or a leading `-!`"
  | .unresolved m => "placeholder " ++ m.text ++ " was never resolved"

end Dialogue
