import Dialogue.Path.Basic

/-!
# Scopes

Values live for an utterance, a conversation, or as long as the user; a scoped path names one of the three stores
and a path in it.
-/

namespace Dialogue

/-- whose store a path leads into -/
inductive Scope where
  | user
  | conversation
  | utterance
  deriving DecidableEq, Repr

def Scope.label : Scope → String
  | .user => "user"
  | .conversation => "conv"
  | .utterance => "utt"

/-- a path in the store of a scope -/
structure ScopedPath where
  scope : Scope
  path : Path
  deriving DecidableEq

def ScopedPath.text (p : ScopedPath) : String :=
  p.scope.label ++ ":" ++ p.path.text

end Dialogue
