import Dialogue.Entries
import Dialogue.Path.Basic

/-!
# Stored values

A value is a scalar, a list, or a map.  The entries of a map are in the order of their keys.
-/

namespace Dialogue

/-- a stored value -/
inductive Node where
  | bool (b : Bool)
  | num (x : Float)
  | str (s : String)
  | list (items : List Node)
  | map (entries : List (String × Node))
  deriving Inhabited

namespace Node

def sigil : Node → Sigil
  | .bool _ => .bool
  | .num _ => .num
  | .str _ => .str
  | .list _ => .list
  | .map _ => .map

/-- whether a value can hold others -/
def isContainer (v : Node) : Bool :=
  !v.sigil.isScalar

def asStr? : Node → Option String
  | .str s => some s
  | _ => none

def asNum? : Node → Option Float
  | .num x => some x
  | _ => none

def asBool? : Node → Option Bool
  | .bool b => some b
  | _ => none

def asList? : Node → Option (List Node)
  | .list vs => some vs
  | _ => none

def asMap? : Node → Option (List (String × Node))
  | .map es => some es
  | _ => none

end Node

end Dialogue
