import Dialogue.Node.Basic
import Dialogue.Json.Printer
import Dialogue.Number.Notation

/-!
# The text of a stored value

A scalar is shown plainly and a container as compact JSON.
-/

namespace Dialogue.Node

mutual
def toJson : Node → Json
  | .bool b => .bool b
  | .num x => .num (Number.jsonText x)
  | .str s => .str s
  | .list vs => .list (toJsonItems vs)
  | .map es => .obj (toJsonMembers es)
def toJsonItems : List Node → List Json
  | [] => []
  | v :: vs => toJson v :: toJsonItems vs
def toJsonMembers : List (String × Node) → List (String × Json)
  | [] => []
  | (k, v) :: es => (k, toJson v) :: toJsonMembers es
end

/-- a number by itself: zero of either sign is `0` -/
def numText (x : Float) : String :=
  if x == 0 then "0" else Number.plainText x

def boolText (b : Bool) : String :=
  if b then "true" else "false"

def text : Node → String
  | .bool b => boolText b
  | .num x => numText x
  | .str s => s
  | v => v.toJson.render

end Dialogue.Node
