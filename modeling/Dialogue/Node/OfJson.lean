import Dialogue.Node.Basic
import Dialogue.Json.Reader

/-!
# Stored values from JSON

Every JSON value but null is a stored value; of several members under one key the last stays.
-/

namespace Dialogue.Node

mutual
/-- the value of a JSON value in which there is no null, no half of a surrogate pair and no number too large -/
def ofJson? : Json → Option Node
  | .null => none
  | .unpaired => none
  | .bool b => some (.bool b)
  | .num w => (Number.ofJson? w).map .num
  | .str s => some (.str s)
  | .list js => (ofItems? js).map .list
  | .obj ms => (ofMembers? ms []).map .map
def ofItems? : List Json → Option (List Node)
  | [] => some []
  | j :: js => do
    let v ← ofJson? j
    let vs ← ofItems? js
    some (v :: vs)
def ofMembers? : List (String × Json) → List (String × Node) → Option (List (String × Node))
  | [], es => some es
  | (k, j) :: ms, es => do
    let v ← ofJson? j
    ofMembers? ms (Entries.insert k v es)
end

/-- as many containers may be nested in a JSON text -/
def maxDepth : Nat := 127

def read? (text : String) : Option Node := do
  let j ← Json.read? text
  if j.depth ≤ maxDepth then ofJson? j else none

end Dialogue.Node
