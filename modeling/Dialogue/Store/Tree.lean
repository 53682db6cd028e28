import Dialogue.Store.Basic

/-!
# Stores as trees

A drawing of a store, one line for each value.
-/

namespace Dialogue.Store

/-- what leads to a value from the line above -/
def branch (isLast : Bool) : String :=
  if isLast then "└── " else "├── "

/-- what stands left of the values inside a value -/
def stem (isLast : Bool) : String :=
  if isLast then "    " else "│   "

mutual
/-- the lines of a value called `name`, drawn to the right of `margin` -/
def drawNode (margin name : String) (isLast : Bool) : Node → List String
  | .map es => (margin ++ branch isLast ++ name) :: drawEntries (margin ++ stem isLast) es
  | .list vs => (margin ++ branch isLast ++ name) :: drawItems (margin ++ stem isLast) 0 vs
  | v => [margin ++ branch isLast ++ name ++ " = " ++ v.text]
def drawEntries (margin : String) : List (String × Node) → List String
  | [] => []
  | (k, v) :: es => drawNode margin k es.isEmpty v ++ drawEntries margin es
def drawItems (margin : String) (n : Nat) : List Node → List String
  | [] => []
  | v :: vs => drawNode margin (toString n) vs.isEmpty v ++ drawItems margin (n + 1) vs
end

def tree (s : Store) : String :=
  String.join ((drawNode "" "ROOT" true s.root).map (· ++ "\n"))

end Dialogue.Store
