/-!
# JSON values

Numbers are kept as they are written, since readers differ in how they round them.  Half of a surrogate pair is
well-formed JSON that no text can hold: a string with one, or an object with one in a key, is `unpaired`.
-/

namespace Dialogue

/-- a JSON value; the members of an object are in the order of the text, and a key may occur again -/
inductive Json where
  | null
  | bool (b : Bool)
  | num (written : String)
  | str (s : String)
  | unpaired
  | list (items : List Json)
  | obj (members : List (String × Json))
  deriving Inhabited

namespace Json

def ofNat (n : Nat) : Json :=
  .num (toString n)

/-- a text, or null for none -/
def ofText? : Option String → Json
  | some s => .str s
  | none => .null

def get? (key : String) : Json → Option Json
  | .obj members => (members.reverse.find? fun m => m.1 = key).map Prod.snd
  | _ => none

mutual
def depth : Json → Nat
  | .list items => depthOfItems items + 1
  | .obj members => depthOfMembers members + 1
  | _ => 0
def depthOfItems : List Json → Nat
  | [] => 0
  | j :: js => max (depth j) (depthOfItems js)
def depthOfMembers : List (String × Json) → Nat
  | [] => 0
  | (_, j) :: ms => max (depth j) (depthOfMembers ms)
end

end Json

end Dialogue
