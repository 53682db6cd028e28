import Dialogue.Path.Parse
import Dialogue.Slots

/-!
# Commands

A command changes a snapshot.  Most commands have a written form, `path -> value` or `-! path`; a value in braces is
the path that it is fetched from.
-/

namespace Dialogue

/-- what a command stores -/
inductive SlotValue where
  | literal (v : Node)
  | marker (m : Marker)
  | fetch (source : ScopedPath)

/-- a change of a snapshot -/
inductive Command where
  | set (target : ScopedPath) (value : SlotValue)
  | remove (target : ScopedPath)
  | switchGoal (scope : Scope) (goal : String)
  | completeGoal

namespace SlotValue

/-- a value in braces is fetched, a marker is one, and any other text is itself -/
def parse (cs : List Char) : Except StateError SlotValue :=
  match cs with
  | '\x7b' :: rest =>
    if rest.getLast? = some '\x7d' then (ScopedPath.parse (String.ofList rest.dropLast)).map .fetch else .ok (plain cs)
  | cs => .ok (plain cs)
where
  /-- a marker or a literal -/
  plain (cs : List Char) : SlotValue :=
    match Marker.parse? cs with
    | some m => .marker m
    | none => .literal (.str (String.ofList cs))

def text : SlotValue → String
  | .literal v => v.text
  | .marker m => m.text
  | .fetch source => "\x7b" ++ source.text ++ "\x7d"

end SlotValue

namespace Command

def put (target : ScopedPath) (v : Node) : Command :=
  .set target (.literal v)

/-- the command that copies a value, if there is one -/
def copy (target source : ScopedPath) : Command :=
  .set target (.fetch source)

/-- the command that a text writes; to set the name of the active goal is to switch to it -/
def parse (text : String) : Except StateError Command :=
  let cs := Text.trim text.toList
  match Text.dropStart? ['-', '!'] cs with
  | some target => (ScopedPath.parse (String.ofList target)).map .remove
  | none =>
    match Text.cutAt ['-', '>'] cs with
    | none => .error (.malformedCommand (String.ofList cs))
    | some (left, right) => do
      let target ← ScopedPath.parse (String.ofList left)
      match ← SlotValue.parse (Text.trim right) with
      | .literal (.str goal) =>
        if target.path = Slots.intentNamePath then return .switchGoal target.scope goal
        else return .set target (.literal (.str goal))
      | value => return .set target value

/-- a command as it is written, if it can be -/
def render? : Command → Option String
  | .set target value => some (target.text ++ " -> " ++ value.text)
  | .remove target => some ("-! " ++ target.text)
  | .switchGoal scope goal => some ((Slots.intentNameIn scope).text ++ " -> " ++ goal)
  | .completeGoal => none

def text (c : Command) : String :=
  c.render?.getD "(complete goal)"

/-- the clauses between semicolons, trimmed, without the empty ones -/
def clauses (text : String) : List String :=
  (((Text.splitBy (· == ';') text.toList).map Text.trim).filter fun c => !c.isEmpty).map String.ofList

/-- the commands that a text writes, with semicolons between them -/
def parseAll (text : String) : Except StateError (List Command) :=
  (clauses text).mapM parse

end Command

end Dialogue
