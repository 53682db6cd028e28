import Dialogue.Entries
import Dialogue.Json.Basic

/-!
# Records in JSON

A record is an object, or a list of its fields in their order.  In an object each field may occur once and other
keys are left out; a list may be short of fields at its end.
-/

namespace Dialogue.Json

/-- the fields of a record, by name -/
abbrev Record := String → Option Json

/-- the record with certain fields that a value is -/
def record? (fields : List String) : Json → Option Record
  | .obj members =>
    if fields.all fun f => (members.filter fun m => m.1 = f).length ≤ 1 then
      some fun f => (members.find? fun m => m.1 = f).map Prod.snd
    else none
  | .list items =>
    if items.length ≤ fields.length then some fun f => ((fields.zip items).find? fun m => m.1 = f).map Prod.snd
    else none
  | _ => none

def Record.get {α : Type} (r : Record) (field : String) (read? : Json → Option α) : Option α :=
  (r field).bind read?

/-- a field that may be left out -/
def Record.getOr {α : Type} (r : Record) (field : String) (default : α) (read? : Json → Option α) : Option α :=
  match r field with
  | some j => read? j
  | none => some default

def text? : Json → Option String
  | .str s => some s
  | _ => none

def bool? : Json → Option Bool
  | .bool b => some b
  | _ => none

def textOrNull? : Json → Option (Option String)
  | .null => some none
  | .str s => some (some s)
  | _ => none

/-- a list of values of one type -/
def listOf? {α : Type} (read? : Json → Option α) : Json → Option (List α)
  | .list items => items.mapM read?
  | _ => none

def textsByKey? : Json → Option (List (String × String))
  | .obj members => (members.mapM fun m => (text? m.2).map fun s => (m.1, s)).map Entries.ofList
  | _ => none

end Dialogue.Json
