import Dialogue.Match.Basic
import Dialogue.Utterance

/-!
# Payloads

The payload of a pattern with what was taken in place of its markers.
-/

namespace Dialogue

/-- a payload word with what was taken in its place if it is a marker; a semicolon behind the marker stays -/
def Captures.fillWord (c : Captures) (word : List Char) : Except Marker String :=
  let (body, ending) := if word.getLast? = some ';' then (word.dropLast, ";") else (word, "")
  match Marker.parse? body with
  | none => .ok (String.ofList word)
  | some marker =>
    match c.resolve? marker with
    | some value => .ok (value ++ ending)
    | none => .error marker

/-- the words of a payload, with what was taken in place of the markers, or the first marker that stands for
nothing -/
def Captures.fill (c : Captures) (payload : String) : Except Marker String := do
  return Text.spaced (← (Text.words payload.toList).mapM c.fillWord)

/-- the payload for an utterance, if it matches a pattern -/
def Dictionary.lookup (d : Dictionary) (u : Utterance) : Except Marker (Option String) :=
  match Match.find? d u.tokens with
  | none => .ok none
  | some m => (m.captures.fill ((d.payload? m.pattern).getD "")).map some

end Dialogue
