import Dialogue.Slots
import Dialogue.Snapshot

/-!
# Answers to prompts

An answer goes into the slot that the pending prompt asks about.
-/

namespace Dialogue

def yesWords : List String :=
  ["yes", "sure", "ok", "true", "y", "okay", "yup", "yeah", "ya"]

def noWords : List String :=
  ["false", "no", "nay", "not", "never", "no way", "negatory"]

/-- the truth value of an answer that is yes or no -/
def yesOrNo? (answer : String) : Option Bool :=
  let word := String.ofList (Text.trim answer.toList)
  if yesWords.contains word then some true
  else if noWords.contains word then some false
  else none

namespace Snapshot

open Slots

/-- the value that an answer gives to the slot asked about; an answer that should be yes or no and is neither gives
none -/
def answerNode? (s : Snapshot) (answer : String) : Except StateError (Option Node) := do
  if ← s.flag answerBoolean then return (yesOrNo? answer).map .bool else return some (.str answer)

/-- the snapshot with the answer, if there is one, in the slot that was asked about, if one was -/
def takeAnswer (s : Snapshot) : Except StateError Snapshot := do
  let some answer ← s.textAt answerValue | return s
  let some target ← s.textAt answerSlot | return s
  let some value ← s.answerNode? answer | return s
  s.put (← ScopedPath.parse target) (some value)

end Snapshot

end Dialogue
