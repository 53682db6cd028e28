import Dialogue.Scope

/-!
# Well-known slots

The paths under which the parts of a dialogue meet: the active goal, the objects that it is about, the pending
prompt, and what an action wants said.
-/

namespace Dialogue.Slots

/-- the active goal, its name and what is known of it -/
def intentPath : Path := ⟨[⟨.map, "intent"⟩], by decide⟩

def intentNamePath : Path := ⟨[⟨.map, "intent"⟩, ⟨.str, "name"⟩], by decide⟩

def promptPath : Path := ⟨[⟨.map, "prompt"⟩], by decide⟩

/-- the name of the active goal in a scope -/
def intentNameIn (scope : Scope) : ScopedPath := ⟨scope, intentNamePath⟩

def intent : ScopedPath := ⟨.utterance, intentPath⟩

def intentName : ScopedPath := intentNameIn .utterance

/-- whether the constraints of the active goal hold -/
def intentValidated : ScopedPath := ⟨.utterance, ⟨[⟨.map, "intent"⟩, ⟨.bool, "validated"⟩], by decide⟩⟩

/-- whether the user has agreed to the active goal -/
def intentConfirmed : ScopedPath := ⟨.utterance, ⟨[⟨.map, "intent"⟩, ⟨.bool, "confirmed"⟩], by decide⟩⟩

/-- what an action wants said -/
def actionSpoken : ScopedPath := ⟨.utterance, ⟨[⟨.map, "action"⟩, ⟨.str, "spoken"⟩], by decide⟩⟩

/-- the objects of this utterance -/
def objects : ScopedPath := ⟨.utterance, ⟨[⟨.map, "objects"⟩], by decide⟩⟩

/-- the objects carried from one utterance to the next -/
def partials : ScopedPath := ⟨.conversation, ⟨[⟨.map, "partials"⟩], by decide⟩⟩

def prompt : ScopedPath := ⟨.conversation, promptPath⟩

def promptQuestion : ScopedPath := ⟨.conversation, ⟨[⟨.map, "prompt"⟩, ⟨.str, "question"⟩], by decide⟩⟩

def promptSlot : ScopedPath := ⟨.conversation, ⟨[⟨.map, "prompt"⟩, ⟨.str, "slot"⟩], by decide⟩⟩

/-- the goal that asked -/
def promptIntent : ScopedPath := ⟨.conversation, ⟨[⟨.map, "prompt"⟩, ⟨.str, "intent"⟩], by decide⟩⟩

/-- whether the pending prompt is answered by yes or no -/
def promptBoolean : ScopedPath := ⟨.conversation, ⟨[⟨.map, "prompt"⟩, ⟨.bool, "boolean"⟩], by decide⟩⟩

/-- the pending prompt in an utterance -/
def answeredPrompt : ScopedPath := ⟨.utterance, promptPath⟩

def answerValue : ScopedPath := ⟨.utterance, ⟨[⟨.map, "prompt"⟩, ⟨.str, "value"⟩], by decide⟩⟩

def answerSlot : ScopedPath := ⟨.utterance, ⟨[⟨.map, "prompt"⟩, ⟨.str, "slot"⟩], by decide⟩⟩

/-- whether the answer is yes or no -/
def answerBoolean : ScopedPath := ⟨.utterance, ⟨[⟨.map, "prompt"⟩, ⟨.bool, "boolean"⟩], by decide⟩⟩

def carriedIntent : ScopedPath := ⟨.conversation, intentPath⟩

def carriedIntentName : ScopedPath := intentNameIn .conversation

/-- the goals that were interrupted, the last one last -/
def previousIntents : ScopedPath := ⟨.conversation, ⟨[⟨.list, "previousIntents"⟩], by decide⟩⟩

/-- the goal that is being interrupted -/
def previousIntent : ScopedPath := ⟨.utterance, ⟨[⟨.str, "previousIntent"⟩], by decide⟩⟩

/-- the goal that is being taken up again -/
def nextIntent : ScopedPath := ⟨.utterance, ⟨[⟨.str, "nextIntent"⟩], by decide⟩⟩

def previousIntentAt (n : Nat) : ScopedPath :=
  ⟨.conversation, ⟨[⟨.list, "previousIntents"⟩, ⟨.str, toString n⟩], by
    simp [PathFault.ofSegments?, PathFault.first?, Sigil.isScalar]⟩⟩

end Dialogue.Slots
