import Dialogue.Bot.Act
import Dialogue.Bot.Reading

/-!
# Turns

A bot answers an utterance with what it says, and with new stores for the user and the conversation.
-/

namespace Dialogue

open Slots

/-- what a bot says, and the stores after it -/
structure Turn where
  reply : String
  user : Store
  conversation : Store

namespace Bot

/-- the commands that begin a turn: the objects, the goal and the prompt of the conversation are taken up -/
def seeding : List Command :=
  [.copy objects partials, .copy intent carriedIntent, .copy answeredPrompt prompt]

/-- the commands that end a turn: the objects and the goal are kept -/
def carrying (goal : Option Node) : List Command :=
  .copy partials objects :: (goal.map (.put carriedIntentName)).toList

/-- a reply, and then what an action wants said, if anything, on a line of its own -/
def addToReply (reply : String) : Option String → String
  | none => reply
  | some spoken =>
    if spoken = "" then reply else if reply = "" then spoken else reply ++ "\n" ++ spoken

def processAll (b : Bot) (n : Nat) (actions : List Action) (reply : String) (s : Snapshot) :
    Run (String × Snapshot) :=
  actions.foldlM (fun (reply, s) a => do
    let outcome ← b.process n b.processor a s
    return (addToReply reply outcome.spoken, outcome.snapshot)) (reply, s)

/-- the answer to an utterance, when `n` actions can run inside each other -/
def answerWithin (n : Nat) (b : Bot) (input : String) (user conversation : Store) : Run Turn := do
  let s ← (Snapshot.mk user conversation .empty).update seeding
  let workflow ← b.workflow
  let response ← b.respond workflow (Utterance.parse input) s
  let s ← response.snapshot.update response.commands
  let (reply, s) ← b.processAll n response.actions response.spoken s
  let s ← s.update (carrying (← s.get intentName))
  return ⟨reply, s.user, s.conversation⟩

/-- as many actions can run inside each other -/
def nestingLimit : Nat := 1000000

def answer (b : Bot) (input : String) (user conversation : Store) : Run Turn :=
  b.answerWithin nestingLimit input user conversation

end Bot

end Dialogue
