import Dialogue.Bot.Answer
import Dialogue.Config.OfJson
import Dialogue.Registry.Build

/-!
# Servers

A server holds bots, and the stores of the users and of their conversations.  The ids of conversations come from a
source outside of the server.
-/

namespace Dialogue

/-- what a user says to a bot over time; the user is the one who began it -/
structure Conversation where
  bot : String
  user : String
  store : Store

/-- bots with how often their actions have run, users and conversations -/
structure Server where
  bots : List (String × Bot)
  tallies : List (String × Tally)
  users : List (String × Store)
  conversations : List (String × Conversation)

/-- what a bot says, and in which conversation -/
structure Reply where
  text : String
  conversation : String

namespace Server

/-- a server with bots, the last of each name -/
def ofBots (bots : List Bot) : Server :=
  ⟨Entries.ofList (bots.map fun b => (b.name, b)), [], [], []⟩

def ofConfig (r : Registry) (fs : Files) (c : Config) : Except DialogueError Server := do
  return ofBots (← c.bots.mapM (r.buildBot fs))

/-- a server with the bots of a configuration file -/
def load (r : Registry) (fs : Files) (file : String) : Except DialogueError Server := do
  match Config.read? (← fs.text file) with
  | some c => ofConfig r fs c
  | none => throw .malformedConfig

/-- the bot of a name, which must exist -/
def bot (s : Server) (name : String) : Except DialogueError Bot :=
  match Entries.get? name s.bots with
  | some b => .ok b
  | none => .error (.unknownBot name)

def botNames (s : Server) : List String :=
  Entries.keys s.bots

def userStore (s : Server) (user : String) : Store :=
  (Entries.get? user s.users).getD .empty

def setUser (s : Server) (user : String) (store : Store) : Server :=
  { s with users := Entries.insert user store s.users }

def conversation (s : Server) (id : String) : Except DialogueError Conversation :=
  match Entries.get? id s.conversations with
  | some c => .ok c
  | none => .error (.unknownConversation id)

def setConversation (s : Server) (id : String) (c : Conversation) : Server :=
  { s with conversations := Entries.insert id c s.conversations }

/-- the server with one more conversation, and its id, which is `new`: what the source of ids has just given -/
def start (s : Server) (user bot new : String) : Except DialogueError (String × Server) := do
  let _ ← s.bot bot
  return (new, (s.setUser user (s.userStore user)).setConversation new ⟨bot, user, .empty⟩)

/-- the answer of a bot in a conversation -/
def answerIn (s : Server) (id : String) (c : Conversation) (name : String) (b : Bot) (input : String) :
    Except Halt Reply × Server :=
  let tally := (Entries.get? name s.tallies).getD []
  match (b.answer input (s.userStore c.user) c.store).run.run tally with
  | (result, tally) =>
    let s := { s with tallies := Entries.insert name tally s.tallies }
    match result with
    | .error h => (.error h, s)
    | .ok turn =>
      (.ok ⟨turn.reply, id⟩,
        (s.setUser c.user turn.user).setConversation id { c with store := turn.conversation })

/-- the answer to what a user says in a conversation, or in a new one with the id `new` -/
def speak (s : Server) (input user : String) (id : Option String) (bot new : String) : Except Halt Reply × Server :=
  let opened : Except DialogueError (String × Server) := match id with
    | some id => .ok (id, s)
    | none => s.start user bot new
  match opened with
  | .error e => (.error (.failed e), s)
  | .ok (id, s) =>
    match s.conversation id with
    | .error e => (.error (.failed e), s)
    | .ok c =>
      match s.bot bot with
      | .error e => (.error (.failed e), s)
      | .ok b => s.answerIn id c bot b input

end Server

end Dialogue
