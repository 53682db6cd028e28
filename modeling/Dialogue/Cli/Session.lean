import Dialogue.Cli.Options
import Dialogue.Server
import Dialogue.Store.Tree

/-!
# Sessions

A session reads lines and answers them.  Lines that begin with a colon are for the program, all others for the bot.
-/

namespace Dialogue.Cli

/-- a server, the bot and the user of a session, and the conversation if one has begun -/
structure Session where
  server : Server
  bot : String
  user : String
  conversation : Option String := none

/-- what a line leads to: an output and the session after it, or the end of the session -/
inductive Step where
  | next (output : String) (session : Session)
  | quit
  | failed

namespace Session

/-- written before each line is read -/
def cue : String := "> "

/-- the session with a server and options; the bot must exist -/
def start? (server : Server) (o : Options) : Except DialogueError Session := do
  let _ ← server.bot o.bot
  return { server := server, bot := o.bot, user := o.user }

/-- the answer of the bot; a conversation that begins gets the id `new` -/
def speak (s : Session) (new input : String) : Step :=
  match s.server.speak input s.user s.conversation s.bot new with
  | (.error _, _) => .failed
  | (.ok reply, server) =>
    .next (reply.text ++ "\n") { s with server := server, conversation := some reply.conversation }

def drawState (s : Session) : Step :=
  match s.conversation with
  | none => .next "(no conversation yet)\n" s
  | some id =>
    match s.server.conversation id with
    | .ok c => .next c.store.tree s
    | .error _ => .failed

/-- what a line leads to -/
def step (s : Session) (new line : String) : Step :=
  match String.ofList (Text.trim line.toList) with
  | "" => .next "" s
  | ":quit" => .quit
  | ":new" => .next "(new conversation)\n" { s with conversation := none }
  | ":state" => s.drawState
  | input => s.speak new input

/-- the output for lines, and whether the session has not failed; the source of ids gives one for each line -/
def transcript (s : Session) (ids : Nat → String) : List String → String × Bool
  | [] => ("", true)
  | line :: lines =>
    match s.step (ids 0) line with
    | .quit => ("", true)
    | .failed => ("", false)
    | .next output s =>
      let (rest, ok) := s.transcript (fun n => ids (n + 1)) lines
      (output ++ cue ++ rest, ok)

end Session

/-- the output of a run of the program -/
structure Result where
  output : String
  code : Nat
  deriving DecidableEq, Repr

/-- a run of the program on arguments and an input; `load` is the server of a configuration file, or of none, and
`ids` are the ids that the source gives -/
def run (load : Option String → Except DialogueError Server) (ids : Nat → String) (args : List String)
    (input : String) : Result :=
  match Options.read args with
  | .error .help => ⟨helpText, 0⟩
  | .error _ => ⟨"", 2⟩
  | .ok o =>
    match load o.config >>= fun server => Session.start? server o with
    | .error _ => ⟨"", 1⟩
    | .ok session =>
      let (output, ok) := session.transcript ids ((Text.lines input.toList).map String.ofList)
      ⟨Session.cue ++ output, if ok then 0 else 1⟩

end Dialogue.Cli
