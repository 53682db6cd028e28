import Dialogue.Cli.Session
import Dialogue.Demo.Setup

/-!
# The program

Talks to a bot from the terminal.
-/

namespace Dialogue.Cli

def filesOf (c : Config) : List String :=
  let ofProps (ps : List (String × String)) := (Entries.get? "dict" ps).toList
  c.bots.flatMap fun b =>
    b.dict :: (b.workflows.flatMap fun w => w.utteranceProcessors.flatMap fun e => ofProps e.props)
      ++ b.goals.flatMap fun g => g.constraints.flatMap fun k => ofProps k.validatorParams

def readText? (path : String) : IO (Option String) := do
  try
    return some (← IO.FS.readFile path)
  catch _ => return none

/-- the server of a configuration file, with the files that it names -/
def loadFile (path : String) : IO (Except DialogueError Server) := do
  let base := Files.folderOf path
  match ← readText? path with
  | none => return .error (.unreadable path)
  | some text =>
    match Config.read? text with
    | none => return .error .malformedConfig
    | some c =>
      let mut texts := []
      for file in filesOf c do
        let path := Files.joinPath base file
        texts := (path, ← readText? path) :: texts
      return Server.ofConfig Demo.registry ⟨base, fun p => (texts.lookup p).join⟩ c

def idDigits : List Char :=
  "0123456789ABCDEFGHJKMNPQRSTVWXYZ".toList

/-- an id that has not been given before, as far as time and chance can tell -/
def newId : IO String := do
  let time ← IO.monoMsNow
  let noise ← IO.rand 0 ((1 <<< 80) - 1)
  let number := (time <<< 80) + noise
  return String.ofList ((List.range 26).reverse.map fun i => idDigits.getD ((number >>> (5 * i)) % 32) '0')

/-- reads and answers lines until the input or the session ends -/
partial def converse (s : Session) : IO UInt32 := do
  let input ← IO.getStdin
  let output ← IO.getStdout
  let line ← input.getLine
  if line.isEmpty then return 0
  match s.step (← newId) line with
  | .quit => return 0
  | .failed => return 1
  | .next text s =>
    output.putStr (text ++ Session.cue)
    output.flush
    converse s

def start (args : List String) : IO UInt32 := do
  match Options.read args with
  | .error .help =>
    IO.print helpText
    return 0
  | .error _ =>
    IO.eprint helpText
    return 2
  | .ok o =>
    let server ← match o.config with
      | some path => loadFile path
      | none => pure (Demo.server Demo.registry)
    match server >>= fun server => Session.start? server o with
    | .error e =>
      IO.eprintln ("Error: " ++ e.message)
      return 1
    | .ok session =>
      IO.print Session.cue
      (← IO.getStdout).flush
      converse session

end Dialogue.Cli

def main (args : List String) : IO UInt32 :=
  Dialogue.Cli.start args
