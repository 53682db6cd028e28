import Dialogue.Text.Scan

/-!
# Command-line options

The options of the program and how its arguments are read.  An option that was given last waits until the next one,
or the end of the arguments, before its value is looked at.
-/

namespace Dialogue.Cli

inductive LogLevel where
  | trace
  | debug
  | info
  | warn
  | error
  deriving DecidableEq, Repr

namespace LogLevel

def text : LogLevel → String
  | .trace => "trace"
  | .debug => "debug"
  | .info => "info"
  | .warn => "warn"
  | .error => "error"

def ofText? (s : String) : Option LogLevel :=
  [.trace, .debug, .info, .warn, .error].find? fun l => l.text = s

end LogLevel

/-- why the arguments are not options with values -/
inductive UsageError where
  | unknownArgument
  | invalidValue
  | tooManyValues
  | argumentConflict
  | help
  deriving DecidableEq, Repr

inductive Setting where
  | config
  | bot
  | user
  | logLevel
  deriving DecidableEq, Repr

namespace Setting

def ofLong? (name : String) : Option Setting :=
  match name with
  | "config" => some .config
  | "bot" => some .bot
  | "user" => some .user
  | "log-level" => some .logLevel
  | _ => none

def ofShort? : Char → Option Setting
  | 'c' => some .config
  | 'b' => some .bot
  | 'u' => some .user
  | _ => none

end Setting

/-- the options that have been given -/
structure Given where
  config : Option String := none
  bot : Option String := none
  user : Option String := none
  logLevel : Option LogLevel := none
  deriving DecidableEq, Repr

namespace Given

def has (g : Given) : Setting → Bool
  | .config => g.config.isSome
  | .bot => g.bot.isSome
  | .user => g.user.isSome
  | .logLevel => g.logLevel.isSome

/-- gives an option a value, once; a path is not empty, and a level is one of the five -/
def give (g : Given) (s : Setting) (value : String) : Except UsageError Given :=
  if g.has s then .error .argumentConflict
  else match s with
    | .config => if value = "" then .error .invalidValue else .ok { g with config := some value }
    | .bot => .ok { g with bot := some value }
    | .user => .ok { g with user := some value }
    | .logLevel =>
      match LogLevel.ofText? value with
      | some l => .ok { g with logLevel := some l }
      | none => .error .invalidValue

end Given

/-- an option that waits, with its value once that has been read -/
abbrev Waiting := Option (Setting × Option String)

/-- gives the option that waits its value -/
def settle (g : Given) : Waiting → Except UsageError Given
  | none => .ok g
  | some (_, none) => .error .invalidValue
  | some (s, some value) => g.give s value

/-- reads the rest of the arguments; after `--` nothing is an option -/
def readFrom (g : Given) (waiting : Waiting) (ended : Bool) : List String → Except UsageError Given
  | [] => settle g waiting
  | arg :: args =>
    if ended then .error .unknownArgument
    else match arg.toList with
      | ['-', '-'] => readFrom g waiting true args
      | '-' :: '-' :: long =>
        let (name, value) := match Text.cutAt ['='] long with
          | some (name, value) => (String.ofList name, some (String.ofList value))
          | none => (String.ofList long, none)
        match Setting.ofLong? name, value with
        | some s, some value => do readFrom (← (← settle g waiting).give s value) none false args
        | some s, none => do readFrom (← settle g waiting) (some (s, none)) false args
        | none, some _ => if name = "help" then .error .tooManyValues else .error .unknownArgument
        | none, none => do
          if name = "help" then
            let _ ← settle g waiting
            throw .help
          else throw .unknownArgument
      | '-' :: c :: rest =>
        match Setting.ofShort? c, rest with
        | some s, [] => do readFrom (← settle g waiting) (some (s, none)) false args
        | some s, rest => do
          let value := String.ofList ((Text.dropStart? ['='] rest).getD rest)
          readFrom (← (← settle g waiting).give s value) none false args
        | none, _ => do
          if c = 'h' then
            let _ ← settle g waiting
            throw .help
          else throw .unknownArgument
      | _ =>
        match waiting with
        | some (s, none) => readFrom g (some (s, some arg)) false args
        | _ => .error .unknownArgument

structure Options where
  config : Option String
  bot : String
  user : String
  logLevel : LogLevel
  deriving DecidableEq, Repr

def Options.read (args : List String) : Except UsageError Options := do
  let g ← readFrom {} none false args
  return ⟨g.config, g.bot.getD "default", g.user.getD "me", g.logLevel.getD .warn⟩

def helpText : String :=
  "Talk to a Parley bot from the terminal\n\n"
    ++ "Usage: parley [OPTIONS]\n\n"
    ++ "Options:\n"
    ++ "  -c, --config <CONFIG>        Bot configuration file. Defaults to the bundled ticket bot\n"
    ++ "  -b, --bot <BOT>              Bot to talk to [default: default]\n"
    ++ "  -u, --user <USER>            Who is talking [default: me]\n"
    ++ "      --log-level <LOG_LEVEL>  Used when `RUST_LOG` is not set [default: warn] "
    ++ "[possible values: trace, debug, info, warn, error]\n"
    ++ "  -h, --help                   Print help\n"

end Dialogue.Cli
