import Dialogue.Bot.Workflow

/-!
# Bots

A bot goes by what it knows, its workflows, and what happens around its actions.
-/

namespace Dialogue

/-- what happens around an action: nothing else, or the goal is resolved again if the action has changed it -/
inductive Processor where
  | plain
  | revalidating
  deriving DecidableEq, Repr

/-- a bot; its first workflow and its first processor are in use -/
structure Bot extends Repertoire where
  workflows : List Workflow
  processors : List Processor

namespace Bot

/-- a bot that knows nothing but phrases -/
def ofDictionary (name : String) (d : Dictionary) (workflows : List Workflow) (processors : List Processor) : Bot :=
  ⟨⟨name, d, [], []⟩, workflows, processors⟩

/-- the bot with an action under a name, in place of the one it had there -/
def addAction (b : Bot) (name : String) (a : Action) : Bot :=
  { b with actions := Entries.insert name a b.actions }

/-- the bot with a goal, in place of the one of the same name -/
def addGoal (b : Bot) (g : Goal) : Bot :=
  { b with goals := Entries.insert g.name g b.goals }

/-- the workflow in use, of which there must be one -/
def workflow (b : Bot) : Except DialogueError Workflow :=
  match b.workflows.head? with
  | some w => .ok w
  | none => .error (.noWorkflow b.name)

/-- the processor in use -/
def processor (b : Bot) : Processor :=
  b.processors.head?.getD .revalidating

end Bot

end Dialogue
