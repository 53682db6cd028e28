import Dialogue.Bot.Basic
import Dialogue.Match.Payload

/-!
# Readings of an utterance

An utterance is read with and without the entities in it.  Each reading that matches a phrase gives a response; the
response with the greatest score is the bot's.
-/

namespace Dialogue

/-- the items of `xs` that have not been seen, after those that have -/
def addUnseen {α : Type} [DecidableEq α] (seen xs : List α) : List α :=
  xs.foldl (fun seen x => if x ∈ seen then seen else seen ++ [x]) seen

/-- the readings of an utterance, each once: every processor reads what the one before it gives -/
def Workflow.readings (w : Workflow) (u : Utterance) : Except DialogueError (List Utterance) :=
  w.utteranceProcessors.foldlM (fun readings p =>
    readings.foldlM (fun next r => return addUnseen next (← p.process r)) []) [u]

/-- one of the readings of an utterance -/
def Workflow.Reads (w : Workflow) (u v : Utterance) : Prop :=
  ∃ readings, w.readings u = .ok readings ∧ v ∈ readings

namespace Bot

/-- what is said and done about one reading; nothing if it matches no phrase or there is no goal -/
def candidate (b : Bot) (w : Workflow) (s : Snapshot) (reading : Utterance) :
    Except DialogueError (Option Response) := do
  match b.dictionary.lookup reading with
  | .error m => throw (.emptyMarker m)
  | .ok none => return none
  | .ok (some payload) =>
    let commands ← Command.parseAll payload
    let s ← s.update commands
    match ← w.goalMatcher.assign b.toRepertoire s with
    | none => return none
    | some goal =>
      let s ← w.promptHandler.handle s
      return some (← w.goalResolver.resolve b.toRepertoire goal s)

/-- the better of two responses, the first of two that are equally good -/
def better (best : Option Response) (r : Response) : Option Response :=
  match best with
  | none => some r
  | some b => if r.score.exceeds b.score then some r else some b

/-- the best response to the readings and `best`; a reading with a fault of its own has none -/
def bestOf (b : Bot) (w : Workflow) (s : Snapshot) :
    List Utterance → Option Response → Except DialogueError (Option Response)
  | [], best => .ok best
  | r :: rs, best =>
    match b.candidate w s r with
    | .ok (some response) => bestOf b w s rs (better best response)
    | .ok none => bestOf b w s rs best
    | .error e => if e.dropsReading then bestOf b w s rs best else .error e

/-- the response to an utterance -/
def respond (b : Bot) (w : Workflow) (u : Utterance) (s : Snapshot) : Except DialogueError Response := do
  let readings ← w.readings u
  return (← b.bestOf w s readings none).getD (.ofNothing s)

end Bot

end Dialogue
