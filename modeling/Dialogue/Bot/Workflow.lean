import Dialogue.Bot.Resolve
import Dialogue.Gazetteer
import Dialogue.Prompt

/-!
# Workflows

An utterance goes through stages: it is read, each reading is about a goal, the answer to the pending prompt is taken,
and the goal is resolved.  What a stage does is open; each but the first has a built-in form, which is in use where no
other is given.
-/

namespace Dialogue

/-- reads an utterance, perhaps in several ways -/
structure UtteranceProcessor where
  process : Utterance → Except DialogueError (List Utterance)

/-- finds the goal that a reading is about, if there is one -/
structure GoalMatcher where
  assign : Repertoire → Snapshot → Except DialogueError (Option Goal)

/-- decides what is said and done about a goal -/
structure GoalResolver where
  resolve : Repertoire → Goal → Snapshot → Except DialogueError Response

/-- takes the answer to the pending prompt -/
structure PromptHandler where
  handle : Snapshot → Except DialogueError Snapshot

/-- finds the terms of a gazetteer and tags them -/
structure Extractor where
  tag : String
  gazetteer : Gazetteer

namespace Extractor

def readings (e : Extractor) (u : Utterance) : List Utterance :=
  e.gazetteer.readings u e.tag

def processor (e : Extractor) : UtteranceProcessor where
  process u := .ok (e.readings u)

end Extractor

/-- takes the goal that is named as active -/
def GoalMatcher.explicit : GoalMatcher where
  assign := Repertoire.activeGoal

/-- goes by the constraints of the goal, and by what the user has agreed to -/
def GoalResolver.validating : GoalResolver where
  resolve := Repertoire.resolve

/-- puts the answer into the slot that was asked about -/
def PromptHandler.default : PromptHandler where
  handle s := s.takeAnswer

/-- the stages of an utterance; all of its processors are in use, and the first of the others -/
structure Workflow where
  name : String
  utteranceProcessors : List UtteranceProcessor := []
  goalMatchers : List GoalMatcher := []
  goalResolvers : List GoalResolver := []
  promptHandlers : List PromptHandler := []

namespace Workflow

/-- a workflow that reads with extractors, if at all, and has none but the built-in stages after that -/
def basic (name : String) (es : List Extractor := []) : Workflow where
  name := name
  utteranceProcessors := es.map Extractor.processor

def goalMatcher (w : Workflow) : GoalMatcher :=
  w.goalMatchers.head?.getD .explicit

def goalResolver (w : Workflow) : GoalResolver :=
  w.goalResolvers.head?.getD .validating

def promptHandler (w : Workflow) : PromptHandler :=
  w.promptHandlers.head?.getD .default

end Workflow

end Dialogue
