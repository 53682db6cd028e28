import Dialogue.Config.Basic
import Dialogue.Demo.Phrases
import Dialogue.Demo.Tickets
import Dialogue.Folder
import Dialogue.Server

/-!
# The ticket tracker

The configuration of a bot that files tickets, and the files that it names.
-/

namespace Dialogue.Demo

def folder : Folder :=
  ⟨[("tickets.csv", some phrases),
    ("employees.csv", some "matt\nsteve\njoe\ngeorge washington\n"),
    ("priorities.csv", some "high\nlow\nblocker\nsuper blocker\n")]⟩

/-- an extractor of the terms of a file -/
def extractor (tag dict : String) : ComponentConfig :=
  ⟨"entityExtractor", [("alias", tag), ("dict", dict)]⟩

def filingConfig : GoalConfig where
  name := "createTicket"
  constraints := [
    ⟨"utt:/objects/ticket.title", "What should we call this ticket?", none, "notNull", []⟩,
    ⟨"utt:/objects/ticket.assignee", "Who should we assign this ticket to?", none, "notNull", []⟩,
    ⟨"utt:/objects/ticket.priority", "What priority should we set?",
      some "Priority must be high, low, blocker or super blocker.", "oneOf", [("dict", "priorities.csv")]⟩,
    ⟨"utt:/objects/ticket.estimate", "How long should we estimate?",
      some "Estimates are given in hours.", "contains", [("match", "hour")]⟩]
  successTemplate := [
    "You are creating a ticket called <utt:/objects/ticket.title>, ",
    "assigned to <utt:/objects/ticket.assignee>, ",
    "with priority of <utt:/objects/ticket.priority>, ",
    "and an estimate of <utt:/objects/ticket.estimate>."]
  successActions := ["createTicket"]
  confirmOnValid := true
  initialResponsePrompt := none
  denyGoal := some "changeTicket"
  objectSlots := ["/ticket"]

def changingConfig : GoalConfig where
  name := "changeTicket"
  constraints := []
  successTemplate := [
    "You changed <utt:/objects/changeTicket.name> ",
    "to <utt:/objects/changeTicket.value>."]
  successActions := ["changeTicket"]
  confirmOnValid := false
  initialResponsePrompt := some "What would you like to change?"
  denyGoal := none
  objectSlots := ["/changeTicket"]

def config : Config where
  bots := [{
    name := "default"
    dict := "tickets.csv"
    workflows := [{
      name := "tickets"
      utteranceProcessors := [extractor "EMP" "employees.csv", extractor "PRIO" "priorities.csv"]
      goalMatchers := [⟨"explicit", []⟩]
      goalResolvers := [⟨"validating", []⟩]
      promptHandlers := [⟨"default", []⟩] }]
    actionProcessors := [⟨"revalidating", []⟩]
    actions := [⟨"createTicket", "createTicket", []⟩, ⟨"changeTicket", "changeTicket", []⟩]
    goals := [filingConfig, changingConfig] }]

def server (r : Registry) : Except DialogueError Server :=
  Server.ofConfig r ⟨"", folder.read?⟩ config

end Dialogue.Demo
