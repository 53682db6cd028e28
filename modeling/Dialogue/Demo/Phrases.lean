/-!
# The phrases of a ticket tracker

What can be said to file a ticket, to give it to someone, to change its priority, and to answer a question.  The
phrases are all the combinations of a few words.
-/

namespace Dialogue.Demo

def optionally (words : List String) : List (List String) :=
  [[], words]

/-- what sets a slot -/
def setting (slot value : String) : String :=
  slot ++ " -> " ++ value ++ ";"

/-- what sets a slot if the phrase has certain words -/
def settingIf (words : List String) (slot value : String) : List String :=
  if words.isEmpty then [] else [setting slot value]

/-- a phrase with what it sets -/
def row (words settings : List String) : String :=
  " ".intercalate words ++ "," ++ " ".intercalate settings

/-- phrases that file a ticket -/
def filing : List String :=
  (optionally ["*"]).flatMap fun lead =>
  ["open", "create", "start", "make", "assign"].flatMap fun verb =>
  (optionally ["EMP_MKR"]).flatMap fun employee =>
  [[], ["a"], ["an"]].flatMap fun article =>
  (optionally ["PRIO_MKR"]).flatMap fun priority =>
  ["ticket", "jira"].flatMap fun noun =>
  [[], ["called", "*"], ["named", "*"]].map fun title =>
  row (lead ++ [verb] ++ employee ++ article ++ priority ++ [noun] ++ title)
    ([setting "utt:/intent.name" "createTicket"]
      ++ settingIf employee "utt:/objects/ticket.assignee" "EMP_MKR_0"
      ++ settingIf priority "utt:/objects/ticket.priority" "PRIO_MKR_0"
      ++ settingIf title "utt:/objects/ticket.title" (if lead.isEmpty then "WC_0" else "WC_1"))

/-- what sets the slot to be changed and its new value -/
def changing (slot value : String) : List String :=
  [setting "utt:/objects/changeTicket.property" ("utt:/objects/ticket." ++ slot),
    setting "utt:/objects/changeTicket.name" slot,
    setting "utt:/objects/changeTicket.value" value]

def assigning : List String :=
  (optionally ["*"]).flatMap fun lead =>
  ["assign", "give", "assigned", "given"].flatMap fun verb =>
  (optionally ["*"]).flatMap fun gap =>
  (optionally ["*"]).map fun tail =>
  row (lead ++ [verb] ++ gap ++ ["EMP_MKR"] ++ tail) (changing "assignee" "EMP_MKR_0")

def prioritizing : List String :=
  (optionally ["*"]).flatMap fun lead =>
  ["change", "set"].flatMap fun verb =>
  (optionally ["the"]).flatMap fun article =>
  (optionally ["to"]).flatMap fun preposition =>
  (optionally ["*"]).map fun tail =>
  row (lead ++ [verb] ++ article ++ ["priority"] ++ preposition ++ ["PRIO_MKR"] ++ tail)
    (changing "priority" "PRIO_MKR_0")

def answering : List String :=
  ["*,utt:/prompt.value -> WC_0", "EMP_MKR,utt:/prompt.value -> EMP_MKR_0", "PRIO_MKR,utt:/prompt.value -> PRIO_MKR_0"]

/-- all phrases, one a line -/
def phrases : String :=
  String.join ((filing ++ assigning ++ prioritizing ++ answering).map (· ++ "\n"))

end Dialogue.Demo
