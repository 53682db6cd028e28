import Dialogue.Bot.Repertoire

/-!
# Responses

What a bot would say and do after an utterance, and how well it fits.
-/

namespace Dialogue

/-- the share of the constraints of a goal that hold, which is a whole if there are none -/
structure Score where
  held : Nat
  total : Nat
  positive : 0 < total
  deriving DecidableEq, Repr

namespace Score

def zero : Score := ⟨0, 1, Nat.one_pos⟩

def one : Score := ⟨1, 1, Nat.one_pos⟩

/-- the score of `held` among `total` constraints -/
def of (held total : Nat) : Score :=
  if h : total = 0 then one else ⟨held, total, Nat.pos_of_ne_zero h⟩

/-- whether a share is greater than another -/
def exceeds (s t : Score) : Bool :=
  t.held * s.total < s.held * t.total

def text (s : Score) : String :=
  Number.plainText (Number.nearest s.held s.total)

end Score

/-- what a bot would say and do; neither the commands nor the actions have been carried out in the snapshot -/
structure Response where
  spoken : String
  snapshot : Snapshot
  score : Score
  commands : List Command := []
  actions : List Action := []

def notUnderstood : String :=
  "Sorry, I didn't understand"

def Response.ofNothing (s : Snapshot) : Response :=
  { spoken := notUnderstood, snapshot := s, score := .zero }

end Dialogue
