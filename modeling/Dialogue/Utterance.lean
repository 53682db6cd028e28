import Dialogue.Span
import Dialogue.Token
import Dialogue.Text.Scan

/-!
# Utterances

What was said, as a sequence of tokens.  One text has several readings, which differ in the words that are taken for
entities.
-/

namespace Dialogue

/-- a sequence of tokens, and the text they were read from -/
structure Utterance where
  tokens : List Token
  typed : String
  deriving DecidableEq, Repr

/-- a maximal run of words, at the position of its first -/
structure WordRun where
  start : Nat
  words : List String
  deriving DecidableEq, Repr

def WordRun.span (r : WordRun) : Span :=
  ⟨r.start, r.start + r.words.length⟩

namespace Utterance

def parse (text : String) : Utterance :=
  ⟨(Text.tokenWords text).map .literal, text⟩

def text (u : Utterance) : String :=
  Text.spaced (u.tokens.map Token.text)

/-- the run of words that ends before the next entity, if it has any -/
def closeRun (start : Nat) (words : List String) : List WordRun :=
  if words.isEmpty then [] else [⟨start, words⟩]

/-- the runs of words among tokens, after the words `words` from position `start` on -/
def runsFrom (start : Nat) (words : List String) : List Token → List WordRun
  | [] => closeRun start words
  | .literal w :: ts => runsFrom start (words ++ [w]) ts
  | .entity _ _ :: ts => closeRun start words ++ runsFrom (start + words.length + 1) [] ts

/-- the maximal runs of words -/
def wordRuns (u : Utterance) : List WordRun :=
  runsFrom 0 [] u.tokens

end Utterance

end Dialogue
