import Dialogue.Dictionary.Basic
import Dialogue.Marker
import Dialogue.Token
import Dialogue.Text.Scan

/-!
# Matching tokens with patterns

The tokens are read once from left to right, along the patterns of a dictionary.  Where a word does not go on, a
wildcard is opened in its place, or as little further left as some pattern allows; it takes words until one of them
goes on again.  Entities are never part of a wildcard.
-/

namespace Dialogue

/-- the pattern word that any words may take the place of -/
def wildcard : String := "*"

/-- what a match took: the words of each wildcard, and the values of the entities with each tag -/
structure Captures where
  wildcards : List String
  entities : List (String × List String)
  deriving DecidableEq, Repr

namespace Captures

def empty : Captures :=
  ⟨[], []⟩

def addWildcard (c : Captures) (words : List String) : Captures :=
  { c with wildcards := c.wildcards ++ [Text.spaced words] }

def addEntity (c : Captures) (tag value : String) : Captures :=
  { c with entities := Entries.insert tag ((Entries.get? tag c.entities).getD [] ++ [value]) c.entities }

/-- what a marker stands for -/
def resolve? (c : Captures) : Marker → Option String
  | .wildcard n => c.wildcards[n]?
  | .entity tag n => (Entries.get? tag c.entities).bind fun values => values[n]?

end Captures

/-- a pattern, and what it took of the tokens -/
structure Match where
  pattern : List String
  captures : Captures
  deriving DecidableEq, Repr

/-- how far the tokens have been matched: the pattern words so far, how many of them no later wildcard may take, the
words of the wildcard that is open, if one is, and what has been taken -/
structure Progress where
  pattern : List String
  pinned : Nat
  wild : Option (List String)
  captures : Captures
  deriving DecidableEq, Repr

namespace Progress

/-- nothing has been matched -/
def start : Progress :=
  ⟨[], 0, none, .empty⟩

/-- what has been taken once an open wildcard is closed -/
def closed (p : Progress) : Captures :=
  match p.wild with
  | some words => p.captures.addWildcard words
  | none => p.captures

/-- how many of the first `n` pattern words stay when a wildcard follows them: as many as a pattern allows, and at
least the pinned ones -/
def stay? (d : Dictionary) (p : Progress) : Nat → Option Nat
  | 0 => if d.continues [wildcard] then some 0 else none
  | n + 1 =>
    if d.continues (p.pattern.take (n + 1) ++ [wildcard]) then some (n + 1)
    else if n + 1 ≤ p.pinned then none
    else stay? d p n

/-- opens a wildcard for a word and the pattern words that do not stay -/
def openWildcard? (d : Dictionary) (p : Progress) (word : String) : Option Progress :=
  (p.stay? d p.pattern.length).map fun n =>
    { p with pattern := p.pattern.take n ++ [wildcard], pinned := n + 1, wild := some (p.pattern.drop n ++ [word]) }

/-- matches one more token -/
def step? (d : Dictionary) (p : Progress) : Token → Option Progress
  | .literal word =>
    if d.continues (p.pattern ++ [word]) then
      some { p with pattern := p.pattern ++ [word], wild := none, captures := p.closed }
    else match p.wild with
      | some words => some { p with wild := some (words ++ [word]) }
      | none => p.openWildcard? d word
  | .entity tag value =>
    let pattern := p.pattern ++ [(Token.entity tag value).spelling]
    if d.continues pattern then some ⟨pattern, pattern.length, none, p.closed.addEntity tag value⟩ else none

/-- the match of all tokens, if the pattern words so far are a pattern -/
def finish? (d : Dictionary) (p : Progress) : Option Match :=
  if d.isComplete p.pattern then some ⟨p.pattern, p.closed⟩ else none

end Progress

/-- the match of a sequence of tokens -/
def Match.find? (d : Dictionary) (tokens : List Token) : Option Match :=
  (tokens.foldlM (Progress.step? d) .start).bind (Progress.finish? d)

end Dialogue
