import Dialogue.Dictionary.Basic
import Dialogue.Utterance

/-!
# Gazetteers

A gazetteer is a list of terms, of one word or more.  Its terms are found in utterances, and each choice of those
that do not overlap gives a reading in which they are entities.
-/

namespace Dialogue

/-- a term at a place among words -/
structure Found where
  span : Span
  term : String
  deriving DecidableEq, Repr

/-- terms, each under its words -/
structure Gazetteer where
  terms : Dictionary

namespace Gazetteer

/-- the terms of a text, one a line and in the form of its words; blank lines and lines that begin with `#` are left
out -/
def ofTerms (text : String) : Gazetteer :=
  ⟨(Text.lines text.toList).foldl (fun d line =>
    let line := Text.trim line
    let words := if line.head? = some '#' then [] else Text.tokenWords (String.ofList line)
    if words.isEmpty then d else d.insert words (Text.spaced words)) .empty⟩

def size (g : Gazetteer) : Nat :=
  g.terms.size

def contains (g : Gazetteer) (term : String) : Bool :=
  let words := Text.tokenWords term
  !words.isEmpty && g.terms.isComplete words

/-- the terms that `words` goes on with at position `start`, when `seen` are the words from `start` on that have been
looked at -/
def findFrom (g : Gazetteer) (start : Nat) (seen : List String) : List String → List Found
  | [] => []
  | w :: ws =>
    let seen := seen ++ [w]
    if g.terms.continues seen then
      match g.terms.payload? seen with
      | some term => ⟨⟨start, start + seen.length⟩, term⟩ :: findFrom g start seen ws
      | none => findFrom g start seen ws
    else []

/-- the terms at any position from `start` on -/
def findAt (g : Gazetteer) (start : Nat) : List String → List Found
  | [] => []
  | w :: ws => g.findFrom start [] (w :: ws) ++ findAt g (start + 1) ws

/-- every term at every place among words, by start and then by end -/
def find (g : Gazetteer) (words : List String) : List Found :=
  g.findAt 0 words

/-- the terms among the words of an utterance -/
def occurrences (g : Gazetteer) (u : Utterance) : List Found :=
  u.wordRuns.flatMap fun r => (g.find r.words).map fun f => { f with span := f.span.shift r.start }

/-- the tokens with an entity in place of each chosen term; `i` is the position of the first token, and `skip` tokens
belong to a term before it -/
def label (tag : String) (found : List Found) (chosen : List Span) (i : Nat) : Nat → List Token → List Token
  | _, [] => []
  | skip + 1, _ :: ts => label tag found chosen (i + 1) skip ts
  | 0, t :: ts =>
    match found.find? fun f => f.span.start == i && chosen.contains f.span with
    | some f => .entity tag f.term :: label tag found chosen (i + 1) (f.span.length - 1) ts
    | none => t :: label tag found chosen (i + 1) 0 ts

/-- the readings of an utterance in which some of the terms that do not overlap are entities with a tag, first the
one in which none are -/
def readings (g : Gazetteer) (u : Utterance) (tag : String) : List Utterance :=
  let found := g.occurrences u
  (Span.compatibleSubsets (found.map Found.span)).map fun chosen =>
    { u with tokens := label tag found chosen 0 0 u.tokens }

end Gazetteer

end Dialogue
