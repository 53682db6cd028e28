import Dialogue.Entries

/-!
# Phrase dictionaries

A dictionary holds patterns, sequences of words, each with a payload.  It is a tree whose branches are words, so that
the beginnings of patterns can be looked up as well as patterns.
-/

namespace Dialogue

/-- the patterns that begin with the same words: the payload of these words alone, and the patterns by their next
word -/
inductive PhraseTree where
  | node (payload : Option String) (children : List (String × PhraseTree))

namespace PhraseTree

def empty : PhraseTree :=
  .node none []

def payload : PhraseTree → Option String
  | .node p _ => p

def children : PhraseTree → List (String × PhraseTree)
  | .node _ cs => cs

/-- the patterns that go on with the words, without them -/
def after? : PhraseTree → List String → Option PhraseTree
  | t, [] => some t
  | t, w :: ws =>
    match Entries.get? w t.children with
    | some child => after? child ws
    | none => none

/-- the tree with one more pattern; a pattern that is there keeps its payload -/
def insert (payload : String) : List String → PhraseTree → PhraseTree
  | [], .node p cs => .node (some (p.getD payload)) cs
  | w :: ws, .node p cs => .node p (Entries.insert w (insert payload ws ((Entries.get? w cs).getD empty)) cs)

end PhraseTree

/-- patterns with their payloads, and how many they are -/
structure Dictionary where
  tree : PhraseTree
  size : Nat

namespace Dictionary

def empty : Dictionary :=
  ⟨.empty, 0⟩

/-- whether some pattern begins with the words -/
def continues (d : Dictionary) (words : List String) : Bool :=
  (d.tree.after? words).isSome

def payload? (d : Dictionary) (words : List String) : Option String :=
  (d.tree.after? words).bind PhraseTree.payload

def isComplete (d : Dictionary) (words : List String) : Bool :=
  (d.payload? words).isSome

/-- the dictionary with a pattern, unless it has one of the same words -/
def insert (d : Dictionary) (words : List String) (payload : String) : Dictionary :=
  if d.isComplete words then d else ⟨d.tree.insert payload words, d.size + 1⟩

/-- whether a pattern is new to the dictionary, and the dictionary with it -/
def add (d : Dictionary) (words : List String) (payload : String) : Bool × Dictionary :=
  (!d.isComplete words, d.insert words payload)

def isEmpty (d : Dictionary) : Bool :=
  d.size == 0

end Dictionary

end Dialogue
