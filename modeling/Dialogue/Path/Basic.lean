import Dialogue.Number.Reading

/-!
# Paths

A path leads through nested maps and lists to a value.  Each of its segments is a sigil, which says what kind of
value lies there, and a key.  Under a list the key is read as an index.  Only the last segment may have the sigil
of a scalar; no key is empty.
-/

namespace Dialogue

/-- the five kinds of values -/
inductive Sigil where
  | map
  | list
  | str
  | num
  | bool
  deriving DecidableEq, Repr

namespace Sigil

def ofChar? : Char → Option Sigil
  | '/' => some .map
  | '|' => some .list
  | '.' => some .str
  | '#' => some .num
  | '?' => some .bool
  | _ => none

/-- the character that writes a sigil -/
def char : Sigil → Char
  | .map => '/'
  | .list => '|'
  | .str => '.'
  | .num => '#'
  | .bool => '?'

def isScalar : Sigil → Bool
  | .map => false
  | .list => false
  | _ => true

def shape : Sigil → String
  | .map => "map"
  | .list => "list"
  | .str => "string"
  | .num => "number"
  | .bool => "boolean"

@[simp] theorem ofChar?_char (s : Sigil) : ofChar? s.char = some s := by
  cases s <;> rfl

theorem eq_char_of_ofChar? {c : Char} {s : Sigil} (h : ofChar? c = some s) : c = s.char := by
  unfold ofChar? at h
  split at h <;> simp at h <;> subst h <;> rfl

end Sigil

/-- a step of a path -/
structure Segment where
  sigil : Sigil
  key : String
  deriving DecidableEq, Repr

namespace Segment

def index? (s : Segment) : Option Nat :=
  Number.readIndex? s.key

def chars (s : Segment) : List Char :=
  s.sigil.char :: s.key.toList

def text (s : Segment) : String :=
  String.ofList s.chars

end Segment

/-- why a text or a list of segments is no path -/
inductive PathFault where
  | empty
  | noSigil (first : Char)
  | emptyKey (position : Nat)
  | innerScalar (sigil : Sigil)
  deriving DecidableEq, Repr

namespace PathFault

/-- the first fault of the segments from position `n` on -/
def first? (n : Nat) : List Segment → Option PathFault
  | [] => none
  | s :: ss =>
    if s.key = "" then some (.emptyKey n)
    else if s.sigil.isScalar && !ss.isEmpty then some (.innerScalar s.sigil)
    else first? (n + 1) ss

def ofSegments? : List Segment → Option PathFault
  | [] => some .empty
  | ss => first? 1 ss

def message : PathFault → String
  | .empty => "expression is empty"
  | .noSigil c => "expression must start with a sigil, found '" ++ String.singleton c ++ "'"
  | .emptyKey n => s!"segment {n} has an empty key"
  | .innerScalar s => "'" ++ String.singleton s.char ++ "' may only appear in the final segment"

end PathFault

/-- a list of segments without a fault -/
structure Path where
  segments : List Segment
  sound : PathFault.ofSegments? segments = none
  deriving DecidableEq

namespace Path

theorem segments_ne_nil (p : Path) : p.segments ≠ [] := by
  intro h
  have := p.sound
  simp [h, PathFault.ofSegments?] at this

/-- the last segment, which decides the kind of value that is read or written -/
def leaf (p : Path) : Segment :=
  p.segments.getLast p.segments_ne_nil

def inner (p : Path) : List Segment :=
  p.segments.dropLast

theorem inner_append_leaf (p : Path) : p.inner ++ [p.leaf] = p.segments :=
  List.dropLast_concat_getLast p.segments_ne_nil

def chars (p : Path) : List Char :=
  p.segments.flatMap Segment.chars

def text (p : Path) : String :=
  String.ofList p.chars

def ofSegments (ss : List Segment) : Except PathFault Path :=
  match h : PathFault.ofSegments? ss with
  | some f => .error f
  | none => .ok ⟨ss, h⟩

end Path

end Dialogue
