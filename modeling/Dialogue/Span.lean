/-!
# Spans

Ranges of token positions, and the choices of spans that do not overlap.
-/

namespace Dialogue

/-- the positions from `start` up to, but without, `stop` -/
structure Span where
  start : Nat
  stop : Nat
  deriving DecidableEq, Repr

namespace Span

def length (s : Span) : Nat :=
  s.stop - s.start

def isEmpty (s : Span) : Bool :=
  s.stop ≤ s.start

/-- whether each of two spans starts before the other stops -/
def overlaps (s t : Span) : Bool :=
  s.start < t.stop && t.start < s.stop

/-- the span `n` positions further on -/
def shift (s : Span) (n : Nat) : Span :=
  ⟨s.start + n, s.stop + n⟩

/-- the order of spans: by start, and then by stop -/
def before (s t : Span) : Bool :=
  s.start < t.start || (s.start == t.start && s.stop < t.stop)

def text (s : Span) : String :=
  s!"{s.start}..{s.stop}"

/-- the choices of `chosen` that `s` can join, each with `s` -/
def extensions (s : Span) (chosen : List (List Span)) : List (List Span) :=
  (chosen.filter fun c => c.all fun t => !t.overlaps s).map (· ++ [s])

/-- every choice of spans without an overlap, in the order of binary numbers: a chosen span is a one, and the first
span is the last digit -/
def compatibleSubsets (spans : List Span) : List (List Span) :=
  spans.foldl (fun chosen s => chosen ++ extensions s chosen) [[]]

end Span

end Dialogue
