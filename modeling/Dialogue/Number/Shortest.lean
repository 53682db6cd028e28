import Dialogue.Number.Binary

/-!
# The fewest digits that read back

Every number is the nearest one to an interval of decimals.  The shortest of them lies on the coarsest grid of
multiples of a power of ten that meets the interval; where two neighbours on that grid do, the nearer is taken.
-/

namespace Dialogue.Number

/-- what is taken of two decimals that are equally near -/
inductive Tie where
  | up
  | even
  deriving DecidableEq, Repr

/-- the decimal `digits * 10 ^ exponent` -/
structure Decimal where
  digits : Nat
  exponent : Int
  deriving DecidableEq, Repr

/-- the interval of the decimals that read back as `m * 2 ^ q`, in quarters of `2 ^ q`; an end belongs to it when
`closed` -/
structure Interval where
  low : Nat
  middle : Nat
  high : Nat
  closed : Bool

/-- below a power of two the numbers are twice as dense, so the lower half of its interval is half as wide -/
def interval (m : Nat) (q : Int) : Interval where
  low := if m = twoTo 52 ∧ q ≠ -1074 then 4 * m - 1 else 4 * m - 2
  middle := 4 * m
  high := 4 * m + 2
  closed := m % 2 == 0

/-- whether `c * b / a` lies in the interval -/
def Interval.holds (i : Interval) (a b c : Nat) : Bool :=
  if i.closed then i.low * a ≤ c * b && c * b ≤ i.high * a else i.low * a < c * b && c * b < i.high * a

/-- of the multiples of `10 ^ p` the one in the interval of `m * 2 ^ q`, the nearest if there are several -/
def onGrid? (tie : Tie) (m : Nat) (q p : Int) : Option Nat :=
  let i := interval m q
  let a := twoTo (q - 2).toNat * tenTo (-p).toNat
  let b := twoTo (2 - q).toNat * tenTo p.toNat
  let c := i.middle * a / b
  let rest := i.middle * a % b
  match i.holds a b c, i.holds a b (c + 1) with
  | true, false => some c
  | false, true => some (c + 1)
  | false, false => none
  | true, true =>
    if 2 * rest < b then some c
    else if b < 2 * rest then some (c + 1)
    else match tie with
      | .up => some (c + 1)
      | .even => if c % 2 = 0 then some c else some (c + 1)

/-- the first grid that meets the interval, from `10 ^ p` down -/
def firstGrid (tie : Tie) (m : Nat) (q : Int) : Nat → Int → Decimal
  | 0, p => ⟨0, p⟩
  | n + 1, p =>
    match onGrid? tie m q p with
    | some c => ⟨c, p⟩
    | none => firstGrid tie m q n (p - 1)

/-- a power of ten above `2 ^ t`, by the bounds `0.30102` and `0.30103` of the decimal logarithm of two -/
def tensAbove (t : Int) : Int :=
  if 0 ≤ t then t * 30103 / 100000 + 1 else 1 - -t * 30102 / 100000

/-- the shortest decimal that reads back as `m * 2 ^ q`; it has at most 17 digits, and the search starts at most
three places above them -/
def shortest (tie : Tie) (m : Nat) (q : Int) : Decimal :=
  firstGrid tie m q 20 (tensAbove (m.log2 + 1 + q))

end Dialogue.Number
