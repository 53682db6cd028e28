import Dialogue.Number.Binary
import Dialogue.Text.Scan

/-!
# How numbers are read

`readFloat?` reads free text and rounds to the nearest number.  `ofJson?` reads a JSON number in one pass over its
digits: it keeps as many leading digits as fit in 64 bits and scales the result by a power of ten, so its last bit
can differ from the nearest number's.  `readIndex?` reads a list index.
-/

namespace Dialogue.Number

def isDigit (c : Char) : Bool :=
  '0' ≤ c && c ≤ '9'

def digit (c : Char) : Nat :=
  c.toNat - '0'.toNat

/-- the number that digits write -/
def ofDigits (cs : List Char) : Nat :=
  cs.foldl (fun n c => n * 10 + digit c) 0

/-- the greatest number of 64 bits -/
def maxWord : Nat := 0xffffffffffffffff

/-- digits, after a plus sign or none, of a number of 64 bits -/
def readIndex? (s : String) : Option Nat :=
  let cs := match s.toList with
    | '+' :: cs => cs
    | cs => cs
  if cs.isEmpty || !cs.all isDigit || maxWord < ofDigits cs then none else some (ofDigits cs)

/-- an exponent: nothing, or `e` and a number with or without its sign -/
def readExponent? : List Char → Option Int
  | [] => some 0
  | e :: cs =>
    if e = 'e' ∨ e = 'E' then
      let (negative, cs) := match cs with
        | '-' :: cs => (true, cs)
        | '+' :: cs => (false, cs)
        | cs => (false, cs)
      if cs.isEmpty || !cs.all isDigit then none
      else some (if negative then -(ofDigits cs : Int) else ofDigits cs)
    else none

/-- a number without a sign: a word for infinity or for no number, or digits with at most one point among them and
an exponent -/
def readMagnitude? (cs : List Char) : Option Float :=
  let word := Text.lowerAscii cs
  if word = "inf".toList ∨ word = "infinity".toList then some infinity
  else if word = "nan".toList then some notANumber
  else
    let (whole, rest) := cs.span isDigit
    let (fraction, rest) := match rest with
      | '.' :: rest => rest.span isDigit
      | rest => ([], rest)
    if whole.isEmpty && fraction.isEmpty then none
    else (readExponent? rest).map fun e => nearestDecimal (ofDigits (whole ++ fraction)) (e - fraction.length)

/-- a number that is the whole of a text -/
def readFloat? (cs : List Char) : Option Float :=
  match cs with
  | '-' :: cs => (readMagnitude? cs).map fun x => -x
  | '+' :: cs => readMagnitude? cs
  | cs => readMagnitude? cs

/-- the leading digits that fit in 64 bits, from `n` on, and how many digits are left over -/
def takeWord (n : Nat) : List Char → Nat × Nat
  | [] => (n, 0)
  | c :: cs => if maxWord < n * 10 + digit c then (n, cs.length + 1) else takeWord (n * 10 + digit c) cs

/-- the quotient `x / 10 ^ n`, in steps of at most `10 ^ 308` -/
def divideByTens (x : Float) (n : Nat) : Float :=
  if n ≤ 308 then x / nearest (tenTo n) 1
  else if x == 0 then x
  else divideByTens (x / nearest (tenTo 308) 1) (n - 308)
termination_by n

/-- the product `x * 10 ^ n`, unless that is too large -/
def timesTens? (x : Float) (n : Nat) : Option Float :=
  if n ≤ 308 then
    let y := x * nearest (tenTo n) 1
    if y == infinity then none else some y
  else if x == 0 then some x
  else none

/-- the least exponent too large for 32 bits -/
def wordExponent : Nat := 0x80000000

/-- a JSON number without its sign; no value if it is too large.  Of the digits of the whole part that do not fit
only the number is kept, of those of the fraction nothing. -/
def magnitudeOfJson? (cs : List Char) : Option Float :=
  let (whole, rest) := cs.span isDigit
  let (n, extra) := takeWord 0 whole
  let (fraction, rest) := match rest with
    | '.' :: rest => rest.span isDigit
    | rest => ([], rest)
  let (n, unread) := takeWord n fraction
  let place : Int := extra - (fraction.length - unread : Nat)
  match readExponent? rest with
  | none => none
  | some e =>
    if wordExponent ≤ e.natAbs then if n = 0 ∨ e < 0 then some (Float.ofBits 0) else none
    else
      let x := nearest n 1
      if 0 ≤ place + e then timesTens? x (place + e).toNat else some (divideByTens x (-(place + e)).toNat)

/-- the value of a well-formed JSON number -/
def ofJson? (s : String) : Option Float :=
  match s.toList with
  | '-' :: cs => (magnitudeOfJson? cs).map fun x => -x
  | cs => magnitudeOfJson? cs

end Dialogue.Number
