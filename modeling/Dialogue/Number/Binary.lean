/-!
# Binary floating-point numbers

What the 64 bits of a number mean, and the number nearest to a fraction.
-/

namespace Dialogue.Number

def twoTo (n : Nat) : Nat :=
  Nat.pow 2 n

def tenTo (n : Nat) : Nat :=
  Nat.pow 10 n

/-- a number as its bits describe it; `finite s m q` is `m * 2 ^ q` with the sign `s`, and `true` is minus -/
inductive Parts where
  | notNumber
  | infinite (negative : Bool)
  | finite (negative : Bool) (m : Nat) (q : Int)
  deriving DecidableEq, Repr

/-- the parts of a number: a sign bit, eleven bits of exponent, and 52 bits below the leading one -/
def parts (x : Float) : Parts :=
  let bits := x.toBits.toNat
  let negative := decide (twoTo 63 ≤ bits)
  let exponent : Nat := bits / twoTo 52 % twoTo 11
  let fraction : Nat := bits % twoTo 52
  if exponent = 2047 then if fraction = 0 then .infinite negative else .notNumber
  else if exponent = 0 then .finite negative fraction (-1074)
  else .finite negative (fraction + twoTo 52) ((exponent : Int) - 1075)

/-- the whole number nearest to `num / den`, of two the even one -/
def roundDiv (num den : Nat) : Nat :=
  let below := num / den
  let rest := 2 * (num % den)
  if rest < den || (rest == den && below % 2 == 0) then below else below + 1

/-- the exponent of the greatest power of two that is at most `num / den` -/
def log2Div (num den : Nat) : Int :=
  let k : Int := (num.log2 : Int) - den.log2
  if den * twoTo k.toNat ≤ num * twoTo (-k).toNat then k else k - 1

/-- the number nearest to `num / den`, of two the one with even last bit, and infinity from half a step above the
greatest number on -/
def nearest (num den : Nat) : Float :=
  if num = 0 then Float.ofBits 0
  else
    let q := max (log2Div num den - 52) (-1074)
    let m := roundDiv (num * twoTo (-q).toNat) (den * twoTo q.toNat)
    Float.ofBits (UInt64.ofNat (min ((q + 1074).toNat * twoTo 52 + m) (2047 * twoTo 52)))

def infinity : Float :=
  Float.ofBits (UInt64.ofNat (2047 * twoTo 52))

def notANumber : Float :=
  Float.ofBits (UInt64.ofNat (2047 * twoTo 52 + twoTo 51))

/-- the number nearest to `digits * 10 ^ exponent` -/
def nearestDecimal (digits : Nat) (exponent : Int) : Float :=
  let magnitude := (Nat.toDigits 10 digits).length + exponent
  if digits = 0 ∨ magnitude < -400 then Float.ofBits 0
  else if magnitude > 400 then infinity
  else nearest (digits * tenTo exponent.toNat) (tenTo (-exponent).toNat)

end Dialogue.Number
