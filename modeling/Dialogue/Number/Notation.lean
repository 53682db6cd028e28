import Dialogue.Number.Shortest

/-!
# How numbers are written

Two formats: `plainText` never writes an exponent, and `jsonText` writes a number so that it is read as one that
may have a fraction.
-/

namespace Dialogue.Number

/-- as many zeros as `n` -/
def zeros (n : Nat) : List Char :=
  List.replicate n '0'

/-- a decimal without an exponent; a whole number has no point -/
def positional (d : Decimal) : List Char :=
  let ds := Nat.toDigits 10 d.digits
  if 0 ≤ d.exponent then ds ++ zeros d.exponent.toNat
  else
    let places := (-d.exponent).toNat
    if places < ds.length then ds.take (ds.length - places) ++ '.' :: ds.drop (ds.length - places)
    else '0' :: '.' :: zeros (places - ds.length) ++ ds

def firstPlace (d : Decimal) : Int :=
  d.exponent + (Nat.toDigits 10 d.digits).length - 1

/-- a decimal with one digit before the point, and an exponent with its sign -/
def scientific (d : Decimal) : List Char :=
  let mantissa := match Nat.toDigits 10 d.digits with
    | [] => []
    | [c] => [c]
    | c :: cs => c :: '.' :: cs
  let e := firstPlace d
  mantissa ++ 'e' :: (if e < 0 then '-' else '+') :: Nat.toDigits 10 e.natAbs

/-- the digits `cs` after a minus sign, if the number is negative -/
def signed (negative : Bool) (cs : List Char) : List Char :=
  if negative then '-' :: cs else cs

/-- the fewest digits that read back, of two equally near decimals the greater, without an exponent -/
def plainText (x : Float) : String :=
  String.ofList <| match parts x with
    | .notNumber => "NaN".toList
    | .infinite negative => signed negative "inf".toList
    | .finite negative 0 _ => signed negative ['0']
    | .finite negative m q => signed negative (positional (shortest .up m q))

/-- the fewest digits that read back, of two equally near decimals the even one, with a point or an exponent; there
is an exponent when the first digit is below the fifth place after the point or above the sixteenth before it -/
def jsonText (x : Float) : String :=
  String.ofList <| match parts x with
    | .notNumber => "null".toList
    | .infinite _ => "null".toList
    | .finite negative 0 _ => signed negative "0.0".toList
    | .finite negative m q =>
      let d := shortest .even m q
      signed negative <|
        if firstPlace d < -5 ∨ 15 < firstPlace d then scientific d
        else if 0 ≤ d.exponent then positional d ++ ['.', '0']
        else positional d

end Dialogue.Number
