import Dialogue.Json.Basic
import Dialogue.Number.Reading

/-!
# Reading JSON

A reader of strict JSON: one value with nothing but blanks around it.
-/

namespace Dialogue.Json

open Number

/-- a blank between the parts of a JSON text -/
def isGap (c : Char) : Bool :=
  c == ' ' || c == '\t' || c == '\n' || c == '\r'

def skipGaps (cs : List Char) : List Char :=
  cs.dropWhile isGap

/-- the value of a hexadecimal digit -/
def hexDigit? (c : Char) : Option Nat :=
  if isDigit c then some (digit c)
  else if 'a' ≤ c && c ≤ 'f' then some (c.toNat - 'a'.toNat + 10)
  else if 'A' ≤ c && c ≤ 'F' then some (c.toNat - 'A'.toNat + 10)
  else none

/-- four hexadecimal digits and what follows them -/
def hexUnit? : List Char → Option (Nat × List Char)
  | a :: b :: c :: d :: cs => do
    let a ← hexDigit? a
    let b ← hexDigit? b
    let c ← hexDigit? c
    let d ← hexDigit? d
    some (((a * 16 + b) * 16 + c) * 16 + d, cs)
  | _ => none

/-- what a one-letter escape stands for -/
def escape? : Char → Option Char
  | '"' => some '"'
  | '\\' => some '\\'
  | '/' => some '/'
  | 'b' => some '\x08'
  | 'f' => some '\x0c'
  | 'n' => some '\n'
  | 'r' => some '\r'
  | 't' => some '\t'
  | _ => none

/-- a part of a string: a character, or a 16-bit unit of an escape -/
inductive Piece where
  | char (c : Char)
  | unit (n : Nat)

/-- the pieces of a string up to its closing quote, and what follows it; `n` bounds the number of pieces -/
def pieces? : Nat → List Char → Option (List Piece × List Char)
  | 0, _ => none
  | _ + 1, [] => none
  | _ + 1, '"' :: cs => some ([], cs)
  | n + 1, '\\' :: 'u' :: cs => do
    let (u, cs) ← hexUnit? cs
    let (ps, cs) ← pieces? n cs
    some (.unit u :: ps, cs)
  | n + 1, '\\' :: e :: cs => do
    let c ← escape? e
    let (ps, cs) ← pieces? n cs
    some (.char c :: ps, cs)
  | n + 1, c :: cs =>
    if c.toNat < 0x20 || c == '\\' then none
    else do
      let (ps, cs) ← pieces? n cs
      some (.char c :: ps, cs)

/-- the text of pieces; two units that form a surrogate pair are one character, and no other unit of a pair may
occur -/
def joinPieces? : List Piece → Option (List Char)
  | [] => some []
  | .char c :: ps => (joinPieces? ps).map (c :: ·)
  | .unit u :: ps =>
    if u < 0xd800 ∨ 0xe000 ≤ u then (joinPieces? ps).map (Char.ofNat u :: ·)
    else match ps with
      | .unit v :: ps =>
        if u < 0xdc00 ∧ 0xdc00 ≤ v ∧ v < 0xe000 then
          (joinPieces? ps).map (Char.ofNat (0x10000 + (u - 0xd800) * 0x400 + (v - 0xdc00)) :: ·)
        else none
      | _ => none

/-- a string after its opening quote: its text if it has one, and what follows the closing quote -/
def string? (cs : List Char) : Option (Option String × List Char) := do
  let (ps, cs) ← pieces? (cs.length + 1) cs
  some ((joinPieces? ps).map String.ofList, cs)

/-- one digit or more, and what follows them -/
def digits? (cs : List Char) : Option (List Char × List Char) :=
  let (ds, cs) := cs.span isDigit
  if ds.isEmpty then none else some (ds, cs)

def fraction? : List Char → Option (List Char × List Char)
  | '.' :: cs => (digits? cs).map fun (ds, cs) => ('.' :: ds, cs)
  | cs => some ([], cs)

def exponent? : List Char → Option (List Char × List Char)
  | e :: cs =>
    if e = 'e' ∨ e = 'E' then
      match cs with
      | '+' :: cs => (digits? cs).map fun (ds, cs) => (e :: '+' :: ds, cs)
      | '-' :: cs => (digits? cs).map fun (ds, cs) => (e :: '-' :: ds, cs)
      | cs => (digits? cs).map fun (ds, cs) => (e :: ds, cs)
    else some ([], e :: cs)
  | [] => some ([], [])

/-- a number without its sign, and what follows it; only a single zero begins with zero -/
def magnitude? (cs : List Char) : Option (List Char × List Char) := do
  let (whole, cs) ← digits? cs
  if whole.head? = some '0' ∧ whole.length ≠ 1 then none
  else
    let (fraction, cs) ← fraction? cs
    let (exponent, cs) ← exponent? cs
    some (whole ++ fraction ++ exponent, cs)

/-- a number, and what follows it -/
def number? : List Char → Option (String × List Char)
  | '-' :: cs => (magnitude? cs).map fun (w, cs) => (String.ofList ('-' :: w), cs)
  | cs => (magnitude? cs).map fun (w, cs) => (String.ofList w, cs)

/-- an object of the members, all of whose keys must be texts -/
def ofMembers (members : List (Option String × Json)) : Json :=
  match members.mapM fun (k, j) => k.map fun k => (k, j) with
  | some members => .obj members
  | none => .unpaired

mutual
/-- a value, and what follows it; `n` bounds the number of steps -/
def value? : Nat → List Char → Option (Json × List Char)
  | 0, _ => none
  | n + 1, cs =>
    match skipGaps cs with
    | 'n' :: 'u' :: 'l' :: 'l' :: cs => some (.null, cs)
    | 't' :: 'r' :: 'u' :: 'e' :: cs => some (.bool true, cs)
    | 'f' :: 'a' :: 'l' :: 's' :: 'e' :: cs => some (.bool false, cs)
    | '"' :: cs => (string? cs).map fun (s, cs) => (match s with | some s => .str s | none => .unpaired, cs)
    | '[' :: cs =>
      match skipGaps cs with
      | ']' :: cs => some (.list [], cs)
      | cs => (items? n cs).map fun (js, cs) => (.list js, cs)
    | '\x7b' :: cs =>
      match skipGaps cs with
      | '\x7d' :: cs => some (.obj [], cs)
      | cs => (members? n cs).map fun (ms, cs) => (ofMembers ms, cs)
    | cs => (number? cs).map fun (w, cs) => (.num w, cs)
/-- the values of a list up to its closing bracket, and what follows it -/
def items? : Nat → List Char → Option (List Json × List Char)
  | 0, _ => none
  | n + 1, cs => do
    let (j, cs) ← value? n cs
    match skipGaps cs with
    | ']' :: cs => some ([j], cs)
    | ',' :: cs =>
      let (js, cs) ← items? n cs
      some (j :: js, cs)
    | _ => none
/-- the members of an object up to its closing brace, and what follows it -/
def members? : Nat → List Char → Option (List (Option String × Json) × List Char)
  | 0, _ => none
  | n + 1, cs =>
    match skipGaps cs with
    | '"' :: cs => do
      let (k, cs) ← string? cs
      match skipGaps cs with
      | ':' :: cs =>
        let (j, cs) ← value? n cs
        match skipGaps cs with
        | '\x7d' :: cs => some ([(k, j)], cs)
        | ',' :: cs =>
          let (ms, cs) ← members? n cs
          some ((k, j) :: ms, cs)
        | _ => none
      | _ => none
    | _ => none
end

/-- the value that a text writes.  Every step but the first takes a character with it, and no character is taken by
more than two. -/
def read? (text : String) : Option Json :=
  let cs := text.toList
  match value? (2 * cs.length + 1) cs with
  | some (j, rest) => if (skipGaps rest).isEmpty then some j else none
  | none => none

end Dialogue.Json
