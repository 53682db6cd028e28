import Dialogue.Dictionary.Basic
import Dialogue.Text.Scan

/-!
# Dictionaries as rows of text

Each line is a pattern, a comma and a payload.  Blank lines and lines that begin with `#` are left out.
-/

namespace Dialogue

/-- why a line is no row -/
inductive RowFault where
  | noComma
  | emptyPattern
  deriving DecidableEq, Repr

def RowFault.message : RowFault → String
  | .noComma => "expected `pattern,payload`"
  | .emptyPattern => "empty pattern"

/-- a line that is no row, by its number -/
structure MalformedRow where
  line : Nat
  fault : RowFault
  deriving DecidableEq, Repr

namespace Dictionary

/-- the words and the payload of a trimmed row -/
def parseRow (row : List Char) : Except RowFault (List String × String) :=
  match Text.cutAt [','] row with
  | none => .error .noComma
  | some (pattern, payload) =>
    let words := (Text.words pattern).map String.ofList
    if words.isEmpty then .error .emptyPattern else .ok (words, String.ofList (Text.trim payload))

/-- whether a trimmed line is left out -/
def isSkipped (row : List Char) : Bool :=
  row.isEmpty || row.head? == some '#'

/-- the dictionary with the rows of the lines from number `n` on -/
def addLines (d : Dictionary) (n : Nat) : List (List Char) → Except MalformedRow Dictionary
  | [] => .ok d
  | line :: lines =>
    let row := Text.trim line
    if isSkipped row then addLines d (n + 1) lines
    else match parseRow row with
      | .error fault => .error ⟨n, fault⟩
      | .ok (words, payload) => addLines (d.insert words payload) (n + 1) lines

/-- the dictionary of a text of rows -/
def ofRows (text : String) : Except MalformedRow Dictionary :=
  addLines .empty 1 (Text.lines text.toList)

end Dictionary

end Dialogue
