import Dialogue.Entries
import Dialogue.Text.Scan

/-!
# Folders

A folder with its files, by their paths in it.  A path is followed name by name: an empty name and `.` stay and
`..` goes up, so one file can have many paths.
-/

namespace Dialogue

/-- the files of a folder, those of its sub-folders included; a file that is no text has none, and of two files
at one place the later one stays -/
structure Folder where
  files : List (String × Option String)

namespace Folder

/-- the names that lead from a folder to a place; those that are `..` stand first and lead above the folder -/
abbrev Place := List String

def names (path : String) : List String :=
  (Text.splitBy (· == '/') path.toList).map String.ofList

/-- whether a place is the folder itself or one above it -/
def isAbove (place : Place) : Bool :=
  place.all (· == "..")

def step (place : Place) (name : String) : Place :=
  if name = "" ∨ name = "." then place
  else if name = ".." ∧ !isAbove place then place.dropLast
  else place ++ [name]

/-- the places to which names lead from `place`, one after the other -/
def way (place : Place) : List String → List Place
  | [] => []
  | n :: ns => step place n :: way (step place n) ns

/-- the place to which a path leads -/
def placeOf (path : String) : Place :=
  (names path).foldl step []

/-- the places that a path passes before the one to which it leads -/
def passed (path : String) : List Place :=
  [] :: (way [] (names path)).dropLast

/-- whether there is a folder at a place -/
def holdsFolder (f : Folder) (place : Place) : Bool :=
  isAbove place || f.files.any fun e => (passed e.1).contains place

/-- whether a path leads from the folder to a name of a file: it neither starts at the root nor ends in a folder,
and passes only folders -/
def leads (f : Folder) (path : String) : Bool :=
  match names path with
  | "" :: _ => false
  | ns => ns.getLast?.all (fun n => n ≠ "" ∧ n ≠ "." ∧ n ≠ "..") && (passed path).all f.holdsFolder

def read? (f : Folder) (path : String) : Option String := do
  guard (f.leads path)
  let (_, text) ← f.files.reverse.find? fun e => placeOf e.1 = placeOf path
  text

end Folder

end Dialogue
