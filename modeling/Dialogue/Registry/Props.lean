import Dialogue.DialogueError
import Dialogue.Entries

/-!
# Properties

What a configuration says of a component, and the files that it names.
-/

namespace Dialogue

/-- where files are: those with relative paths in the folder `base`; `read?` is the text of the file at a path, if
there is one -/
structure Files where
  base : String
  read? : String → Option String

namespace Files

/-- the path of a file in a folder; an absolute path stays as it is -/
def joinPath (base file : String) : String :=
  if file.toList.head? = some '/' then file
  else if base = "" ∨ base.toList.getLast? = some '/' then base ++ file
  else base ++ "/" ++ file

/-- the folder of a file -/
def folderOf (file : String) : String :=
  match Text.cutAtLast ['/'] file.toList with
  | some ([], _) => "/"
  | some (folder, _) => String.ofList folder
  | none => ""

def path (fs : Files) (file : String) : String :=
  joinPath fs.base file

/-- the text of a file, which must be readable -/
def text (fs : Files) (file : String) : Except DialogueError String :=
  match fs.read? (fs.path file) with
  | some t => .ok t
  | none => .error (.unreadable (fs.path file))

end Files

/-- the properties of a component -/
structure Props where
  component : String
  values : List (String × String)
  files : Files

namespace Props

def get? (p : Props) (key : String) : Option String :=
  Entries.get? key p.values

/-- the value of a property that must be there -/
def get (p : Props) (key : String) : Except DialogueError String :=
  match p.get? key with
  | some v => .ok v
  | none => .error (.missingProperty p.component key)

def path (p : Props) (key : String) : Except DialogueError String := do
  return p.files.path (← p.get key)

def text (p : Props) (key : String) : Except DialogueError String := do
  p.files.text (← p.get key)

end Props

end Dialogue
