import Dialogue.Json.Basic
import Dialogue.Text.Quoted

/-!
# Writing JSON

The compact form: no blanks, and no escapes but for the quote, the backslash and control characters.
-/

namespace Dialogue.Json

/-- a character of a JSON string -/
def escapeChar (c : Char) : List Char :=
  match c with
  | '"' => ['\\', '"']
  | '\\' => ['\\', '\\']
  | '\x08' => ['\\', 'b']
  | '\t' => ['\\', 't']
  | '\n' => ['\\', 'n']
  | '\x0c' => ['\\', 'f']
  | '\r' => ['\\', 'r']
  | c =>
    if c.toNat < 0x20 then
      ['\\', 'u', '0', '0'] ++ (if c.toNat < 0x10 then ['0'] else []) ++ Text.hex c.toNat
    else [c]

def renderString (s : String) : List Char :=
  '"' :: s.toList.flatMap escapeChar ++ ['"']

mutual
/-- the compact form of a value; half a surrogate pair has none and leaves an empty string -/
def renderChars : Json → List Char
  | .null => "null".toList
  | .bool true => "true".toList
  | .bool false => "false".toList
  | .num w => w.toList
  | .str s => renderString s
  | .unpaired => ['"', '"']
  | .list [] => ['[', ']']
  | .list (j :: js) => '[' :: renderChars j ++ renderItems js
  | .obj [] => ['\x7b', '\x7d']
  | .obj ((k, j) :: ms) => '\x7b' :: renderString k ++ ':' :: renderChars j ++ renderMembers ms
def renderItems : List Json → List Char
  | [] => [']']
  | j :: js => ',' :: renderChars j ++ renderItems js
def renderMembers : List (String × Json) → List Char
  | [] => ['\x7d']
  | (k, j) :: ms => ',' :: renderString k ++ ':' :: renderChars j ++ renderMembers ms
end

def render (j : Json) : String :=
  String.ofList (renderChars j)

end Dialogue.Json
