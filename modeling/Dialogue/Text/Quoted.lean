import Dialogue.Text.Printable

/-!
# Quoted text

How messages show a text: between double quotes, with the quote, the backslash and everything that is not shown as
itself escaped.
-/

namespace Dialogue.Text

/-- the hexadecimal digits of a number, in lower case -/
def hex (n : Nat) : List Char :=
  Nat.toDigits 16 n

/-- a character of quoted text -/
def quoteChar (c : Char) : List Char :=
  match c with
  | '"' => ['\\', '"']
  | '\\' => ['\\', '\\']
  | '\n' => ['\\', 'n']
  | '\r' => ['\\', 'r']
  | '\t' => ['\\', 't']
  | '\x00' => ['\\', '0']
  | c => if isPrintable c then [c] else ['\\', 'u', '\x7b'] ++ hex c.toNat ++ ['\x7d']

def quote (s : String) : String :=
  String.ofList ('"' :: s.toList.flatMap quoteChar ++ ['"'])

end Dialogue.Text
