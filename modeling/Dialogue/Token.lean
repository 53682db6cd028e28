import Dialogue.Text.Alphanumeric
import Dialogue.Text.Lowercase

/-!
# Tokens

An utterance is a sequence of tokens: words in lower case, and entities, which stand for one or more words.
-/

namespace Dialogue

/-- a word, or an entity with its tag and the words it stands for -/
inductive Token where
  | literal (word : String)
  | entity (tag value : String)
  deriving DecidableEq, Repr

namespace Token

def value : Token → String
  | .literal w => w
  | .entity _ v => v

def isLiteral : Token → Bool
  | .literal _ => true
  | .entity _ _ => false

/-- how the pattern of a phrase spells a token: an entity by its tag -/
def spelling : Token → String
  | .literal w => w
  | .entity tag _ => tag ++ "_MKR"

def text : Token → String
  | .literal w => w
  | .entity tag v => "[" ++ tag ++ ": " ++ v ++ "]"

theorem literal_injective : Function.Injective literal := fun _ _ h => literal.inj h

end Token

namespace Text

/-- a character of which words are made -/
def isWordChar (c : Char) : Bool :=
  isAlphanumeric c || c == '_'

/-- the words of `cs` when `word` has been read of the current one; an apostrophe belongs to a word that goes on
with a letter or a digit behind it -/
def wordsFrom (word : List Char) : List Char → List (List Char)
  | [] => if word.isEmpty then [] else [word]
  | c :: cs =>
    if isWordChar c || (c == '\'' && !word.isEmpty && (cs.head?.map isAlphanumeric).getD false) then
      wordsFrom (word ++ [c]) cs
    else if word.isEmpty then wordsFrom [] cs
    else word :: wordsFrom [] cs

/-- the words of a text in lower case -/
def tokenWords (text : String) : List String :=
  (wordsFrom [] (lower text.toList)).map String.ofList

end Text

end Dialogue
