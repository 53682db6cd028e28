import Dialogue.Node.Text
import Dialogue.Text.Scan

/-!
# Validators

What the value of a slot must be like.
-/

namespace Dialogue

/-- whether a slot may hold a value, or nothing -/
structure Validator where
  accepts : Option Node → Bool

namespace Validator

/-- any value -/
def notNull : Validator where
  accepts value := value.isSome

/-- a value whose text contains a part -/
def contains (part : String) : Validator where
  accepts value := value.any fun v => Text.occursIn part.toList v.text.toList

/-- a value whose text is one of some terms in lower case -/
def oneOf (terms : List String) : Validator where
  accepts value := value.any fun v => terms.contains (String.ofList (Text.lowerAscii (Text.trim v.text.toList)))

/-- the terms of a text, one a line, in any case; blank lines are left out -/
def ofLines (text : String) : Validator :=
  oneOf ((((Text.lines text.toList).map Text.trim).filter fun l => !l.isEmpty).map fun l =>
    String.ofList (Text.lowerAscii l))

end Validator

end Dialogue
