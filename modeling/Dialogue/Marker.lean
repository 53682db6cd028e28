import Dialogue.Number.Reading

/-!
# Markers

A marker stands for a part of what was said: the words that a wildcard took, or an entity with a certain tag.
-/

namespace Dialogue

/-- the `index`-th wildcard, or the `index`-th entity with a tag -/
inductive Marker where
  | wildcard (index : Nat)
  | entity (tag : String) (index : Nat)
  deriving DecidableEq, Repr

namespace Marker

/-- what a wildcard marker begins with -/
def wildcardStart : List Char := "WC_".toList

/-- what stands between the tag and the index of an entity marker -/
def entityMiddle : List Char := "_MKR_".toList

def parse? (cs : List Char) : Option Marker :=
  match Text.dropStart? wildcardStart cs with
  | some index => (Number.readIndex? (String.ofList index)).map .wildcard
  | none =>
    match Text.cutAtLast entityMiddle cs with
    | some (tag, index) =>
      if tag.isEmpty then none else (Number.readIndex? (String.ofList index)).map (.entity (String.ofList tag))
    | none => none

def text : Marker → String
  | .wildcard n => s!"WC_{n}"
  | .entity tag n => s!"{tag}_MKR_{n}"

end Marker

end Dialogue
