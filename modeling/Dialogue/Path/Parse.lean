import Dialogue.StateError

/-!
# Reading paths

A path is written as its segments, each a sigil and a key, one after the other; a scoped path begins with the name
of its scope and a colon.
-/

namespace Dialogue

namespace Path

/-- the segments of a text that goes on after `sigil` and the first characters `key` of its key -/
def segmentsFrom (sigil : Sigil) (key : List Char) : List Char → List Segment
  | [] => [⟨sigil, String.ofList key⟩]
  | c :: cs =>
    match Sigil.ofChar? c with
    | some next => ⟨sigil, String.ofList key⟩ :: segmentsFrom next [] cs
    | none => segmentsFrom sigil (key ++ [c]) cs

/-- the path that a text writes, with or without white space around it -/
def parseChars (cs : List Char) : Except PathFault Path :=
  match Text.trim cs with
  | [] => .error .empty
  | c :: cs =>
    match Sigil.ofChar? c with
    | some sigil => ofSegments (segmentsFrom sigil [] cs)
    | none => .error (.noSigil c)

/-- the path that a text writes, with or without white space around it -/
def parse (expression : String) : Except StateError Path :=
  (parseChars expression.toList).mapError (.malformedPath expression)

def join (p q : Path) : Except StateError Path :=
  (ofSegments (p.segments ++ q.segments)).mapError (.malformedPath (p.text ++ q.text))

end Path

def Scope.parse (label : String) : Except StateError Scope :=
  let trimmed := Text.trim label.toList
  let bare := (Text.dropStart? ['$'] trimmed).getD trimmed
  let word := Text.lowerAscii bare
  if word = "user".toList then .ok .user
  else if word = "conv".toList then .ok .conversation
  else if word = "utt".toList then .ok .utterance
  else .error (.unknownScope label)

namespace ScopedPath

def parse (text : String) : Except StateError ScopedPath :=
  match Text.cutAt [':'] (Text.trim text.toList) with
  | none => .error (.missingScope text)
  | some (label, expression) => do
    let scope ← Scope.parse (String.ofList label)
    let path ← Path.parse (String.ofList expression)
    return ⟨scope, path⟩

def join (p : ScopedPath) (q : Path) : Except StateError ScopedPath := do
  let path ← p.path.join q
  return ⟨p.scope, path⟩

end ScopedPath

end Dialogue
