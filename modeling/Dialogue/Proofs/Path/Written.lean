import Mathlib.Data.List.Basic
import Dialogue.Proofs.Path.Objects
import Dialogue.Proofs.Text.Words

/-!
# Paths as text

A path that was read from a text is written as this text without the white space around it (`Path.chars_of_parse`),
whatever is in its keys.  So it is read again from what is written (`Path.parse_text`), and with a scope as well
(`ScopedPath.parse_text`), although the scope may have been written in another way.
-/

namespace Dialogue

namespace Text

/-! ### White space around a text -/

theorem trim_trim (cs : List Char) : trim (trim cs) = trim cs := by
  obtain ⟨lead, tail, hlead, htail, hcs⟩ := exists_trim cs
  conv_rhs => rw [hcs]
  rw [trim_around hlead htail]

theorem trim_trimEnd (cs : List Char) : trim (trimEnd cs) = trim cs := by
  obtain ⟨tail, htail, hcs⟩ := exists_trimEnd cs
  have haround : trim ([] ++ trimEnd cs ++ tail) = trim (trimEnd cs) := trim_around (by simp) htail (trimEnd cs)
  rw [← haround, List.nil_append, ← hcs]

theorem part_trim (cs : List Char) : trim cs <:+: cs := by
  obtain ⟨lead, tail, -, -, hcs⟩ := exists_trim cs
  exact ⟨lead, tail, hcs.symm⟩

theorem trim_space (cs : List Char) : trim (' ' :: cs) = trim cs := by
  have haround : trim ([' '] ++ cs ++ []) = trim cs := trim_around (by simp; rfl) (by simp) cs
  rwa [List.append_nil] at haround

theorem trim_append_space (cs : List Char) : trim (cs ++ [' ']) = trim cs := by
  have haround : trim ([] ++ cs ++ [' ']) = trim cs := trim_around (by simp) (by simp; rfl) cs
  exact haround

theorem isBlank_head?_trim (cs : List Char) : ∀ c ∈ (trim cs).head?, isBlank c = false := by
  intro c hc
  obtain ⟨tail, -, hcs⟩ := exists_trimEnd (cs.dropWhile isBlank)
  have hhead : (cs.dropWhile isBlank).head? = some c := by
    rw [hcs, List.head?_append, show trimEnd (cs.dropWhile isBlank) = trim cs from rfl, Option.mem_def.1 hc,
      Option.some_or]
  have hnot := List.head?_dropWhile_not isBlank cs
  rw [hhead] at hnot
  exact hnot

theorem isBlank_getLast?_trim (cs : List Char) : ∀ c ∈ (trim cs).getLast?, isBlank c = false := by
  intro c hc
  rw [trim, List.getLast?_reverse] at hc
  have hnot := List.head?_dropWhile_not isBlank (cs.dropWhile isBlank).reverse
  rw [Option.mem_def.1 hc] at hnot
  exact hnot

/-- a text that begins with no white space is trimmed at its end only -/
theorem trim_append_of_trim_eq {c : Char} (hc : isBlank c = false) (cs : List Char) {ds : List Char} (hne : ds ≠ [])
    (hds : trim ds = ds) : trim (c :: cs ++ ds) = c :: cs ++ ds := by
  refine trim_eq_self (fun d hd => ?_) fun d hd => ?_
  · cases hd
    exact hc
  · rw [List.getLast?_append_of_ne_nil _ hne, ← hds] at hd
    exact isBlank_getLast?_trim ds d hd

end Text

open Text

/-! ### Paths -/

namespace Path

/-- segments are written as the text that they were read from -/
theorem flatMap_segmentsFrom (sigil : Sigil) (key cs : List Char) :
    (segmentsFrom sigil key cs).flatMap Segment.chars = sigil.char :: key ++ cs := by
  induction cs generalizing sigil key with
  | nil => simp [segmentsFrom, Segment.chars]
  | cons c cs ih =>
    rw [segmentsFrom]
    split
    · next next hnext =>
      rw [List.flatMap_cons, ih, Sigil.eq_char_of_ofChar? hnext]
      simp [Segment.chars]
    · rw [ih]
      simp

/-- **A path is written as the text that it was read from**, without the white space around it. -/
theorem chars_of_parse {s : String} {p : Path} (h : parse s = .ok p) : p.chars = trim s.toList := by
  rw [parse, mapError_eq_ok, parseChars] at h
  split at h
  · cases h
  · next c cs htrim =>
    split at h
    · next sigil hsigil =>
      rw [chars, ofSegments_eq_ok.1 h, flatMap_segmentsFrom, htrim, Sigil.eq_char_of_ofChar? hsigil]
      rfl
    · cases h

theorem parse_of_trim_eq {s t : String} {p : Path} (h : trim s.toList = trim t.toList) (hp : parse s = .ok p) :
    parse t = .ok p := by
  rw [parse, mapError_eq_ok, parseChars, h] at hp
  rw [parse, mapError_eq_ok, parseChars]
  exact hp

theorem parse_text {s : String} {p : Path} (h : parse s = .ok p) : parse p.text = .ok p := by
  refine parse_of_trim_eq ?_ h
  rw [text, String.toList_ofList, chars_of_parse h, trim_trim]

end Path

/-! ### Paths with a scope -/

namespace Scope

theorem parse_label (s : Scope) : parse s.label = .ok s := by
  cases s <;> rfl

/-- a label begins with a letter, and there is no colon in it -/
theorem exists_label (s : Scope) : ∃ c cs, s.label.toList = c :: cs ∧ isBlank c = false ∧ c ≠ '-' ∧ ':' ∉ c :: cs := by
  cases s
  · exact ⟨'u', ['s', 'e', 'r'], rfl, rfl, by decide, by decide⟩
  · exact ⟨'c', ['o', 'n', 'v'], rfl, rfl, by decide, by decide⟩
  · exact ⟨'u', ['t', 't'], rfl, rfl, by decide, by decide⟩

end Scope

namespace ScopedPath

/-- a path that can be read from what is written for it -/
def Legible (p : ScopedPath) : Prop :=
  Path.parse p.path.text = .ok p.path

theorem toList_text (p : ScopedPath) : p.text.toList = p.scope.label.toList ++ ':' :: p.path.chars := by
  simp [text, Path.text]

theorem cutAt_colon {label : List Char} (h : ':' ∉ label) (cs : List Char) :
    cutAt [':'] (label ++ ':' :: cs) = some (label, cs) := by
  induction label with
  | nil => simp [cutAt, dropStart?]
  | cons c label ih =>
    rw [List.mem_cons, not_or] at h
    rw [List.cons_append, cutAt, dropStart?, if_neg h.1, ih h.2]
    rfl

/-- a text that is a path begins with a scope and a colon, and what is behind the colon is written again -/
theorem exists_of_parse {s : String} {p : ScopedPath} (h : parse s = .ok p) :
    p.Legible ∧ ∃ label expression, trim s.toList = label ++ ':' :: expression ∧ p.path.chars = trim expression := by
  rw [parse] at h
  split at h
  · cases h
  · next label expression hcut =>
    obtain ⟨scope, -, h⟩ := bind_eq_ok.1 h
    obtain ⟨path, hpath, h⟩ := bind_eq_ok.1 h
    cases h
    refine ⟨Path.parse_text hpath, label, expression, ?_, ?_⟩
    · rw [eq_append_of_cutAt hcut, List.append_assoc, List.singleton_append]
    · rw [Path.chars_of_parse hpath, String.toList_ofList]

/-- what is written of a path is a part of the text that it was read from -/
theorem part_of_parse {s : String} {p : ScopedPath} (h : parse s = .ok p) : p.path.chars <:+: s.toList := by
  obtain ⟨-, label, expression, htrim, hchars⟩ := exists_of_parse h
  have hexpression : expression <:+: trim s.toList := ⟨label ++ [':'], [], by rw [htrim]; simp⟩
  rw [hchars]
  exact (part_trim expression).trans (hexpression.trans (part_trim s.toList))

namespace Legible

variable {p : ScopedPath} (h : p.Legible)

include h

theorem trim_chars : trim p.path.chars = p.path.chars := by
  have hchars := Path.chars_of_parse h
  rw [Path.text, String.toList_ofList] at hchars
  exact hchars.symm

theorem chars_ne_nil : p.path.chars ≠ [] := by
  intro hnil
  rw [Legible, Path.text, hnil] at h
  cases h

theorem trim_text : trim p.text.toList = p.text.toList := by
  obtain ⟨c, cs, hlabel, hc, -⟩ := p.scope.exists_label
  have hcolon : p.text.toList = c :: (cs ++ [':']) ++ p.path.chars := by
    rw [toList_text, hlabel]
    simp
  rw [hcolon]
  exact trim_append_of_trim_eq hc _ h.chars_ne_nil h.trim_chars

/-- **A path is read again from what is written.** -/
theorem parse_text : parse p.text = .ok p := by
  obtain ⟨c, cs, hlabel, -, -, hcolon⟩ := p.scope.exists_label
  have hcut : cutAt [':'] (trim p.text.toList) = some (p.scope.label.toList, p.path.chars) := by
    rw [h.trim_text, toList_text]
    exact cutAt_colon (hlabel ▸ hcolon) p.path.chars
  rw [parse, hcut]
  simp only [String.ofList_toList, Scope.parse_label]
  change (do let path ← Path.parse p.path.text; return ⟨p.scope, path⟩) = Except.ok p
  rw [show Path.parse p.path.text = .ok p.path from h]
  rfl

end Legible

end ScopedPath

end Dialogue
