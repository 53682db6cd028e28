import Mathlib.Tactic.Common
import Dialogue.Proofs.Path.Segments
import Dialogue.Proofs.Text.Words
import Dialogue.Slots

/-!
# Paths below the objects

A path below the objects of an utterance leads below them again when it is written and read
(`ScopedPath.keys_of_parse_text`), whatever its keys are.
-/

namespace Dialogue

namespace Text

theorem dropWhile_append_of_not {p : Char → Bool} {d : Char} (hd : p d = false) (cs ds : List Char) :
    (cs ++ d :: ds).dropWhile p = cs.dropWhile p ++ d :: ds := by
  induction cs with
  | nil => rw [List.nil_append, List.dropWhile_cons_of_neg (by simp [hd]), List.dropWhile_nil, List.nil_append]
  | cons c cs ih =>
    by_cases hc : p c = true
    · rw [List.cons_append, List.dropWhile_cons_of_pos hc, ih, List.dropWhile_cons_of_pos hc]
    · rw [List.cons_append, List.dropWhile_cons_of_neg hc, List.dropWhile_cons_of_neg hc, List.cons_append]

theorem trim_cons_append {c d : Char} (hc : isBlank c = false) (hd : isBlank d = false) (cs ds : List Char) :
    trim (c :: cs ++ d :: ds) = c :: cs ++ d :: trimEnd ds := by
  have hstart : (c :: cs ++ d :: ds).dropWhile isBlank = c :: cs ++ d :: ds :=
    List.dropWhile_cons_of_neg (by simp [hc])
  rw [trim, hstart, List.reverse_append, List.reverse_cons, List.append_assoc, List.singleton_append,
    dropWhile_append_of_not hd, List.reverse_append, List.reverse_cons, List.reverse_reverse, List.append_assoc,
    List.singleton_append, trimEnd]

end Text

theorem Sigil.isBlank_char (s : Sigil) : Text.isBlank s.char = false := by
  cases s <;> rfl

namespace ScopedPath

open Text

/-- whether a path leads below the objects of the utterance -/
def BelowObjects (p : ScopedPath) : Prop :=
  p.scope = .utterance ∧ ∃ s ss, p.path.segments = ⟨.map, "objects"⟩ :: s :: ss

theorem text_of_belowObjects {p : ScopedPath} (h : p.BelowObjects) :
    ∃ (s : Sigil) (cs : List Char), p.text.toList = "utt:/objects".toList ++ s.char :: cs := by
  obtain ⟨hscope, s, ss, hsegments⟩ := h
  refine ⟨s.sigil, s.key.toList ++ ss.flatMap Segment.chars, ?_⟩
  rw [text, hscope, Path.text, Path.chars, hsegments]
  simp [Scope.label, Segment.chars, Sigil.char]

theorem text_ne_intentConfirmed {p : ScopedPath} (h : p.BelowObjects) : p.text ≠ Slots.intentConfirmed.text := by
  intro he
  obtain ⟨s, cs, htext⟩ := text_of_belowObjects h
  have hconfirmed : Slots.intentConfirmed.text.toList = "utt:/intent?confirmed".toList := by rfl
  rw [he, hconfirmed] at htext
  have hletter : some 'i' = some 'o' := congrArg (·[5]?) htext
  exact absurd hletter (by decide)

/-- however a path below the objects is read again, it leads below the objects -/
theorem keys_of_parse_text {p q : ScopedPath} (h : p.BelowObjects) (hq : parse p.text = .ok q) :
    q.scope = .utterance ∧ ∃ ss, q.path.segments = ⟨.map, "objects"⟩ :: ss := by
  obtain ⟨s, cs, htext⟩ := text_of_belowObjects h
  have hs : isBlank s.char = false := s.isBlank_char
  -- a path can lose blanks at its end when it is read again, and these are behind the first key
  have htrim : trim p.text.toList = 'u' :: "tt:/objects".toList ++ s.char :: trimEnd cs := by
    rw [htext]
    exact trim_cons_append rfl hs "tt:/objects".toList cs
  have hcut : cutAt [':'] (trim p.text.toList) =
      some ("utt".toList, '/' :: "objects".toList ++ s.char :: trimEnd cs) := by
    rw [htrim]
    rfl
  rw [parse, hcut] at hq
  obtain ⟨scope, hscope, hq⟩ := bind_eq_ok.1 hq
  obtain ⟨path, hpath, hq⟩ := bind_eq_ok.1 hq
  cases hq
  have hutt : Scope.parse (String.ofList "utt".toList) = .ok .utterance := by rfl
  rw [hutt] at hscope
  cases hscope
  refine ⟨rfl, ?_⟩
  rw [Path.parse, mapError_eq_ok, String.toList_ofList, Path.parseChars, trim_cons_append rfl hs] at hpath
  have hhead : Path.segmentsFrom .map [] ("objects".toList ++ s.char :: trimEnd (trimEnd cs)) =
      ⟨.map, "objects"⟩ :: Path.segmentsFrom s [] (trimEnd (trimEnd cs)) := by
    cases s <;> rfl
  exact ⟨Path.segmentsFrom s [] (trimEnd (trimEnd cs)), (Path.ofSegments_eq_ok.1 hpath).trans hhead⟩

end ScopedPath

end Dialogue
