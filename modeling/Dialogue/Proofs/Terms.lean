import Dialogue.Proofs.Readings
import Dialogue.Proofs.Text.Normal
import Dialogue.Validator

/-!
# One text for terms and values

A text can be the terms of a gazetteer and the values that a validator accepts.  The gazetteer cuts a line into words
and puts single spaces between them; the validator only trims it.  So an entity is accepted if its words, put together
again, are a line of the text.

* `Gazetteer.mem_readings_ofTerms_iff` — the entities of a reading are terms of the text;
* `Validator.accepts_phrase_iff` — the phrases that are accepted;
* `Gazetteer.allAccepted_iff` — the texts all of whose terms are accepted;
* `Gazetteer.allAccepted_of_plain` — lines of words with single spaces between them are such a text.
-/

namespace Dialogue

open Text

/-! ### Characters and words -/

namespace Text

theorem toLower_of_not_isCapital {c : Char} (h : ¬ IsCapital c) : c.toLower = c := by
  unfold Char.toLower
  rw [dif_neg]
  intro hc
  exact h ⟨UInt32.le_iff_toNat_le.1 hc.1, UInt32.le_iff_toNat_le.1 hc.2⟩

/-- a phrase has no white space at its ends and no capitals -/
theorem lowerAscii_trim_phrase {s : String} (h : IsPhrase s) : lowerAscii (trim s.toList) = s.toList := by
  have hlower : s.toList.map Char.toLower = s.toList.map id :=
    List.map_congr_left fun c hc => toLower_of_not_isCapital (h.not_isCapital hc)
  rw [h.trim_eq, lowerAscii, hlower, List.map_id]

end Text

/-! ### Terms -/

namespace Gazetteer

variable {text tag : String}

theorem mem_readings_ofTerms_iff {u v : Utterance} :
    v ∈ (ofTerms text).readings u tag ↔
      v.typed = u.typed ∧
        Labels (fun t ws value => t = tag ∧ ws ∈ termWords text ∧ value = spaced ws) u.tokens v.tokens := by
  have hknows : (ofTerms text).Knows tag = fun t ws value => t = tag ∧ ws ∈ termWords text ∧ value = spaced ws := by
    funext t ws value
    rw [Knows, payload?_ofTerms]
  rw [mem_readings_iff, hknows]

end Gazetteer

/-! ### Accepted values -/

namespace Validator

variable {text s : String}

theorem accepts_ofLines_iff : (ofLines text).accepts (some (.str s)) = true ↔
    ∃ line ∈ lines text.toList, trim line ≠ [] ∧ lowerAscii (trim line) = lowerAscii (trim s.toList) := by
  simp only [ofLines, oneOf, Option.any_some, Node.text, List.contains_iff_mem, List.mem_map, List.mem_filter,
    String.ofList_inj]
  constructor
  · rintro ⟨_, ⟨⟨line, hline, rfl⟩, hne⟩, heq⟩
    exact ⟨line, hline, by simpa using hne, heq⟩
  · rintro ⟨line, hline, hne, heq⟩
    exact ⟨trim line, ⟨⟨line, hline, rfl⟩, by simpa using hne⟩, heq⟩

/-- a phrase is accepted if it is a line, in lower case and without white space at its ends -/
theorem accepts_phrase_iff (h : IsPhrase s) : (ofLines text).accepts (some (.str s)) = true ↔
    ∃ line ∈ lines text.toList, lowerAscii (trim line) = s.toList := by
  rw [accepts_ofLines_iff, lowerAscii_trim_phrase h]
  constructor
  · rintro ⟨line, hline, -, heq⟩
    exact ⟨line, hline, heq⟩
  · rintro ⟨line, hline, heq⟩
    refine ⟨line, hline, ?_, heq⟩
    intro hnil
    obtain ⟨⟨c, cs, hcs, -⟩, -⟩ := h.exists_ends
    rw [hnil, hcs] at heq
    cases heq

end Validator

/-! ### Terms that are accepted -/

theorem Labels.exists_known {known : String → List String → String → Prop} {w tag value : String} {ts us : List Token}
    (h : Labels known (.literal w :: ts) (.entity tag value :: us)) : ∃ ws, known tag ws value := by
  generalize hts : Token.literal w :: ts = xs at h
  cases h with
  | keep t h => cases hts
  | entity hne hknown h => exact ⟨_, hknown⟩

namespace Gazetteer

variable {text : String} {ws : List String} {line : List Char}

/-- every entity that a gazetteer puts in a reading is a value that the validator of the same text accepts -/
def AllAccepted (text : String) : Prop :=
  ∀ (u v : Utterance) (tag : String), v ∈ (ofTerms text).readings u tag →
    Labels (fun _ _ value => (Validator.ofLines text).accepts (some (.str value)) = true) u.tokens v.tokens

/-- words of letters, digits and underscores with one space between each two, in which the only capitals are
`A`–`Z`; white space at the ends of the line does not count -/
structure Plain (line : List Char) : Prop where
  words : ∃ ws, (∀ w ∈ ws, w ≠ [] ∧ ∀ c ∈ w, isWordChar c = true) ∧ lower (trim line) = joined ws
  ascii : lower (trim line) = lowerAscii (trim line)

theorem plain_of_all {ws : List (List Char)} (hws : (ws.all fun w => !w.isEmpty && w.all isWordChar) = true)
    (hline : lower (trim line) = joined ws) (hascii : joined ws = lowerAscii (trim line)) : Plain line := by
  refine ⟨⟨ws, ?_, hline⟩, hline.trans hascii⟩
  intro w hw
  have hw := List.all_eq_true.1 hws w hw
  simpa using hw

/-- the words of a text are a reading of themselves in which they are an entity -/
theorem accepts_of_allAccepted (h : AllAccepted text) (hws : ws ∈ termWords text) :
    (Validator.ofLines text).accepts (some (.str (spaced ws))) = true := by
  have hne : ws ≠ [] := (mem_termWords.1 hws).2
  have hlabels : Labels (fun t vs value => t = "" ∧ vs ∈ termWords text ∧ value = spaced vs)
      (ws.map Token.literal ++ []) [.entity "" (spaced ws)] := .entity hne ⟨rfl, hws, rfl⟩ .nil
  rw [List.append_nil] at hlabels
  have haccepted := h ⟨ws.map .literal, ""⟩ ⟨[.entity "" (spaced ws)], ""⟩ ""
    (mem_readings_ofTerms_iff.2 ⟨rfl, hlabels⟩)
  obtain ⟨w, ws, rfl⟩ := List.exists_cons_of_ne_nil hne
  obtain ⟨_, h⟩ := haccepted.exists_known
  exact h

theorem allAccepted_iff : AllAccepted text ↔
    ∀ ws ∈ termWords text, ∃ line ∈ lines text.toList, lowerAscii (trim line) = (spaced ws).toList := by
  constructor
  · intro h ws hws
    exact (Validator.accepts_phrase_iff (isPhrase_of_mem_termWords hws)).1 (accepts_of_allAccepted h hws)
  · intro h u v tag hv
    refine (mem_readings_ofTerms_iff.1 hv).2.mono ?_
    rintro t ws value ⟨-, hws, rfl⟩
    exact (Validator.accepts_phrase_iff (isPhrase_of_mem_termWords hws)).2 (h ws hws)

theorem toList_spaced_of_plain (h : Plain line) (hline : lineWords line ≠ []) :
    (spaced (lineWords line)).toList = lowerAscii (trim line) := by
  obtain ⟨ws, hws, hjoined⟩ := h.words
  have hwords : lineWords line = ws.map String.ofList := by
    rw [lineWords] at hline ⊢
    split at hline
    · exact absurd rfl hline
    · next hcomment =>
      have hread : wordsFrom [] (joined ws) = ws :=
        wordsFrom_joined fun w hw => isWord_of_all (hws w hw).1 (hws w hw).2
      rw [if_neg hcomment, tokenWords, String.toList_ofList, hjoined, hread]
  rw [hwords, toList_spaced_ofList, ← hjoined, h.ascii]

theorem allAccepted_of_plain (h : ∀ line ∈ lines text.toList, lineWords line ≠ [] → Plain line) :
    AllAccepted text := by
  refine allAccepted_iff.2 ?_
  intro ws hws
  obtain ⟨⟨line, hline, rfl⟩, hne⟩ := mem_termWords.1 hws
  exact ⟨line, hline, (toList_spaced_of_plain (h line hline hne) hne).symm⟩

/-- **One text for terms and values.**  The entities of a reading are the words of lines, and each is accepted if and
only if a line, in lower case and without white space at its ends, is these words with single spaces between them.  So
all entities of all readings are accepted if and only if all words of lines are such lines, as they are if every line
is plain. -/
theorem accepts_term (text : String) :
    (∀ (u v : Utterance) (tag : String), v ∈ (ofTerms text).readings u tag →
      v.typed = u.typed ∧
        Labels (fun t ws value => t = tag ∧ ws ∈ termWords text ∧ value = spaced ws ∧
          ((Validator.ofLines text).accepts (some (.str value)) = true ↔
            ∃ line ∈ lines text.toList, lowerAscii (trim line) = value.toList)) u.tokens v.tokens) ∧
      (AllAccepted text ↔
        ∀ ws ∈ termWords text, ∃ line ∈ lines text.toList, lowerAscii (trim line) = (spaced ws).toList) ∧
      ((∀ line ∈ lines text.toList, lineWords line ≠ [] → Plain line) → AllAccepted text) := by
  refine ⟨?_, allAccepted_iff, allAccepted_of_plain⟩
  intro u v tag hv
  obtain ⟨htyped, hlabels⟩ := mem_readings_ofTerms_iff.1 hv
  refine ⟨htyped, hlabels.mono ?_⟩
  rintro t ws value ⟨rfl, hws, rfl⟩
  exact ⟨rfl, hws, rfl, Validator.accepts_phrase_iff (isPhrase_of_mem_termWords hws)⟩

/-- plain lines, one of them with capitals and one with white space around it -/
theorem accepts_term_priorities : AllAccepted "high\nSuper Blocker \n" := by
  have hlines : lines "high\nSuper Blocker \n".toList = ["high".toList, "Super Blocker ".toList] := by decide +kernel
  refine (accepts_term _).2.2 ?_
  rw [hlines]
  simp only [List.mem_cons, List.not_mem_nil, or_false, forall_eq_or_imp, forall_eq]
  have hhigh : Plain "high".toList :=
    plain_of_all (show (["high".toList].all fun w => !w.isEmpty && w.all isWordChar) = true by decide +kernel)
      (by decide +kernel) (by decide +kernel)
  have hblocker : Plain "Super Blocker ".toList :=
    plain_of_all
      (show (["super".toList, "blocker".toList].all fun w => !w.isEmpty && w.all isWordChar) = true by decide +kernel)
      (by decide +kernel) (by decide +kernel)
  exact ⟨fun _ => hhigh, fun _ => hblocker⟩

/-- A hyphen in a line is a space in the term. -/
theorem not_allAccepted : ¬ ∀ text, AllAccepted text := by
  intro h
  have hlines : lines "high-priority".toList = ["high-priority".toList] := by decide +kernel
  have hmem : ["high", "priority"] ∈ termWords "high-priority" := by decide +kernel
  obtain ⟨line, hline, heq⟩ := allAccepted_iff.1 (h "high-priority") _ hmem
  rw [hlines, List.mem_singleton] at hline
  subst hline
  revert heq
  decide +kernel

end Gazetteer

end Dialogue
