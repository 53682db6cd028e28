import Mathlib.Data.List.Infix
import Dialogue.Proofs.Span.Runs
import Dialogue.Proofs.Text.Spoken
import Dialogue.Utterance

/-!
# Words as runs

The words of a text are the runs of the positions that belong to a word in its lower case: those of letters, digits
and underscores, and those of apostrophes inside a word.  An apostrophe is inside a word if a word character stands
before it and a letter or a digit behind it.  That an underscore will not do behind it is all that keeps the words
from being the runs of a grammar that treats both sides alike.

* `wordAt_eq_of_begun` — how the reading of words decides on a character;
* `wordsFrom_eq`, `tokens_eq` — the words that are read are the runs;
* `exists_wordAt_iff` — where the two grammars differ;
* `spells_isWordChar_iff` — the texts for which they give the same words;
* `parse_runs` — the words of a text in both grammars.
-/

namespace Dialogue.Text

open Dialogue.Span

/-! ### Positions of words -/

/-- whether the character at a position is an apostrophe inside a word: a word character stands before it, and a
character of `behind` stands behind it -/
def apostropheAt (behind : Char → Bool) (cs : List Char) (i : Nat) : Bool :=
  cs[i]? == some '\'' && (i != 0 && cs[i - 1]?.any isWordChar) && cs[i + 1]?.any behind

/-- whether the character at a position belongs to a word -/
def wordAt (behind : Char → Bool) (cs : List Char) (i : Nat) : Bool :=
  cs[i]?.any isWordChar || apostropheAt behind cs i

variable {behind : Char → Bool} {cs : List Char} {start i : Nat}

theorem apostropheAt_iff : apostropheAt behind cs i = true ↔
    cs[i]? = some '\'' ∧ (i ≠ 0 ∧ ∃ c, cs[i - 1]? = some c ∧ isWordChar c = true) ∧
      ∃ b, cs[i + 1]? = some b ∧ behind b = true := by
  unfold apostropheAt
  simp only [Bool.and_eq_true, beq_iff_eq, bne_iff_ne, Option.any_eq_true, and_assoc]

theorem wordAt_of_isWordChar {c : Char} (hi : cs[i]? = some c) (hc : isWordChar c = true) :
    wordAt behind cs i = true := by
  unfold wordAt
  rw [hi, Option.any_some, hc, Bool.true_or]

theorem wordAt_of_length_le (h : cs.length ≤ i) : wordAt behind cs i = false := by
  unfold wordAt apostropheAt
  rw [List.getElem?_eq_none h]
  rfl

theorem stop_le_length (h : IsRun (wordAt behind cs) s) : s.stop ≤ cs.length := by
  have hlast := h.inside (s.stop - 1) (by have := h.start_lt_stop; omega) (by have := h.start_lt_stop; omega)
  by_contra hlt
  rw [wordAt_of_length_le (by omega)] at hlast
  cases hlast

/-! ### Reading words -/

theorem isWordChar_apostrophe : isWordChar '\'' = false := by
  decide

/-- a word has begun before an apostrophe exactly if a word character stands there: no word ends in an apostrophe -/
theorem start_lt_iff_of_apostrophe (h : Begun (wordAt isAlphanumeric cs) start i) (hi : cs[i]? = some '\'') :
    start < i ↔ i ≠ 0 ∧ ∃ c, cs[i - 1]? = some c ∧ isWordChar c = true := by
  constructor
  · intro hlt
    refine ⟨by omega, ?_⟩
    have hbefore : wordAt isAlphanumeric cs (i - 1) = true := h.inside (i - 1) (by omega) (by omega)
    unfold wordAt at hbefore
    rw [Bool.or_eq_true, Option.any_eq_true] at hbefore
    rcases hbefore with hbefore | hbefore
    · exact hbefore
    · -- an apostrophe before this one would have a letter or a digit behind it
      obtain ⟨-, -, b, hb, hletter⟩ := apostropheAt_iff.1 hbefore
      rw [Nat.sub_add_cancel (by omega), hi] at hb
      cases hb
      exact absurd hletter (by decide)
  · rintro ⟨hne, c, hc, hword⟩
    by_contra hlt
    have hstart : start = i := Nat.le_antisymm h.start_le (Nat.not_lt.1 hlt)
    have hbefore : wordAt isAlphanumeric cs (i - 1) = false := h.before_start (i - 1) (by omega)
    rw [wordAt_of_isWordChar hc hword] at hbefore
    cases hbefore

/-- **How the reading of words decides on a character.** -/
theorem wordAt_eq_of_begun {c : Char} {rest : List Char} (h : Begun (wordAt isAlphanumeric cs) start i)
    (hrest : cs.drop i = c :: rest) :
    wordAt isAlphanumeric cs i =
      (isWordChar c ||
        (c == '\'' && !(slice ⟨start, i⟩ cs).isEmpty && (rest.head?.map isAlphanumeric).getD false)) := by
  have hi : cs[i]? = some c := by rw [← List.head?_drop, hrest, List.head?_cons]
  have hbehind : cs[i + 1]? = rest.head? := by
    rw [← List.head?_drop, ← List.drop_drop, hrest]
    rfl
  have hlength : i < cs.length := List.getElem?_eq_some_iff.1 hi |>.1
  unfold wordAt
  rw [hi, Option.any_some]
  -- an apostrophe is in a word by what stands around it, and every other character by itself
  by_cases hc : c = '\''
  · subst hc
    rw [isWordChar_apostrophe, Bool.false_or, Bool.false_or, Bool.eq_iff_iff, apostropheAt_iff,
      ← start_lt_iff_of_apostrophe h hi, hbehind]
    have hword : slice ⟨start, i⟩ cs = [] ↔ i ≤ start := slice_eq_nil_iff (Nat.le_of_lt hlength)
    cases rest.head? <;> simp [hi, hword]
  · have hnone : apostropheAt isAlphanumeric cs i = false := by
      unfold apostropheAt
      simp [hi, hc]
    simp [hnone, hc]

theorem map_slice_endRun (hi : i ≤ cs.length) : (endRun start i).map (slice · cs) =
    if (slice ⟨start, i⟩ cs).isEmpty then [] else [slice ⟨start, i⟩ cs] := by
  have hword : slice ⟨start, i⟩ cs = [] ↔ i ≤ start := slice_eq_nil_iff hi
  unfold endRun
  simp only [List.isEmpty_iff, hword, ← Nat.not_lt]
  by_cases hlt : start < i
  · rw [if_pos hlt, if_neg (not_not_intro hlt), List.map_singleton]
  · rw [if_neg hlt, if_pos hlt, List.map_nil]

/-- **The words that are read are the runs.** -/
theorem wordsFrom_eq {rest : List Char} (h : Begun (wordAt isAlphanumeric cs) start i) (hrest : cs.drop i = rest)
    (hi : i ≤ cs.length) :
    wordsFrom (slice ⟨start, i⟩ cs) rest =
      (runsFrom (wordAt isAlphanumeric cs) start i rest.length).map (slice · cs) := by
  induction rest generalizing start i with
  | nil => rw [wordsFrom, List.length_nil, runsFrom, map_slice_endRun hi]
  | cons c rest ih =>
    have hc : cs[i]? = some c := by rw [← List.head?_drop, hrest, List.head?_cons]
    have hnext : i + 1 ≤ cs.length := (List.getElem?_eq_some_iff.1 hc).1
    have hrest' : cs.drop (i + 1) = rest := by
      rw [← List.drop_drop, hrest]
      rfl
    rw [wordsFrom, ← wordAt_eq_of_begun h hrest, List.length_cons, runsFrom]
    by_cases hword : wordAt isAlphanumeric cs i = true
    · -- the word goes on
      rw [if_pos hword, if_pos hword, ← slice_concat h.start_le hc]
      exact ih (h.next hword) hrest' hnext
    · -- the word ends, and the next one begins behind the character
      have hnil : slice ⟨i + 1, i + 1⟩ cs = [] := (slice_eq_nil_iff hnext).2 (Nat.le_refl (i + 1))
      have ih := ih (begun_succ (by simpa using hword)) hrest' hnext
      rw [hnil] at ih
      rw [if_neg hword, if_neg hword, List.map_append, map_slice_endRun hi, ih]
      split <;> rfl

/-- the tokens of a text are the runs of its lower case -/
theorem tokens_eq (text : String) :
    (Utterance.parse text).tokens =
      (runs (wordAt isAlphanumeric (lower text.toList)) (lower text.toList).length).map fun s =>
        .literal (String.ofList (s.slice (lower text.toList))) := by
  have hwords := wordsFrom_eq (begun_zero (wordAt isAlphanumeric (lower text.toList))) List.drop_zero (Nat.zero_le _)
  have hnil : slice ⟨0, 0⟩ (lower text.toList) = [] := rfl
  rw [hnil] at hwords
  unfold Utterance.parse tokenWords runs
  rw [hwords, List.map_map, List.map_map]
  rfl

/-! ### Grammars of words -/

/-- tokens that are, in order, the runs of the positions that satisfy `p`, as words -/
def Spells (p : Nat → Bool) (cs : List Char) (ts : List Token) : Prop :=
  ∃ spans : List Span, (spans.Pairwise fun s t => s.before t = true) ∧ (∀ s, s ∈ spans ↔ IsRun p s) ∧
    ts = spans.map fun s => .literal (String.ofList (s.slice cs))

/-- somewhere an apostrophe stands between a word character and an underscore -/
def Parted (cs : List Char) : Prop :=
  ∃ before c after, cs = before ++ c :: '\'' :: '_' :: after ∧ isWordChar c = true

theorem spells_iff {ts : List Token} : Spells (wordAt behind cs) cs ts ↔
    ts = (runs (wordAt behind cs) cs.length).map fun s => .literal (String.ofList (s.slice cs)) := by
  have hend : ∀ j, cs.length ≤ j → wordAt behind cs j = false := fun j hj => wordAt_of_length_le hj
  constructor
  · rintro ⟨spans, horder, hruns, rfl⟩
    rw [eq_runs hend horder hruns]
  · rintro rfl
    exact ⟨_, pairwise_runs hend, fun s => mem_runs_iff hend, rfl⟩

/-- the characters of all words together are as many as the positions of words -/
theorem sum_length_of_spells {ts : List Token} (h : Spells (wordAt behind cs) cs ts) :
    (ts.map fun t => t.value.length).sum = (List.range cs.length).countP (wordAt behind cs) := by
  have hend : ∀ j, cs.length ≤ j → wordAt behind cs j = false := fun j hj => wordAt_of_length_le hj
  have hlength : (runs (wordAt behind cs) cs.length).map (fun s => (String.ofList (s.slice cs)).length) =
      (runs (wordAt behind cs) cs.length).map Span.length := by
    apply List.map_congr_left
    intro s hs
    rw [String.length_ofList, length_slice (stop_le_length ((mem_runs_iff hend).1 hs))]
  rw [spells_iff.1 h, ← sum_length_runs, ← hlength, List.map_map]
  rfl

theorem wordAt_mono (h : wordAt isAlphanumeric cs i = true) : wordAt isWordChar cs i = true := by
  unfold wordAt at h ⊢
  rw [Bool.or_eq_true] at h ⊢
  refine h.imp_right fun h => ?_
  obtain ⟨hi, hbefore, b, hb, hletter⟩ := apostropheAt_iff.1 h
  exact apostropheAt_iff.2 ⟨hi, hbefore, b, hb, by unfold isWordChar; rw [hletter, Bool.true_or]⟩

/-- an apostrophe that only an underscore behind it lets into a word -/
theorem underscore_of_wordAt (h : wordAt isWordChar cs i = true) (hnot : wordAt isAlphanumeric cs i = false) :
    cs[i]? = some '\'' ∧ (i ≠ 0 ∧ ∃ c, cs[i - 1]? = some c ∧ isWordChar c = true) ∧ cs[i + 1]? = some '_' := by
  unfold wordAt at h hnot
  rw [Bool.or_eq_false_iff] at hnot
  rw [hnot.1, Bool.false_or] at h
  obtain ⟨hi, hbefore, b, hb, hword⟩ := apostropheAt_iff.1 h
  have hletter : isAlphanumeric b = false := by
    rw [← Bool.not_eq_true]
    intro hletter
    rw [apostropheAt_iff.2 ⟨hi, hbefore, b, hb, hletter⟩] at hnot
    exact absurd hnot.2 (by decide)
  unfold isWordChar at hword
  rw [hletter, Bool.false_or, beq_iff_eq] at hword
  rw [hword] at hb
  exact ⟨hi, hbefore, hb⟩

/-- **The two grammars differ** at the apostrophes between a word character and an underscore. -/
theorem exists_wordAt_iff :
    (∃ i, wordAt isWordChar cs i = true ∧ wordAt isAlphanumeric cs i = false) ↔ Parted cs := by
  constructor
  · rintro ⟨i, h, hnot⟩
    obtain ⟨hi, ⟨hne, c, hc, hword⟩, hbehind⟩ := underscore_of_wordAt h hnot
    obtain ⟨j, rfl⟩ := Nat.exists_eq_succ_of_ne_zero hne
    have hdrop {k : Nat} {d : Char} (hd : cs[k]? = some d) : cs.drop k = d :: cs.drop (k + 1) := by
      obtain ⟨hlt, rfl⟩ := List.getElem?_eq_some_iff.1 hd
      exact List.drop_eq_getElem_cons hlt
    refine ⟨cs.take j, c, cs.drop (j + 3), ?_, hword⟩
    rw [Nat.succ_sub_one] at hc
    rw [← hdrop hbehind, ← hdrop hi, ← hdrop hc, List.take_append_drop]
  · rintro ⟨before, c, after, rfl, hword⟩
    generalize htext : before ++ c :: '\'' :: '_' :: after = cs
    have hat (k : Nat) : cs[before.length + k]? = (c :: '\'' :: '_' :: after)[k]? := by
      rw [← htext, List.getElem?_append_right (Nat.le_add_right _ _), Nat.add_sub_cancel_left]
    refine ⟨before.length + 1, ?_, ?_⟩
    · unfold wordAt
      rw [Bool.or_eq_true, apostropheAt_iff]
      exact .inr ⟨hat 1, ⟨Nat.succ_ne_zero _, c, hat 0, hword⟩, '_', hat 2, by decide⟩
    · have hunderscore : apostropheAt isAlphanumeric cs (before.length + 1) = false := by
        rw [← Bool.not_eq_true, apostropheAt_iff]
        rintro ⟨-, -, b, hb, hletter⟩
        cases (hat 2).symm.trans hb
        exact absurd hletter (by decide)
      unfold wordAt
      rw [hunderscore, hat 1, Bool.or_false]
      exact isWordChar_apostrophe

/-- both grammars give a text the same words exactly if no apostrophe stands between a word character and an
underscore -/
theorem spells_isWordChar_iff (text : String) :
    Spells (wordAt isWordChar (lower text.toList)) (lower text.toList) (Utterance.parse text).tokens ↔
      ¬ Parted (lower text.toList) := by
  have htokens := tokens_eq text
  generalize (Utterance.parse text).tokens = ts at htokens ⊢
  generalize lower text.toList = cs at htokens ⊢
  rw [← exists_wordAt_iff]
  constructor
  · -- equal words have equally many characters, and then every position of a word in one grammar is one in the other
    rintro h ⟨i, hi, hnot⟩
    have hcount := (sum_length_of_spells h).symm.trans (sum_length_of_spells (spells_iff.2 htokens))
    rw [List.countP_eq_length_filter, List.countP_eq_length_filter] at hcount
    have hsub : ((List.range cs.length).filter (wordAt isAlphanumeric cs)).Sublist
        ((List.range cs.length).filter (wordAt isWordChar cs)) :=
      List.monotone_filter_right _ fun j hj => wordAt_mono hj
    have hlt : i < cs.length := by
      by_contra hle
      rw [wordAt_of_length_le (Nat.not_lt.1 hle)] at hi
      cases hi
    have hmem : i ∈ (List.range cs.length).filter (wordAt isWordChar cs) :=
      List.mem_filter.2 ⟨List.mem_range.2 hlt, hi⟩
    rw [← hsub.eq_of_length hcount.symm, List.mem_filter, hnot] at hmem
    cases hmem.2
  · intro hsame
    have hp : wordAt isWordChar cs = wordAt isAlphanumeric cs := by
      funext i
      rw [Bool.eq_iff_iff]
      refine ⟨fun hi => ?_, wordAt_mono⟩
      by_contra hnot
      exact hsame ⟨i, hi, by simpa using hnot⟩
    rw [spells_iff, hp]
    exact htokens

/-- **The words of a text are runs**, in order: those of letters, digits and underscores of its lower case, and of the
apostrophes between one of these and a letter or a digit.  They are also the runs in which an underscore will do behind
an apostrophe, as it does before one, exactly if no apostrophe stands between a word character and an underscore. -/
theorem parse_runs (text : String) :
    Spells (wordAt isAlphanumeric (lower text.toList)) (lower text.toList) (Utterance.parse text).tokens ∧
      (Spells (wordAt isWordChar (lower text.toList)) (lower text.toList) (Utterance.parse text).tokens ↔
        ¬ Parted (lower text.toList)) := by
  constructor
  · exact spells_iff.2 (tokens_eq text)
  · exact spells_isWordChar_iff text

/-- apostrophes inside words, around a word, and behind an underscore -/
theorem parse_runs_quoted :
    ¬ Parted (lower "Don't _'Quote'".toList) ∧
      (Utterance.parse "Don't _'Quote'").tokens = [.literal "don't", .literal "_'quote"] ∧
      Spells (wordAt isWordChar (lower "Don't _'Quote'".toList)) (lower "Don't _'Quote'".toList)
        [.literal "don't", .literal "_'quote"] := by
  have hwhole : ¬ Parted (lower "Don't _'Quote'".toList) := by
    rintro ⟨before, c, after, htext, -⟩
    have hpart : ['\'', '_'] <:+: lower "Don't _'Quote'".toList := ⟨before ++ [c], after, by rw [htext]; simp⟩
    revert hpart
    decide +kernel
  have htokens : (Utterance.parse "Don't _'Quote'").tokens = [.literal "don't", .literal "_'quote"] := by
    decide +kernel
  have hspells := (parse_runs "Don't _'Quote'").2.2 hwhole
  rw [htokens] at hspells
  exact ⟨hwhole, htokens, hspells⟩

/-- The apostrophe of `a'_b` stands between word characters, but it divides the word. -/
theorem not_spells_underscore :
    ¬ ∀ text, Spells (wordAt isWordChar (lower text.toList)) (lower text.toList) (Utterance.parse text).tokens := by
  intro h
  have hlower : lower "a'_b".toList = ['a', '\'', '_', 'b'] := by decide +kernel
  refine (spells_isWordChar_iff "a'_b").1 (h "a'_b") ?_
  rw [hlower]
  exact ⟨[], 'a', ['b'], rfl, by decide⟩

end Dialogue.Text
