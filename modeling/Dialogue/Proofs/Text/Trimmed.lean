import Dialogue.Proofs.Text.Normal

/-!
# White space around a text

White space at the ends of a text changes none of its words.  It is in no word, it is its own lower case, and it is
neither cased nor case-ignorable, so that a `Σ` before it ends its word as at the end of the text.

* `casedFollows_append_blanks` — what white space tells about the end of a word;
* `lower_around` — the lower case of a text with white space around it;
* `tokenWords_trim` — a text has the same words when it is trimmed.
-/

namespace Dialogue.Text

variable {c : Char} {lead tail : List Char}

/-! ### White space is in no word -/

theorem isSeparator_of_isBlank (hc : isBlank c = true) : IsSeparator c := by
  constructor
  · rw [← Bool.not_eq_true]
    intro hword
    rw [isWordChar, Bool.or_eq_true, beq_iff_eq] at hword
    rcases hword with hword | rfl
    · rw [isBlank_of_isAlphanumeric hword] at hc
      cases hc
    · cases hc
  · rintro rfl
    cases hc

theorem wordsFrom_blanks_append (hlead : ∀ c ∈ lead, isBlank c = true) (cs : List Char) :
    wordsFrom [] (lead ++ cs) = wordsFrom [] cs := by
  induction lead with
  | nil => rfl
  | cons c lead ih =>
    rw [List.forall_mem_cons] at hlead
    rw [List.cons_append, wordsFrom_cons_separator (isSeparator_of_isBlank hlead.1), ih hlead.2]
    rfl

theorem wordsFrom_append_blanks (htail : ∀ c ∈ tail, isBlank c = true) (cs : List Char) :
    wordsFrom [] (cs ++ tail) = wordsFrom [] cs := by
  cases tail with
  | nil => rw [List.append_nil]
  | cons c tail =>
    rw [List.forall_mem_cons] at htail
    have hnone := wordsFrom_blanks_append htail.2 []
    rw [List.append_nil] at hnone
    rw [wordsFrom_append_cons (isSeparator_of_isBlank htail.1), hnone, wordsFrom, List.isEmpty_nil, if_pos rfl,
      List.append_nil]

/-! ### White space has no case -/

/-- no range of white space meets a range of cased characters -/
theorem casedRanges_apart :
    (casedRanges.all fun r => blankRanges.all fun s => r.2 < s.1 || s.2 < r.1) = true := by
  decide +kernel

/-- no range of white space meets a range of case-ignorable characters -/
theorem caseIgnorableRanges_apart :
    (caseIgnorableRanges.all fun r => blankRanges.all fun s => r.2 < s.1 || s.2 < r.1) = true := by
  decide +kernel

/-- no range of white space meets a run of capitals -/
theorem capitalRuns_apart_blankRanges :
    (capitalRuns.all fun r => blankRanges.all fun s => r.last < s.1 || s.2 < r.first) = true := by
  decide +kernel

theorem isCased_of_isBlank (hc : isBlank c = true) : isCased c = false := by
  rw [← Bool.not_eq_true]
  intro hcased
  rw [isBlank_eq_false_of_inRanges casedRanges_apart hcased] at hc
  cases hc

theorem isCaseIgnorable_of_isBlank (hc : isBlank c = true) : isCaseIgnorable c = false := by
  rw [← Bool.not_eq_true]
  intro hignorable
  rw [isBlank_eq_false_of_inRanges caseIgnorableRanges_apart hignorable] at hc
  cases hc

theorem isLowered_of_isBlank (hc : isBlank c = true) : IsLowered c := by
  constructor
  · rintro rfl
    cases hc
  · rw [Option.eq_none_iff_forall_not_mem]
    intro r hr
    obtain ⟨hmem, hfirst, hlast, -⟩ := mem_of_findRun? hr
    obtain ⟨s, hs, hsc⟩ := exists_range_of_inRanges hc
    have hapart := List.all_eq_true.1 (List.all_eq_true.1 capitalRuns_apart_blankRanges r hmem) s hs
    simp only [Bool.or_eq_true, decide_eq_true_eq] at hapart
    omega

/-- **White space tells nothing about the end of a word** that the end of the text does not tell. -/
theorem casedFollows_append_blanks (htail : ∀ c ∈ tail, isBlank c = true) (cs : List Char) :
    casedFollows (cs ++ tail) = casedFollows cs := by
  induction cs with
  | nil =>
    cases tail with
    | nil => rfl
    | cons c tail =>
      have hc : isBlank c = true := htail c List.mem_cons_self
      have hstays : (c :: tail).dropWhile isCaseIgnorable = c :: tail :=
        List.dropWhile_cons_of_neg (by simp [isCaseIgnorable_of_isBlank hc])
      rw [List.nil_append, casedFollows, hstays]
      exact isCased_of_isBlank hc
  | cons c cs ih =>
    unfold casedFollows at ih ⊢
    by_cases hc : isCaseIgnorable c = true
    · rw [List.cons_append, List.dropWhile_cons_of_pos hc, List.dropWhile_cons_of_pos hc, ih]
    · rw [List.cons_append, List.dropWhile_cons_of_neg hc, List.dropWhile_cons_of_neg hc]

/-! ### Lower case -/

/-- white space that stands before a text changes nothing in its lower case -/
theorem lowerFrom_before_blanks (hlead : ∀ c ∈ lead, isBlank c = true) (before cs : List Char) :
    lowerFrom (before ++ lead) cs = lowerFrom before cs := by
  fun_induction lowerFrom before cs with
  | case1 => rfl
  | case2 before cs ih => rw [lowerFrom, ← List.cons_append, ih, casedFollows_append_blanks hlead]
  | case3 before cs ih => rw [lowerFrom, ← List.cons_append, ih]
  | case4 before c cs hsigma hdotted ih =>
    rw [lowerFrom, ← List.cons_append, ih]
    · exact hsigma
    · exact hdotted

/-- white space that stands behind a text changes nothing in its lower case -/
theorem lowerFrom_append_blanks (htail : ∀ c ∈ tail, isBlank c = true) (before cs : List Char) :
    lowerFrom before (cs ++ tail) = lowerFrom before cs ++ tail := by
  fun_induction lowerFrom before cs with
  | case1 before => exact lowerFrom_eq_self (fun c hc => isLowered_of_isBlank (htail c hc)) before
  | case2 before cs ih =>
    rw [List.cons_append, lowerFrom, ih, casedFollows_append_blanks htail, List.cons_append]
  | case3 before cs ih => rw [List.cons_append, lowerFrom, ih, List.cons_append, List.cons_append]
  | case4 before c cs hsigma hdotted ih =>
    rw [List.cons_append, lowerFrom, ih, List.cons_append]
    · exact hsigma
    · exact hdotted

theorem lowerFrom_blanks_append (hlead : ∀ c ∈ lead, isBlank c = true) (before cs : List Char) :
    lowerFrom before (lead ++ cs) = lead ++ lowerFrom (lead.reverse ++ before) cs := by
  induction lead generalizing before with
  | nil => rfl
  | cons c lead ih =>
    rw [List.forall_mem_cons] at hlead
    rw [List.cons_append, lowerFrom_cons_of_isLowered (isLowered_of_isBlank hlead.1), ih hlead.2, List.reverse_cons,
      List.append_assoc]
    rfl

/-- **Lower case is that of the text between the white space.** -/
theorem lower_around (hlead : ∀ c ∈ lead, isBlank c = true) (htail : ∀ c ∈ tail, isBlank c = true) (cs : List Char) :
    lower (lead ++ cs ++ tail) = lead ++ lower cs ++ tail := by
  have hbehind : ∀ c ∈ lead.reverse, isBlank c = true := fun c hc => hlead c (List.mem_reverse.1 hc)
  have hbefore := lowerFrom_before_blanks hbehind [] cs
  rw [List.nil_append] at hbefore
  rw [lower, lowerFrom_append_blanks htail, lowerFrom_blanks_append hlead, List.append_nil, hbefore]
  rfl

/-! ### Words -/

/-- **A text has the same words when it is trimmed.** -/
theorem tokenWords_trim (cs : List Char) : tokenWords (String.ofList (trim cs)) = tokenWords (String.ofList cs) := by
  obtain ⟨lead, tail, hlead, htail, hcs⟩ := exists_trim cs
  have hwords : wordsFrom [] (lower cs) = wordsFrom [] (lower (trim cs)) := by
    calc wordsFrom [] (lower cs)
        = wordsFrom [] (lead ++ lower (trim cs) ++ tail) := by rw [← lower_around hlead htail, ← hcs]
      _ = wordsFrom [] (lead ++ lower (trim cs)) := wordsFrom_append_blanks htail _
      _ = wordsFrom [] (lower (trim cs)) := wordsFrom_blanks_append hlead _
  rw [tokenWords, tokenWords, String.toList_ofList, String.toList_ofList, hwords]

end Dialogue.Text
