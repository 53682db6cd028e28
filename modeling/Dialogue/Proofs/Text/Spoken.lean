import Mathlib.Tactic.Common
import Dialogue.Proofs.Text.Words
import Dialogue.Token

/-!
# What is spoken

The words of an utterance are made of letters, digits, underscores and apostrophes, and have no capitals `A`–`Z`
(`spoken_of_mem_tokenWords`).  So a phrase, which is such words with spaces between them, holds no semicolon, and has
no white space at its ends.

Both facts about characters are read off the tables of white space, letters and capitals.
-/

namespace Dialogue.Text

/-! ### Ranges -/

theorem exists_range_of_inRanges {rs : List (Nat × Nat)} {n : Nat} (h : inRanges rs n = true) :
    ∃ r ∈ rs, r.1 ≤ n ∧ n ≤ r.2 := by
  induction rs with
  | nil => simp [inRanges] at h
  | cons r rs ih =>
    obtain ⟨first, last⟩ := r
    rw [inRanges] at h
    split at h
    · cases h
    · next hfirst =>
      rw [Bool.or_eq_true, decide_eq_true_eq] at h
      rcases h with h | h
      · exact ⟨(first, last), List.mem_cons_self, Nat.le_of_not_lt hfirst, h⟩
      · obtain ⟨r, hr, hn⟩ := ih h
        exact ⟨r, List.mem_cons_of_mem _ hr, hn⟩

/-- a character of ranges that no range of white space meets -/
theorem isBlank_eq_false_of_inRanges {rs : List (Nat × Nat)} {c : Char}
    (hapart : (rs.all fun r => blankRanges.all fun s => r.2 < s.1 || s.2 < r.1) = true)
    (h : inRanges rs c.toNat = true) : isBlank c = false := by
  rw [← Bool.not_eq_true]
  intro hblank
  obtain ⟨r, hr, hrc⟩ := exists_range_of_inRanges h
  obtain ⟨s, hs, hsc⟩ := exists_range_of_inRanges hblank
  have hapart := List.all_eq_true.1 (List.all_eq_true.1 hapart r hr) s hs
  simp only [Bool.or_eq_true, decide_eq_true_eq] at hapart
  omega

/-- no range of white space meets a range of letters, digits and other numbers -/
theorem alphanumericRanges_apart :
    (alphanumericRanges.all fun r => blankRanges.all fun s => r.2 < s.1 || s.2 < r.1) = true := by
  decide +kernel

theorem isBlank_of_isAlphanumeric {c : Char} (h : isAlphanumeric c = true) : isBlank c = false :=
  isBlank_eq_false_of_inRanges alphanumericRanges_apart h

/-! ### Lower case -/

/-- whether a character is one of `A`–`Z` -/
def IsCapital (c : Char) : Prop :=
  'A'.toNat ≤ c.toNat ∧ c.toNat ≤ 'Z'.toNat

instance (c : Char) : Decidable (IsCapital c) :=
  inferInstanceAs (Decidable (_ ∧ _))

theorem mem_of_findRun? {rs : List CapitalRun} {n : Nat} {r : CapitalRun} (h : findRun? rs n = some r) :
    r ∈ rs ∧ r.first ≤ n ∧ n ≤ r.last ∧ (n - r.first) % r.stride = 0 := by
  induction rs with
  | nil => cases h
  | cons s rs ih =>
    rw [findRun?] at h
    split at h
    · cases h
    · next hfirst =>
      split at h
      · next hlast =>
        cases h
        rw [Bool.and_eq_true, decide_eq_true_eq, beq_iff_eq] at hlast
        exact ⟨List.mem_cons_self, Nat.le_of_not_lt hfirst, hlast⟩
      · obtain ⟨hr, hn⟩ := ih h
        exact ⟨List.mem_cons_of_mem s hr, hn⟩

/-- no run of capitals has one of `A`–`Z` as its lower case -/
theorem capitalRuns_apart :
    (capitalRuns.all fun r => r.last + r.shift < 'A'.toNat || 'Z'.toNat < r.first + r.shift) = true := by
  decide +kernel

theorem findRun?_of_isCapital {c : Char} (h : IsCapital c) : (findRun? capitalRuns c.toNat).isSome = true := by
  -- the first run is `A`–`Z`
  have hruns : capitalRuns = ⟨'A'.toNat, 'Z'.toNat, 1, 32⟩ :: capitalRuns.tail := rfl
  rw [hruns, findRun?, if_neg (Nat.not_lt.2 h.1), if_pos (by simpa [Nat.mod_one] using h.2)]
  rfl

/-- a number that is no code point gives the character zero -/
theorem toNat_ofNat (n : Nat) : (Char.ofNat n).toNat = n ∨ (Char.ofNat n).toNat = 0 := by
  rw [Char.ofNat]
  by_cases h : n.isValidChar
  · rw [dif_pos h]
    exact .inl rfl
  · rw [dif_neg h]
    exact .inr rfl

theorem not_isCapital_lowerChar (c : Char) : ¬ IsCapital (lowerChar c) := by
  rw [lowerChar]
  split
  · next r hr =>
    obtain ⟨hmem, hfirst, hlast, -⟩ := mem_of_findRun? hr
    have hapart := List.all_eq_true.1 capitalRuns_apart r hmem
    simp only [Bool.or_eq_true, decide_eq_true_eq] at hapart
    rintro ⟨hlow, hhigh⟩
    have hnat := toNat_ofNat (c.toNat + r.shift).toNat
    have hA : 'A'.toNat = 65 := rfl
    have hZ : 'Z'.toNat = 90 := rfl
    omega
  · next hnone =>
    intro hc
    have := findRun?_of_isCapital hc
    rw [hnone] at this
    cases this

theorem not_isCapital_of_mem_lowerFrom {before cs : List Char} {c : Char} (h : c ∈ lowerFrom before cs) :
    ¬ IsCapital c := by
  fun_induction lowerFrom before cs with
  | case1 => cases h
  | case2 before cs ih =>
    rcases List.mem_cons.1 h with rfl | h
    · split <;> decide
    · exact ih h
  | case3 before cs ih =>
    rcases List.mem_cons.1 h with rfl | h
    · decide
    · rcases List.mem_cons.1 h with rfl | h
      · decide
      · exact ih h
  | case4 before d cs _ _ ih =>
    rcases List.mem_cons.1 h with rfl | h
    · exact not_isCapital_lowerChar d
    · exact ih h

/-! ### Words -/

/-- whether a character can be part of a spoken word -/
def IsSpoken (c : Char) : Prop :=
  (isWordChar c = true ∨ c = '\'') ∧ ¬ IsCapital c

theorem IsSpoken.isBlank_eq_false {c : Char} (h : IsSpoken c) : isBlank c = false := by
  rcases h.1 with hc | rfl
  · rw [isWordChar, Bool.or_eq_true, beq_iff_eq] at hc
    rcases hc with hc | rfl
    · exact isBlank_of_isAlphanumeric hc
    · rfl
  · rfl

theorem IsSpoken.ne {c d : Char} (h : IsSpoken c) (hd : isWordChar d = false) (happ : d ≠ '\'') : c ≠ d := by
  rintro rfl
  rcases h.1 with hc | hc
  · rw [hd] at hc
    cases hc
  · exact happ hc

/-- a word as it can be spoken -/
def Spoken (w : String) : Prop :=
  w.toList ≠ [] ∧ ∀ c ∈ w.toList, IsSpoken c

theorem mem_wordsFrom {P : Char → Prop} {word cs : List Char} (hword : ∀ c ∈ word, P c)
    (hcs : ∀ c ∈ cs, isWordChar c = true ∨ c = '\'' → P c) {w : List Char} (h : w ∈ wordsFrom word cs) :
    w ≠ [] ∧ ∀ c ∈ w, P c := by
  induction cs generalizing word with
  | nil =>
    rw [wordsFrom] at h
    split at h
    · cases h
    · next hne =>
      rw [List.mem_singleton.1 h]
      exact ⟨by simpa using hne, hword⟩
  | cons c cs ih =>
    have hrest : ∀ d ∈ cs, isWordChar d = true ∨ d = '\'' → P d := fun d hd => hcs d (List.mem_cons_of_mem c hd)
    rw [wordsFrom] at h
    split at h
    · next hc =>
      refine ih (fun d hd => ?_) hrest h
      rcases List.mem_append.1 hd with hd | hd
      · exact hword d hd
      · rw [List.mem_singleton.1 hd]
        refine hcs c List.mem_cons_self ?_
        simp only [Bool.or_eq_true, Bool.and_eq_true, beq_iff_eq] at hc
        exact hc.imp_right fun hc => hc.1.1
    · split at h
      · exact ih (by simp) hrest h
      · next hne =>
        rcases List.mem_cons.1 h with rfl | h
        · exact ⟨by simpa using hne, hword⟩
        · exact ih (by simp) hrest h

theorem spoken_of_mem_tokenWords {text w : String} (h : w ∈ tokenWords text) : Spoken w := by
  obtain ⟨cs, hcs, rfl⟩ := List.mem_map.1 h
  rw [Spoken, String.toList_ofList]
  exact mem_wordsFrom (by simp) (fun c hc hpart => ⟨hpart, not_isCapital_of_mem_lowerFrom hc⟩) hcs

/-! ### Phrases -/

/-- spoken words with spaces between them, at least one -/
def IsPhrase (s : String) : Prop :=
  ∃ ws, ws ≠ [] ∧ (∀ w ∈ ws, Spoken w) ∧ s = spaced ws

namespace IsPhrase

variable {s : String}

theorem mem (h : IsPhrase s) {c : Char} (hc : c ∈ s.toList) : c = ' ' ∨ IsSpoken c := by
  obtain ⟨ws, -, hws, rfl⟩ := h
  rw [toList_spaced] at hc
  refine (mem_joined hc).imp_right ?_
  rintro ⟨w, hw, hcw⟩
  obtain ⟨v, hv, rfl⟩ := List.mem_map.1 hw
  exact (hws v hv).2 c hcw

theorem not_mem (h : IsPhrase s) {c : Char} (hspace : c ≠ ' ') (hc : isWordChar c = false) (happ : c ≠ '\'') :
    c ∉ s.toList := by
  intro hmem
  rcases h.mem hmem with rfl | hspoken
  · exact hspace rfl
  · exact hspoken.ne hc happ rfl

theorem semicolon_not_mem (h : IsPhrase s) : ';' ∉ s.toList :=
  h.not_mem (by decide) (by decide) (by decide)

theorem not_isCapital (h : IsPhrase s) {c : Char} (hc : c ∈ s.toList) : ¬ IsCapital c := by
  rcases h.mem hc with rfl | hspoken
  · decide
  · exact hspoken.2

theorem exists_ends (h : IsPhrase s) :
    (∃ c cs, s.toList = c :: cs ∧ IsSpoken c) ∧ ∃ cs c, s.toList = cs ++ [c] ∧ IsSpoken c := by
  obtain ⟨ws, hne, hws, rfl⟩ := h
  rw [toList_spaced]
  constructor
  · obtain ⟨w, ws, rfl⟩ := List.exists_cons_of_ne_nil hne
    obtain ⟨hw, hspoken⟩ := hws w List.mem_cons_self
    obtain ⟨c, cs, hc⟩ := List.exists_cons_of_ne_nil hw
    refine ⟨c, joined (cs :: ws.map String.toList), ?_, hspoken c (by simp [hc])⟩
    rw [List.map_cons, hc]
    exact joined_glue [] [c] cs (ws.map String.toList)
  · obtain ⟨ws, w, rfl⟩ := (List.eq_nil_or_concat ws).resolve_left hne
    rw [List.concat_eq_append] at hws ⊢
    obtain ⟨hw, hspoken⟩ := hws w (by simp)
    obtain ⟨cs, c, hc⟩ := (List.eq_nil_or_concat w.toList).resolve_left hw
    rw [List.concat_eq_append] at hc
    refine ⟨joined (ws.map String.toList ++ [cs]), c, ?_, hspoken c (by simp [hc])⟩
    rw [List.map_append, List.map_singleton, hc, joined_glue, joined_singleton]

theorem head_eq (h : IsPhrase s) : ∀ c ∈ s.toList.head?, IsSpoken c := by
  obtain ⟨⟨c, cs, hcs, hc⟩, -⟩ := h.exists_ends
  simpa [hcs] using hc

theorem getLast_eq (h : IsPhrase s) : ∀ c ∈ s.toList.getLast?, IsSpoken c := by
  obtain ⟨-, cs, c, hcs, hc⟩ := h.exists_ends
  simpa [hcs] using hc

theorem ne_nil (h : IsPhrase s) : s.toList ≠ [] := by
  obtain ⟨⟨c, cs, hcs, -⟩, -⟩ := h.exists_ends
  simp [hcs]

theorem trim_eq (h : IsPhrase s) : trim s.toList = s.toList :=
  trim_eq_self (fun c hc => (h.head_eq c hc).isBlank_eq_false) fun c hc => (h.getLast_eq c hc).isBlank_eq_false

end IsPhrase

end Dialogue.Text
