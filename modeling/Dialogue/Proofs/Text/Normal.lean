import Dialogue.Proofs.Text.Spoken

/-!
# Words read again

The words of a text, with single spaces between them, are a text with the same words.  Two things make it so: the
lower case of a text has no capitals left, so that nothing changes when it is lowered again, and each apostrophe in a
word has a letter or a digit behind it in this very word, so that the word is read as one whatever stands around it.

* `lower_lower` — a text in lower case is its own lower case;
* `wordsFrom_append_cons` — a separator divides the words of a text;
* `isWord_of_mem_wordsFrom` — the words that are read are whole;
* `wordsFrom_joined` — whole words with spaces between them are read one by one;
* `tokenWords_spaced` — so words are read again as they were read.
-/

namespace Dialogue.Text

/-! ### Lower case -/

/-- a character that is neither a capital nor `İ`, which no run of capitals holds -/
def IsLowered (c : Char) : Prop :=
  c ≠ 'İ' ∧ findRun? capitalRuns c.toNat = none

instance (c : Char) : Decidable (IsLowered c) :=
  inferInstanceAs (Decidable (_ ∧ _))

/-- whether a run of capitals misses the numbers `low`, `low + stride`, … up to `high`: it lies below or above them, or
every other of its numbers is a capital and the parity is the other one -/
def CapitalRun.misses (low high stride : Nat) (r : CapitalRun) : Bool :=
  r.last.blt low || high.blt r.first ||
    (r.stride.beq 2 && (stride.beq 2 || low.beq high) && ((low + r.first) % 2).beq 1)

/-- no capital has a capital, or `İ`, as its lower case -/
theorem capitalRuns_missed :
    (capitalRuns.all fun r => 0 < r.first + r.shift &&
      ((⟨'İ'.toNat, 'İ'.toNat, 1, 0⟩ : CapitalRun) :: capitalRuns).all
        (CapitalRun.misses (r.first + r.shift).toNat (r.last + r.shift).toNat r.stride)) = true := by
  decide +kernel

theorem not_mem_of_misses {n low high stride : Nat} {r : CapitalRun} (h : r.misses low high stride = true)
    (hlow : low ≤ n) (hhigh : n ≤ high) (hstep : stride = 2 → (n - low) % 2 = 0) :
    ¬ (r.first ≤ n ∧ n ≤ r.last ∧ (n - r.first) % r.stride = 0) := by
  unfold CapitalRun.misses at h
  simp only [Bool.or_eq_true, Bool.and_eq_true, Nat.blt_eq, Nat.beq_eq] at h
  rintro ⟨hfirst, hlast, hmod⟩
  rcases h with (h | h) | ⟨⟨htwo, hparity⟩, hodd⟩
  · omega
  · omega
  · rw [htwo] at hmod
    omega

/-- **The lower case of a character is no capital.** -/
theorem isLowered_lowerChar {c : Char} (hc : c ≠ 'İ') : IsLowered (lowerChar c) := by
  rw [lowerChar]
  split
  · next r hr =>
    obtain ⟨hmem, hfirst, hlast, hmod⟩ := mem_of_findRun? hr
    have hmissed := List.all_eq_true.1 capitalRuns_missed r hmem
    rw [Bool.and_eq_true, decide_eq_true_eq, List.all_eq_true] at hmissed
    obtain ⟨hpositive, hmissed⟩ := hmissed
    have hno (s : CapitalRun) (hs : s ∈ (⟨'İ'.toNat, 'İ'.toNat, 1, 0⟩ : CapitalRun) :: capitalRuns) :
        ¬ (s.first ≤ (c.toNat + r.shift).toNat ∧ (c.toNat + r.shift).toNat ≤ s.last ∧
          ((c.toNat + r.shift).toNat - s.first) % s.stride = 0) := by
      refine not_mem_of_misses (hmissed s hs) (by omega) (by omega) ?_
      intro htwo
      rw [htwo] at hmod
      omega
    rcases toNat_ofNat (c.toNat + r.shift).toNat with hnat | hnat
    · constructor
      · intro heq
        rw [heq] at hnat
        exact hno _ List.mem_cons_self ⟨hnat.le, hnat.ge, Nat.mod_one _⟩
      · rw [hnat, Option.eq_none_iff_forall_not_mem]
        intro s hs
        obtain ⟨hsmem, hs⟩ := mem_of_findRun? hs
        exact hno s (List.mem_cons_of_mem _ hsmem) hs
    · -- the character zero is lower case
      constructor
      · intro heq
        rw [heq] at hnat
        cases hnat
      · rw [hnat]
        rfl
  · next hnone => exact ⟨hc, hnone⟩

theorem isLowered_of_mem_lowerFrom {before cs : List Char} {c : Char} (h : c ∈ lowerFrom before cs) : IsLowered c := by
  fun_induction lowerFrom before cs with
  | case1 => cases h
  | case2 before cs ih =>
    rcases List.mem_cons.1 h with rfl | h
    · split <;> decide
    · exact ih h
  | case3 before cs ih =>
    rcases List.mem_cons.1 h with rfl | h
    · decide
    · rcases List.mem_cons.1 h with rfl | h
      · decide
      · exact ih h
  | case4 before d cs _ hd ih =>
    rcases List.mem_cons.1 h with rfl | h
    · exact isLowered_lowerChar hd
    · exact ih h

/-- a character that is in lower case stays, whatever stands around it -/
theorem lowerFrom_cons_of_isLowered {c : Char} (hc : IsLowered c) (before cs : List Char) :
    lowerFrom before (c :: cs) = c :: lowerFrom (c :: before) cs := by
  obtain ⟨hdotted, hnone⟩ := hc
  have hsigma : c ≠ 'Σ' := by
    rintro rfl
    exact absurd hnone (by decide)
  have hchar : lowerChar c = c := by rw [lowerChar, hnone]
  rw [lowerFrom, hchar]
  · exact hsigma
  · exact hdotted

theorem lowerFrom_eq_self {cs : List Char} (h : ∀ c ∈ cs, IsLowered c) (before : List Char) :
    lowerFrom before cs = cs := by
  induction cs generalizing before with
  | nil => rfl
  | cons c cs ih =>
    rw [List.forall_mem_cons] at h
    rw [lowerFrom_cons_of_isLowered h.1, ih h.2]

/-- **A text in lower case is its own lower case.** -/
theorem lower_lower (cs : List Char) : lower (lower cs) = lower cs :=
  lowerFrom_eq_self (fun _ h => isLowered_of_mem_lowerFrom h) []

/-! ### Separators -/

/-- a character that is in no word -/
def IsSeparator (c : Char) : Prop :=
  isWordChar c = false ∧ c ≠ '\''

theorem isSeparator_space : IsSeparator ' ' :=
  ⟨by decide, by decide⟩

theorem wordsFrom_cons_separator {s : Char} (hs : IsSeparator s) (word cs : List Char) :
    wordsFrom word (s :: cs) = (if word.isEmpty then [] else [word]) ++ wordsFrom [] cs := by
  have hquote : (s == '\'') = false := by simpa using hs.2
  rw [wordsFrom, hs.1, hquote, Bool.false_and, Bool.false_and, Bool.or_false, if_neg Bool.false_ne_true]
  split <;> rfl

/-- **A separator divides the words of a text**: it is no letter or digit that could stand behind an apostrophe. -/
theorem wordsFrom_append_cons {s : Char} (hs : IsSeparator s) (word cs ds : List Char) :
    wordsFrom word (cs ++ s :: ds) = wordsFrom word cs ++ wordsFrom [] ds := by
  induction cs generalizing word with
  | nil => exact wordsFrom_cons_separator hs word ds
  | cons c cs ih =>
    have hnumber : isAlphanumeric s = false := by
      have hs := hs.1
      unfold isWordChar at hs
      exact (Bool.or_eq_false_iff.1 hs).1
    have hbehind : ((cs ++ s :: ds).head?.map isAlphanumeric).getD false =
        (cs.head?.map isAlphanumeric).getD false := by
      cases cs with
      | nil => exact hnumber
      | cons d cs => rfl
    rw [List.cons_append, wordsFrom, wordsFrom, hbehind, ih, ih]
    split
    · rfl
    · split
      · rfl
      · rw [List.cons_append]

/-! ### Whole words -/

/-- whether a character goes on with a word that has begun, when `rest` stands behind it -/
def goesOn (c : Char) (rest : List Char) : Bool :=
  isWordChar c || (c == '\'' && (rest.head?.map isAlphanumeric).getD false)

/-- characters that all go on with a word that has begun, when `rest` stands behind them -/
def Held : List Char → List Char → Prop
  | [], _ => True
  | c :: w, rest => goesOn c (w ++ rest) = true ∧ Held w rest

/-- a word that begins with a word character, and goes on with all others -/
def IsWord (w rest : List Char) : Prop :=
  (∃ c ∈ w.head?, isWordChar c = true) ∧ Held w rest

theorem goesOn_of_isWordChar {c : Char} (hc : isWordChar c = true) (rest : List Char) : goesOn c rest = true := by
  rw [goesOn, hc, Bool.true_or]

variable {v w rest : List Char}

theorem held_append_iff : Held (v ++ w) rest ↔ Held v (w ++ rest) ∧ Held w rest := by
  induction v with
  | nil => simp [Held]
  | cons c v ih => simp only [List.cons_append, Held, ih, List.append_assoc, and_assoc]

/-- whether an apostrophe at the end of a word goes on with it is decided by what stands behind the word -/
theorem goesOn_append {c : Char} (hstop : ∀ b ∈ rest.head?, isWordChar b = false) :
    goesOn c (w ++ rest) = goesOn c w := by
  cases w with
  | nil =>
    cases rest with
    | nil => rfl
    | cons b rest =>
      have hb := hstop b rfl
      unfold isWordChar at hb
      rw [Bool.or_eq_false_iff] at hb
      simp [goesOn, hb.1]
  | cons b w => rfl

theorem held_iff_of_stop (hstop : ∀ b ∈ rest.head?, isWordChar b = false) : Held w rest ↔ Held w [] := by
  induction w with
  | nil => exact Iff.rfl
  | cons c w ih => rw [Held, Held, goesOn_append hstop, List.append_nil, ih]

theorem IsWord.ne_nil (h : IsWord w rest) : w ≠ [] := by
  rintro rfl
  obtain ⟨⟨c, hc, -⟩, -⟩ := h
  cases hc

theorem IsWord.concat {c : Char} (h : IsWord w (c :: rest)) (hc : goesOn c rest = true) : IsWord (w ++ [c]) rest := by
  obtain ⟨⟨d, hd, hword⟩, hheld⟩ := h
  refine ⟨⟨d, ?_, hword⟩, held_append_iff.2 ⟨hheld, hc, trivial⟩⟩
  rw [List.head?_append, hd]
  rfl

/-- **The words that are read are whole**: the character at which a word ends is not needed to tell that it goes on so
far. -/
theorem isWord_of_mem_wordsFrom {word cs : List Char} (hword : word = [] ∨ IsWord word cs) (h : w ∈ wordsFrom word cs) :
    IsWord w [] := by
  induction cs generalizing word with
  | nil =>
    rw [wordsFrom] at h
    split at h
    · cases h
    · next hne =>
      rw [List.mem_singleton.1 h]
      exact hword.resolve_left (by simpa using hne)
  | cons c cs ih =>
    rw [wordsFrom] at h
    split at h
    · next hc =>
      refine ih (.inr ?_) h
      rcases hword with rfl | hword
      · -- a word does not begin with an apostrophe
        have hfirst : isWordChar c = true := by simpa using hc
        exact ⟨⟨c, rfl, hfirst⟩, goesOn_of_isWordChar hfirst _, trivial⟩
      · apply hword.concat
        have hne : word.isEmpty = false := by simpa using hword.ne_nil
        simpa [goesOn, hne] using hc
    · next hc =>
      split at h
      · exact ih (.inl rfl) h
      · next hne =>
        rcases List.mem_cons.1 h with rfl | h
        · have hstop : ∀ b ∈ (c :: cs).head?, isWordChar b = false := by
            rintro b ⟨⟩
            rw [Bool.not_eq_true, Bool.or_eq_false_iff] at hc
            exact hc.1
          obtain ⟨hfirst, hheld⟩ := hword.resolve_left (by simpa using hne)
          exact ⟨hfirst, (held_iff_of_stop hstop).1 hheld⟩
        · exact ih (.inl rfl) h

/-- characters that all go on with a word are read into it -/
theorem wordsFrom_of_held {word : List Char} (hword : word ≠ []) (hw : Held w []) :
    wordsFrom word w = [word ++ w] := by
  induction w generalizing word with
  | nil =>
    have hne : word.isEmpty = false := by simpa using hword
    rw [wordsFrom, hne, List.append_nil]
    rfl
  | cons c w ih =>
    obtain ⟨hc, hw⟩ := hw
    rw [List.append_nil] at hc
    have hne : word.isEmpty = false := by simpa using hword
    rw [wordsFrom, if_pos (by simpa [goesOn, hne] using hc), ih (by simp) hw, List.append_assoc]
    rfl

theorem wordsFrom_of_isWord (h : IsWord w []) : wordsFrom [] w = [w] := by
  obtain ⟨⟨c, hc, hword⟩, hheld⟩ := h
  obtain ⟨w, rfl⟩ := List.head?_eq_some_iff.1 hc
  rw [wordsFrom, hword, Bool.true_or, if_pos rfl, List.nil_append]
  exact wordsFrom_of_held (by simp) hheld.2

/-- **Whole words with spaces between them are read one by one.** -/
theorem wordsFrom_joined {ws : List (List Char)} (hws : ∀ w ∈ ws, IsWord w []) : wordsFrom [] (joined ws) = ws := by
  induction ws with
  | nil => rfl
  | cons w ws ih =>
    rw [List.forall_mem_cons] at hws
    cases ws with
    | nil => rw [joined_singleton, wordsFrom_of_isWord hws.1]
    | cons v ws =>
      rw [joined_cons_cons, wordsFrom_append_cons isSeparator_space, wordsFrom_of_isWord hws.1, ih hws.2]
      rfl

theorem isWord_of_all (hne : w ≠ []) (h : ∀ c ∈ w, isWordChar c = true) : IsWord w rest := by
  constructor
  · obtain ⟨c, w, rfl⟩ := List.exists_cons_of_ne_nil hne
    exact ⟨c, rfl, h c List.mem_cons_self⟩
  · clear hne
    induction w with
    | nil => trivial
    | cons c w ih =>
      rw [List.forall_mem_cons] at h
      exact ⟨goesOn_of_isWordChar h.1 _, ih h.2⟩

/-! ### Normal form -/

/-- whole words in lower case are their own words -/
theorem tokenWords_spaced_ofList {ws : List (List Char)} (hws : ∀ w ∈ ws, IsWord w [] ∧ ∀ c ∈ w, IsLowered c) :
    tokenWords (spaced (ws.map String.ofList)) = ws.map String.ofList := by
  have hlowered : ∀ c ∈ joined ws, IsLowered c := by
    intro c hc
    rcases mem_joined hc with rfl | ⟨w, hw, hcw⟩
    · decide
    · exact (hws w hw).2 c hcw
  have hlower : lower (joined ws) = joined ws := lowerFrom_eq_self hlowered []
  have hread : wordsFrom [] (joined ws) = ws := wordsFrom_joined fun w hw => (hws w hw).1
  rw [tokenWords, toList_spaced_ofList, hlower, hread]

/-- **Words are read again as they were read.** -/
theorem tokenWords_spaced (text : String) : tokenWords (spaced (tokenWords text)) = tokenWords text := by
  refine tokenWords_spaced_ofList ?_
  intro w hw
  have hlowered : w ≠ [] ∧ ∀ c ∈ w, IsLowered c :=
    mem_wordsFrom (by simp) (fun c hc _ => isLowered_of_mem_lowerFrom hc) hw
  exact ⟨isWord_of_mem_wordsFrom (.inl rfl) hw, hlowered.2⟩

end Dialogue.Text
