import Mathlib.Tactic.Common
import Dialogue.Marker
import Dialogue.Proofs.Number.Index
import Dialogue.Proofs.Text.Spoken

/-!
# Markers as text

A marker is written with capitals and ends in a digit, and the only semicolons in it are those of a tag.  What is
written of a marker is read as this marker again (`Marker.parse?_text`).
-/

namespace Dialogue

open Text

theorem Text.eq_append_of_cutAtLast {mark cs before after : List Char}
    (h : cutAtLast mark cs = some (before, after)) : cs = before ++ mark ++ after := by
  induction cs generalizing before with
  | nil =>
    simp only [cutAtLast, Option.map_eq_some_iff, Prod.mk.injEq] at h
    obtain ⟨rest, h, rfl, rfl⟩ := h
    simpa using eq_append_of_dropStart? h
  | cons c cs ih =>
    simp only [cutAtLast] at h
    split at h
    · next b a hcut =>
      simp only [Option.some.injEq, Prod.mk.injEq] at h
      obtain ⟨rfl, rfl⟩ := h
      rw [ih hcut]
      rfl
    · simp only [Option.map_eq_some_iff, Prod.mk.injEq] at h
      obtain ⟨rest, h, rfl, rfl⟩ := h
      simpa using eq_append_of_dropStart? h

theorem Text.cutAtLast_append {mark cs before after : List Char} (h : cutAtLast mark cs = some (before, after))
    (ds : List Char) : cutAtLast mark (ds ++ cs) = some (ds ++ before, after) := by
  induction ds with
  | nil => exact h
  | cons d ds ih => rw [List.cons_append, cutAtLast, ih, List.cons_append]

theorem Text.dropStart?_eq_none_iff {start cs : List Char} : dropStart? start cs = none ↔ ¬ start <+: cs := by
  constructor
  · rintro h ⟨rest, rfl⟩
    rw [dropStart?_append] at h
    cases h
  · intro h
    rw [Option.eq_none_iff_forall_not_mem]
    intro rest hrest
    exact h ⟨rest, (eq_append_of_dropStart? hrest).symm⟩

/-- whether a text begins with a short one is decided by its beginning -/
theorem Text.dropStart?_append_eq_none {start cs : List Char} (hlength : start.length ≤ cs.length) (ds : List Char) :
    dropStart? start (cs ++ ds) = none ↔ dropStart? start cs = none := by
  induction start generalizing cs with
  | nil => simp [dropStart?]
  | cons s start ih =>
    cases cs with
    | nil => simp at hlength
    | cons c cs =>
      rw [List.cons_append, dropStart?, dropStart?]
      split
      · exact ih (by simpa using hlength)
      · simp

theorem Number.isBlank_of_isDigit {c : Char} (h : isDigit c = true) : isBlank c = false := by
  have hbounds : 48 ≤ c.toNat ∧ c.toNat ≤ 57 := by
    rw [isDigit, Bool.and_eq_true, decide_eq_true_eq, decide_eq_true_eq] at h
    exact h
  simp [isBlank, inRanges, blankRanges]
  omega

/-- an index is digits, after a plus sign or none -/
theorem Number.digits_of_readIndex? {s : String} {n : Nat} (h : readIndex? s = some n) :
    ∃ digits, digits ≠ [] ∧ (∀ c ∈ digits, isDigit c = true) ∧ (s.toList = digits ∨ s.toList = '+' :: digits) := by
  rw [readIndex?, Option.ite_none_left_eq_some] at h
  obtain ⟨h, -⟩ := h
  simp only [Bool.or_eq_true, decide_eq_true_eq, not_or, Bool.not_eq_true', Bool.not_eq_false,
    List.isEmpty_iff, List.all_eq_true] at h
  split at h
  · next digits hs => exact ⟨digits, h.1.1, h.1.2, .inr hs⟩
  · exact ⟨s.toList, h.1.1, h.1.2, .inl rfl⟩

namespace Marker

/-- the two ways in which a marker is written -/
theorem parse?_cases {cs : List Char} {marker : Marker} (h : parse? cs = some marker) :
    ∃ start index n, cs = start ++ index ∧ Number.readIndex? (String.ofList index) = some n ∧
      (start = wildcardStart ∧ marker = .wildcard n ∨
        ∃ tag, tag ≠ [] ∧ start = tag ++ entityMiddle ∧ marker = .entity (String.ofList tag) n) := by
  rw [parse?] at h
  split at h
  · next index hindex =>
    obtain ⟨n, hn, rfl⟩ := Option.map_eq_some_iff.1 h
    exact ⟨wildcardStart, index, n, eq_append_of_dropStart? hindex, hn, .inl ⟨rfl, rfl⟩⟩
  · split at h
    · next tag index hcut =>
      rw [Option.ite_none_left_eq_some] at h
      obtain ⟨htag, h⟩ := h
      obtain ⟨n, hn, rfl⟩ := Option.map_eq_some_iff.1 h
      exact ⟨tag ++ entityMiddle, index, n, eq_append_of_cutAtLast hcut, hn,
        .inr ⟨tag, by simpa using htag, rfl, rfl⟩⟩
    · cases h

theorem isDigit_getLast {cs : List Char} {marker : Marker} (h : parse? cs = some marker) :
    ∃ c ∈ cs.getLast?, Number.isDigit c = true := by
  obtain ⟨start, index, n, rfl, hn, -⟩ := parse?_cases h
  obtain ⟨digits, hne, hdigits, hindex⟩ := Number.digits_of_readIndex? hn
  obtain ⟨init, c, hinit⟩ := (List.eq_nil_or_concat digits).resolve_left hne
  rw [List.concat_eq_append] at hinit
  rw [String.toList_ofList, hinit] at hindex
  refine ⟨c, ?_, hdigits c (by simp [hinit])⟩
  rcases hindex with rfl | rfl
  · simp
  · rw [← List.cons_append, ← List.append_assoc, List.getLast?_concat, Option.mem_some_iff]

theorem ne_nil_of_parse? {cs : List Char} {marker : Marker} (h : parse? cs = some marker) : cs ≠ [] := by
  rintro rfl
  cases h

/-- a marker ends in no character but a digit -/
theorem parse?_concat {cs : List Char} {c : Char} (hc : Number.isDigit c = false) : parse? (cs ++ [c]) = none := by
  rw [Option.eq_none_iff_forall_not_mem]
  intro marker h
  obtain ⟨d, hd, hdigit⟩ := isDigit_getLast h
  rw [List.getLast?_concat, Option.mem_some_iff] at hd
  rw [hd, hdigit] at hc
  cases hc

theorem parse?_of_not_isCapital {cs : List Char} (h : ∀ c ∈ cs, ¬ IsCapital c) : parse? cs = none := by
  rw [Option.eq_none_iff_forall_not_mem]
  intro marker hm
  obtain ⟨start, index, n, rfl, -, ⟨rfl, -⟩ | ⟨tag, -, rfl, -⟩⟩ := parse?_cases hm
  · exact h 'W' (by simp [wildcardStart]) (by decide)
  · exact h 'M' (by simp [entityMiddle]) (by decide)

/-- a marker has no semicolon but those of a tag -/
theorem semicolon_not_mem {cs : List Char} {marker : Marker} (h : parse? cs = some marker)
    (htag : ∀ tag n, marker = .entity tag n → ';' ∉ tag.toList) : ';' ∉ cs := by
  obtain ⟨start, index, n, rfl, hn, hstart⟩ := parse?_cases h
  obtain ⟨digits, -, hdigits, hindex⟩ := Number.digits_of_readIndex? hn
  rw [String.toList_ofList] at hindex
  have hdigits : ';' ∉ digits := fun hmem => absurd (hdigits _ hmem) (by decide)
  have hnot : ';' ∉ index := by
    rcases hindex with rfl | rfl
    · exact hdigits
    · simpa using hdigits
  rw [List.mem_append, not_or]
  refine ⟨?_, hnot⟩
  rcases hstart with ⟨rfl, -⟩ | ⟨tag, -, rfl, rfl⟩
  · decide
  · have := htag _ _ rfl
    rw [String.toList_ofList] at this
    simpa [entityMiddle] using this

theorem toList_text_wildcard (n : Nat) : (text (.wildcard n)).toList = wildcardStart ++ (toString n).toList :=
  String.toList_append

theorem toList_text_entity (tag : String) (n : Nat) :
    (text (.entity tag n)).toList = tag.toList ++ (entityMiddle ++ (toString n).toList) := by
  rw [← List.append_assoc]
  exact String.toList_append.trans (congrArg (· ++ _) String.toList_append)

/-- a marker is written as it was read, but for its index -/
theorem exists_text {cs : List Char} {marker : Marker} (h : parse? cs = some marker) :
    ∃ start index, ∃ n : Nat, start ≠ [] ∧ cs = start ++ index ∧ marker.text.toList = start ++ (toString n).toList := by
  obtain ⟨start, index, n, rfl, -, ⟨rfl, rfl⟩ | ⟨tag, -, rfl, rfl⟩⟩ := parse?_cases h
  · exact ⟨wildcardStart, index, n, by simp [wildcardStart], rfl, toList_text_wildcard n⟩
  · refine ⟨tag ++ entityMiddle, index, n, by simp [entityMiddle], rfl, ?_⟩
    rw [toList_text_entity, String.toList_ofList, List.append_assoc]

/-- there is no second mark behind the last one of an entity marker -/
theorem cutAtLast_entityMiddle {digits : List Char} (h : ∀ c ∈ digits, Number.isDigit c = true) :
    cutAtLast entityMiddle (entityMiddle ++ digits) = some ([], digits) := by
  have hnone : cutAtLast entityMiddle digits = none := by
    rw [Option.eq_none_iff_forall_not_mem]
    rintro ⟨before, after⟩ hcut
    have happend := eq_append_of_cutAtLast hcut
    exact absurd (h 'M' (by rw [happend]; simp [entityMiddle])) (by decide)
  have hletter (cs : List Char) : dropStart? ('M' :: cs) digits = none := by
    cases digits with
    | nil => rfl
    | cons d digits =>
      refine if_neg ?_
      rintro rfl
      exact absurd (h _ List.mem_cons_self) (by decide)
  rw [show entityMiddle = ['_', 'M', 'K', 'R', '_'] from rfl] at hnone ⊢
  simp [cutAtLast, dropStart?, hnone, hletter]

theorem parse?_text_wildcard {n : Nat} (hn : n ≤ Number.maxWord) :
    parse? (text (.wildcard n)).toList = some (.wildcard n) := by
  rw [parse?, toList_text_wildcard, dropStart?_append]
  simp only [String.ofList_toList, Number.readIndex?_toString hn, Option.map_some]

/-- an entity marker is read again if it does not begin as a wildcard marker does -/
theorem parse?_text_entity {tag : String} {n : Nat} (htag : tag ≠ "") (hn : n ≤ Number.maxWord)
    (hstart : ¬ wildcardStart <+: tag.toList ++ entityMiddle) :
    parse? (text (.entity tag n)).toList = some (.entity tag n) := by
  have hdigit := List.all_eq_true.1 (Number.all_isDigit_toDigits n)
  have hlast := cutAtLast_append (cutAtLast_entityMiddle hdigit) tag.toList
  have hdigits : (toString n).toList = Nat.toDigits 10 n := by
    rw [Nat.toString_eq_ofList_toDigits, String.toList_ofList]
  -- the tag and the mark behind it are longer than the start of a wildcard marker
  have hlength : wildcardStart.length ≤ (tag.toList ++ entityMiddle).length := by simp [wildcardStart, entityMiddle]
  have hnone : dropStart? wildcardStart (tag.toList ++ entityMiddle ++ (toString n).toList) = none := by
    rw [dropStart?_append_eq_none hlength, dropStart?_eq_none_iff]
    exact hstart
  have hindex : Number.readIndex? (String.ofList (Nat.toDigits 10 n)) = some n := by
    rw [← Nat.toString_eq_ofList_toDigits]
    exact Number.readIndex?_toString hn
  rw [parse?, toList_text_entity, ← List.append_assoc, hnone, List.append_assoc, hdigits, hlast]
  simp [htag, hindex]

/-- **A marker is read again from what is written**, although its index may have been written in another way. -/
theorem parse?_text {cs : List Char} {marker : Marker} (h : parse? cs = some marker) :
    parse? marker.text.toList = some marker := by
  rw [parse?] at h
  split at h
  · next index hindex =>
    obtain ⟨n, hn, rfl⟩ := Option.map_eq_some_iff.1 h
    exact parse?_text_wildcard (Number.le_maxWord_of_readIndex? hn)
  · next hstart =>
    split at h
    · next tag index hcut =>
      rw [Option.ite_none_left_eq_some] at h
      obtain ⟨htag, h⟩ := h
      obtain ⟨n, hn, rfl⟩ := Option.map_eq_some_iff.1 h
      refine parse?_text_entity (by simpa using htag) (Number.le_maxWord_of_readIndex? hn) ?_
      rw [eq_append_of_cutAtLast hcut, dropStart?_eq_none_iff] at hstart
      rw [String.toList_ofList]
      intro hbegins
      exact hstart (hbegins.trans (List.prefix_append _ _))
    · cases h

end Marker

end Dialogue
