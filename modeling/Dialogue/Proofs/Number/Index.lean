import Dialogue.Number.Reading

/-!
# Indices as text

The digits of a number of 64 bits are read as this number (`readIndex?_toString`), and every index that is read is
such a number (`le_maxWord_of_readIndex?`).
-/

namespace Dialogue.Number

theorem isDigit_iff {c : Char} : isDigit c = true ↔ c.isDigit = true := by
  simp only [isDigit, Char.isDigit, Bool.and_eq_true, decide_eq_true_eq]
  exact Iff.rfl

theorem ofDigits_eq (cs : List Char) : ofDigits cs = Nat.ofDigitChars 10 cs 0 := by
  rw [Nat.ofDigitChars_eq_foldl, ofDigits]
  congr 1
  funext n c
  rw [digit, Nat.mul_comm]

theorem ofDigits_toDigits (n : Nat) : ofDigits (Nat.toDigits 10 n) = n := by
  rw [ofDigits_eq, Nat.ofDigitChars_ten_toDigits]

theorem all_isDigit_toDigits (n : Nat) : (Nat.toDigits 10 n).all isDigit = true := by
  rw [List.all_eq_true]
  intro c hc
  exact isDigit_iff.2 (Nat.isDigit_of_mem_toDigits (by decide) (by decide) hc)

theorem isDigit_of_mem_toString {n : Nat} {c : Char} (h : c ∈ (toString n).toList) : isDigit c = true := by
  rw [Nat.toString_eq_ofList_toDigits, String.toList_ofList] at h
  exact List.all_eq_true.1 (all_isDigit_toDigits n) c h

theorem readIndex?_toString {n : Nat} (h : n ≤ maxWord) : readIndex? (toString n) = some n := by
  have hdigits := all_isDigit_toDigits n
  have hne : (Nat.toDigits 10 n).isEmpty = false := List.isEmpty_eq_false_iff.2 Nat.toDigits_ne_nil
  rw [Nat.toString_eq_ofList_toDigits, readIndex?, String.toList_ofList, Option.ite_none_left_eq_some]
  split
  · next cs hcs =>
    -- a digit is no sign
    rw [hcs] at hdigits
    simp [isDigit] at hdigits
  · simp [hdigits, hne, ofDigits_toDigits, h]

theorem le_maxWord_of_readIndex? {s : String} {n : Nat} (h : readIndex? s = some n) : n ≤ maxWord := by
  rw [readIndex?, Option.ite_none_left_eq_some] at h
  obtain ⟨hn, he⟩ := h
  simp only [Bool.or_eq_true, decide_eq_true_eq, not_or, Nat.not_lt] at hn
  rw [← Option.some.inj he]
  exact hn.2

theorem toString_ne_empty (n : Nat) : toString n ≠ "" := by
  rw [Nat.toString_eq_repr]
  exact Nat.repr_ne_empty

end Dialogue.Number
