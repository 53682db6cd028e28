import Mathlib.Tactic.Common
import Dialogue.Entries

/-!
# Entries in order

What a list of named values holds, when its names ascend.  Insertions and removals keep it in order
(`Entries.sorted_insert`, `Entries.sorted_erase`), and a value is inserted over itself without any change
(`Entries.insert_eq_self`), and a removal changes places with an insertion under another name
(`Entries.erase_insert_comm`).  In a list of any order a removal undoes an insertion (`Entries.erase_insert_self`).
-/

namespace Dialogue.Entries

variable {α : Type} {k : String} {v : α} {e : String × α} {es : List (String × α)}

/-- each name is there once, and they ascend -/
def Sorted (es : List (String × α)) : Prop :=
  (keys es).Pairwise (· < ·)

theorem mem_of_get? (h : get? k es = some v) : (k, v) ∈ es := by
  induction es with
  | nil => cases h
  | cons e es ih =>
    rw [get?] at h
    split at h
    · next hk =>
      cases h
      subst hk
      exact List.mem_cons_self
    · exact List.mem_cons_of_mem e (ih h)

theorem sorted_cons_iff : Sorted (e :: es) ↔ (∀ f ∈ es, e.1 < f.1) ∧ Sorted es := by
  simp [Sorted, keys]

theorem sorted_nil : Sorted ([] : List (String × α)) :=
  List.Pairwise.nil

theorem mem_insert (h : e ∈ insert k v es) : e = (k, v) ∨ e ∈ es := by
  induction es with
  | nil => exact .inl (List.mem_singleton.1 h)
  | cons f es ih =>
    rw [insert] at h
    split at h
    · rcases List.mem_cons.1 h with rfl | h
      · exact .inr List.mem_cons_self
      · exact (ih h).imp_right (List.mem_cons_of_mem f)
    · split at h
      · exact (List.mem_cons.1 h).imp_right (List.mem_cons_of_mem f)
      · exact List.mem_cons.1 h

theorem sorted_insert (h : Sorted es) (k : String) (v : α) : Sorted (insert k v es) := by
  induction es with
  | nil => simp [insert, Sorted, keys]
  | cons f es ih =>
    obtain ⟨hf, hes⟩ := sorted_cons_iff.1 h
    rw [insert]
    split
    · next hlt =>
      refine sorted_cons_iff.2 ⟨fun e he => ?_, ih hes⟩
      rcases mem_insert he with rfl | he
      · exact hlt
      · exact hf e he
    · split
      · next heq => exact sorted_cons_iff.2 ⟨fun e he => heq ▸ hf e he, hes⟩
      · next hlt heq =>
        have hk : k < f.1 := (lt_or_lt_of_ne heq).resolve_left hlt
        refine sorted_cons_iff.2 ⟨fun e he => ?_, h⟩
        rcases List.mem_cons.1 he with rfl | he
        · exact hk
        · exact String.lt_trans hk (hf e he)

theorem sorted_erase (h : Sorted es) (k : String) : Sorted (erase k es) :=
  List.Pairwise.sublist (List.filter_sublist.map Prod.fst) h

theorem insert_eq_self (h : Sorted es) (hk : get? k es = some v) : insert k v es = es := by
  induction es with
  | nil => cases hk
  | cons e es ih =>
    obtain ⟨he, hes⟩ := sorted_cons_iff.1 h
    rw [get?] at hk
    split at hk
    · next heq =>
      cases hk
      subst heq
      rw [insert, if_neg (String.lt_irrefl e.1), if_pos rfl]
    · rw [insert, if_pos (he _ (mem_of_get? hk)), ih hes hk]

/-- a removal takes away what was inserted, too -/
theorem erase_insert_self (k : String) (v : α) (es : List (String × α)) : erase k (insert k v es) = erase k es := by
  induction es with
  | nil => simp [insert, erase]
  | cons e es ih =>
    rw [insert]
    split
    · by_cases he : e.1 = k
      · simpa [erase, he] using ih
      · simpa [erase, he] using ih
    · split
      · next he => simp [erase, he]
      · simp [erase]

theorem erase_eq_self (hk : get? k es = none) : erase k es = es := by
  induction es with
  | nil => rfl
  | cons e es ih =>
    rw [get?] at hk
    split at hk
    · cases hk
    · next he => simpa [erase, he] using ih hk

/-- a value is put in front if its name comes before all others -/
theorem insert_eq_cons (h : ∀ e ∈ es, k < e.1) (v : α) : insert k v es = (k, v) :: es := by
  cases es with
  | nil => rfl
  | cons e es =>
    have hk : k < e.1 := h e List.mem_cons_self
    have hne : e.1 ≠ k := fun he => String.lt_irrefl k (he ▸ hk)
    rw [insert, if_neg (String.lt_asymm hk), if_neg hne]

theorem erase_erase_comm (j k : String) (es : List (String × α)) : erase j (erase k es) = erase k (erase j es) := by
  simp only [erase, List.filter_filter, Bool.and_comm]

/-- in order, a removal and an insertion under another name can change places -/
theorem erase_insert_comm (h : Sorted es) {j : String} (hne : j ≠ k) (v : α) :
    erase j (insert k v es) = insert k v (erase j es) := by
  induction es with
  | nil => simp [insert, erase, hne.symm]
  | cons e es ih =>
    obtain ⟨he, hes⟩ := sorted_cons_iff.1 h
    have ih := ih hes
    by_cases hlt : e.1 < k
    · rw [insert, if_pos hlt]
      by_cases hj : e.1 = j
      · simpa [erase, hj] using ih
      · simpa [erase, hj, insert, hlt] using ih
    · by_cases heq : e.1 = k
      · have hj : e.1 ≠ j := fun hj => hne (hj.symm.trans heq)
        rw [insert, if_neg hlt, if_pos heq]
        simp [erase, hne.symm, insert, heq]
      · -- the name comes before all others, whether or not one of them is removed
        have hk : k < e.1 := (lt_or_lt_of_ne heq).resolve_left hlt
        have hbefore : ∀ f ∈ e :: es, k < f.1 := by
          rw [List.forall_mem_cons]
          exact ⟨hk, fun f hf => String.lt_trans hk (he f hf)⟩
        have hbefore' : ∀ f ∈ erase j (e :: es), k < f.1 := fun f hf => hbefore f (List.mem_filter.1 hf).1
        rw [insert_eq_cons hbefore, insert_eq_cons hbefore']
        simp [erase, hne.symm]

end Dialogue.Entries
