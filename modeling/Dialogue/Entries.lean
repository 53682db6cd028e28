/-!
# Named values in order of their names

A list of named values that is built by `insert` holds each name once, in the order of code points.  The laws
below hold for every list: what `insert` and `erase` do is seen through `get?`, a second `insert` under a name
replaces the first, and two under different names commute.
-/

namespace Dialogue.Entries

variable {α : Type}

def get? (k : String) : List (String × α) → Option α
  | [] => none
  | e :: es => if e.1 = k then some e.2 else get? k es

/-- the entries with `v` under the name `k`, in place of the value that was there -/
def insert (k : String) (v : α) : List (String × α) → List (String × α)
  | [] => [(k, v)]
  | e :: es => if e.1 < k then e :: insert k v es else if e.1 = k then (k, v) :: es else (k, v) :: e :: es

/-- the entries without the name `k` -/
def erase (k : String) (es : List (String × α)) : List (String × α) :=
  es.filter fun e => e.1 ≠ k

/-- the names, in order -/
def keys (es : List (String × α)) : List String :=
  es.map Prod.fst

/-- the entries of a list, the last value of each name -/
def ofList (es : List (String × α)) : List (String × α) :=
  es.foldl (fun acc e => insert e.1 e.2 acc) []

@[simp] theorem get?_nil (k : String) : get? k ([] : List (String × α)) = none := rfl

@[simp] theorem get?_insert_self (k : String) (v : α) (es : List (String × α)) :
    get? k (insert k v es) = some v := by
  induction es with
  | nil => simp [insert, get?]
  | cons e es ih =>
    simp only [insert]
    split
    · next h =>
      have : e.1 ≠ k := fun he => String.lt_irrefl k (he ▸ h)
      simp [get?, this, ih]
    · split <;> simp [get?]

theorem get?_insert_of_ne {j k : String} (h : j ≠ k) (v : α) (es : List (String × α)) :
    get? j (insert k v es) = get? j es := by
  induction es with
  | nil => simp [insert, get?, Ne.symm h]
  | cons e es ih =>
    simp only [insert]
    split
    · simp [get?, ih]
    · split
      · next he => simp [get?, he, Ne.symm h]
      · simp [get?, Ne.symm h]

@[simp] theorem get?_erase_self (k : String) (es : List (String × α)) : get? k (erase k es) = none := by
  induction es with
  | nil => rfl
  | cons e es ih =>
    by_cases h : e.1 = k
    · simpa [erase, h] using ih
    · simpa [erase, h, get?] using ih

theorem get?_erase_of_ne {j k : String} (h : j ≠ k) (es : List (String × α)) :
    get? j (erase k es) = get? j es := by
  induction es with
  | nil => rfl
  | cons e es ih =>
    by_cases he : e.1 = k
    · have : e.1 ≠ j := fun hj => h (hj.symm.trans he)
      simpa [erase, he, get?, Ne.symm h] using ih
    · by_cases hj : e.1 = j
      · simp [erase, get?, hj, h]
      · simpa [erase, he, get?, hj] using ih

theorem insert_insert_self (k : String) (v w : α) (es : List (String × α)) :
    insert k v (insert k w es) = insert k v es := by
  induction es with
  | nil => simp only [insert, String.lt_irrefl, reduceIte]
  | cons e es ih =>
    simp only [insert]
    split
    · next h => simp [insert, h, ih]
    · split <;> simp only [insert, String.lt_irrefl, reduceIte]

theorem lt_or_lt_of_ne {j k : String} (h : j ≠ k) : j < k ∨ k < j := by
  by_cases hjk : j < k
  · exact .inl hjk
  · by_cases hkj : k < j
    · exact .inr hkj
    · exact absurd (String.le_antisymm (String.not_lt.1 hkj) (String.not_lt.1 hjk)) h

theorem insert_comm {j k : String} (h : j ≠ k) (v w : α) (es : List (String × α)) :
    insert j v (insert k w es) = insert k w (insert j v es) := by
  induction es with
  | nil => rcases lt_or_lt_of_ne h with hlt | hlt <;> simp [insert, hlt, String.lt_asymm hlt, h, h.symm]
  | cons e es ih => grind [insert, lt_or_lt_of_ne h, String.lt_asymm, String.lt_trans, String.lt_irrefl]

end Dialogue.Entries
