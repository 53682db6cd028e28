import Mathlib.Tactic.Common
import Dialogue.Match.Payload
import Dialogue.Proofs.Except

/-!
# Payloads of a dictionary

A dictionary is a map from patterns to payloads in which the first payload of a pattern stays
(`Dictionary.payload?_insert`).
-/

namespace Dialogue

namespace PhraseTree

theorem after?_cons (t : PhraseTree) (v : String) (vs : List String) :
    t.after? (v :: vs) = (Entries.get? v t.children).bind (after? · vs) := by
  rw [after?]
  cases Entries.get? v t.children <;> rfl

theorem after?_append (t : PhraseTree) (ws vs : List String) :
    t.after? (ws ++ vs) = (t.after? ws).bind (·.after? vs) := by
  induction ws generalizing t with
  | nil => rfl
  | cons w ws ih =>
    rw [List.cons_append, after?_cons, after?_cons, Option.bind_assoc]
    congr 1
    funext child
    exact ih child

theorem payload_after?_empty (vs : List String) : (empty.after? vs).bind payload = none := by
  cases vs with
  | nil => rfl
  | cons v vs => rfl

theorem payload_after?_insert (p : String) (t : PhraseTree) (ws vs : List String) :
    ((t.insert p ws).after? vs).bind payload =
      if vs = ws then some (((t.after? vs).bind payload).getD p) else (t.after? vs).bind payload := by
  induction ws generalizing t vs with
  | nil =>
    cases t with
    | node q cs =>
      cases vs with
      | nil => cases q <;> rfl
      | cons v vs =>
        rw [if_neg (by simp)]
        rfl
  | cons w ws ih =>
    cases t with
    | node q cs =>
      cases vs with
      | nil => rfl
      | cons v vs =>
        rw [insert, after?_cons, after?_cons, children, children]
        by_cases hv : v = w
        · subst hv
          rw [Entries.get?_insert_self, Option.bind_some, ih]
          cases Entries.get? v cs with
          | some child => simp
          | none => simp [payload_after?_empty]
        · rw [Entries.get?_insert_of_ne hv, if_neg (by simp [hv])]

end PhraseTree

namespace Dictionary

@[simp] theorem payload?_empty (vs : List String) : empty.payload? vs = none :=
  PhraseTree.payload_after?_empty vs

/-- **The first payload of a pattern stays.** -/
theorem payload?_insert (d : Dictionary) (ws vs : List String) (p : String) :
    (d.insert ws p).payload? vs = if vs = ws then some ((d.payload? ws).getD p) else d.payload? vs := by
  by_cases h : d.isComplete ws = true
  · rw [insert, if_pos h]
    by_cases hv : vs = ws
    · obtain ⟨q, hq⟩ := Option.isSome_iff_exists.1 h
      rw [if_pos hv, hv, hq]
      rfl
    · rw [if_neg hv]
  · rw [insert, if_neg h]
    refine (PhraseTree.payload_after?_insert p d.tree ws vs).trans ?_
    by_cases hv : vs = ws
    · rw [if_pos hv, if_pos hv, hv]
      rfl
    · rw [if_neg hv, if_neg hv]
      rfl

theorem payload?_insert_cases {d : Dictionary} {ws vs : List String} {p q : String}
    (h : (d.insert ws p).payload? vs = some q) : q = p ∨ d.payload? vs = some q := by
  rw [payload?_insert] at h
  by_cases hv : vs = ws
  · rw [if_pos hv] at h
    subst hv
    cases hq : d.payload? vs with
    | none =>
      rw [hq] at h
      cases h
      exact .inl rfl
    | some r =>
      rw [hq] at h
      cases h
      exact .inr rfl
  · rw [if_neg hv] at h
    exact .inr h

/-- what begins a beginning of a pattern begins a pattern -/
theorem continues_of_append {d : Dictionary} {ws : List String} (vs : List String)
    (h : d.continues (ws ++ vs) = true) : d.continues ws = true := by
  rw [continues, PhraseTree.after?_append] at h
  unfold continues
  cases hws : d.tree.after? ws with
  | none =>
    rw [hws] at h
    cases h
  | some t => rfl

theorem continues_of_payload? {d : Dictionary} {ws vs : List String} {payload : String}
    (h : d.payload? (ws ++ vs) = some payload) : d.continues ws = true := by
  obtain ⟨t, ht, -⟩ := Option.bind_eq_some_iff.1 h
  refine continues_of_append vs ?_
  rw [continues, ht]
  rfl

/-- what is found for an utterance is filled from the payload of the pattern that it matches -/
theorem fill_of_lookup {d : Dictionary} {u : Utterance} {text : String} (h : d.lookup u = .ok (some text)) :
    ∃ m, Match.find? d u.tokens = some m ∧ m.captures.fill ((d.payload? m.pattern).getD "") = .ok text := by
  rw [lookup] at h
  split at h
  · cases h
  · next m hm =>
    obtain ⟨filled, hfilled, he⟩ := map_eq_ok.1 h
    cases he
    exact ⟨m, hm, hfilled⟩

end Dictionary

end Dialogue
