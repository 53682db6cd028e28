import Dialogue.Gazetteer
import Dialogue.Proofs.Dictionary.Rows
import Dialogue.Proofs.Text.Spoken

/-!
# The terms of a text

A gazetteer that is loaded from a text has the words of its lines for terms, each with itself for its value
(`Gazetteer.payload?_ofTerms`).  So a term is what its words are when they are put together
(`Gazetteer.eq_spaced_of_payload?`), and can be spoken (`Gazetteer.isPhrase_of_payload?`).
-/

namespace Dialogue

open Text

namespace Gazetteer

variable {text term : String} {ws : List String}

/-- the words of a line of terms; a comment has none -/
def lineWords (line : List Char) : List String :=
  if (trim line).head? = some '#' then [] else tokenWords (String.ofList (trim line))

/-- the words of the terms of a text, in order -/
def termWords (text : String) : List (List String) :=
  ((lines text.toList).map lineWords).filter (· ≠ [])

theorem mem_termWords : ws ∈ termWords text ↔ (∃ line ∈ lines text.toList, lineWords line = ws) ∧ ws ≠ [] := by
  simp [termWords]

theorem isPhrase_of_mem_termWords (h : ws ∈ termWords text) : IsPhrase (spaced ws) := by
  obtain ⟨⟨line, -, rfl⟩, hne⟩ := mem_termWords.1 h
  refine ⟨lineWords line, hne, ?_, rfl⟩
  intro w hw
  unfold lineWords at hw
  split at hw
  · cases hw
  · exact spoken_of_mem_tokenWords hw

theorem terms_ofTerms (text : String) :
    (ofTerms text).terms = .ofList ((termWords text).map fun ws => (ws, spaced ws)) := by
  have hstep : (ofTerms text).terms = (lines text.toList).foldl (fun d line =>
      if lineWords line = [] then d else d.insert (lineWords line) (spaced (lineWords line))) .empty := by
    simp only [ofTerms, lineWords, List.isEmpty_iff]
    rfl
  have hlines (ls : List (List Char)) (d : Dictionary) :
      ls.foldl (fun d line =>
        if lineWords line = [] then d else d.insert (lineWords line) (spaced (lineWords line))) d =
        d.addAll (((ls.map lineWords).filter (· ≠ [])).map fun ws => (ws, spaced ws)) := by
    induction ls generalizing d with
    | nil => rfl
    | cons line ls ih =>
      rw [List.foldl_cons, ih, List.map_cons]
      by_cases hnil : lineWords line = []
      · rw [if_pos hnil, List.filter_cons_of_neg (by simpa using hnil)]
      · rw [if_neg hnil, List.filter_cons_of_pos (by simpa using hnil)]
        rfl
  rw [hstep, hlines]
  rfl

/-- the terms of a text are the words of its lines -/
theorem payload?_ofTerms :
    (ofTerms text).terms.payload? ws = some term ↔ ws ∈ termWords text ∧ term = spaced ws := by
  rw [terms_ofTerms, Dictionary.payload?_ofList]
  constructor
  · intro h
    obtain ⟨e, he, rfl⟩ := Option.map_eq_some_iff.1 h
    obtain ⟨vs, hvs, rfl⟩ := List.mem_map.1 (List.mem_of_find?_eq_some he)
    obtain rfl : vs = ws := by simpa using List.find?_some he
    exact ⟨hvs, rfl⟩
  · rintro ⟨hws, rfl⟩
    have hsome : (((termWords text).map fun ws => (ws, spaced ws)).find? (·.1 = ws)).isSome = true :=
      List.find?_isSome.2 ⟨_, List.mem_map.2 ⟨ws, hws, rfl⟩, by simp⟩
    obtain ⟨e, he⟩ := Option.isSome_iff_exists.1 hsome
    obtain ⟨vs, -, rfl⟩ := List.mem_map.1 (List.mem_of_find?_eq_some he)
    obtain rfl : vs = ws := by simpa using List.find?_some he
    rw [he]
    rfl

theorem eq_spaced_of_payload? (h : (ofTerms text).terms.payload? ws = some term) : term = spaced ws :=
  (payload?_ofTerms.1 h).2

theorem isPhrase_of_payload? (h : (ofTerms text).terms.payload? ws = some term) : IsPhrase term := by
  obtain ⟨hws, rfl⟩ := payload?_ofTerms.1 h
  exact isPhrase_of_mem_termWords hws

end Gazetteer

end Dialogue
