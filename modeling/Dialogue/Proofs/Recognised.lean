import Mathlib.Data.Finset.Card
import Dialogue.Proofs.Search
import Dialogue.Proofs.Terms
import Dialogue.Proofs.Text.Trimmed

/-!
# Terms that are recognised

The lines of a gazetteer, the texts that it is asked about and the utterances that it searches are read in the same
way.  A term is the words of a line with single spaces between them, and these are read again as the same words; so a
gazetteer knows each of its terms, and finds it in its own words.

* `Gazetteer.lineWords_eq` — the words of a line are those of the line with the white space around it;
* `Gazetteer.contains_iff` — the texts that are terms;
* `Gazetteer.find_ofTerms_eq` — the terms of a text among words;
* `Gazetteer.recognises_terms` — terms are recognised, and counted by their words;
* `Gazetteer.find_everywhere` — a search finds what is found when every span is tried.
-/

namespace Dialogue.Gazetteer

open Text

variable {text term q : String} {ws : List String}

/-! ### Words of terms -/

theorem lineWords_eq (line : List Char) :
    lineWords line = if (trim line).head? = some '#' then [] else tokenWords (String.ofList line) := by
  rw [lineWords, tokenWords_trim]

/-- the words of a term are its words when it is read -/
theorem tokenWords_spaced_of_mem (h : ws ∈ termWords text) : tokenWords (spaced ws) = ws := by
  obtain ⟨⟨line, -, rfl⟩, hne⟩ := mem_termWords.1 h
  rw [lineWords_eq] at hne ⊢
  split at hne
  · exact absurd rfl hne
  · next hcomment => rw [if_neg hcomment, tokenWords_spaced]

theorem contains_iff : (ofTerms text).contains q = true ↔ tokenWords q ∈ termWords text := by
  have hcomplete : (ofTerms text).terms.isComplete (tokenWords q) = true ↔ tokenWords q ∈ termWords text := by
    rw [terms_ofTerms, Dictionary.isComplete_ofList]
    simp
  rw [contains, Bool.and_eq_true, hcomplete, and_iff_right_iff_imp]
  intro h
  simpa using (mem_termWords.1 h).2

theorem size_ofTerms (text : String) : (ofTerms text).size = (termWords text).toFinset.card := by
  rw [size, terms_ofTerms, Dictionary.size_ofList, List.map_map]
  congr
  exact List.map_id _

/-! ### Terms among words -/

/-- the terms of a text are found where their words are -/
theorem find_ofTerms_eq (text : String) (words : List String) :
    (ofTerms text).find words =
      ((Span.below words.length).filter fun s => s.slice words ∈ termWords text).map fun s =>
        ⟨s, spaced (s.slice words)⟩ := by
  have hfound (s : Span) : (ofTerms text).foundAt? words s =
      if s.slice words ∈ termWords text then some ⟨s, spaced (s.slice words)⟩ else none := by
    unfold foundAt?
    by_cases hterm : s.slice words ∈ termWords text
    · rw [if_pos hterm, payload?_ofTerms.2 ⟨hterm, rfl⟩, Option.map_some]
    · have hnone : (ofTerms text).terms.payload? (s.slice words) = none := by
        rw [Option.eq_none_iff_forall_not_mem]
        intro term h
        exact hterm (payload?_ofTerms.1 h).1
      rw [if_neg hterm, hnone, Option.map_none]
  rw [find_eq, funext hfound, ← List.filterMap_eq_map, List.filterMap_filter]
  simp

/-- a term is found in its own words, from the first to the last -/
theorem mem_find_of_payload? (h : (ofTerms text).terms.payload? ws = some term) :
    ⟨⟨0, ws.length⟩, term⟩ ∈ (ofTerms text).find ws := by
  have hne : ws ≠ [] := (mem_termWords.1 (payload?_ofTerms.1 h).1).2
  refine mem_find_iff.2 ⟨[], ws, [], ?_, hne, h, ?_⟩
  · rw [List.nil_append, List.append_nil]
  · rw [List.length_nil, Nat.zero_add]

/-! ### Terms and searches -/

/-- **Terms are recognised.**  The words of a text, with single spaces between them, are a text with the same words.
So a gazetteer knows each of its terms, and finds it in its own words, from the first to the last; it knows a text
exactly if a line has the same words, whatever white space is around it, and lines that have the same words are one
term. -/
theorem recognises_terms (text : String) :
    tokenWords (spaced (tokenWords text)) = tokenWords text ∧
      (∀ ws term, (ofTerms text).terms.payload? ws = some term →
        (ofTerms text).contains term = true ∧
          ⟨⟨0, (tokenWords term).length⟩, term⟩ ∈ (ofTerms text).find (tokenWords term)) ∧
      (∀ q, (ofTerms text).contains q = true ↔ tokenWords q ∈ termWords text) ∧
      (ofTerms text).size = (termWords text).toFinset.card ∧
      ∀ line, lineWords line = if (trim line).head? = some '#' then [] else tokenWords (String.ofList line) := by
  refine ⟨tokenWords_spaced text, ?_, fun q => contains_iff, size_ofTerms text, lineWords_eq⟩
  intro ws term hterm
  obtain ⟨hws, rfl⟩ := payload?_ofTerms.1 hterm
  have hread : tokenWords (spaced ws) = ws := tokenWords_spaced_of_mem hws
  constructor
  · rw [contains_iff, hread]
    exact hws
  · rw [hread]
    exact mem_find_of_payload? hterm

/-- two lines with the same words, of which one has capitals and one a hyphen -/
theorem recognises_terms_apostrophe :
    (ofTerms "Don't ΣΑΣ\n don't-σας\n").terms.payload? ["don't", "σας"] = some "don't σας" ∧
      (ofTerms "Don't ΣΑΣ\n don't-σας\n").contains "don't σας" = true ∧
      ⟨⟨0, 2⟩, "don't σας"⟩ ∈ (ofTerms "Don't ΣΑΣ\n don't-σας\n").find ["don't", "σας"] ∧
      (ofTerms "Don't ΣΑΣ\n don't-σας\n").size = 1 := by
  have hterm : (ofTerms "Don't ΣΑΣ\n don't-σας\n").terms.payload? ["don't", "σας"] = some "don't σας" := by
    decide +kernel
  have hwords : tokenWords "don't σας" = ["don't", "σας"] := by decide +kernel
  have hcount : (termWords "Don't ΣΑΣ\n don't-σας\n").toFinset.card = 1 := by decide +kernel
  obtain ⟨-, hknown, -, hsize, -⟩ := recognises_terms "Don't ΣΑΣ\n don't-σας\n"
  obtain ⟨hcontains, hfind⟩ := hknown _ _ hterm
  rw [hwords] at hfind
  exact ⟨hterm, hcontains, hfind, hsize.trans hcount⟩

/-- **A search finds what is found when every span is tried.**  The spans of words are tried by start and then by stop,
each once, and what is found at a span is the term whose words are there.  Of the terms of a text, each is found
wherever the words of its line are, with their text, also where it overlaps others or goes on with them. -/
theorem find_everywhere (words : List String) :
    (∀ s, s ∈ Span.below words.length ↔ s.start < s.stop ∧ s.stop ≤ words.length) ∧
      ((Span.below words.length).Pairwise fun s t => s.before t = true) ∧
      (∀ g : Gazetteer, g.find words = (Span.below words.length).filterMap fun s =>
        (g.terms.payload? (s.slice words)).map (Found.mk s)) ∧
      ∀ text, (ofTerms text).find words =
        ((Span.below words.length).filter fun s => s.slice words ∈ termWords text).map fun s =>
          ⟨s, spaced (s.slice words)⟩ :=
  ⟨fun _ => Span.mem_below_iff, Span.pairwise_below words.length, fun g => find_eq g words,
    fun text => find_ofTerms_eq text words⟩

/-- a term that goes on with another one, with a gap -/
example : (ofTerms "a\na b c\nb\n").find ["a", "b", "c"] = [⟨⟨0, 1⟩, "a"⟩, ⟨⟨0, 3⟩, "a b c"⟩, ⟨⟨1, 2⟩, "b"⟩] := by
  decide +kernel

end Dialogue.Gazetteer
