import Dialogue.Proofs.Match.Cut
import Dialogue.Proofs.Readings
import Dialogue.Proofs.Text.Spoken

/-!
# Captured text

What a match takes from a reading of a text is a phrase: spoken words with spaces between them.

* `Extractor.heard_of_mem_chain` — the tokens of every reading are spoken words, or entities that stand for
  spoken words;
* `Cut.isPhrase_of_resolve?` — what a marker stands for is a phrase.
-/

namespace Dialogue

open Text

/-- a spoken word, or an entity that stands for spoken words and whose tag has no semicolon -/
def Token.Heard : Token → Prop
  | .literal w => Spoken w
  | .entity tag v => ';' ∉ tag.toList ∧ IsPhrase v

def Utterance.Heard (u : Utterance) : Prop := ∀ t ∈ u.tokens, t.Heard

theorem Utterance.heard_parse (text : String) : (parse text).Heard := by
  intro t ht
  obtain ⟨w, hw, rfl⟩ := List.mem_map.1 ht
  exact spoken_of_mem_tokenWords hw

/-! ### Readings -/

/-- entities of phrases, with tags that have no semicolon, are heard -/
theorem Labels.heard {known : String → List String → String → Prop} {ts us : List Token} (h : Labels known ts us)
    (hknown : ∀ tag ws value, known tag ws value → ';' ∉ tag.toList ∧ IsPhrase value) (hts : ∀ t ∈ ts, t.Heard) :
    ∀ t ∈ us, t.Heard := by
  induction h with
  | nil => exact hts
  | keep t _ ih =>
    rw [List.forall_mem_cons] at hts ⊢
    exact ⟨hts.1, ih hts.2⟩
  | entity _ h _ ih =>
    rw [List.forall_mem_cons]
    exact ⟨hknown _ _ _ h, ih fun t ht => hts t (List.mem_append_right _ ht)⟩

theorem Extractor.heard_of_mem_chain {es : List Extractor} (hes : ∀ e ∈ es, e.FindsTerms)
    (htags : ∀ e ∈ es, ';' ∉ e.tag.toList) {u v : Utterance} (hu : u.Heard) (h : v ∈ chain es [u]) : v.Heard := by
  obtain ⟨-, hlabels⟩ := (mem_chain_iff hes).1 h
  refine hlabels.heard (fun tag ws value hknown => ?_) hu
  obtain ⟨e, he, rfl, hterm⟩ := (anyKnows_iff hes tag ws value).1 hknown
  obtain ⟨terms, hterms⟩ := hes e he
  rw [hterms] at hterm
  exact ⟨htags e he, Gazetteer.isPhrase_of_payload? hterm⟩

/-! ### Matches -/

theorem Match.exists_cut {d : Dictionary} {ts : List Token} {m : Match} (h : find? d ts = some m) :
    ∃ bs, Cut ts m.pattern m.captures bs := by
  obtain ⟨p, hp, h⟩ := Option.bind_eq_some_iff.1 h
  obtain ⟨bs, hbs⟩ := Progress.reads_foldlM Progress.reads_start hp
  rw [Progress.finish?, Option.ite_none_right_eq_some] at h
  obtain ⟨-, h⟩ := h
  cases h
  exact ⟨bs, hbs.cut⟩

namespace Cut

variable {ts : List Token} {pattern : List String} {c : Captures} {bs : List Block}

theorem isPhrase_of_mem_wildcards (h : Cut ts pattern c bs) (hts : ∀ t ∈ ts, t.Heard) {v : String}
    (hv : v ∈ c.wildcards) : IsPhrase v := by
  rw [h.wildcards_eq, List.mem_filterMap] at hv
  obtain ⟨b, hb, hv⟩ := hv
  cases b with
  | token t => cases hv
  | wild words =>
    cases hv
    refine ⟨words, h.ne_nil words hb, fun w hw => ?_, rfl⟩
    have hmem : Token.literal w ∈ ts := by
      rw [← h.tokens_eq]
      exact List.mem_flatMap.2 ⟨_, hb, List.mem_map.2 ⟨w, hw, rfl⟩⟩
    exact hts _ hmem

theorem heard_of_mem_values (h : Cut ts pattern c bs) (hts : ∀ t ∈ ts, t.Heard) {tag v : String}
    (hv : v ∈ c.values tag) : (Token.entity tag v).Heard := by
  rw [h.values_eq tag, List.mem_filterMap] at hv
  obtain ⟨t, ht, hv⟩ := hv
  cases t with
  | literal w => cases hv
  | entity tag' v' =>
    rw [Token.valueOf?, Option.ite_none_right_eq_some] at hv
    obtain ⟨rfl, hv⟩ := hv
    cases hv
    exact hts _ ht

/-- what a marker stands for is a phrase, and if it is an entity, its tag has no semicolon -/
theorem isPhrase_of_resolve? (h : Cut ts pattern c bs) (hts : ∀ t ∈ ts, t.Heard) {marker : Marker} {v : String}
    (hv : c.resolve? marker = some v) :
    IsPhrase v ∧ ∀ tag n, marker = .entity tag n → ';' ∉ tag.toList := by
  cases marker with
  | wildcard n => exact ⟨h.isPhrase_of_mem_wildcards hts (List.mem_of_getElem? hv), by simp⟩
  | entity tag n =>
    obtain ⟨values, hvalues, hv⟩ := Option.bind_eq_some_iff.1 hv
    have hmem : v ∈ c.values tag := by
      rw [Captures.values, hvalues]
      exact List.mem_of_getElem? hv
    obtain ⟨htag, hphrase⟩ := h.heard_of_mem_values hts hmem
    refine ⟨hphrase, ?_⟩
    rintro _ _ ⟨⟩
    exact htag

end Cut

end Dialogue
