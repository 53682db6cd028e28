import Dialogue.Proofs.Match.Complete

/-!
# What the markers of a tag denote

An entity marker is written as its tag, a mark and an index, and whatever begins with `WC_` is taken for a wildcard
marker.  A tag that makes its marker begin so cannot be written: its markers are no markers, and a payload keeps them
as they are.  Every other tag can, whatever marks, digits or underscores are in it, and the payload word denotes the
entity:

* `parse?_text_entity_iff`: which entity markers are read again from what is written;
* `fillWord_entity`: what stands in the place of an entity marker after a match;
* `Marker.readAgain_iff`: both together, with the wildcards, and with every text that is a marker.
-/

namespace Dialogue

open Text

namespace Marker

/-- a tag whose markers begin as wildcard markers do -/
def LikeWildcard (tag : String) : Prop :=
  tag = "WC" ∨ wildcardStart <+: tag.toList

instance (tag : String) : Decidable (LikeWildcard tag) := by
  unfold LikeWildcard
  infer_instance

theorem likeWildcard_iff {tag : String} (htag : tag ≠ "") :
    LikeWildcard tag ↔ wildcardStart <+: tag.toList ++ entityMiddle := by
  have htag' : tag.toList ≠ [] := by simpa using htag
  have hWC : tag = "WC" ↔ tag.toList = ['W', 'C'] := by rw [← String.toList_inj]; rfl
  unfold LikeWildcard
  rw [hWC]
  generalize tag.toList = cs at htag'
  -- the first three characters decide, and the mark brings in the first of its own
  match cs with
  | [] => exact absurd rfl htag'
  | [a] => simp [wildcardStart, entityMiddle]
  | [a, b] => simp [wildcardStart, entityMiddle, eq_comm]
  | a :: b :: c :: rest => simp [wildcardStart, entityMiddle]

/-- a text that begins as a wildcard marker and has a letter behind that is no marker -/
theorem parse?_of_wildcardStart {cs : List Char} (h : wildcardStart <+: cs) (hM : 'M' ∈ cs) : parse? cs = none := by
  obtain ⟨index, rfl⟩ := h
  have hM' : 'M' ∈ index := by simpa [wildcardStart] using hM
  rw [parse?, dropStart?_append]
  simp only [Option.map_eq_none_iff]
  rw [Option.eq_none_iff_forall_not_mem]
  intro n hn
  obtain ⟨digits, -, hdigits, hindex⟩ := Number.digits_of_readIndex? hn
  rw [String.toList_ofList] at hindex
  have hnot : 'M' ∉ digits := by
    intro hmem
    exact absurd (hdigits _ hmem) (by decide)
  rcases hindex with rfl | rfl
  · exact hnot hM'
  · simp at hM'
    exact hnot hM'

/-- the markers of a tag that is like a wildcard are no markers -/
theorem parse?_text_of_likeWildcard {tag : String} (htag : tag ≠ "") (h : LikeWildcard tag) (n : Nat) :
    parse? (text (.entity tag n)).toList = none := by
  rw [toList_text_entity, ← List.append_assoc]
  apply parse?_of_wildcardStart
  · exact ((likeWildcard_iff htag).1 h).trans (List.prefix_append _ _)
  · simp [entityMiddle]

/-- **An entity marker is read again** from what is written exactly if its tag is not like a wildcard. -/
theorem parse?_text_entity_iff {tag : String} {n : Nat} (htag : tag ≠ "") (hn : n ≤ Number.maxWord) :
    parse? (text (.entity tag n)).toList = some (.entity tag n) ↔ ¬ LikeWildcard tag := by
  constructor
  · intro h hlike
    rw [parse?_text_of_likeWildcard htag hlike] at h
    cases h
  · intro h
    rw [likeWildcard_iff htag] at h
    exact parse?_text_entity htag hn h

/-- an entity marker is one word exactly if its tag has no white space -/
theorem words_text_entity_iff (tag : String) (n : Nat) :
    words (text (.entity tag n)).toList = [(text (.entity tag n)).toList] ↔ ∀ c ∈ tag.toList, isBlank c = false := by
  rw [toList_text_entity]
  constructor
  · intro h c hc
    have hword : tag.toList ++ (entityMiddle ++ (toString n).toList) ∈
        words (tag.toList ++ (entityMiddle ++ (toString n).toList)) := by rw [h]; exact List.mem_singleton_self _
    exact (mem_of_mem_words hword (List.mem_append_left _ hc)).2
  · intro h
    apply words_of_not_blank
    · simp [entityMiddle]
    · intro c hc
      rw [List.mem_append, List.mem_append] at hc
      rcases hc with hc | hc | hc
      · exact h c hc
      · have hall : (entityMiddle.all fun c => !isBlank c) = true := by rfl
        simpa using List.all_eq_true.1 hall c hc
      · exact Number.isBlank_of_isDigit (Number.isDigit_of_mem_toString hc)

end Marker

open Marker

/-- what is captured for an entity marker is the entity with this index among those of the tag -/
theorem Match.resolve?_entity {d : Dictionary} {ts : List Token} {m : Match} (hm : Match.find? d ts = some m)
    (tag : String) (n : Nat) : m.captures.resolve? (.entity tag n) = (ts.filterMap (Token.valueOf? tag))[n]? := by
  obtain ⟨bs, hcut⟩ := Match.exists_cut hm
  rw [hcut.resolve?_eq, Block.captured?, hcut.tokens_eq]

/-- **What a payload word of a tag denotes** after a match: the entity with this index among those of the tag, or
itself if the tag is like a wildcard. -/
theorem Match.fillWord_entity {d : Dictionary} {ts : List Token} {m : Match} (hm : Match.find? d ts = some m)
    {tag : String} {n : Nat} (htag : tag ≠ "") (hn : n ≤ Number.maxWord) {ending : List Char}
    (hending : ending = [] ∨ ending = [';']) :
    m.captures.fillWord ((text (.entity tag n)).toList ++ ending) =
      if LikeWildcard tag then .ok (text (.entity tag n) ++ String.ofList ending)
      else match (ts.filterMap (Token.valueOf? tag))[n]? with
        | some v => .ok (v ++ String.ofList ending)
        | none => .error (.entity tag n) := by
  split
  · next hlike =>
    have hnone := parse?_text_of_likeWildcard htag hlike n
    have hlast : (text (.entity tag n)).toList.getLast? ≠ some ';' := by
      intro hlast
      have hmem : ';' ∈ (toString n).toList := by
        rw [toList_text_entity, ← List.append_assoc, List.getLast?_append_of_ne_nil _ (by simp)] at hlast
        exact List.mem_of_getLast? hlast
      exact absurd (Number.isDigit_of_mem_toString hmem) (by decide)
    have hcut : Captures.IsEnding (text (.entity tag n)).toList ending :=
      hending.symm.imp_right fun h => ⟨h, hlast⟩
    rw [Captures.fillWord_append hcut, hnone]
    simp only [String.ofList_append, String.ofList_toList]
  · next hlike =>
    have hread := (parse?_text_entity_iff htag hn).2 hlike
    have hword := Captures.fillWord_marker (c := m.captures) hread hending
    rw [Match.resolve?_entity hm] at hword
    exact hword

namespace Marker

/-- **Markers are read again from what is written.**  So are those of wildcards, those of every tag that is not like a
wildcard, and what is read of any text.  The payload word that is written for an entity then stands, after every match
and with a semicolon behind it or not, for the entity with this index among those of the tag, and an unknown index is
an error; a tag that is like a wildcard has no payload word, what is written stands for itself.  What is written is one
word if there is no white space in the tag. -/
theorem readAgain_iff {n : Nat} (hn : n ≤ Number.maxWord) :
    parse? (text (.wildcard n)).toList = some (.wildcard n) ∧
    (∀ tag ≠ "",
      (parse? (text (.entity tag n)).toList = some (.entity tag n) ↔ ¬ LikeWildcard tag) ∧
      (words (text (.entity tag n)).toList = [(text (.entity tag n)).toList] ↔
        ∀ c ∈ tag.toList, isBlank c = false) ∧
      ∀ d ts m, Match.find? d ts = some m → ∀ ending, ending = [] ∨ ending = [';'] →
        m.captures.fillWord ((text (.entity tag n)).toList ++ ending) =
          if LikeWildcard tag then .ok (text (.entity tag n) ++ String.ofList ending)
          else match (ts.filterMap (Token.valueOf? tag))[n]? with
            | some v => .ok (v ++ String.ofList ending)
            | none => .error (.entity tag n)) ∧
    ∀ cs marker, parse? cs = some marker → parse? marker.text.toList = some marker := by
  refine ⟨parse?_text_wildcard hn, ?_, ?_⟩
  · intro tag htag
    refine ⟨parse?_text_entity_iff htag hn, words_text_entity_iff tag n, ?_⟩
    intro d ts m hm ending hending
    exact Match.fillWord_entity hm htag hn hending
  · intro cs marker h
    exact parse?_text h

def flights : Dictionary :=
  Dictionary.empty.insert ["from", "city_MKR_0__MKR", "to", "city_MKR_0__MKR"] "utt:/objects.to -> city_MKR_0__MKR_1"

/-- the second city stands in the place of its marker -/
theorem readAgain_flights :
    1 ≤ Number.maxWord ∧ ¬ LikeWildcard "city_MKR_0_" ∧
    parse? "city_MKR_0__MKR_1".toList = some (.entity "city_MKR_0_" 1) ∧
    ∃ m, Match.find? flights [.literal "from", .entity "city_MKR_0_" "rome", .literal "to",
        .entity "city_MKR_0_" "york"] = some m ∧
      m.captures.fillWord "city_MKR_0__MKR_1".toList = .ok "york" := by
  have hn : 1 ≤ Number.maxWord := by decide
  have hlike : ¬ LikeWildcard "city_MKR_0_" := by decide
  obtain ⟨-, htags, -⟩ := readAgain_iff hn
  obtain ⟨hread, -, hfill⟩ := htags "city_MKR_0_" (by decide)
  have hfind : Match.find? flights [.literal "from", .entity "city_MKR_0_" "rome", .literal "to",
      .entity "city_MKR_0_" "york"] = some ⟨["from", "city_MKR_0__MKR", "to", "city_MKR_0__MKR"],
        ⟨[], [("city_MKR_0_", ["rome", "york"])]⟩⟩ := by decide
  refine ⟨hn, hlike, hread.2 hlike, _, hfind, ?_⟩
  have hword := hfill _ _ _ hfind [] (.inl rfl)
  rw [if_neg hlike, List.append_nil] at hword
  exact hword

/-- `WC` is a tag like any other, but its first marker is not read again -/
theorem not_readAgain_wc :
    ¬ ∀ tag ≠ "", ∀ n ≤ Number.maxWord, parse? (text (.entity tag n)).toList = some (.entity tag n) := by
  intro h
  have hwc := h "WC" (by decide) 0 (by decide)
  rw [parse?_text_of_likeWildcard (by decide) (.inl rfl)] at hwc
  cases hwc

end Marker

end Dialogue
