import Dialogue.Proofs.Marker
import Dialogue.Proofs.Match.Captured

/-!
# Filled words

A word of a payload is filled with what was captured, if it is a marker.  What is captured are phrases, so a word
keeps its semicolons (`Captures.count_filled`), and what stands behind a semicolon inside a word stays
(`Captures.filled_of_semicolon`).
-/

namespace Dialogue

open Text

/-! ### Filling a word -/

namespace Captures

/-- whether everything that was captured is a phrase, and no tag has a semicolon -/
def Phrased (c : Captures) : Prop :=
  ∀ marker v, c.resolve? marker = some v → IsPhrase v ∧ ∀ tag n, marker = .entity tag n → ';' ∉ tag.toList

/-- a payload word as it is filled, the word itself if it cannot be -/
def filled (c : Captures) (word : List Char) : List Char :=
  match c.fillWord word with
  | .ok s => s.toList
  | .error _ => word

theorem filled_eq {c : Captures} {word : List Char} {s : String} (h : c.fillWord word = .ok s) :
    c.filled word = s.toList := by
  rw [filled, h]

theorem filled_of_mapM {c : Captures} {ws : List (List Char)} {ss : List String}
    (h : ws.mapM c.fillWord = .ok ss) :
    (∀ w ∈ ws, ∃ s, c.fillWord w = .ok s) ∧ ss.map String.toList = ws.map c.filled := by
  induction ws generalizing ss with
  | nil =>
    cases h
    exact ⟨by simp, rfl⟩
  | cons w ws ih =>
    rw [List.mapM_cons] at h
    obtain ⟨s, hs, h⟩ := bind_eq_ok.1 h
    obtain ⟨rest, hrest, h⟩ := bind_eq_ok.1 h
    cases h
    obtain ⟨hall, hmap⟩ := ih hrest
    refine ⟨fun v hv => ?_, by rw [List.map_cons, List.map_cons, hmap, filled_eq hs]⟩
    rcases List.mem_cons.1 hv with rfl | hv
    · exact ⟨s, hs⟩
    · exact hall v hv

theorem filled_of_fill {c : Captures} {payload text : String} (h : c.fill payload = .ok text) :
    (∀ w ∈ words payload.toList, ∃ s, c.fillWord w = .ok s) ∧
      text.toList = joined ((words payload.toList).map c.filled) := by
  obtain ⟨ss, hss, h⟩ := bind_eq_ok.1 h
  cases h
  obtain ⟨hall, hmap⟩ := filled_of_mapM hss
  exact ⟨hall, by rw [toList_spaced, hmap]⟩

/-- the semicolon that ends a word, if one does -/
def IsEnding (body ending : List Char) : Prop :=
  ending = [';'] ∨ (ending = [] ∧ body.getLast? ≠ some ';')

theorem exists_isEnding (word : List Char) : ∃ body ending, word = body ++ ending ∧ IsEnding body ending := by
  by_cases hlast : word.getLast? = some ';'
  · obtain ⟨body, rfl⟩ := List.getLast?_eq_some_iff.1 hlast
    exact ⟨body, [';'], rfl, .inl rfl⟩
  · exact ⟨word, [], (List.append_nil word).symm, .inr ⟨rfl, hlast⟩⟩

theorem fillWord_append {body ending : List Char} (h : IsEnding body ending) (c : Captures) :
    c.fillWord (body ++ ending) = match Marker.parse? body with
      | none => .ok (String.ofList (body ++ ending))
      | some marker => match c.resolve? marker with
        | some v => .ok (v ++ String.ofList ending)
        | none => .error marker := by
  have hcut : (if (body ++ ending).getLast? = some ';' then ((body ++ ending).dropLast, ";")
      else (body ++ ending, "")) = (body, String.ofList ending) := by
    rcases h with rfl | ⟨rfl, hlast⟩
    · rw [if_pos List.getLast?_concat, List.dropLast_concat]
    · rw [List.append_nil, if_neg hlast]
  cases hmarker : Marker.parse? body with
  | none => simp only [fillWord, hcut, hmarker]
  | some marker => cases hv : c.resolve? marker <;> simp only [fillWord, hcut, hmarker, hv]

section

variable {c : Captures}

theorem fillWord_marker {mark ending : List Char} {marker : Marker} (hmark : Marker.parse? mark = some marker)
    (hending : ending = [] ∨ ending = [';']) :
    c.fillWord (mark ++ ending) = match c.resolve? marker with
      | some v => .ok (v ++ String.ofList ending)
      | none => .error marker := by
  have h : IsEnding mark ending := by
    refine hending.symm.imp_right fun h => ⟨h, fun hlast => ?_⟩
    obtain ⟨d, hd, hdigit⟩ := Marker.isDigit_getLast hmark
    rw [hlast, Option.mem_some_iff] at hd
    rw [← hd] at hdigit
    exact absurd hdigit (by decide)
  rw [fillWord_append h, hmark]

theorem filled_of_parse?_eq_none {word : List Char} (hsemicolon : ';' ∉ word) (h : Marker.parse? word = none) :
    c.filled word = word := by
  have hending : IsEnding word [] := .inr ⟨rfl, fun h => hsemicolon (List.mem_of_getLast? h)⟩
  have hfill := fillWord_append hending c
  rw [h, List.append_nil] at hfill
  rw [filled_eq hfill, String.toList_ofList]

end

section

variable {c : Captures} (hc : c.Phrased)
include hc

/-- a filled word is the word, or a phrase in place of a marker in front of the semicolon that ends the word, if one
does -/
theorem filled_cases (word : List Char) :
    c.filled word = word ∨ ∃ body ending v, word = body ++ ending ∧ (ending = [] ∨ ending = [';']) ∧ body ≠ [] ∧
      ';' ∉ body ∧ IsPhrase v ∧ c.filled word = v.toList ++ ending := by
  obtain ⟨body, ending, rfl, hending⟩ := exists_isEnding word
  have hfill := fillWord_append hending c
  cases hmarker : Marker.parse? body with
  | none =>
    rw [hmarker] at hfill
    rw [filled_eq hfill, String.toList_ofList]
    exact .inl rfl
  | some marker =>
    rw [hmarker] at hfill
    cases hv : c.resolve? marker with
    | none =>
      simp only [hv] at hfill
      rw [filled, hfill]
      exact .inl rfl
    | some v =>
      simp only [hv] at hfill
      obtain ⟨hphrase, htag⟩ := hc marker v hv
      refine .inr ⟨body, ending, v, rfl, hending.symm.imp_left And.left, Marker.ne_nil_of_parse? hmarker,
        Marker.semicolon_not_mem hmarker htag, hphrase, ?_⟩
      rw [filled_eq hfill, String.toList_append, String.toList_ofList]

theorem count_filled (word : List Char) : (c.filled word).count ';' = word.count ';' := by
  rcases filled_cases hc word with h | ⟨body, ending, v, rfl, -, -, hbody, hv, h⟩
  · rw [h]
  · rw [h, List.count_append, List.count_append, List.count_eq_zero_of_not_mem hv.semicolon_not_mem,
      List.count_eq_zero_of_not_mem hbody]

theorem map_count_filled (ws : List (List Char)) :
    (ws.map c.filled).map (List.count ';') = ws.map (List.count ';') := by
  rw [List.map_map]
  exact List.map_congr_left fun w _ => count_filled hc w

/-- what stands behind a semicolon in a word stays -/
theorem filled_of_semicolon (u v : List Char) :
    ∃ x, c.filled (u ++ ';' :: v) = x ++ ';' :: v ∧ x.count ';' = u.count ';' ∧ (u = [] → x = []) := by
  rcases filled_cases hc (u ++ ';' :: v) with h | ⟨body, ending, phrase, hword, hending, hne, hbody, hphrase, h⟩
  · exact ⟨u, h, rfl, id⟩
  · rcases hending with rfl | rfl
    · -- the semicolon would be part of the marker
      rw [List.append_nil] at hword
      exact absurd (hword ▸ by simp) hbody
    · rcases List.eq_nil_or_concat v with rfl | ⟨v, d, rfl⟩
      · obtain ⟨rfl, -⟩ := List.append_inj' hword rfl
        exact ⟨phrase.toList, h, by
          rw [List.count_eq_zero_of_not_mem hphrase.semicolon_not_mem, List.count_eq_zero_of_not_mem hbody],
          fun hu => absurd hu hne⟩
      · rw [List.concat_eq_append, ← List.cons_append, ← List.append_assoc] at hword
        obtain ⟨rfl, -⟩ := List.append_inj' hword rfl
        exact absurd (by simp) hbody

end

end Captures

end Dialogue
