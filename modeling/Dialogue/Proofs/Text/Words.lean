import Mathlib.Algebra.GroupWithZero.Nat
import Mathlib.Data.List.TakeWhile
import Dialogue.Text.Scan

/-!
# Pieces and words

How the pieces and the words of a text depend on the parts that the text is put together from.

* `getElem?_splitBy` — a piece is found by the number of separators before it;
* `words_append_gap` — white space divides the words of a text;
* `words_around` — characters that are not white space are glued to the words at either side;
* `joined_glue` — words with spaces between them can be divided inside a word.
-/

namespace Dialogue.Text

/-! ### Pieces -/

theorem splitBy_eq_splitOnP (p : Char → Bool) (cs : List Char) : splitBy p cs = cs.splitOnP p := by
  induction cs with
  | nil => simp [splitBy]
  | cons c cs ih =>
    rw [splitBy, ih, List.splitOnP_cons_eq_if_modifyHead]
    by_cases h : p c = true
    · simp [h]
    · obtain ⟨w, ws, hw⟩ := List.exists_cons_of_ne_nil (List.splitOnP_ne_nil p cs)
      simp [h, hw]

theorem splitBy_append_cons {p : Char → Bool} {s : Char} (hs : p s = true) (cs ds : List Char) :
    splitBy p (cs ++ s :: ds) = splitBy p cs ++ splitBy p ds := by
  simp only [splitBy_eq_splitOnP, List.splitOnP_append_cons cs ds hs]

theorem splitBy_cons {p : Char → Bool} {s : Char} (hs : p s = true) (cs : List Char) :
    splitBy p (s :: cs) = [] :: splitBy p cs :=
  splitBy_append_cons hs [] cs

theorem length_splitBy (p : Char → Bool) (cs : List Char) : (splitBy p cs).length = cs.countP p + 1 := by
  induction cs with
  | nil => rfl
  | cons c cs ih =>
    by_cases hc : p c = true
    · rw [splitBy_cons hc, List.length_cons, ih, List.countP_cons_of_pos hc]
    · obtain ⟨w, ws, hw⟩ := List.exists_cons_of_ne_nil (splitBy_ne_nil p cs)
      rw [hw] at ih
      rw [splitBy, if_neg hc, hw, List.countP_cons_of_neg hc, ← ih]
      rfl

theorem getElem?_splitBy {p : Char → Bool} {before piece after : List Char}
    (hbefore : ∀ s ∈ before.getLast?, p s = true) (hpiece : ∀ c ∈ piece, p c = false)
    (hafter : ∀ s ∈ after.head?, p s = true) :
    (splitBy p (before ++ piece ++ after))[before.countP p]? = some piece := by
  have hfirst : (splitBy p (piece ++ after))[0]? = some piece := by
    cases after with
    | nil => rw [List.append_nil, splitBy_eq_of_none hpiece]; rfl
    | cons s after => rw [splitBy_append_cons (hafter s rfl), splitBy_eq_of_none hpiece]; rfl
  rcases List.eq_nil_or_concat before with rfl | ⟨before, s, rfl⟩
  · exact hfirst
  · have hs : p s = true := hbefore s (by simp)
    rw [List.concat_eq_append, List.append_assoc, List.append_assoc, List.singleton_append, splitBy_append_cons hs,
      List.countP_append, List.countP_singleton, if_pos hs, ← length_splitBy,
      List.getElem?_append_right (Nat.le_refl _), Nat.sub_self]
    exact hfirst

/-- where two texts meet, the last piece of the first and the first piece of the second become one -/
theorem splitBy_append (p : Char → Bool) (cs ds : List Char) :
    ∃ ws u v vs, splitBy p cs = ws ++ [u] ∧ splitBy p ds = v :: vs ∧ splitBy p (cs ++ ds) = ws ++ (u ++ v) :: vs := by
  obtain ⟨v, vs, hv⟩ := List.exists_cons_of_ne_nil (splitBy_ne_nil p ds)
  induction cs with
  | nil => exact ⟨[], [], v, vs, rfl, hv, hv⟩
  | cons c cs ih =>
    obtain ⟨ws, u, v', vs', hcs, hds, happ⟩ := ih
    by_cases hc : p c = true
    · refine ⟨[] :: ws, u, v', vs', ?_, hds, ?_⟩
      · rw [splitBy_cons hc, hcs, List.cons_append]
      · rw [List.cons_append, splitBy_cons hc, happ, List.cons_append]
    · cases ws with
      | nil => exact ⟨[], c :: u, v', vs', by simp [splitBy, hc, hcs], hds, by simp [splitBy, hc, happ]⟩
      | cons w ws => exact ⟨(c :: w) :: ws, u, v', vs', by simp [splitBy, hc, hcs], hds, by simp [splitBy, hc, happ]⟩

/-- a text without separators is glued to the pieces at either side -/
theorem splitBy_around {p : Char → Bool} {core : List Char} (hcore : ∀ c ∈ core, p c = false) (cs ds : List Char) :
    ∃ ws u v vs, splitBy p cs = ws ++ [u] ∧ splitBy p ds = v :: vs ∧
      splitBy p (cs ++ core ++ ds) = ws ++ (u ++ core ++ v) :: vs := by
  obtain ⟨ws, u, v, vs, hcs, hpiece, hleft⟩ := splitBy_append p cs core
  rw [splitBy_eq_of_none hcore] at hpiece
  cases hpiece
  obtain ⟨ws', u', v, vs, hleft', hds, hall⟩ := splitBy_append p (cs ++ core) ds
  obtain ⟨rfl, hu⟩ := List.append_inj' (hleft.symm.trans hleft') rfl
  cases hu
  exact ⟨ws, u, v, vs, hcs, hds, hall⟩

theorem not_of_mem_splitBy {p : Char → Bool} {cs w : List Char} (h : w ∈ splitBy p cs) : ∀ c ∈ w, p c = false := by
  induction cs generalizing w with
  | nil =>
    rw [splitBy, List.mem_singleton] at h
    simp [h]
  | cons c cs ih =>
    obtain ⟨u, us, hus⟩ := List.exists_cons_of_ne_nil (splitBy_ne_nil p cs)
    by_cases hc : p c = true
    · rw [splitBy_cons hc, List.mem_cons] at h
      rcases h with rfl | h
      · simp
      · exact ih h
    · rw [splitBy, if_neg hc, hus, List.mem_cons] at h
      rw [hus] at ih
      rcases h with rfl | h
      · rw [List.forall_mem_cons]
        exact ⟨by simpa using hc, ih List.mem_cons_self⟩
      · exact ih (List.mem_cons_of_mem u h)

/-- the first piece of a text is its beginning, and the others are parts of it -/
theorem part_of_mem_splitBy {p : Char → Bool} {cs w : List Char} (h : w ∈ splitBy p cs) : w <:+: cs := by
  have hall : ∀ v vs, splitBy p cs = v :: vs → v <+: cs ∧ ∀ w ∈ vs, w <:+: cs := by
    clear h
    induction cs with
    | nil =>
      rintro v vs ⟨⟩
      exact ⟨List.prefix_rfl, by simp⟩
    | cons c cs ih =>
      obtain ⟨u, us, hus⟩ := List.exists_cons_of_ne_nil (splitBy_ne_nil p cs)
      obtain ⟨hu, hrest⟩ := ih u us hus
      intro v vs hv
      by_cases hc : p c = true
      · rw [splitBy_cons hc, hus] at hv
        cases hv
        refine ⟨⟨c :: cs, rfl⟩, fun w hw => ?_⟩
        rcases List.mem_cons.1 hw with rfl | hw
        · exact List.infix_cons hu.isInfix
        · exact List.infix_cons (hrest w hw)
      · rw [splitBy, if_neg hc, hus] at hv
        cases hv
        exact ⟨(List.prefix_cons_inj c).2 hu, fun w hw => List.infix_cons (hrest w hw)⟩
  obtain ⟨v, vs, hvs⟩ := List.exists_cons_of_ne_nil (splitBy_ne_nil p cs)
  obtain ⟨hv, hrest⟩ := hall v vs hvs
  rw [hvs] at h
  rcases List.mem_cons.1 h with rfl | h
  · exact hv.isInfix
  · exact hrest w h

/-! ### Words -/

/-- the words among pieces: those that are not empty -/
def nonempty (ws : List (List Char)) : List (List Char) :=
  ws.filter fun w => !w.isEmpty

theorem words_eq (cs : List Char) : words cs = nonempty (splitBy isBlank cs) := rfl

theorem nonempty_append (vs ws : List (List Char)) : nonempty (vs ++ ws) = nonempty vs ++ nonempty ws :=
  List.filter_append vs ws

theorem nonempty_cons {w : List Char} (hw : w ≠ []) (ws : List (List Char)) :
    nonempty (w :: ws) = w :: nonempty ws :=
  List.filter_cons_of_pos (by simpa using hw)

theorem nonempty_nil_cons (ws : List (List Char)) : nonempty ([] :: ws) = nonempty ws := rfl

theorem flatten_nonempty (ws : List (List Char)) : (nonempty ws).flatten = ws.flatten := by
  induction ws with
  | nil => rfl
  | cons w ws ih =>
    by_cases hw : w = []
    · rw [hw, nonempty_nil_cons, ih, List.flatten_cons, List.nil_append]
    · rw [nonempty_cons hw, List.flatten_cons, List.flatten_cons, ih]

theorem ne_nil_of_mem_words {cs w : List Char} (h : w ∈ words cs) : w ≠ [] := by
  simpa using (List.mem_filter.1 h).2

theorem flatten_splitBy (p : Char → Bool) (cs : List Char) : (splitBy p cs).flatten = cs.filter fun c => !p c := by
  induction cs with
  | nil => rfl
  | cons c cs ih =>
    by_cases hc : p c = true
    · rw [splitBy_cons hc, List.flatten_cons, List.nil_append, ih, List.filter_cons_of_neg (by simp [hc])]
    · obtain ⟨w, ws, hw⟩ := List.exists_cons_of_ne_nil (splitBy_ne_nil p cs)
      rw [hw] at ih
      rw [splitBy, if_neg hc, hw, List.filter_cons_of_pos (by simp [hc]), ← ih]
      rfl

/-- the words of a text are all of it but white space -/
theorem flatten_words (cs : List Char) : (words cs).flatten = cs.filter fun c => !isBlank c := by
  rw [words_eq, flatten_nonempty, flatten_splitBy]

theorem mem_of_mem_words {cs w : List Char} (h : w ∈ words cs) {c : Char} (hc : c ∈ w) :
    c ∈ cs ∧ isBlank c = false := by
  have hmem : c ∈ (words cs).flatten := List.mem_flatten.2 ⟨w, h, hc⟩
  rw [flatten_words, List.mem_filter] at hmem
  simpa using hmem

theorem words_append_cons {s : Char} (hs : isBlank s = true) (cs ds : List Char) :
    words (cs ++ s :: ds) = words cs ++ words ds := by
  rw [words_eq, splitBy_append_cons hs, nonempty_append, words_eq, words_eq]

theorem words_blanks_append {gap : List Char} (h : ∀ c ∈ gap, isBlank c = true) (cs : List Char) :
    words (gap ++ cs) = words cs := by
  induction gap with
  | nil => rfl
  | cons s gap ih =>
    have hs : isBlank s = true := h s List.mem_cons_self
    rw [List.cons_append, ← ih fun c hc => h c (List.mem_cons_of_mem s hc)]
    exact words_append_cons hs [] (gap ++ cs)

/-- white space divides the words of a text -/
theorem words_append_gap {gap : List Char} (hne : gap ≠ []) (h : ∀ c ∈ gap, isBlank c = true) (cs ds : List Char) :
    words (cs ++ gap ++ ds) = words cs ++ words ds := by
  cases gap with
  | nil => exact absurd rfl hne
  | cons s gap =>
    rw [List.append_assoc, List.cons_append, words_append_cons (h s List.mem_cons_self),
      words_blanks_append fun c hc => h c (List.mem_cons_of_mem s hc)]

/-- characters that are not white space are glued to the words at either side -/
theorem words_around (core : List Char) (hne : core ≠ []) (hcore : ∀ c ∈ core, isBlank c = false)
    (cs ds : List Char) :
    ∃ ws u v vs, words cs = ws ++ nonempty [u] ∧ words ds = nonempty [v] ++ vs ∧
      words (cs ++ core ++ ds) = ws ++ (u ++ core ++ v) :: vs := by
  obtain ⟨ws, u, v, vs, hcs, hds, hall⟩ := splitBy_around hcore cs ds
  refine ⟨nonempty ws, u, v, nonempty vs, ?_, ?_, ?_⟩
  · rw [words_eq, hcs, nonempty_append]
  · rw [words_eq, hds, ← nonempty_append, List.singleton_append]
  · rw [words_eq, hall, nonempty_append, nonempty_cons (by simp [hne])]

theorem words_append_core (core : List Char) (hne : core ≠ []) (hcore : ∀ c ∈ core, isBlank c = false)
    (cs : List Char) : ∃ ws u, words cs = ws ++ nonempty [u] ∧ words (cs ++ core) = ws ++ [u ++ core] := by
  obtain ⟨ws, u, v, vs, hcs, hnil, hall⟩ := words_around core hne hcore cs []
  obtain ⟨hv, rfl⟩ := List.append_eq_nil_iff.1 hnil.symm
  have hv : v = [] := by simpa [nonempty] using hv
  rw [hv, List.append_nil, List.append_nil] at hall
  exact ⟨ws, u, hcs, hall⟩

theorem words_core_append (core : List Char) (hne : core ≠ []) (hcore : ∀ c ∈ core, isBlank c = false)
    (cs : List Char) : ∃ v vs, words cs = nonempty [v] ++ vs ∧ words (core ++ cs) = (core ++ v) :: vs := by
  obtain ⟨ws, u, v, vs, hnil, hcs, hall⟩ := words_around core hne hcore [] cs
  obtain ⟨rfl, hu⟩ := List.append_eq_nil_iff.1 hnil.symm
  have hu : u = [] := by simpa [nonempty] using hu
  rw [hu] at hall
  exact ⟨v, vs, hcs, hall⟩

/-- how it is seen of a given text that it has no white space -/
theorem not_blank_of_all {cs : List Char} (h : (cs.all fun c => !isBlank c) = true) : ∀ c ∈ cs, isBlank c = false := by
  simpa using h

theorem words_of_not_blank {w : List Char} (hne : w ≠ []) (h : ∀ c ∈ w, isBlank c = false) : words w = [w] := by
  rw [words_eq, splitBy_eq_of_none h, nonempty_cons hne]
  rfl

/-! ### Words with spaces between them -/

/-- the words with one space between each two -/
def joined (ws : List (List Char)) : List Char :=
  [' '].intercalate ws

theorem toList_spaced (ws : List String) : (spaced ws).toList = joined (ws.map String.toList) :=
  String.toList_intercalate

theorem toList_spaced_ofList (ws : List (List Char)) : (spaced (ws.map String.ofList)).toList = joined ws := by
  have hid : String.toList ∘ String.ofList = id := funext fun _ => String.toList_ofList
  rw [toList_spaced, List.map_map, hid, List.map_id]

@[simp] theorem joined_nil : joined [] = [] := rfl

@[simp] theorem joined_singleton (w : List Char) : joined [w] = w :=
  List.intercalate_singleton

theorem joined_cons_cons (v w : List Char) (ws : List (List Char)) :
    joined (v :: w :: ws) = v ++ ' ' :: joined (w :: ws) := by
  rw [joined, List.intercalate_cons_cons, List.append_assoc, List.singleton_append, joined]

theorem joined_append {vs ws : List (List Char)} (hv : vs ≠ []) (hw : ws ≠ []) :
    joined (vs ++ ws) = joined vs ++ ' ' :: joined ws := by
  obtain ⟨w, ws, rfl⟩ := List.exists_cons_of_ne_nil hw
  induction vs with
  | nil => exact absurd rfl hv
  | cons v vs ih =>
    cases vs with
    | nil => rw [List.singleton_append, joined_cons_cons, joined_singleton]
    | cons u vs =>
      rw [List.cons_append, List.cons_append, joined_cons_cons, ← List.cons_append, ih (by simp), joined_cons_cons]
      simp

/-- more words make a longer text, be they empty -/
theorem eq_nil_of_spaced_append {vs ws : List String} (hv : vs ≠ []) (h : spaced (vs ++ ws) = spaced vs) : ws = [] := by
  by_contra hw
  have hlist : (spaced (vs ++ ws)).toList = (spaced vs).toList := by rw [h]
  rw [toList_spaced, toList_spaced, List.map_append, joined_append (by simpa using hv) (by simpa using hw)] at hlist
  simp at hlist

/-- words with spaces between them can be divided inside a word -/
theorem joined_glue (vs : List (List Char)) (x y : List Char) (ws : List (List Char)) :
    joined (vs ++ (x ++ y) :: ws) = joined (vs ++ [x]) ++ joined (y :: ws) := by
  have hword : joined ((x ++ y) :: ws) = x ++ joined (y :: ws) := by
    cases ws with
    | nil => simp
    | cons w ws => rw [joined_cons_cons, joined_cons_cons, List.append_assoc]
  cases vs with
  | nil => rw [List.nil_append, hword, List.nil_append, joined_singleton]
  | cons v vs =>
    rw [joined_append (by simp) (by simp), joined_append (by simp) (by simp), hword, joined_singleton]
    simp

/-- an empty word at the beginning adds a space -/
theorem joined_cons_nonempty (v : List Char) {ws : List (List Char)} (hw : ws ≠ []) :
    joined (v :: ws) = (if v = [] then [' '] else []) ++ joined (nonempty [v] ++ ws) := by
  obtain ⟨w, ws, rfl⟩ := List.exists_cons_of_ne_nil hw
  by_cases hv : v = []
  · rw [hv, if_pos rfl, joined_cons_cons]
    rfl
  · rw [if_neg hv, nonempty_cons hv]
    rfl

theorem mem_joined {ws : List (List Char)} {c : Char} (h : c ∈ joined ws) : c = ' ' ∨ ∃ w ∈ ws, c ∈ w := by
  induction ws with
  | nil => simp at h
  | cons w ws ih =>
    cases ws with
    | nil => exact .inr ⟨w, by simp, by simpa using h⟩
    | cons v ws =>
      rw [joined_cons_cons, List.mem_append, List.mem_cons] at h
      rcases h with h | rfl | h
      · exact .inr ⟨w, by simp, h⟩
      · exact .inl rfl
      · exact (ih h).imp_right fun ⟨u, hu, hc⟩ => ⟨u, List.mem_cons_of_mem w hu, hc⟩

theorem not_mem_joined {ws : List (List Char)} {c : Char} (hc : c ≠ ' ') (h : ∀ w ∈ ws, c ∉ w) : c ∉ joined ws := by
  intro hmem
  rcases mem_joined hmem with hspace | ⟨w, hw, hcw⟩
  · exact hc hspace
  · exact h w hw hcw

theorem count_joined {c : Char} (hc : c ≠ ' ') (ws : List (List Char)) :
    (joined ws).count c = (ws.map (List.count c)).sum := by
  induction ws with
  | nil => rfl
  | cons w ws ih =>
    cases ws with
    | nil => simp
    | cons v ws =>
      rw [joined_cons_cons, List.count_append, List.count_cons_of_ne (Ne.symm hc), ih]
      rfl

theorem count_words {c : Char} (hc : isBlank c = false) (cs : List Char) :
    ((words cs).map (List.count c)).sum = cs.count c := by
  rw [← List.count_flatten, flatten_words, List.count_filter (by simp [hc])]

theorem count_nonempty (c : Char) (ws : List (List Char)) :
    ((nonempty ws).map (List.count c)).sum = (ws.map (List.count c)).sum := by
  rw [← List.count_flatten, flatten_nonempty, List.count_flatten]

theorem head?_joined_words (cs : List Char) : ∀ c ∈ (joined (words cs)).head?, isBlank c = false := by
  intro c hc
  cases hws : words cs with
  | nil =>
    rw [hws] at hc
    cases hc
  | cons w ws =>
    have hw : w ∈ words cs := hws ▸ List.mem_cons_self
    obtain ⟨d, ds, rfl⟩ := List.exists_cons_of_ne_nil (ne_nil_of_mem_words hw)
    have hjoined : joined ((d :: ds) :: ws) = d :: joined (ds :: ws) := joined_glue [] [d] ds ws
    rw [hws, hjoined] at hc
    cases hc
    exact (mem_of_mem_words hw List.mem_cons_self).2

/-! ### White space at the ends -/

/-- the text without white space at its end -/
def trimEnd (cs : List Char) : List Char :=
  (cs.reverse.dropWhile isBlank).reverse

theorem exists_trimEnd (cs : List Char) : ∃ tail, (∀ c ∈ tail, isBlank c = true) ∧ cs = trimEnd cs ++ tail := by
  refine ⟨(cs.reverse.takeWhile isBlank).reverse, fun c hc => ?_, ?_⟩
  · exact List.mem_takeWhile_imp (List.mem_reverse.1 hc)
  · rw [trimEnd, ← List.reverse_append, List.takeWhile_append_dropWhile, List.reverse_reverse]

theorem exists_trim (cs : List Char) : ∃ lead tail, (∀ c ∈ lead, isBlank c = true) ∧ (∀ c ∈ tail, isBlank c = true) ∧
    cs = lead ++ trim cs ++ tail := by
  obtain ⟨tail, htail, hcs⟩ := exists_trimEnd (cs.dropWhile isBlank)
  refine ⟨cs.takeWhile isBlank, tail, fun c hc => List.mem_takeWhile_imp hc, htail, ?_⟩
  have htrim : trim cs = trimEnd (cs.dropWhile isBlank) := rfl
  rw [htrim, List.append_assoc, ← hcs, List.takeWhile_append_dropWhile]

theorem trim_eq_self {cs : List Char} (hhead : ∀ c ∈ cs.head?, isBlank c = false)
    (hlast : ∀ c ∈ cs.getLast?, isBlank c = false) : trim cs = cs := by
  have hstart : cs.dropWhile isBlank = cs := by
    cases cs with
    | nil => rfl
    | cons c cs => exact List.dropWhile_cons_of_neg (by simp [hhead c rfl])
  have hend : cs.reverse.dropWhile isBlank = cs.reverse := by
    rcases List.eq_nil_or_concat cs with rfl | ⟨cs, c, rfl⟩
    · rfl
    · rw [List.concat_eq_append, List.reverse_append]
      exact List.dropWhile_cons_of_neg (by simp [hlast c (by simp)])
  rw [trim, hstart, hend, List.reverse_reverse]

theorem trim_around {lead tail : List Char} (hlead : ∀ c ∈ lead, isBlank c = true)
    (htail : ∀ c ∈ tail, isBlank c = true) (cs : List Char) : trim (lead ++ cs ++ tail) = trim cs := by
  rw [trim, List.append_assoc, List.dropWhile_append_of_pos hlead, List.dropWhile_append]
  by_cases hcs : cs.dropWhile isBlank = []
  · have hnil : tail.dropWhile isBlank = [] := List.dropWhile_eq_nil_iff.2 htail
    rw [hcs, List.isEmpty_nil, if_pos rfl, hnil, trim, hcs]
  · rw [if_neg (by simpa using hcs), List.reverse_append,
      List.dropWhile_append_of_pos fun c hc => htail c (List.mem_reverse.1 hc), trim]

/-- an empty word at the end adds nothing but white space -/
theorem trim_joined_nonempty (ws : List (List Char)) (u : List Char) :
    trim (joined (ws ++ nonempty [u])) = trim (joined (ws ++ [u])) := by
  by_cases hu : u = []
  · subst hu
    by_cases hws : ws = []
    · rw [hws]
      rfl
    · have hspace : joined (ws ++ [[]]) = [] ++ joined ws ++ [' '] := by
        rw [joined_append hws (by simp)]
        rfl
      rw [hspace, trim_around (by simp) (by simp; rfl), nonempty_nil_cons]
      exact congrArg (fun vs => trim (joined vs)) (List.append_nil ws)
  · rw [nonempty_cons hu]
    rfl

end Dialogue.Text
