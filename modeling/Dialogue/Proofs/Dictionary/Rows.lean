import Mathlib.Data.Finset.Card
import Mathlib.Data.Finset.Dedup
import Dialogue.Dictionary.Rows
import Dialogue.Proofs.Dictionary
import Dialogue.Proofs.Text.Words

/-!
# The patterns of a dictionary

A dictionary is seen as the list of the patterns and payloads that were added to it:

* `Dictionary.payload?_ofList`: the payload of a pattern is the first that was added with it;
* `Dictionary.continues_ofList`: the beginnings of its patterns, and no other words, go on;
* `Dictionary.size_ofList`: its size counts each pattern once;
* `Dictionary.addLines_eq`: rows of text add their patterns in order, up to the first that is no row.

`Dictionary.first_wins` puts them together.
-/

namespace Dialogue

namespace PhraseTree

theorem after?_empty_isSome {vs : List String} (h : (empty.after? vs).isSome = true) : vs = [] := by
  cases vs with
  | nil => rfl
  | cons v vs => cases h

/-- a pattern that is added makes its own beginnings go on, and no other words -/
theorem isSome_after?_insert (p : String) (t : PhraseTree) (ws vs : List String) :
    ((t.insert p ws).after? vs).isSome = true ↔ (t.after? vs).isSome = true ∨ vs <+: ws := by
  induction ws generalizing t vs with
  | nil =>
    cases t with
    | node q cs =>
      cases vs with
      | nil => simp [insert, after?]
      | cons v vs => simp [insert, after?_cons, children]
  | cons w ws ih =>
    cases t with
    | node q cs =>
      cases vs with
      | nil => simp [insert, after?]
      | cons v vs =>
        rw [insert, after?_cons, after?_cons, children, children, List.cons_prefix_cons]
        by_cases hv : v = w
        · subst hv
          rw [Entries.get?_insert_self, Option.bind_some, ih]
          cases Entries.get? v cs with
          | some child => simp
          | none =>
            -- there was no branch, so only the added pattern goes on
            constructor
            · rintro (h | h)
              · obtain rfl := after?_empty_isSome h
                exact .inr ⟨rfl, List.nil_prefix⟩
              · exact .inr ⟨rfl, h⟩
            · rintro (h | ⟨-, h⟩)
              · cases h
              · exact .inr h
        · rw [Entries.get?_insert_of_ne hv]
          simp [hv]

end PhraseTree

namespace Dictionary

variable {d : Dictionary} {ws vs : List String} {es : List (List String × String)}

theorem continues_insert (d : Dictionary) (ws vs : List String) (p : String) :
    (d.insert ws p).continues vs = true ↔ d.continues vs = true ∨ vs <+: ws := by
  by_cases h : d.isComplete ws = true
  · rw [insert, if_pos h]
    constructor
    · exact .inl
    · -- the beginnings of a pattern that is there go on already
      rintro (hvs | ⟨us, rfl⟩)
      · exact hvs
      · obtain ⟨q, hq⟩ := Option.isSome_iff_exists.1 h
        exact continues_of_payload? hq
  · rw [insert, if_neg h]
    exact PhraseTree.isSome_after?_insert p d.tree ws vs

/-- the dictionary with patterns added in order -/
def addAll (d : Dictionary) (es : List (List String × String)) : Dictionary :=
  es.foldl (fun d e => (d.add e.1 e.2).2) d

/-- the dictionary to which patterns were added in order, and nothing else -/
def ofList (es : List (List String × String)) : Dictionary :=
  empty.addAll es

theorem ofList_concat (es : List (List String × String)) (e : List String × String) :
    ofList (es ++ [e]) = (ofList es).insert e.1 e.2 := by
  rw [ofList, addAll, List.foldl_append]
  rfl

theorem payload?_ofList (es : List (List String × String)) (vs : List String) :
    (ofList es).payload? vs = (es.find? (·.1 = vs)).map Prod.snd := by
  induction es using List.reverseRecOn with
  | nil => exact payload?_empty vs
  | append_singleton es e ih =>
    rw [ofList_concat, payload?_insert, List.find?_append]
    by_cases h : vs = e.1
    · subst h
      rw [if_pos rfl, ih]
      cases es.find? (·.1 = e.1) with
      | some e' => simp
      | none => simp
    · have hne : e.1 ≠ vs := fun he => h he.symm
      rw [if_neg h, ih]
      cases es.find? (·.1 = vs) with
      | some e' => simp
      | none => simp [hne]

theorem isComplete_ofList (es : List (List String × String)) (vs : List String) :
    (ofList es).isComplete vs = true ↔ vs ∈ es.map Prod.fst := by
  rw [isComplete, payload?_ofList, Option.isSome_map, List.find?_isSome]
  simp

theorem continues_ofList (es : List (List String × String)) (vs : List String) :
    (ofList es).continues vs = true ↔ vs = [] ∨ ∃ e ∈ es, vs <+: e.1 := by
  induction es using List.reverseRecOn with
  | nil =>
    cases vs with
    | nil => simp [ofList, addAll, continues, PhraseTree.after?]
    | cons v vs => simp [ofList, addAll, continues, empty, PhraseTree.empty, PhraseTree.after?, PhraseTree.children]
  | append_singleton es e ih =>
    rw [ofList_concat, continues_insert, ih, or_assoc]
    simp [or_and_right, exists_or]

theorem size_ofList (es : List (List String × String)) : (ofList es).size = (es.map Prod.fst).toFinset.card := by
  induction es using List.reverseRecOn with
  | nil => rfl
  | append_singleton es e ih =>
    have hset : ((es ++ [e]).map Prod.fst).toFinset = Insert.insert e.1 (es.map Prod.fst).toFinset := by
      ext ws
      simp
    rw [ofList_concat, insert, hset]
    by_cases h : (ofList es).isComplete e.1 = true
    · have hmem : e.1 ∈ (es.map Prod.fst).toFinset := List.mem_toFinset.2 ((isComplete_ofList es e.1).1 h)
      rw [if_pos h, ih, Finset.insert_eq_of_mem hmem]
    · have hmem : e.1 ∉ (es.map Prod.fst).toFinset := fun hm =>
        h ((isComplete_ofList es e.1).2 (List.mem_toFinset.1 hm))
      rw [if_neg h, Finset.card_insert_of_notMem hmem, ih]

theorem add_ofList (es : List (List String × String)) (ws : List String) (p : String) :
    ((ofList es).add ws p).1 = true ↔ ws ∉ es.map Prod.fst := by
  rw [add, ← isComplete_ofList]
  simp

end Dictionary

/-! ### Rows of text -/

namespace Text

theorem cutAt_singleton (c : Char) (cs : List Char) :
    cutAt [c] cs = if c ∈ cs then some (cs.takeWhile (· ≠ c), (cs.dropWhile (· ≠ c)).tail) else none := by
  induction cs with
  | nil => rfl
  | cons b cs ih =>
    rw [cutAt]
    by_cases h : c = b
    · subst h
      simp [dropStart?]
    · have hne : b ≠ c := fun hb => h hb.symm
      have hstart : dropStart? [c] (b :: cs) = none := by simp [dropStart?, h]
      rw [hstart, ih]
      by_cases hmem : c ∈ cs
      · simp [h, hne, hmem]
      · simp [h, hmem]

theorem words_eq_nil_iff {cs : List Char} : words cs = [] ↔ ∀ c ∈ cs, isBlank c = true := by
  constructor
  · intro h
    have hflat := flatten_words cs
    rw [h, List.flatten_nil, eq_comm, List.filter_eq_nil_iff] at hflat
    simpa using hflat
  · intro h
    refine List.eq_nil_iff_forall_not_mem.2 fun w hw => ?_
    obtain ⟨c, ws, rfl⟩ := List.exists_cons_of_ne_nil (ne_nil_of_mem_words hw)
    obtain ⟨hc, hblank⟩ := mem_of_mem_words hw List.mem_cons_self
    rw [h c hc] at hblank
    cases hblank

end Text

namespace Dictionary

def pattern (row : List Char) : List Char :=
  row.takeWhile (· ≠ ',')

def rest (row : List Char) : List Char :=
  (row.dropWhile (· ≠ ',')).tail

/-- a line without a comma, or with white space only before the first -/
def Malformed (row : List Char) : Prop :=
  ',' ∉ row ∨ ∀ c ∈ pattern row, Text.isBlank c = true

instance (row : List Char) : Decidable (Malformed row) :=
  @instDecidableOr _ _ _ (List.decidableBAll _ _)

/-- the words of a row before its first comma, and the text after it -/
def entry (row : List Char) : List String × String :=
  ((Text.words (pattern row)).map String.ofList, String.ofList (Text.trim (rest row)))

def faultOf (row : List Char) : RowFault :=
  if ',' ∈ row then .emptyPattern else .noComma

theorem parseRow_eq (row : List Char) :
    parseRow row = if Malformed row then .error (faultOf row) else .ok (entry row) := by
  have hcut : Text.cutAt [','] row = if ',' ∈ row then some (pattern row, rest row) else none :=
    Text.cutAt_singleton ',' row
  rw [parseRow, hcut, faultOf]
  by_cases hcomma : ',' ∈ row
  · rw [if_pos hcomma, if_pos hcomma]
    by_cases hblank : ∀ c ∈ pattern row, Text.isBlank c = true
    · have hwords : Text.words (pattern row) = [] := Text.words_eq_nil_iff.2 hblank
      rw [if_pos (show Malformed row from .inr hblank)]
      simp [hwords]
    · have hwords : Text.words (pattern row) ≠ [] := fun h => hblank (Text.words_eq_nil_iff.1 h)
      rw [if_neg (show ¬ Malformed row from fun h => h.elim (fun h => h hcomma) hblank)]
      simp [hwords, entry]
  · rw [if_neg hcomma, if_neg hcomma, if_pos (show Malformed row from .inl hcomma)]

/-- the trimmed lines that are not left out, each with its number, from number `n` on -/
def rowsFrom (n : Nat) (lines : List (List Char)) : List (List Char × Nat) :=
  ((lines.map Text.trim).zipIdx n).filter fun r => r.1 ≠ [] ∧ r.1.head? ≠ some '#'

/-- the rows of a text with the numbers of their lines, which begin with one -/
def rows (text : String) : List (List Char × Nat) :=
  rowsFrom 1 (Text.lines text.toList)

theorem addLines_eq (d : Dictionary) (n : Nat) (lines : List (List Char)) :
    addLines d n lines =
      match (rowsFrom n lines).find? fun r => Malformed r.1 with
      | some (row, line) => .error ⟨line, faultOf row⟩
      | none => .ok (d.addAll ((rowsFrom n lines).map fun r => entry r.1)) := by
  induction lines generalizing d n with
  | nil => rfl
  | cons line lines ih =>
    have hrows : rowsFrom n (line :: lines) =
        if isSkipped (Text.trim line) = true then rowsFrom (n + 1) lines
        else (Text.trim line, n) :: rowsFrom (n + 1) lines := by
      rw [rowsFrom, List.map_cons, List.zipIdx_cons, List.filter_cons, rowsFrom]
      cases Text.trim line with
      | nil => rfl
      | cons c cs => by_cases hc : c = '#' <;> simp [isSkipped, hc]
    rw [addLines, hrows]
    by_cases hskip : isSkipped (Text.trim line) = true
    · rw [if_pos hskip, if_pos hskip, ih]
    · rw [if_neg hskip, if_neg hskip, parseRow_eq]
      by_cases hrow : Malformed (Text.trim line)
      · simp [hrow]
      · simp [hrow, ih, addAll, add]

/-- **The first payload of a pattern wins.**  A dictionary to which patterns were added knows each with the payload
that it was first added with; exactly these patterns are complete, and exactly their beginnings go on; its size is the
number of different patterns, and an addition tells whether the pattern was new.  A text of rows is malformed if one
of its rows is, by the number of the first such line; otherwise it makes the dictionary of its rows in order. -/
theorem first_wins :
    (∀ (es : List (List String × String)) (ws : List String),
      (ofList es).payload? ws = (es.find? (·.1 = ws)).map Prod.snd ∧
        ((ofList es).isComplete ws = true ↔ ws ∈ es.map Prod.fst) ∧
        ((ofList es).continues ws = true ↔ ws = [] ∨ ∃ e ∈ es, ws <+: e.1) ∧
        (ofList es).size = (es.map Prod.fst).toFinset.card ∧
        ∀ p, ((ofList es).add ws p).1 = true ↔ ws ∉ es.map Prod.fst) ∧
      ∀ text, ofRows text =
        match (rows text).find? fun r => Malformed r.1 with
        | some (row, line) => .error ⟨line, faultOf row⟩
        | none => .ok (ofList ((rows text).map fun r => entry r.1)) := by
  constructor
  · intro es ws
    exact ⟨payload?_ofList es ws, isComplete_ofList es ws, continues_ofList es ws, size_ofList es, add_ofList es ws⟩
  · intro text
    exact addLines_eq empty 1 (Text.lines text.toList)

end Dictionary

end Dialogue
