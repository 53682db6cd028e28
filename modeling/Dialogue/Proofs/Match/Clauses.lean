import Dialogue.Proofs.Command.Stored
import Dialogue.Proofs.Match.Filled

/-!
# Captured text in commands

A payload is filled before it is read as commands.  Whatever was said, the filled text has the clauses of the
payload, and a clause `target -> marker` becomes the command that stores what the marker stands for.

* `MarkerClause payload` — a clause `target -> marker` of a payload;
* `MarkerClause.exists_filled` — what it is filled to;
* `Dictionary.clauses_of_lookup` — so every payload that is found for a reading of a text keeps its clauses, as long
  as no tag has a semicolon and no target has an arrow;
* `Dictionary.not_clauses_of_lookup` — what happens to the other tags and targets.
-/

namespace Dialogue

open Text

/-- a clause `target -> mark` of a payload: what stands before it ends in a semicolon, what stands behind it begins
with one, and between white space `mark` is a word alone, or with this semicolon -/
structure MarkerClause (payload : List Char) where
  before : List Char
  target : List Char
  gap : List Char
  mark : List Char
  tail : List Char
  after : List Char
  payload_eq : payload = before ++ (target ++ ['-', '>'] ++ gap ++ mark ++ tail) ++ after
  before_ends : ∀ c ∈ before.getLast?, c = ';'
  after_starts : ∀ c ∈ after.head?, c = ';'
  gap_ne : gap ≠ []
  gap_blank : ∀ c ∈ gap, isBlank c = true
  tail_blank : ∀ c ∈ tail, isBlank c = true
  mark_solid : ∀ c ∈ mark, isBlank c = false
  mark_plain : ';' ∉ mark
  alone : tail = [] → ∀ rest, after = ';' :: rest → ∀ c ∈ rest.head?, isBlank c = true
  marker : Marker
  parse_mark : Marker.parse? mark = some marker
  target_plain : ';' ∉ target
  unmarked : ∀ w ∈ words target, Marker.parse? w = none
  path : ScopedPath
  parse_target : ScopedPath.parse (spaced ((words target).map String.ofList)) = .ok path

namespace MarkerClause

variable {payload : List Char} (k : MarkerClause payload)

def text : List Char :=
  k.target ++ ['-', '>'] ++ k.gap ++ k.mark ++ k.tail

def index : Nat :=
  k.before.count ';'

theorem getElem?_index : (splitBy (· == ';') payload)[k.index]? = some k.text := by
  have hpiece : ∀ c ∈ k.text, (c == ';') = false := by
    intro c hc
    rw [beq_eq_false_iff_ne]
    rintro rfl
    simp only [text, List.mem_append] at hc
    rcases hc with (((hc | hc) | hc) | hc) | hc
    · exact k.target_plain hc
    · simp at hc
    · exact absurd (k.gap_blank _ hc) (by decide)
    · exact k.mark_plain hc
    · exact absurd (k.tail_blank _ hc) (by decide)
  have hpieces := getElem?_splitBy (fun c hc => beq_iff_eq.2 (k.before_ends c hc)) hpiece
    fun c hc => beq_iff_eq.2 (k.after_starts c hc)
  rw [text, ← k.payload_eq] at hpieces
  exact hpieces

/-! ### The words of the payload -/

/-- the words of the payload are those up to the arrow and those from the mark on -/
theorem words_payload :
    words payload = words (k.before ++ (k.target ++ ['-', '>'])) ++ words (k.mark ++ k.tail ++ k.after) := by
  rw [← words_append_gap k.gap_ne k.gap_blank]
  conv_lhs => rw [k.payload_eq]
  simp only [List.append_assoc]

theorem words_mark : words k.mark = [k.mark] :=
  words_of_not_blank (Marker.ne_nil_of_parse? k.parse_mark) k.mark_solid

theorem words_mark_semicolon : words (k.mark ++ [';']) = [k.mark ++ [';']] := by
  refine words_of_not_blank (by simp) fun c hc => ?_
  rcases List.mem_append.1 hc with hc | hc
  · exact k.mark_solid c hc
  · rw [List.mem_singleton.1 hc]
    rfl

/-- the first word behind a clause begins with a semicolon -/
theorem exists_head_words_after : ∀ w ∈ (words k.after).head?, ∃ cs, w = ';' :: cs := by
  intro w hw
  cases hafter : k.after with
  | nil =>
    rw [hafter] at hw
    cases hw
  | cons c rest =>
    have hc : c = ';' := k.after_starts c (by rw [hafter]; rfl)
    obtain ⟨v, vs, -, hwords⟩ := words_core_append [';'] (by simp) (not_blank_of_all (by decide)) rest
    rw [hafter, hc, ← List.singleton_append, hwords] at hw
    cases hw
    exact ⟨v, rfl⟩

/-- the first word from the mark on is the mark, with the semicolon behind it or without; a word behind a mark
without a semicolon begins with one -/
theorem exists_words_mark :
    ∃ ending rest, words (k.mark ++ k.tail ++ k.after) = (k.mark ++ ending) :: rest ∧
      (ending = [';'] ∨ ending = [] ∧ ∀ w ∈ rest.head?, ∃ cs, w = ';' :: cs) := by
  by_cases htail : k.tail = []
  · cases hafter : k.after with
    | nil =>
      refine ⟨[], [], ?_, .inr ⟨rfl, by simp⟩⟩
      rw [htail, List.append_nil, List.append_nil, k.words_mark]
    | cons c rest =>
      have hc : c = ';' := k.after_starts c (by rw [hafter]; rfl)
      subst hc
      cases rest with
      | nil =>
        refine ⟨[';'], [], ?_, .inl rfl⟩
        rw [htail, List.append_nil, k.words_mark_semicolon]
      | cons s rest =>
        -- the semicolon ends the word, since white space follows it
        refine ⟨[';'], words rest, ?_, .inl rfl⟩
        have happend : k.mark ++ [] ++ ';' :: s :: rest = k.mark ++ [';'] ++ s :: rest := by simp
        rw [htail, happend, words_append_cons (k.alone htail _ hafter s rfl), k.words_mark_semicolon]
        rfl
  · refine ⟨[], words k.after, ?_, .inr ⟨rfl, k.exists_head_words_after⟩⟩
    rw [words_append_gap htail k.tail_blank, k.words_mark, List.append_nil]
    rfl

end MarkerClause

/-! ### Filling a clause -/

section

variable {c : Captures} (hc : c.Phrased)
include hc

/-- the text before a clause keeps its semicolons when it is filled, and where it is glued to the clause only white
space stands between them -/
theorem Captures.exists_before {before clause : List Char} (hbefore : ∀ s ∈ before.getLast?, s = ';')
    (hclause : ∀ w ∈ words clause, c.filled w = w) :
    ∃ filled lead, (∀ s ∈ filled.getLast?, s = ';') ∧ filled.count ';' = before.count ';' ∧
      (∀ s ∈ lead, isBlank s = true) ∧ ∀ rest ≠ [],
        joined ((words (before ++ clause)).map c.filled ++ rest) = filled ++ lead ++ joined (words clause ++ rest) := by
  rcases List.eq_nil_or_concat before with rfl | ⟨before, s, rfl⟩
  · refine ⟨[], [], by simp, rfl, by simp, fun rest _ => ?_⟩
    rw [List.nil_append, List.map_congr_left hclause, List.map_id']
    rfl
  · rw [List.concat_eq_append] at hbefore ⊢
    have hs : s = ';' := hbefore s (by simp)
    subst hs
    obtain ⟨ws, u, v, vs, hws, hvs, hall⟩ :=
      words_around [';'] (by simp) (not_blank_of_all (by decide)) before clause
    obtain ⟨x, hx, hcount, -⟩ := c.filled_of_semicolon hc u v
    have hmap : vs.map c.filled = vs := by
      rw [List.map_congr_left fun w hw => hclause w (hvs ▸ List.mem_append_right _ hw), List.map_id']
    refine ⟨joined (ws.map c.filled ++ [x]) ++ [';'], if v = [] then [' '] else [], by simp, ?_, ?_,
      fun rest hrest => ?_⟩
    · have hbefore : before.count ';' = (ws.map (List.count ';')).sum + u.count ';' := by
        rw [← count_words (by rfl), hws, List.map_append, List.sum_append, count_nonempty]
        rfl
      rw [List.count_append, List.count_append, count_joined (by decide), List.map_append, List.sum_append,
        c.map_count_filled hc, hbefore, ← hcount]
      rfl
    · split <;> simp
      rfl
    · -- the word with the semicolon is divided before and behind it
      have hword : c.filled (u ++ [';'] ++ v) = x ++ ';' :: v := by
        rw [List.append_assoc]
        exact hx
      have hsemicolon : joined ((';' :: v) :: (vs ++ rest)) = [';'] ++ joined (v :: (vs ++ rest)) :=
        joined_glue [] [';'] v (vs ++ rest)
      rw [hall, List.map_append, List.map_cons, hmap, hword, List.append_assoc, List.cons_append, joined_glue,
        hsemicolon, joined_cons_nonempty v (by simp [hrest]), hvs]
      simp only [List.append_assoc]

/-- behind what a mark is filled with, only white space stands before the next semicolon -/
theorem Captures.exists_after (value : List Char) {ending : List Char} {rest : List (List Char)}
    (h : ending = [';'] ∨ ending = [] ∧ ∀ w ∈ rest.head?, ∃ cs, w = ';' :: cs) :
    ∃ tail after, (∀ s ∈ tail, isBlank s = true) ∧ (∀ s ∈ after.head?, s = ';') ∧ ∀ front,
      joined (front ++ (value ++ ending) :: rest.map c.filled) = joined (front ++ [value]) ++ tail ++ after := by
  rcases h with rfl | ⟨rfl, hrest⟩
  · refine ⟨[], ';' :: joined ([] :: rest.map c.filled), by simp, by simp, fun front => ?_⟩
    rw [joined_glue, List.append_nil]
    exact congrArg _ (joined_glue [] [';'] [] (rest.map c.filled))
  · cases rest with
    | nil => exact ⟨[], [], by simp, by simp, fun front => by simp⟩
    | cons w rest =>
      obtain ⟨cs, rfl⟩ := hrest w rfl
      obtain ⟨x, hx, -, hnil⟩ := c.filled_of_semicolon hc [] cs
      rw [hnil rfl] at hx
      refine ⟨[' '], ';' :: joined (cs :: rest.map c.filled), by simp; rfl, by simp, fun front => ?_⟩
      have hfront : front ++ (value ++ []) :: List.map c.filled ((';' :: cs) :: rest) =
          (front ++ [value]) ++ (';' :: cs) :: rest.map c.filled := by
        rw [List.map_cons, ← List.nil_append (';' :: cs), hx]
        simp
      rw [hfront, joined_append (by simp) (by simp), List.append_assoc]
      exact congrArg (fun ds => joined (front ++ [value]) ++ ' ' :: ds) (joined_glue [] [';'] cs (rest.map c.filled))

end

namespace MarkerClause

variable {payload : List Char} (k : MarkerClause payload)

/-- the words up to the arrow with spaces between them: the target, and the arrow behind it -/
theorem exists_target (hk : occursIn ['-', '>'] k.target = false) :
    ∃ target, joined (words (k.target ++ ['-', '>'])) = target ++ ['-', '>'] ∧ target.IsChain NoArrow ∧
      (∀ c ∈ target.head?, isBlank c = false) ∧ ScopedPath.parse (String.ofList target) = .ok k.path ∧
      ';' ∉ target ∧ ∀ w ∈ words (k.target ++ ['-', '>']), ';' ∉ w ∧ Marker.parse? w = none := by
  obtain ⟨ws, u, htarget, harrow⟩ := words_append_core ['-', '>'] (by simp) (not_blank_of_all (by decide)) k.target
  have hwords : ∀ w ∈ ws ++ [u], w = [] ∨ w ∈ words k.target := by
    intro w hw
    by_cases hnil : w = []
    · exact .inl hnil
    · rw [htarget]
      rcases List.mem_append.1 hw with hw | hw
      · exact .inr (List.mem_append_left _ hw)
      · rw [List.mem_singleton.1 hw] at hnil ⊢
        exact .inr (by rw [nonempty_cons hnil]; simp)
  have hsemicolon : ∀ w ∈ ws ++ [u], ';' ∉ w := by
    intro w hw hmem
    rcases hwords w hw with rfl | hw
    · cases hmem
    · exact k.target_plain (mem_of_mem_words hw hmem).1
  have hjoined : joined (words (k.target ++ ['-', '>'])) = joined (ws ++ [u]) ++ ['-', '>'] := by
    rw [harrow, joined_glue, joined_singleton]
  refine ⟨joined (ws ++ [u]), hjoined, isChain_joined fun w hw => ?_, fun c hc => ?_, ?_,
    not_mem_joined (by decide) hsemicolon, fun w hw => ?_⟩
  · rcases hwords w hw with rfl | hw
    · exact .nil
    · exact isChain_of_mem_words (isChain_noArrow hk) hw
  · refine head?_joined_words (k.target ++ ['-', '>']) c ?_
    rw [hjoined]
    exact List.mem_head?_append_of_mem_head? hc
  · refine ScopedPath.parse_of_trim_eq ?_ k.parse_target
    rw [toList_spaced_ofList, String.toList_ofList, htarget, trim_joined_nonempty]
  · rw [harrow] at hw
    rcases List.mem_append.1 hw with hw | hw
    · have hmem : w ∈ words k.target := htarget ▸ List.mem_append_left _ hw
      exact ⟨hsemicolon w (List.mem_append_left _ hw), k.unmarked w hmem⟩
    · -- no marker ends in an arrow
      rw [List.mem_singleton.1 hw]
      refine ⟨?_, ?_⟩
      · simpa using hsemicolon u (by simp)
      · have hlast : u ++ ['-', '>'] = (u ++ ['-']) ++ ['>'] := by simp
        rw [hlast]
        exact Marker.parse?_concat (by decide)

/-- the mark of a clause stands for something if the payload could be filled -/
theorem exists_value {c : Captures} {payload : String} (k : MarkerClause payload.toList)
    (h : ∀ w ∈ words payload.toList, ∃ s, c.fillWord w = .ok s) {ending : List Char} {rest : List (List Char)}
    (hmark : words (k.mark ++ k.tail ++ k.after) = (k.mark ++ ending) :: rest)
    (hending : ending = [] ∨ ending = [';']) :
    ∃ value, c.resolve? k.marker = some value ∧ c.filled (k.mark ++ ending) = value.toList ++ ending := by
  have hmem : k.mark ++ ending ∈ words payload.toList := by
    rw [k.words_payload, hmark]
    simp
  obtain ⟨s, hs⟩ := h _ hmem
  have hfill := Captures.fillWord_marker (c := c) k.parse_mark hending
  cases hv : c.resolve? k.marker with
  | none =>
    simp only [hv, hs] at hfill
    cases hfill
  | some value =>
    simp only [hv] at hfill
    exact ⟨value, rfl, by rw [Captures.filled_eq hfill, String.toList_append, String.toList_ofList]⟩

/-- what a clause is filled to: the command that stores what its mark stands for -/
theorem exists_filled {c : Captures} (hc : c.Phrased) {payload text : String} (k : MarkerClause payload.toList)
    (hk : occursIn ['-', '>'] k.target = false) (h : c.fill payload = .ok text) :
    ∃ value clause, c.resolve? k.marker = some value ∧
      (splitBy (· == ';') text.toList)[k.index]? = some clause ∧
      Command.parse (String.ofList clause) = .ok (Command.store k.path value) := by
  obtain ⟨hall, htext⟩ := Captures.filled_of_fill h
  obtain ⟨ending, rest, hmark, hrest⟩ := k.exists_words_mark
  obtain ⟨target, harrow, hchain, hhead, hparse, htarget, hplain⟩ := k.exists_target hk
  obtain ⟨value, hvalue, hfilled⟩ := k.exists_value hall hmark (hrest.symm.imp_left And.left)
  have hphrase : IsPhrase value := (hc _ _ hvalue).1
  obtain ⟨before, lead, hbefore, hcount, hlead, hfront⟩ := Captures.exists_before hc k.before_ends
    fun w hw => Captures.filled_of_parse?_eq_none (hplain w hw).1 (hplain w hw).2
  obtain ⟨tail, after, htail, hafter, hback⟩ := Captures.exists_after hc value.toList hrest
  -- the filled text is put together around the clause
  have hsplit : text.toList =
      before ++ (lead ++ (target ++ '-' :: '>' :: ' ' :: value.toList) ++ tail) ++ after := by
    have hne : words (k.target ++ ['-', '>']) ≠ [] := by
      intro hnil
      rw [hnil] at harrow
      simp at harrow
    rw [htext, k.words_payload, hmark, List.map_append, List.map_cons, hfilled, hback,
      hfront [value.toList] (by simp), joined_append hne (by simp), harrow, joined_singleton]
    simp
  have hpiece : ∀ s ∈ lead ++ (target ++ '-' :: '>' :: ' ' :: value.toList) ++ tail, (s == ';') = false := by
    intro s hs
    rw [beq_eq_false_iff_ne]
    rintro rfl
    simp only [List.mem_append] at hs
    rcases hs with (hs | hs | hs) | hs
    · exact absurd (hlead _ hs) (by decide)
    · exact htarget hs
    · simp [hphrase.semicolon_not_mem] at hs
    · exact absurd (htail _ hs) (by decide)
  refine ⟨value, _, hvalue, ?_, Command.parse_stored hlead htail hhead hchain hparse hphrase⟩
  rw [hsplit, index, ← hcount]
  exact getElem?_splitBy (fun s hs => beq_iff_eq.2 (hbefore s hs)) hpiece fun s hs => beq_iff_eq.2 (hafter s hs)

end MarkerClause

/-! ### Payloads -/

theorem Captures.length_splitBy_of_fill {c : Captures} (hc : c.Phrased) {payload text : String}
    (h : c.fill payload = .ok text) :
    (splitBy (· == ';') text.toList).length = (splitBy (· == ';') payload.toList).length := by
  obtain ⟨-, htext⟩ := Captures.filled_of_fill h
  have hcount : text.toList.count ';' = payload.toList.count ';' := by
    rw [htext, count_joined (by decide), c.map_count_filled hc, count_words (by rfl)]
  rw [length_splitBy, length_splitBy]
  exact congrArg (· + 1) hcount

/-- **Captured text cannot inject commands.**  For every reading of a text, the payload that is found keeps its
clauses, and each clause `target -> marker` writes the command that stores what the marker stands for, as it stands
and nowhere else.  No tag may have a semicolon, and no target an arrow. -/
theorem Dictionary.clauses_of_lookup {d : Dictionary} {w : Workflow} {es : List Extractor}
    {input payload text : String} {u : Utterance} {m : Match} (hw : w.Extracts es) (hes : ∀ e ∈ es, e.FindsTerms)
    (htags : ∀ e ∈ es, ';' ∉ e.tag.toList) (hu : w.Reads (.parse input) u) (hm : Match.find? d u.tokens = some m)
    (hpayload : d.payload? m.pattern = some payload) (h : d.lookup u = .ok (some text)) :
    (splitBy (· == ';') text.toList).length = (splitBy (· == ';') payload.toList).length ∧
      ∀ k : MarkerClause payload.toList, (splitBy (· == ';') payload.toList)[k.index]? = some k.text ∧
        (occursIn ['-', '>'] k.target = false →
          ∃ value clause, m.captures.resolve? k.marker = some value ∧
            (splitBy (· == ';') text.toList)[k.index]? = some clause ∧
            Command.parse (String.ofList clause) = .ok (Command.store k.path value)) := by
  have hheard : ∀ t ∈ u.tokens, t.Heard :=
    Extractor.heard_of_mem_chain hes htags (Utterance.heard_parse input) ((w.reads_iff hw).1 hu)
  obtain ⟨bs, hcut⟩ := Match.exists_cut hm
  have hc : m.captures.Phrased := fun marker v hv => hcut.isPhrase_of_resolve? hheard hv
  have hfill : m.captures.fill payload = .ok text := by
    obtain ⟨n, hn, hfill⟩ := fill_of_lookup h
    rw [hm] at hn
    cases hn
    rwa [hpayload] at hfill
  exact ⟨Captures.length_splitBy_of_fill hc hfill,
    fun k => ⟨k.getElem?_index, fun hk => k.exists_filled hc hk hfill⟩⟩

/-- a clause between two others, with white space at every place -/
def MarkerClause.whoFlies :
    MarkerClause "utt:/intent.name -> fly; utt:/objects.who  ->  WC_0 ;utt:/objects.to -> city_MKR_0;".toList where
  before := "utt:/intent.name -> fly;".toList
  target := " utt:/objects.who  ".toList
  gap := "  ".toList
  mark := "WC_0".toList
  tail := " ".toList
  after := ";utt:/objects.to -> city_MKR_0;".toList
  payload_eq := by decide
  before_ends := by
    rintro c ⟨⟩
    rfl
  after_starts := by
    rintro c ⟨⟩
    rfl
  gap_ne := by decide
  gap_blank := List.all_eq_true.1 (by decide)
  tail_blank := List.all_eq_true.1 (by decide)
  mark_solid := not_blank_of_all (by decide)
  mark_plain := by decide
  alone := by simp
  marker := .wildcard 0
  parse_mark := by decide
  target_plain := by decide
  unmarked := by decide
  path := ⟨.utterance, ⟨[⟨.map, "objects"⟩, ⟨.str, "who"⟩], by decide⟩⟩
  parse_target := by rfl

/-- what was said looks like two more commands and a value in braces -/
theorem Dictionary.clauses_of_lookup_flight :
    let payload := "utt:/intent.name -> fly; utt:/objects.who  ->  WC_0 ;utt:/objects.to -> city_MKR_0;"
    let d := Dictionary.empty.insert ["fly", "*", "city_MKR"] payload
    let es : List Extractor := [⟨"city", .ofTerms "New York\nRome"⟩]
    let w : Workflow := .basic "plain" es
    let input := "Fly my; -! conv:/intent -> {mother} to NEW  york!"
    let words := ["fly", "my", "conv", "intent", "mother", "to"]
    let u : Utterance := ⟨words.map .literal ++ [.entity "city" "new york"], input⟩
    let text := "utt:/intent.name -> fly; utt:/objects.who -> my conv intent mother to ;utt:/objects.to -> new york;"
    w.Reads (.parse input) u ∧ d.lookup u = .ok (some text) ∧
      ∃ clause, (splitBy (· == ';') text.toList)[1]? = some clause ∧
        Command.parse (String.ofList clause) =
          .ok (.put MarkerClause.whoFlies.path (.str "my conv intent mother to")) := by
  intro payload d es w input words u text
  let m : Match := ⟨["fly", "*", "city_MKR"], ⟨["my conv intent mother to"], [("city", ["new york"])]⟩⟩
  have hextracts : w.Extracts es := Workflow.extracts_basic _ _
  have hu : w.Reads (.parse input) u := (Workflow.reads_iff hextracts).2 (by decide +kernel)
  have hm : Match.find? d u.tokens = some m := by decide
  have hpayload : d.payload? m.pattern = some payload := by decide
  have h : d.lookup u = .ok (some text) := by decide +kernel
  have hes : ∀ e ∈ es, e.FindsTerms := by
    intro e he
    rw [List.mem_singleton.1 he]
    exact ⟨_, rfl⟩
  obtain ⟨value, clause, hvalue, hclause, hparse⟩ :=
    ((clauses_of_lookup hextracts hes (by decide) hu hm hpayload h).2 MarkerClause.whoFlies).2 (by decide)
  cases hvalue
  exact ⟨hu, h, clause, hclause, hparse⟩

/-- a clause whose target has an arrow -/
def MarkerClause.arrowKey : MarkerClause "utt:/objects.a->b -> WC_0".toList where
  before := []
  target := "utt:/objects.a->b ".toList
  gap := " ".toList
  mark := "WC_0".toList
  tail := []
  after := []
  payload_eq := by decide
  before_ends := by simp
  after_starts := by simp
  gap_ne := by decide
  gap_blank := List.all_eq_true.1 (by decide)
  tail_blank := by simp
  mark_solid := not_blank_of_all (by decide)
  mark_plain := by decide
  alone := by simp
  marker := .wildcard 0
  parse_mark := by decide
  target_plain := by decide
  unmarked := by decide
  path := ⟨.utterance, ⟨[⟨.map, "objects"⟩, ⟨.str, "a->b"⟩], by decide⟩⟩
  parse_target := by rfl

/-- A marker whose tag has a semicolon is one word of the payload but ends one of its clauses, so that the text has a
clause less; a target with an arrow is cut at it, so that the rest of the target is stored with what was said. -/
theorem Dictionary.not_clauses_of_lookup :
    (let payload := "utt:/objects.seat -> a;b_MKR_0"
      let d := Dictionary.empty.insert ["hi", "a;b_MKR", "b_MKR"] payload
      let w : Workflow := .basic "plain" [⟨"a;b", .ofTerms "matt"⟩, ⟨"b", .ofTerms "rome"⟩]
      let u : Utterance := ⟨[.literal "hi", .entity "a;b" "matt", .entity "b" "rome"], "hi matt rome"⟩
      let text := "utt:/objects.seat -> matt"
      w.Reads (.parse "hi matt rome") u ∧ d.lookup u = .ok (some text) ∧
        (splitBy (· == ';') payload.toList).length = 2 ∧ (splitBy (· == ';') text.toList).length = 1) ∧
    (let d := Dictionary.empty.insert ["*"] "utt:/objects.a->b -> WC_0"
      let u := Utterance.parse "matt"
      let text := "utt:/objects.a->b -> matt"
      let cut : ScopedPath := ⟨.utterance, ⟨[⟨.map, "objects"⟩, ⟨.str, "a"⟩], by decide⟩⟩
      let k := MarkerClause.arrowKey
      (Workflow.basic "plain").Reads u u ∧ d.lookup u = .ok (some text) ∧
        (splitBy (· == ';') text.toList)[k.index]? = some text.toList ∧
        Command.parse text = .ok (.put cut (.str "b -> matt")) ∧
        Command.parse text ≠ .ok (Command.store k.path "matt")) := by
  refine ⟨⟨?_, ?_, ?_, ?_⟩, ?_, ?_, ?_, ?_, ?_⟩
  · exact (Workflow.reads_iff (Workflow.extracts_basic _ _)).2 (by decide +kernel)
  · decide +kernel
  · decide
  · decide
  · exact ⟨_, rfl, List.mem_singleton_self _⟩
  · decide +kernel
  · decide
  · rfl
  · intro (h : Except.ok (Command.put _ (.str "b -> matt")) = Except.ok (Command.put _ (.str "matt")))
    injection h with h
    injection h with htarget
    exact absurd htarget (by decide)

end Dialogue
