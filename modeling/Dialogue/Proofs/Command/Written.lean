import Dialogue.Proofs.Command.Stored
import Dialogue.Proofs.Path.Written

/-!
# Commands as text

Every command that was read from a text can be written, and what is written is read as this command again
(`Command.parse_render`), whatever was between the arrow, the braces and the colons of the text.

* `SlotValue.legible_of_parse` — the values;
* `Command.parse_cases` — the two ways in which a command is written;
* `Command.parse_assign` — how the command that stores a value is read from what is written;
* `Command.clauses_intercalate` — the clauses of commands that are joined by semicolons.
-/

namespace Dialogue

open Text

/-- what stands before the first arrow of a text has no arrow -/
theorem Text.isChain_of_cutAt_arrow {cs before after : List Char}
    (h : cutAt ['-', '>'] cs = some (before, after)) : before.IsChain NoArrow := by
  induction cs generalizing before with
  | nil => cases h
  | cons c cs ih =>
    rw [cutAt] at h
    split at h
    · cases h
      exact .nil
    · next hnone =>
      simp only [Option.map_eq_some_iff, Prod.mk.injEq, Prod.exists] at h
      obtain ⟨b, a, hcut, rfl, rfl⟩ := h
      have hb := ih hcut
      cases b with
      | nil => exact .singleton c
      | cons d b =>
        refine .cons_cons ?_ hb
        rintro ⟨rfl, rfl⟩
        rw [eq_append_of_cutAt hcut] at hnone
        simp [dropStart?] at hnone

namespace ScopedPath

theorem text_ne_nil (p : ScopedPath) : p.text.toList ≠ [] := by
  simp [toList_text]

/-- the arrow behind a path is the first one if there is none in the path -/
theorem isChain_text {p : ScopedPath} (h : p.path.chars.IsChain NoArrow) :
    (p.text.toList ++ [' ']).IsChain NoArrow := by
  have hlabel : (p.scope.label.toList ++ [':']).IsChain NoArrow := by
    cases p.scope <;> simp [Scope.label, NoArrow]
  have hpath : (p.path.chars ++ [' ']).IsChain NoArrow := by
    simp [List.isChain_append, h, NoArrow]
  rw [toList_text, List.append_assoc, List.cons_append, ← List.singleton_append, ← List.append_assoc,
    List.isChain_append]
  refine ⟨hlabel, hpath, fun c hc d hd => ?_⟩
  rw [List.getLast?_concat] at hc
  cases hc
  simp [NoArrow]

end ScopedPath

/-! ### Values -/

namespace SlotValue

/-- a value that can be read from what is written for it -/
structure Legible (v : SlotValue) : Prop where
  trim : trim v.text.toList = v.text.toList
  parse : parse v.text.toList = .ok v

/-- the three ways in which a value is written -/
theorem parse_cases {cs : List Char} {v : SlotValue} (h : parse cs = .ok v) :
    (∃ inner source, cs = '\x7b' :: (inner ++ ['\x7d']) ∧ ScopedPath.parse (String.ofList inner) = .ok source ∧
      v = .fetch source) ∨
    (∃ m, Marker.parse? cs = some m ∧ v = .marker m) ∨ v = .literal (.str (String.ofList cs)) := by
  have hplain : parse.plain cs = v → (∃ m, Marker.parse? cs = some m ∧ v = .marker m) ∨
      v = .literal (.str (String.ofList cs)) := by
    rintro rfl
    rw [parse.plain]
    split
    · next m hm => exact .inl ⟨m, hm, rfl⟩
    · exact .inr rfl
  rw [parse.eq_def] at h
  split at h
  · next rest =>
    split at h
    · next hlast =>
      obtain ⟨source, hsource, rfl⟩ := map_eq_ok.1 h
      refine .inl ⟨rest.dropLast, source, ?_, hsource, rfl⟩
      rw [List.dropLast_append_getLast? _ hlast]
    · exact .inr (hplain (Except.ok.inj h))
  · exact .inr (hplain (Except.ok.inj h))

/-- a value that does not end in a brace is a marker or a literal -/
theorem parse_of_getLast? {cs : List Char} (h : cs.getLast? ≠ some '\x7d') : parse cs = .ok (parse.plain cs) := by
  rw [parse.eq_def]
  split
  · next rest =>
    rw [if_neg]
    intro hlast
    cases rest with
    | nil => cases hlast
    | cons c rest => exact h (by rw [List.getLast?_cons_cons, hlast])
  · rfl

theorem legible_fetch {source : ScopedPath} (h : source.Legible) : (fetch source).Legible := by
  have htext : (fetch source).text.toList = '\x7b' :: (source.text.toList ++ ['\x7d']) := by simp [text]
  constructor
  · rw [htext]
    refine trim_eq_self (fun c hc => ?_) fun c hc => ?_
    · cases hc
      rfl
    · rw [← List.cons_append, List.getLast?_concat] at hc
      cases hc
      rfl
  · rw [htext, parse]
    simp only [List.getLast?_concat, if_true, List.dropLast_concat, String.ofList_toList, h.parse_text]
    rfl

/-- a marker is written with the first character that it was read with, and ends in a digit -/
theorem legible_marker {cs : List Char} {m : Marker} (htrim : Text.trim cs = cs) (h : Marker.parse? cs = some m) :
    (marker m).Legible := by
  have hm := Marker.parse?_text h
  obtain ⟨d, hd, hdigit⟩ := Marker.isDigit_getLast hm
  constructor
  · obtain ⟨start, index, n, hne, hcs, htext⟩ := Marker.exists_text h
    have hhead : (marker m).text.toList.head? = cs.head? := by
      rw [show (marker m).text = m.text from rfl, htext, hcs, List.head?_append_of_ne_nil _ hne,
        List.head?_append_of_ne_nil _ hne]
    refine trim_eq_self (fun c hc => isBlank_head?_trim cs c ?_) fun c hc => ?_
    · rwa [htrim, ← hhead]
    · cases hd.symm.trans hc
      exact Number.isBlank_of_isDigit hdigit
  · rw [text, parse_of_getLast?, parse.plain, hm]
    rw [Option.mem_def.1 hd]
    rintro ⟨⟩
    cases hdigit

/-- **A value is read again from what is written.** -/
theorem legible_of_parse {cs : List Char} {v : SlotValue} (htrim : Text.trim cs = cs) (h : parse cs = .ok v) :
    v.Legible := by
  rcases parse_cases h with ⟨inner, source, rfl, hsource, rfl⟩ | ⟨m, hm, rfl⟩ | rfl
  · exact legible_fetch (ScopedPath.exists_of_parse hsource).1
  · exact legible_marker htrim hm
  · have htext : text (.literal (.str (String.ofList cs))) = String.ofList cs := rfl
    constructor
    · rw [htext, String.toList_ofList, htrim]
    · rw [htext, String.toList_ofList, h]

end SlotValue

/-! ### Commands -/

namespace Command

/-- the command that stores a value under a path: to set the name of the active goal is to switch to it -/
def assign (target : ScopedPath) : SlotValue → Command
  | .literal (.str goal) => store target goal
  | value => .set target value

/-- the command that the parser makes of a target and a value -/
theorem ok_assign (target : ScopedPath) (value : SlotValue) :
    (match value with
      | .literal (.str goal) =>
        if target.path = Slots.intentNamePath then return .switchGoal target.scope goal
        else return .set target (.literal (.str goal))
      | value => return .set target value : Except StateError Command) = .ok (assign target value) := by
  split
  · next goal => exact (apply_ite pure _ _ _).symm
  · next hother =>
    rw [assign.eq_def]
    split
    · next goal => exact absurd rfl (hother goal)
    · rfl

theorem render?_assign (target : ScopedPath) (value : SlotValue) :
    (assign target value).render? = some (target.text ++ " -> " ++ value.text) := by
  rw [assign.eq_def]
  split
  · next goal =>
    rw [store]
    split
    · next hname =>
      have htarget : Slots.intentNameIn target.scope = target := by rw [Slots.intentNameIn, ← hname]
      rw [render?, htarget]
      rfl
    · rfl
  · rfl

/-- the two ways in which a command is written -/
theorem parse_cases {text : String} {c : Command} (h : parse text = .ok c) :
    (∃ source target, trim text.toList = '-' :: '!' :: source ∧ ScopedPath.parse (String.ofList source) = .ok target ∧
      c = .remove target) ∨
    ∃ left right target value, trim text.toList = left ++ '-' :: '>' :: right ∧ left.IsChain NoArrow ∧
      ScopedPath.parse (String.ofList left) = .ok target ∧ SlotValue.parse (trim right) = .ok value ∧
      c = assign target value := by
  rw [parse] at h
  split at h
  · next source hsource =>
    obtain ⟨target, htarget, rfl⟩ := map_eq_ok.1 h
    exact .inl ⟨source, target, eq_append_of_dropStart? hsource, htarget, rfl⟩
  · split at h
    · cases h
    · next left right hcut =>
      obtain ⟨target, htarget, h⟩ := bind_eq_ok.1 h
      obtain ⟨value, hvalue, h⟩ := bind_eq_ok.1 h
      refine .inr ⟨left, right, target, value, ?_, isChain_of_cutAt_arrow hcut, htarget, hvalue, ?_⟩
      · rw [eq_append_of_cutAt hcut]
        simp
      · exact (Except.ok.inj ((ok_assign target value).symm.trans h)).symm

theorem toList_assigned (target : ScopedPath) (value : SlotValue) :
    (target.text ++ " -> " ++ value.text).toList =
      target.text.toList ++ ' ' :: '-' :: '>' :: ' ' :: value.text.toList := by
  simp

/-- **The command that stores a value is read from what is written.** -/
theorem parse_assign {target : ScopedPath} {value : SlotValue} (htarget : target.Legible)
    (harrow : target.path.chars.IsChain NoArrow) (hvalue : value.Legible) :
    parse (target.text ++ " -> " ++ value.text) = .ok (assign target value) := by
  obtain ⟨c, cs, hlabel, hc, hdash, -⟩ := target.scope.exists_label
  have htext : target.text.toList = c :: (cs ++ ':' :: target.path.chars) := by
    rw [ScopedPath.toList_text, hlabel, List.cons_append]
  -- an empty value is trimmed off with the white space before it
  have htrim : trim (target.text ++ " -> " ++ value.text).toList =
      target.text.toList ++ [' '] ++ '-' :: '>' :: trimEnd (' ' :: value.text.toList) := by
    have hcut := trim_cons_append hc (d := '>') rfl (cs ++ ':' :: target.path.chars ++ [' ', '-'])
      (' ' :: value.text.toList)
    rw [toList_assigned, htext]
    simpa using hcut
  have hdrop : dropStart? ['-', '!'] (trim (target.text ++ " -> " ++ value.text).toList) = none := by
    rw [htrim, htext]
    exact if_neg (Ne.symm hdash)
  have htarget' : ScopedPath.parse (String.ofList (target.text.toList ++ [' '])) = .ok target := by
    refine ScopedPath.parse_of_trim_eq ?_ htarget.parse_text
    rw [String.toList_ofList, trim_append_space]
  have hvalue' : SlotValue.parse (trim (trimEnd (' ' :: value.text.toList))) = .ok value := by
    rw [trim_trimEnd, trim_space, hvalue.trim, hvalue.parse]
  rw [parse]
  simp only [hdrop]
  rw [htrim, cutAt_arrow (ScopedPath.isChain_text harrow)]
  simp only [htarget', hvalue']
  exact ok_assign target value

/-- **The command that removes a value is read from what is written.** -/
theorem parse_remove {target : ScopedPath} (htarget : target.Legible) :
    parse ("-! " ++ target.text) = .ok (.remove target) := by
  have hlist : ("-! " ++ target.text).toList = '-' :: ['!', ' '] ++ target.text.toList := by simp
  have htrim : trim ("-! " ++ target.text).toList = '-' :: '!' :: ' ' :: target.text.toList := by
    rw [hlist]
    exact trim_append_of_trim_eq rfl ['!', ' '] target.text_ne_nil htarget.trim_text
  have htarget' : ScopedPath.parse (String.ofList (' ' :: target.text.toList)) = .ok target := by
    refine ScopedPath.parse_of_trim_eq ?_ htarget.parse_text
    rw [String.toList_ofList, trim_space]
  rw [parse, htrim]
  simp only [dropStart?, if_true, htarget']
  rfl

theorem parse_trim (text : String) : parse (String.ofList (trim text.toList)) = parse text := by
  rw [parse, parse, String.toList_ofList, trim_trim]

theorem trim_ne_nil_of_parse {text : String} {c : Command} (h : parse text = .ok c) : trim text.toList ≠ [] := by
  intro hnil
  rw [parse, hnil] at h
  cases h

/-- a command that was read can be written, and is read from what is written -/
theorem exists_render {text : String} {c : Command} (h : parse text = .ok c) :
    ∃ r, c.render? = some r ∧ parse r = .ok c := by
  rcases parse_cases h with ⟨source, target, -, htarget, rfl⟩ |
    ⟨left, right, target, value, -, harrow, htarget, hvalue, rfl⟩
  · exact ⟨"-! " ++ target.text, rfl, parse_remove (ScopedPath.exists_of_parse htarget).1⟩
  · have hpart := ScopedPath.part_of_parse htarget
    rw [String.toList_ofList] at hpart
    have hchars := List.IsChain.infix harrow hpart
    exact ⟨target.text ++ " -> " ++ value.text, render?_assign target value,
      parse_assign (ScopedPath.exists_of_parse htarget).1 hchars
        (SlotValue.legible_of_parse (trim_trim right) hvalue)⟩

end Command

/-! ### Semicolons -/

/-- no semicolon comes into a marker by writing it -/
theorem Marker.semicolon_not_mem_text {cs : List Char} {m : Marker} (h : parse? cs = some m) (hcs : ';' ∉ cs) :
    ';' ∉ m.text.toList := by
  obtain ⟨start, index, n, -, rfl, htext⟩ := exists_text h
  have hdigits : ';' ∉ (toString n).toList := by
    rw [Nat.toString_eq_ofList_toDigits, String.toList_ofList]
    exact fun hmem => absurd (List.all_eq_true.1 (Number.all_isDigit_toDigits n) _ hmem) (by decide)
  rw [List.mem_append, not_or] at hcs
  rw [htext, List.mem_append, not_or]
  exact ⟨hcs.1, hdigits⟩

theorem ScopedPath.semicolon_not_mem_text {s : String} {p : ScopedPath} (h : parse s = .ok p) (hs : ';' ∉ s.toList) :
    ';' ∉ p.text.toList := by
  have hlabel : ';' ∉ p.scope.label.toList := by
    cases p.scope <;> decide
  have hchars : ';' ∉ p.path.chars := fun hmem => hs ((part_of_parse h).subset hmem)
  simp [toList_text, hlabel, hchars]

theorem SlotValue.semicolon_not_mem_text {cs : List Char} {v : SlotValue} (h : parse cs = .ok v) (hcs : ';' ∉ cs) :
    ';' ∉ v.text.toList := by
  rcases parse_cases h with ⟨inner, source, rfl, hsource, rfl⟩ | ⟨m, hm, rfl⟩ | rfl
  · have hinner : ';' ∉ inner := fun hmem => hcs (by simp [hmem])
    have htext : ';' ∉ source.text.toList := ScopedPath.semicolon_not_mem_text hsource (by rwa [String.toList_ofList])
    simpa [text] using htext
  · exact Marker.semicolon_not_mem_text hm hcs
  · rwa [text, Node.text, String.toList_ofList]

namespace Command

theorem semicolon_not_mem_render {text r : String} {c : Command} (h : parse text = .ok c) (hr : c.render? = some r)
    (htext : ';' ∉ text.toList) : ';' ∉ r.toList := by
  have htrim : ';' ∉ trim text.toList := fun hmem => htext ((part_trim _).subset hmem)
  rcases parse_cases h with ⟨source, target, hcs, htarget, rfl⟩ |
    ⟨left, right, target, value, hcs, -, htarget, hvalue, rfl⟩
  · rw [hcs] at htrim
    simp only [List.mem_cons, not_or] at htrim
    have htarget := ScopedPath.semicolon_not_mem_text htarget (by simp [htrim])
    cases hr
    simp [htarget]
  · rw [hcs] at htrim
    simp only [List.mem_append, List.mem_cons, not_or] at htrim
    have htarget := ScopedPath.semicolon_not_mem_text htarget (by simp [htrim])
    have hvalue := SlotValue.semicolon_not_mem_text hvalue fun hmem => htrim.2.2.2 ((part_trim _).subset hmem)
    rw [render?_assign, Option.some_inj] at hr
    rw [← hr, toList_assigned]
    simp [htarget, hvalue]

/-- white space before the first piece of a text is not seen when the pieces are trimmed -/
theorem trim_splitBy_space (cs : List Char) :
    (splitBy (· == ';') (' ' :: cs)).map trim = (splitBy (· == ';') cs).map trim := by
  obtain ⟨piece, pieces, hpieces⟩ := List.exists_cons_of_ne_nil (splitBy_ne_nil (· == ';') cs)
  rw [splitBy, if_neg (by decide), hpieces, List.map_cons, trim_space, List.map_cons]

/-- the pieces of joined texts are the texts, but for the white space around them -/
theorem trim_splitBy_intercalate {ws : List (List Char)} (hne : ws ≠ []) (h : ∀ w ∈ ws, ';' ∉ w) :
    (splitBy (· == ';') ([';', ' '].intercalate ws)).map trim = ws.map trim := by
  induction ws with
  | nil => exact absurd rfl hne
  | cons w ws ih =>
    have hw : splitBy (· == ';') w = [w] := by
      refine splitBy_eq_of_none fun c hc => beq_eq_false_iff_ne.2 ?_
      rintro rfl
      exact h w List.mem_cons_self hc
    cases ws with
    | nil => rw [List.intercalate_singleton, hw]
    | cons v ws =>
      have ih := ih (by simp) fun u hu => h u (List.mem_cons_of_mem w hu)
      rw [List.intercalate_cons_cons, List.append_assoc, List.cons_append,
        splitBy_append_cons (p := (· == ';')) (beq_self_eq_true ';'), hw, List.map_append, List.singleton_append,
        trim_splitBy_space, ih]
      rfl

/-- a text that is one clause when it is joined with others -/
def IsClause (r : String) : Prop :=
  ';' ∉ r.toList ∧ trim r.toList ≠ []

theorem clauses_intercalate {rs : List String} (h : ∀ r ∈ rs, IsClause r) :
    clauses ("; ".intercalate rs) = rs.map fun r => String.ofList (trim r.toList) := by
  by_cases hne : rs = []
  · rw [hne]
    rfl
  · have hplain : ∀ w ∈ rs.map String.toList, ';' ∉ w := by simpa using fun r hr => (h r hr).1
    have hpieces := trim_splitBy_intercalate (by simpa using hne) hplain
    have hfilter : ∀ w ∈ (rs.map String.toList).map trim, (!w.isEmpty) = true := by
      simpa using fun r hr => (h r hr).2
    rw [clauses, String.toList_intercalate, show "; ".toList = [';', ' '] from rfl, hpieces,
      List.filter_eq_self.2 hfilter, List.map_map, List.map_map]
    rfl

/-- commands that were read from clauses can be written as clauses, and are read from these -/
theorem exists_renders {ts : List String} {cs : List Command} (h : ts.mapM parse = .ok cs)
    (hplain : ∀ t ∈ ts, ';' ∉ t.toList) :
    ∃ rs, cs.mapM render? = some rs ∧ rs.mapM parse = .ok cs ∧ ∀ r ∈ rs, IsClause r := by
  induction ts generalizing cs with
  | nil =>
    rw [List.mapM_nil, pure_eq_ok] at h
    subst h
    exact ⟨[], rfl, rfl, by simp⟩
  | cons t ts ih =>
    rw [List.mapM_cons] at h
    obtain ⟨c, hc, h⟩ := bind_eq_ok.1 h
    obtain ⟨cs, hcs, h⟩ := bind_eq_ok.1 h
    rw [pure_eq_ok] at h
    subst h
    rw [List.forall_mem_cons] at hplain
    obtain ⟨r, hr, hparse⟩ := exists_render hc
    obtain ⟨rs, hrs, hparses, hclauses⟩ := ih hcs hplain.2
    refine ⟨r :: rs, ?_, ?_, ?_⟩
    · rw [List.mapM_cons, hr, hrs]
      rfl
    · rw [List.mapM_cons, hparse, hparses]
      rfl
    · rw [List.forall_mem_cons]
      exact ⟨⟨semicolon_not_mem_render hc hr hplain.1, trim_ne_nil_of_parse hparse⟩, hclauses⟩

theorem semicolon_not_mem_of_mem_clauses {text clause : String} (h : clause ∈ clauses text) : ';' ∉ clause.toList := by
  obtain ⟨piece, hpiece, rfl⟩ := List.mem_map.1 h
  obtain ⟨cs, hcs, rfl⟩ := List.mem_map.1 (List.mem_filter.1 hpiece).1
  rw [String.toList_ofList]
  exact fun hmem => absurd (not_of_mem_splitBy hcs _ ((part_trim cs).subset hmem)) (by decide)

/-- **Reading and writing commands are inverse on every text that can be read**, as one command, or as many of them
with semicolons between them. -/
theorem parse_render (text : String) :
    (∀ c, parse text = .ok c → ∃ r, c.render? = some r ∧ parse r = .ok c) ∧
      ∀ cs, parseAll text = .ok cs → ∃ rs, cs.mapM render? = some rs ∧ parseAll ("; ".intercalate rs) = .ok cs := by
  refine ⟨fun c h => exists_render h, fun cs h => ?_⟩
  obtain ⟨rs, hrs, hparses, hclauses⟩ := exists_renders h fun t ht => semicolon_not_mem_of_mem_clauses ht
  refine ⟨rs, hrs, ?_⟩
  rw [parseAll, clauses_intercalate hclauses, List.mapM_map]
  simpa only [Function.comp_def, parse_trim] using hparses

def allForms : String :=
  "UTT:/intent.name->buy;-! conv:/p->q;$User:/a:b. c->\x7bx -> WC_7;utt:|l/0->\x7bConv: /x#y\x7d;" ++
    "utt:.n->a_MKR_b_MKR_+3;utt:.m->"

def allForms.commands : List Command :=
  [.switchGoal .utterance "buy",
    .remove ⟨.conversation, ⟨[⟨.map, "p->q"⟩], by decide⟩⟩,
    .put ⟨.user, ⟨[⟨.map, "a:b"⟩, ⟨.str, " c"⟩], by decide⟩⟩ (.str "\x7bx -> WC_7"),
    .copy ⟨.utterance, ⟨[⟨.list, "l"⟩, ⟨.map, "0"⟩], by decide⟩⟩
      ⟨.conversation, ⟨[⟨.map, "x"⟩, ⟨.num, "y"⟩], by decide⟩⟩,
    .set ⟨.utterance, ⟨[⟨.str, "n"⟩], by decide⟩⟩ (.marker (.entity "a_MKR_b" 3)),
    .put ⟨.utterance, ⟨[⟨.str, "m"⟩], by decide⟩⟩ (.str "")]

set_option maxRecDepth 4096 in
theorem parseAll_allForms : parseAll allForms = .ok allForms.commands := by
  rfl

theorem parse_render_allForms :
    (parse " $UTT :/intent.name->buy" = .ok (.switchGoal .utterance "buy") ∧
      ∃ r, (switchGoal .utterance "buy").render? = some r ∧ parse r = .ok (.switchGoal .utterance "buy")) ∧
    parseAll allForms = .ok allForms.commands ∧
      ∃ rs, allForms.commands.mapM render? = some rs ∧ parseAll ("; ".intercalate rs) = .ok allForms.commands :=
  ⟨⟨by rfl, (parse_render " $UTT :/intent.name->buy").1 _ (by rfl)⟩, parseAll_allForms,
    (parse_render allForms).2 _ parseAll_allForms⟩

end Command

end Dialogue
