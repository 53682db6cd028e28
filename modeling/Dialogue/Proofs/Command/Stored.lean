import Mathlib.Data.List.Chain
import Dialogue.Command.Basic
import Dialogue.Proofs.Marker
import Dialogue.Proofs.Path.Objects

/-!
# Commands that store a phrase

A text `target -> phrase` whose target is a path and has no arrow writes the command that stores the phrase there as
it stands (`Command.parse_stored`): a phrase is never a marker, and never in braces.
-/

namespace Dialogue

namespace Text

/-! ### Arrows -/

/-- what no two neighbours of a text are if it has no arrow -/
def NoArrow (c d : Char) : Prop := ¬ (c = '-' ∧ d = '>')

theorem dropStart?_arrow {c d : Char} (h : NoArrow c d) (cs : List Char) :
    dropStart? ['-', '>'] (c :: d :: cs) = none := by
  rw [dropStart?]
  split
  · next hc =>
    rw [dropStart?, if_neg fun hd => h ⟨hc.symm, hd.symm⟩]
  · rfl

theorem isChain_noArrow {cs : List Char} (h : occursIn ['-', '>'] cs = false) : cs.IsChain NoArrow := by
  rw [occursIn, Option.isSome_eq_false_iff, Option.isNone_iff_eq_none] at h
  induction cs with
  | nil => exact .nil
  | cons c cs ih =>
    rw [cutAt] at h
    split at h
    · cases h
    · next hnone =>
      have hcs := ih (Option.map_eq_none_iff.1 h)
      cases cs with
      | nil => exact .singleton c
      | cons d cs =>
        refine .cons_cons ?_ hcs
        rintro ⟨rfl, rfl⟩
        simp [dropStart?] at hnone

/-- a text is cut at its first arrow -/
theorem cutAt_arrow {cs : List Char} (h : cs.IsChain NoArrow) (ds : List Char) :
    cutAt ['-', '>'] (cs ++ '-' :: '>' :: ds) = some (cs, ds) := by
  induction cs with
  | nil => simp [cutAt, dropStart?]
  | cons c cs ih =>
    have hstart : dropStart? ['-', '>'] (c :: cs ++ '-' :: '>' :: ds) = none := by
      cases cs with
      | nil => exact dropStart?_arrow (by simp [NoArrow]) _
      | cons d cs => exact dropStart?_arrow (List.isChain_cons_cons.1 h).1 _
    have hcs : cs.IsChain NoArrow := h.tail
    rw [List.cons_append, cutAt, ← List.cons_append, hstart, ih hcs]
    rfl

theorem isChain_joined {ws : List (List Char)} (h : ∀ w ∈ ws, w.IsChain NoArrow) : (joined ws).IsChain NoArrow := by
  induction ws with
  | nil => exact .nil
  | cons w ws ih =>
    have hw := h w List.mem_cons_self
    have hws := ih fun v hv => h v (List.mem_cons_of_mem w hv)
    cases ws with
    | nil => rwa [joined_singleton]
    | cons v ws =>
      rw [joined_cons_cons, List.isChain_append, List.isChain_cons]
      refine ⟨hw, ⟨fun d _ => by simp [NoArrow], hws⟩, fun c _ d hd => ?_⟩
      cases hd
      simp [NoArrow]

theorem isChain_of_mem_words {cs w : List Char} (hcs : cs.IsChain NoArrow) (h : w ∈ words cs) : w.IsChain NoArrow := by
  obtain ⟨before, after, rfl⟩ := part_of_mem_splitBy (List.mem_filter.1 h).1
  exact hcs.left_of_append.right_of_append

/-! ### The ends of a text -/

theorem trim_cons {c : Char} (hc : isBlank c = false) (cs : List Char) : ∃ ds, trim (c :: cs) = c :: ds := by
  have hstart : (c :: cs).dropWhile isBlank = c :: cs := List.dropWhile_cons_of_neg (by simp [hc])
  refine ⟨(cs.reverse.dropWhile isBlank).reverse, ?_⟩
  rw [trim, hstart, List.reverse_cons, dropWhile_append_of_not hc, List.reverse_append]
  rfl

end Text

open Text

/-! ### Targets -/

theorem Scope.ne_dash_of_parse {label : String} {s : Scope} (h : parse label = .ok s) :
    ∀ cs, label.toList ≠ '-' :: cs := by
  intro cs hcs
  obtain ⟨ds, hds⟩ := trim_cons (c := '-') rfl cs
  have hbare : (dropStart? ['$'] (trim label.toList)).getD (trim label.toList) = '-' :: ds := by
    rw [hcs, hds]
    rfl
  rw [parse] at h
  simp only [hbare] at h
  rw [if_neg (by simp [lowerAscii]), if_neg (by simp [lowerAscii]), if_neg (by simp [lowerAscii])] at h
  cases h

namespace ScopedPath

/-- white space around a path is not read -/
theorem parse_of_trim_eq {s t : String} {p : ScopedPath} (h : trim s.toList = trim t.toList) (hp : parse s = .ok p) :
    parse t = .ok p := by
  rw [parse, h] at hp
  rw [parse]
  split at hp
  · cases hp
  · exact hp

theorem trim_ne_dash_of_parse {s : String} {p : ScopedPath} (h : parse s = .ok p) :
    ∀ cs, trim s.toList ≠ '-' :: cs := by
  intro cs hcs
  rw [parse, hcs] at h
  split at h
  · cases h
  · next label expression hcut =>
    obtain ⟨scope, hscope, -⟩ := bind_eq_ok.1 h
    have happend := eq_append_of_cutAt hcut
    cases label with
    | nil => simp at happend
    | cons c label =>
      obtain ⟨rfl, -⟩ := List.cons.inj happend
      exact Scope.ne_dash_of_parse hscope label (String.toList_ofList)

end ScopedPath

/-! ### Values -/

theorem Marker.parse?_phrase {s : String} (h : IsPhrase s) : Marker.parse? s.toList = none :=
  parse?_of_not_isCapital fun _ hc => h.not_isCapital hc

theorem SlotValue.parse_phrase {s : String} (h : IsPhrase s) : parse s.toList = .ok (.literal (.str s)) := by
  have hplain : parse.plain s.toList = .literal (.str s) := by
    rw [parse.plain, Marker.parse?_phrase h]
    simp
  have hbrace : '\x7b' ∉ s.toList := h.not_mem (by decide) (by decide) (by decide)
  rw [parse.eq_def]
  split
  · next rest hs => exact absurd (hs ▸ List.mem_cons_self) hbrace
  · rw [hplain]

namespace Text

variable {phrase : String}

/-- the blank behind an arrow is not part of what is stored -/
theorem IsPhrase.trim_cons_blank (h : IsPhrase phrase) : trim (' ' :: phrase.toList) = phrase.toList := by
  have hspace : trim ([' '] ++ phrase.toList ++ []) = trim phrase.toList :=
    trim_around (by simp; rfl) (by simp) phrase.toList
  rwa [List.append_nil, List.singleton_append, h.trim_eq] at hspace

/-- a text that ends with a phrase is trimmed if it begins with no white space -/
theorem IsPhrase.trim_append (h : IsPhrase phrase) {cs : List Char} (hhead : ∀ c ∈ cs.head?, isBlank c = false)
    (hne : cs ≠ []) : trim (cs ++ phrase.toList) = cs ++ phrase.toList := by
  refine trim_eq_self (fun c hc => ?_) fun c hc => ?_
  · rw [List.head?_append_of_ne_nil cs hne] at hc
    exact hhead c hc
  · rw [List.getLast?_append_of_ne_nil _ h.ne_nil] at hc
    exact (h.getLast_eq c hc).isBlank_eq_false

end Text

namespace Command

/-- the command that stores a text under a path: to set the name of the active goal is to switch to it -/
def store (target : ScopedPath) (text : String) : Command :=
  if target.path = Slots.intentNamePath then .switchGoal target.scope text else .put target (.str text)

/-- a path does not begin with a dash, so a clause with a path before its arrow is no removal -/
theorem dropStart?_remove_of_parse {target : List Char} {p : ScopedPath}
    (hp : ScopedPath.parse (String.ofList target) = .ok p) (hhead : ∀ c ∈ target.head?, isBlank c = false)
    (cs : List Char) : dropStart? ['-', '!'] (target ++ '-' :: '>' :: cs) = none := by
  cases target with
  | nil => rfl
  | cons c target =>
    have hc : '-' ≠ c := by
      rintro rfl
      obtain ⟨ds, hds⟩ := trim_cons (hhead _ rfl) target
      exact ScopedPath.trim_ne_dash_of_parse hp ds (by rw [String.toList_ofList, hds])
    rw [List.cons_append, dropStart?, if_neg hc]

/-- **A phrase behind an arrow is stored as it stands**, whatever its words are. -/
theorem parse_stored {lead target tail : List Char} {p : ScopedPath} {phrase : String}
    (hlead : ∀ c ∈ lead, isBlank c = true) (htail : ∀ c ∈ tail, isBlank c = true)
    (hhead : ∀ c ∈ target.head?, isBlank c = false) (harrow : target.IsChain NoArrow)
    (hp : ScopedPath.parse (String.ofList target) = .ok p) (hphrase : IsPhrase phrase) :
    parse (String.ofList (lead ++ (target ++ '-' :: '>' :: ' ' :: phrase.toList) ++ tail)) = .ok (store p phrase) := by
  -- nothing but the white space around the clause is trimmed off
  have htrim : trim (lead ++ (target ++ '-' :: '>' :: ' ' :: phrase.toList) ++ tail) =
      target ++ '-' :: '>' :: ' ' :: phrase.toList := by
    have hclause : target ++ '-' :: '>' :: ' ' :: phrase.toList = (target ++ ['-', '>', ' ']) ++ phrase.toList := by
      simp
    rw [trim_around hlead htail, hclause]
    refine hphrase.trim_append (fun c hc => ?_) (by simp)
    cases target with
    | nil =>
      cases hc
      rfl
    | cons d target => exact hhead c hc
  have hdrop := dropStart?_remove_of_parse hp hhead (' ' :: phrase.toList)
  rw [parse, String.toList_ofList, htrim]
  simp only [hdrop, cutAt_arrow harrow, hphrase.trim_cons_blank, hp, SlotValue.parse_phrase hphrase]
  by_cases hname : p.path = Slots.intentNamePath
  · rw [store, if_pos hname]
    exact if_pos hname
  · rw [store, if_neg hname]
    exact if_neg hname

end Command

end Dialogue
