import Dialogue.Proofs.Path.Written

/-!
# The grammar of paths

A path is written as a sigil and a key, again and again; a key is not empty and holds no sigil, and only the last
sigil is that of a scalar.

* `WrittenPath` — the texts of this form;
* `Path.segmentsFrom_chars` — segments are read from what is written, if there is no sigil in their keys;
* `Path.exists_parse_iff` — the texts that are read as paths are those of this form, with white space around them;
* `Path.join_eq_parse` — to join two paths is to read what is written of both.
-/

namespace Dialogue

open Text

/-- a key in a path: it is not empty, and no sigil is in it -/
def IsKey (key : List Char) : Prop :=
  key ≠ [] ∧ ∀ c ∈ key, Sigil.ofChar? c = none

/-- the texts of the form sigil, key, sigil, key, …, with the sigil of a scalar before the last key only -/
inductive WrittenPath : List Char → Prop
  | last (s : Sigil) {key : List Char} (hkey : IsKey key) : WrittenPath (s.char :: key)
  | cons {s : Sigil} {key rest : List Char} (hs : s.isScalar = false) (hkey : IsKey key) (h : WrittenPath rest) :
    WrittenPath (s.char :: key ++ rest)

/-- no sigil is in the key of a segment -/
def Segment.Clear (s : Segment) : Prop :=
  ∀ c ∈ s.key.toList, Sigil.ofChar? c = none

/-- no sigil is in the keys of a path, and its last key does not end in white space -/
structure Path.Clear (p : Path) : Prop where
  keys : ∀ s ∈ p.segments, s.Clear
  trim : trim p.chars = p.chars

/-- the paths that are read, and those that are joined from them -/
inductive Path.Obtained : Path → Prop
  | parse {t : String} {p : Path} (h : Path.parse t = .ok p) : Obtained p
  | join {p q r : Path} (hp : Obtained p) (hq : Obtained q) (h : p.join q = .ok r) : Obtained r

theorem Segment.isKey_iff {s : Segment} : IsKey s.key.toList ↔ s.key ≠ "" ∧ s.Clear := by
  have hempty : s.key.toList = [] ↔ s.key = "" := String.toList_eq_nil_iff
  unfold IsKey Segment.Clear
  rw [Ne, hempty]

namespace Path

/-! ### Segments -/

/-- the characters of a key are read as they are -/
theorem segmentsFrom_append {cs : List Char} (h : ∀ c ∈ cs, Sigil.ofChar? c = none) (sigil : Sigil)
    (key rest : List Char) : segmentsFrom sigil key (cs ++ rest) = segmentsFrom sigil (key ++ cs) rest := by
  induction cs generalizing key with
  | nil => simp
  | cons c cs ih =>
    have hc : Sigil.ofChar? c = none := h c List.mem_cons_self
    have hcs := ih (fun d hd => h d (List.mem_cons_of_mem c hd)) (key ++ [c])
    rw [List.cons_append, segmentsFrom, hc]
    simpa using hcs

/-- **Segments are read from what is written**, if there is no sigil in their keys. -/
theorem segmentsFrom_chars {s : Segment} {ss : List Segment} (hs : s.Clear) (hss : ∀ t ∈ ss, t.Clear) :
    segmentsFrom s.sigil [] (s.key.toList ++ ss.flatMap Segment.chars) = s :: ss := by
  induction ss generalizing s with
  | nil =>
    have happend := segmentsFrom_append hs s.sigil [] []
    simpa [segmentsFrom] using happend
  | cons t ts ih =>
    rw [List.forall_mem_cons] at hss
    have hrest : (t :: ts).flatMap Segment.chars = t.sigil.char :: (t.key.toList ++ ts.flatMap Segment.chars) := rfl
    rw [hrest, segmentsFrom_append hs, segmentsFrom, Sigil.ofChar?_char]
    simp only [List.nil_append, String.ofList_toList]
    rw [ih hss.1 hss.2]

theorem clear_of_mem_segmentsFrom {sigil : Sigil} {key cs : List Char} (hkey : ∀ c ∈ key, Sigil.ofChar? c = none)
    {s : Segment} (h : s ∈ segmentsFrom sigil key cs) : s.Clear := by
  induction cs generalizing sigil key with
  | nil =>
    rw [segmentsFrom, List.mem_singleton] at h
    subst h
    unfold Segment.Clear
    simpa using hkey
  | cons c cs ih =>
    rw [segmentsFrom] at h
    split at h
    · rw [List.mem_cons] at h
      rcases h with rfl | h
      · unfold Segment.Clear
        simpa using hkey
      · exact ih (by simp) h
    · next hc =>
      refine ih (fun d hd => ?_) h
      rw [List.mem_append, List.mem_singleton] at hd
      rcases hd with hd | rfl
      · exact hkey d hd
      · exact hc

/-- what is written of segments without a fault has the form of a path -/
theorem writtenPath_of_segments {ss : List Segment} (hne : ss ≠ []) (hkeys : ∀ s ∈ ss, IsKey s.key.toList)
    (hinner : ∀ s ∈ ss.dropLast, s.sigil.isScalar = false) : WrittenPath (ss.flatMap Segment.chars) := by
  induction ss with
  | nil => exact absurd rfl hne
  | cons s ss ih =>
    have hkey := hkeys s List.mem_cons_self
    cases ss with
    | nil =>
      rw [List.flatMap_cons, List.flatMap_nil, List.append_nil]
      exact .last s.sigil hkey
    | cons t ts =>
      rw [List.dropLast_cons_cons, List.forall_mem_cons] at hinner
      have hrest := ih (by simp) (fun u hu => hkeys u (List.mem_cons_of_mem s hu)) hinner.2
      exact .cons hinner.1 hkey hrest

/-- a text that has the form of a path is written of segments without a fault -/
theorem exists_segments {cs : List Char} (h : WrittenPath cs) :
    ∃ ss : List Segment, cs = ss.flatMap Segment.chars ∧ ss ≠ [] ∧ (∀ s ∈ ss, IsKey s.key.toList) ∧
      ∀ s ∈ ss.dropLast, s.sigil.isScalar = false := by
  induction h with
  | @last s key hkey =>
    refine ⟨[⟨s, String.ofList key⟩], ?_, by simp, ?_, by simp⟩
    · simp [Segment.chars]
    · simpa using hkey
  | @cons s key rest hs hkey _ ih =>
    obtain ⟨ss, rfl, hne, hkeys, hinner⟩ := ih
    refine ⟨⟨s, String.ofList key⟩ :: ss, ?_, by simp, ?_, ?_⟩
    · simp [Segment.chars]
    · rw [List.forall_mem_cons]
      refine ⟨?_, hkeys⟩
      simpa using hkey
    · rw [List.dropLast_cons_of_ne_nil hne, List.forall_mem_cons]
      exact ⟨hs, hinner⟩

/-! ### Paths -/

/-- what is read from segments that were written, of whatever paths they come from -/
theorem parse_of_chars {t : String} {ss : List Segment} (hne : ss ≠ []) (hclear : ∀ s ∈ ss, s.Clear)
    (ht : trim t.toList = ss.flatMap Segment.chars) :
    parse t = (ofSegments ss).mapError (.malformedPath t) := by
  cases ss with
  | nil => exact absurd rfl hne
  | cons s ss =>
    rw [List.forall_mem_cons] at hclear
    have hchars : (s :: ss).flatMap Segment.chars = s.sigil.char :: (s.key.toList ++ ss.flatMap Segment.chars) := rfl
    rw [parse, parseChars, ht, hchars]
    simp only [Sigil.ofChar?_char, segmentsFrom_chars hclear.1 hclear.2]

theorem clear_of_parse {t : String} {p : Path} (h : parse t = .ok p) : p.Clear := by
  constructor
  · intro s hs
    rw [parse, mapError_eq_ok, parseChars] at h
    split at h
    · cases h
    · split at h
      · rw [ofSegments_eq_ok.1 h] at hs
        exact clear_of_mem_segmentsFrom (by simp) hs
      · cases h
  · rw [chars_of_parse h, trim_trim]

theorem isKey_of_clear {p : Path} (h : p.Clear) {s : Segment} (hs : s ∈ p.segments) : IsKey s.key.toList :=
  Segment.isKey_iff.2 ⟨(PathFault.ofSegments?_eq_none_iff.1 p.sound).2.1 s hs, h.keys s hs⟩

theorem chars_ne_nil (p : Path) : p.chars ≠ [] := by
  obtain ⟨s, ss, hss⟩ := List.exists_cons_of_ne_nil p.segments_ne_nil
  simp [chars, hss, Segment.chars]

/-- what is written of two paths has no white space around it -/
theorem trim_chars_append {p q : Path} (hq : q.Clear) : trim (p.chars ++ q.chars) = p.chars ++ q.chars := by
  obtain ⟨s, ss, hss⟩ := List.exists_cons_of_ne_nil p.segments_ne_nil
  have hp : p.chars = s.sigil.char :: (s.key.toList ++ ss.flatMap Segment.chars) := by
    rw [chars, hss]
    rfl
  rw [hp]
  exact trim_append_of_trim_eq (Sigil.isBlank_char s.sigil) _ q.chars_ne_nil hq.trim

/-- **The texts that are read as paths** are those that have the form of a path, but for the white space around
them. -/
theorem exists_parse_iff {t : String} : (∃ p, parse t = .ok p) ↔ WrittenPath (trim t.toList) := by
  constructor
  · rintro ⟨p, h⟩
    have hclear := clear_of_parse h
    rw [← chars_of_parse h]
    exact writtenPath_of_segments p.segments_ne_nil (fun s hs => isKey_of_clear hclear hs)
      fun s hs => isScalar_of_mem_inner hs
  · intro h
    obtain ⟨ss, hchars, hne, hkeys, hinner⟩ := exists_segments h
    have hsound : PathFault.ofSegments? ss = none :=
      PathFault.ofSegments?_eq_none_iff.2 ⟨hne, fun s hs => (Segment.isKey_iff.1 (hkeys s hs)).1, hinner⟩
    refine ⟨⟨ss, hsound⟩, ?_⟩
    rw [parse_of_chars hne (fun s hs => (Segment.isKey_iff.1 (hkeys s hs)).2) hchars, mapError_eq_ok,
      ofSegments_eq_ok]

/-- **To join two paths is to read what is written of both**, with the same fault if there is one. -/
theorem join_eq_parse {p q : Path} (hp : p.Clear) (hq : q.Clear) : p.join q = parse (p.text ++ q.text) := by
  have hclear : ∀ s ∈ p.segments ++ q.segments, s.Clear := by
    intro s hs
    rw [List.mem_append] at hs
    rcases hs with hs | hs
    · exact hp.keys s hs
    · exact hq.keys s hs
  have hchars : trim (p.text ++ q.text).toList = (p.segments ++ q.segments).flatMap Segment.chars := by
    have htoList : (p.text ++ q.text).toList = p.chars ++ q.chars := by simp [text]
    rw [htoList, trim_chars_append hq, List.flatMap_append]
    rfl
  have hne : p.segments ++ q.segments ≠ [] := by simp [p.segments_ne_nil]
  rw [parse_of_chars hne hclear hchars]
  rfl

namespace Obtained

/-- a path that is joined from paths that were read is read from what is written of them -/
theorem exists_parse {p : Path} (h : p.Obtained) : ∃ t, Path.parse t = .ok p := by
  induction h with
  | parse h => exact ⟨_, h⟩
  | join _ _ h ihp ihq =>
    obtain ⟨_, hp⟩ := ihp
    obtain ⟨_, hq⟩ := ihq
    exact ⟨_, (join_eq_parse (clear_of_parse hp) (clear_of_parse hq)).symm.trans h⟩

theorem clear {p : Path} (h : p.Obtained) : p.Clear := by
  obtain ⟨t, ht⟩ := h.exists_parse
  exact clear_of_parse ht

theorem legible {p : Path} (h : p.Obtained) (scope : Scope) : (ScopedPath.mk scope p).Legible := by
  obtain ⟨t, ht⟩ := h.exists_parse
  exact parse_text ht

end Obtained

/-- **Reading and joining paths follow their grammar and lose nothing.**  What is read is written again without the
white space around it; paths that were read or joined are joined as their texts are, and are read from their texts,
with a scope or without. -/
theorem parse_and_join :
    (∀ t : String, ((∃ p, parse t = .ok p) ↔ WrittenPath (trim t.toList)) ∧
      ∀ p, parse t = .ok p → p.text = String.ofList (trim t.toList) ∧ 1 ≤ p.segments.length) ∧
    ∀ p : Path, p.Obtained →
      (∀ q : Path, q.Obtained → p.join q = parse (p.text ++ q.text)) ∧ parse p.text = .ok p ∧
        ∀ scope, ScopedPath.parse (ScopedPath.mk scope p).text = .ok ⟨scope, p⟩ := by
  refine ⟨fun t => ⟨exists_parse_iff, fun p h => ⟨?_, ?_⟩⟩, fun p hp => ⟨fun q hq => ?_, ?_, fun scope => ?_⟩⟩
  · rw [text, chars_of_parse h]
  · have hne := p.segments_ne_nil
    rw [← List.length_pos_iff] at hne
    omega
  · exact join_eq_parse hp.clear hq.clear
  · exact hp.legible .user
  · exact (hp.legible scope).parse_text

/-- keys with white space, a colon and digits; a path that ends in a scalar, which no other path can be joined to -/
theorem parse_and_join_spaced :
    ∃ p q : Path, parse " /a b: 0|1 " = .ok p ∧ p.text = "/a b: 0|1" ∧ parse ".x  " = .ok q ∧
      p.join q = parse (p.text ++ q.text) ∧ (∃ r, p.join q = .ok r) ∧
      q.join p = parse (q.text ++ p.text) ∧ (∀ r, q.join p ≠ .ok r) ∧
      ScopedPath.parse (ScopedPath.mk .user p).text = .ok ⟨.user, p⟩ := by
  have hp : parse " /a b: 0|1 " = .ok ⟨[⟨.map, "a b: 0"⟩, ⟨.list, "1"⟩], by decide⟩ := by rfl
  have hq : parse ".x  " = .ok ⟨[⟨.str, "x"⟩], by decide⟩ := by rfl
  have hread := (parse_and_join.1 " /a b: 0|1 ").2 _ hp
  have hpjoin := parse_and_join.2 _ (.parse hp)
  have hqjoin := parse_and_join.2 _ (.parse hq)
  refine ⟨_, _, hp, hread.1.trans (by rfl), hq, hpjoin.1 _ (.parse hq), ?_, hqjoin.1 _ (.parse hp), ?_,
    hpjoin.2.2 .user⟩
  · exact ⟨⟨[⟨.map, "a b: 0"⟩, ⟨.list, "1"⟩, ⟨.str, "x"⟩], by decide⟩, by rfl⟩
  · intro r h
    cases h

end Path

end Dialogue
