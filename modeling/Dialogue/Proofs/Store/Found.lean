import Dialogue.Proofs.Store.Beside
import Dialogue.Proofs.Store.Commute

/-!
# What is found where a text was written

A text that is written is not always found at the same path as it stands: the path says of which kind the value there
is, and an index past the end of a list names another slot once the list has grown.

* `Node.readFrom_along_of_within`: what was changed is found again, unless an index was past the end of its list;
* `Store.read_of_write`: what is found where a value was written;
* `Snapshot.get_of_put_text`: what is found where a text was put, kind by kind;
* `Snapshot.get_congr`: what is read is the same wherever the same is under the first keys of a path.
-/

namespace Dialogue

namespace Node

open Store

variable {path q : Path} {s t : Segment} {ss ts pre : List Segment} {v v' w c : Node} {slot : Slot}

instance decidableAdmits : (v : Node) → (s : Segment) → Decidable (v.Admits s)
  | .list vs, s =>
    match h : s.index? with
    | some n => decidable_of_iff (n ≤ vs.length) (by simp [Admits, h])
    | none => isTrue (by simp [Admits, h])
  | .map _, _ | .bool _, _ | .num _, _ | .str _, _ => isTrue trivial

instance decidableWithin : (v : Node) → (ss : List Segment) → Decidable (v.Within ss)
  | _, [] => isTrue trivial
  | v, s :: ss =>
    have := decidableWithin (v.enter s) ss
    inferInstanceAs (Decidable (v.Admits s ∧ (v.enter s).Within ss))

theorem within_append : v.Within (ss ++ ts) ↔ v.Within ss ∧ (v.reach ss).Within ts := by
  induction ss generalizing v with
  | nil => simp [Within, reach]
  | cons s ss ih => simp only [List.cons_append, Within, ih, and_assoc, reach, List.foldl_cons]

/-! ### One step -/

theorem readFrom_setChild_self (hslot : v.slot? s = some slot) (hs : v.Admits s) (hw : w.sigil = s.sigil) :
    readFrom q (s :: ts) (v.setChild slot w) = readFrom q ts w := by
  have hslot' : (v.setChild slot w).slot? s = some slot := by rw [slot?_setChild, hslot]
  exact readFrom_cons (behind?_eq_some.2 ⟨slot, hslot', (setChild_of_admits hslot hs w w).1⟩) hw

/-- at an index past the end nothing is found, although the list has grown by what was put there -/
theorem readFrom_setChild_of_not_admits (hslot : v.slot? s = some slot) (hs : ¬ v.Admits s) (w : Node) :
    readFrom q (s :: ts) (v.setChild slot w) = .ok none := by
  cases v with
  | list vs =>
    obtain ⟨n, hn, rfl⟩ := Option.map_eq_some_iff.1 hslot
    have hlt : vs.length < n := by
      by_contra hle
      refine hs fun m hm => ?_
      rw [hn] at hm
      cases hm
      omega
    have hset : setChild (.list vs) (.index n) w = .list (vs ++ [w]) := by
      rw [setChild, if_neg (by omega)]
    have hslot' : (Node.list (vs ++ [w])).slot? s = some (.index n) := by
      rw [slot?, hn]
      rfl
    rw [hset]
    refine readFrom_cons_of_none hslot' (List.getElem?_eq_none ?_)
    rw [List.length_append, List.length_singleton]
    omega
  | _ => exact absurd trivial hs

/-! ### The whole way -/

/-- **What was changed is found again**, unless an index was past the end of its list: then nothing is found. -/
theorem readFrom_along_of_within {f : Node → Except StateError Node} (hf : ∀ c c', f c = .ok c' → c'.sigil = c.sigil)
    (hss : ∀ s ∈ ss, s.sigil.isScalar = false) (h : along path f ss v = .ok v') :
    ∃ c', f (v.reach ss) = .ok c' ∧ ∀ q ts,
      readFrom q (ss ++ ts) v' = if v.Within ss then readFrom q ts c' else .ok none := by
  induction ss generalizing v v' with
  | nil => exact ⟨v', h, fun q ts => (if_pos trivial).symm⟩
  | cons s ss ih =>
    rw [List.forall_mem_cons] at hss
    obtain ⟨slot, child, hslot, hshape, halong, rfl⟩ := along_cons h
    obtain ⟨c', hc', hread⟩ := ih hss.2 halong
    have hchild : child.sigil = s.sigil := (sigil_along hf halong).trans (sigil_enter hss.1 hslot hshape)
    refine ⟨c', hc', fun q ts => ?_⟩
    rw [List.cons_append]
    by_cases hs : v.Admits s
    · rw [readFrom_setChild_self hslot hs hchild, hread]
      simp only [Within, hs, true_and]
    · rw [readFrom_setChild_of_not_admits hslot hs, if_neg fun hwithin => hs hwithin.1]

/-- a reading goes through the maps that are under the keys of its way -/
theorem readFrom_of_under?_map (hpre : ∀ u ∈ pre, u.sigil = .map) (hv : under? (pre.map Segment.key) v = some c)
    (hc : c.sigil = .map) (q : Path) (ts : List Segment) : readFrom q (pre ++ ts) v = readFrom q ts c := by
  induction pre generalizing v with
  | nil =>
    cases hv
    rfl
  | cons u pre ih =>
    rw [List.forall_mem_cons] at hpre
    obtain ⟨d, hd, hrest⟩ := Option.bind_eq_some_iff.1 hv
    have hvmap : v.sigil = .map := sigil_of_child?_key hd
    have hdmap : d.sigil = .map := by
      cases pre with
      | nil =>
        cases hrest
        exact hc
      | cons x xs => exact sigil_of_under?_cons hrest
    have hbehind : v.behind? u = some d := by rw [behind?_of_map hvmap, hd]
    rw [List.cons_append, readFrom_cons hbehind (hdmap.trans hpre.1.symm)]
    exact ih hpre.2 hrest

/-- two maps with the same under a key are read in the same way along that key -/
theorem readFrom_congr_of_child? (hv : v.sigil = .map) (hv' : v'.sigil = .map)
    (h : v'.child? (.key t.key) = v.child? (.key t.key)) : readFrom q (t :: ts) v' = readFrom q (t :: ts) v := by
  refine readFrom_congr ?_ fun slot hslot => ?_
  · rw [slot_of_map hv q t, slot_of_map hv' q t]
  · rw [slot?_of_map hv] at hslot
    cases hslot
    exact h

/-! ### Texts -/

/-- the value that a text becomes where it is written, if it can be written there: a scalar of the kind of the path, or
one more item of a list -/
def ofText? (kind : Sigil) (old : Option Node) (text : String) : Option Node :=
  match kind with
  | .str => some (.str text)
  | .num => (Number.readFloat? (Text.trim text.toList)).map .num
  | .bool => some (.bool (Text.lowerAscii (Text.trim text.toList) = "true".toList))
  | .list => some ((Node.str text).listWith old)
  | .map => none

theorem ofText?_of_coerce {kind : Sigil} {text : String} (h : coerce kind (.str text) = .ok w) (old : Option Node) :
    ofText? kind old text = some w := by
  cases kind with
  | str =>
    cases h
    rfl
  | bool =>
    cases h
    rfl
  | num =>
    simp only [coerce] at h
    split at h
    · next x hx =>
      cases h
      rw [ofText?, hx]
      rfl
    · cases h
  | list => cases h
  | map => cases h

theorem ofText?_of_leafValue {old : Option Node} {text : String}
    (h : leafValue path old (some (.str text)) = .ok (some w)) : ofText? path.leaf.sigil old text = some w := by
  have hscalar (hs : path.leaf.sigil.isScalar = true) : ofText? path.leaf.sigil old text = some w := by
    rw [leafValue_of_isScalar hs, map_eq_ok] at h
    obtain ⟨x, hx, he⟩ := h
    cases he
    exact ofText?_of_coerce hx old
  cases hs : path.leaf.sigil with
  | map =>
    unfold leafValue at h
    rw [hs] at h
    cases h
  | list => exact (leafValue_list_some hs h).2.symm
  | str | num | bool =>
    rw [← hs]
    exact hscalar (by rw [hs]; rfl)

end Node

namespace Store

open Node

variable {s s' : Store} {p : Path} {v : Node}

/-- **What is found where a value was written**: the value that was made of it there, unless an index on the path was
past the end of its list. -/
theorem read_of_write (h : s.write p (some v) = .ok s') :
    ∃ old w, leafValue p old (some v) = .ok (some w) ∧
      ((∀ u, old = some u → u.sigil = p.leaf.sigil) → s.read p = .ok old) ∧
      s'.read p = .ok (if s.root.Within p.segments then some w else none) := by
  obtain ⟨slot, new, hslot, hnew, hwritten, hfind⟩ := exists_slot_of_write h
  obtain ⟨w, rfl⟩ := Option.isSome_iff_exists.1 (isSome_of_leafValue hnew)
  refine ⟨_, w, hnew, hfind, ?_⟩
  obtain ⟨c', hc', hread⟩ := readFrom_along_of_within (fun _ _ => sigil_writeLeaf)
    (fun t => Path.isScalar_of_mem_inner) (write_eq_ok h)
  have hc : c' = (s.container p).setChild slot w := Except.ok.inj (hc'.symm.trans hwritten)
  have hw : w.sigil = p.leaf.sigil := sigil_eq_of_leafValue hnew
  have hwithin : s.root.Within p.segments ↔ s.root.Within p.inner ∧ (s.container p).Admits p.leaf := by
    rw [← p.inner_append_leaf, within_append]
    simp only [Within, and_true]
    rfl
  rw [read, ← p.inner_append_leaf, hread, p.inner_append_leaf, hc]
  by_cases hinner : s.root.Within p.inner
  · rw [if_pos hinner]
    by_cases hleaf : (s.container p).Admits p.leaf
    · rw [if_pos (hwithin.2 ⟨hinner, hleaf⟩), readFrom_setChild_self hslot hleaf hw]
      rfl
    · rw [if_neg fun hboth => hleaf (hwithin.1 hboth).2, readFrom_setChild_of_not_admits hslot hleaf]
  · rw [if_neg hinner, if_neg fun hboth => hinner (hwithin.1 hboth).1]

end Store

namespace Snapshot

variable {s s' : Snapshot} {p : ScopedPath} {text : String} {ts : List Segment} {t : Segment} {v v' : Node}

/-- whether no index on a path is past the end of its list -/
def Within (s : Snapshot) (p : ScopedPath) : Prop :=
  (s.store p.scope).root.Within p.path.segments

instance (s : Snapshot) (p : ScopedPath) : Decidable (s.Within p) :=
  inferInstanceAs (Decidable (Node.Within _ _))

/-- what is found at a path once a text has been put there -/
def found? (s : Snapshot) (p : ScopedPath) (text : String) : Option Node :=
  if s.Within p then Node.ofText? p.path.leaf.sigil (s.get p).toOption.join text else none

/-- **What is found where a text was put.** -/
theorem get_of_put_text (h : s.put p (some (.str text)) = .ok s') : s'.get p = .ok (s.found? p text) := by
  obtain ⟨store, hw, rfl⟩ := put_eq_ok.1 h
  obtain ⟨old, w, hleaf, hold, hread⟩ := Store.read_of_write hw
  have hwritten : Node.ofText? p.path.leaf.sigil (s.get p).toOption.join text = some w := by
    rw [← Node.ofText?_of_leafValue hleaf]
    cases hs : p.path.leaf.sigil with
    | list =>
      -- only a list is made of what was there before, and it is read there
      have hget : s.get p = .ok old := hold (Node.leafValue_list_some hs hleaf).1
      rw [hget]
      rfl
    | _ => rfl
  rw [get, store_withStore_self, hread, found?, hwritten]
  rfl

/-- what is read is the same wherever the same is under the first keys of a path -/
theorem get_congr (pre : List Segment) (hp : p.path.segments = pre ++ t :: ts) (hpre : ∀ u ∈ pre, u.sigil = .map)
    (hv : s.under? (p.scope, pre.map Segment.key) = some v) (hmap : v.sigil = .map)
    (hv' : s'.under? (p.scope, pre.map Segment.key) = some v') (hmap' : v'.sigil = .map)
    (h : s'.under? (p.scope, pre.map Segment.key ++ [t.key]) = s.under? (p.scope, pre.map Segment.key ++ [t.key])) :
    s'.get p = s.get p := by
  rw [under?_append, under?_append, hv, hv', Option.bind_some, Option.bind_some, Node.under?_singleton,
    Node.under?_singleton] at h
  rw [get, get, Store.read, Store.read, hp, Node.readFrom_of_under?_map hpre hv hmap,
    Node.readFrom_of_under?_map hpre hv' hmap']
  exact Node.readFrom_congr_of_child? hmap hmap' h

end Snapshot

end Dialogue
