import Dialogue.Proofs.Number.Index
import Dialogue.Proofs.Path.Segments
import Dialogue.Proofs.Store.Recursion

/-!
# Reading back what was written

A write can put a value at another place than its path says: an index past the end of a list names a new last item.
`Store.settle` is the path with such indices replaced, and `Store.read_settle_of_write` says what is read at it after
a write, for every kind of value and every mix of containers that exist and that are made.
-/

namespace Dialogue

/-! ### Containers on the way -/

namespace Node

/-- the container at the end of segments, on whose way a write makes what is missing -/
def reach (v : Node) (ss : List Segment) : Node :=
  ss.foldl enter v

theorem behind?_fresh (s : Sigil) (seg : Segment) : (fresh s).behind? seg = none := by
  cases s with
  | list =>
    unfold fresh behind? slot?
    cases seg.index? with
    | none => rfl
    | some n => rfl
  | _ => rfl

theorem reach_fresh (s : Sigil) (ss : List Segment) : ∃ t, (fresh s).reach ss = fresh t := by
  induction ss generalizing s with
  | nil => exact ⟨s, rfl⟩
  | cons seg ss ih =>
    rw [reach, List.foldl_cons, enter, behind?_fresh]
    exact ih seg.sigil

theorem sigil_eq_of_coerce {s : Sigil} {v w : Node} (hs : s.isScalar = true) (h : coerce s v = .ok w) :
    w.sigil = s := by
  unfold coerce at h
  split at h <;> try (cases h; rfl)
  · split at h <;> cases h
    rfl
  · cases h

end Node

/-! ### Settled paths -/

/-- a segment as it names, after a write, the slot that the write fills: an index past the end of a list is the
place behind its last item -/
def Segment.settled (s : Segment) (v : Node) : Segment :=
  match v, s.index? with
  | .list vs, some n => if n < vs.length then s else ⟨s.sigil, toString vs.length⟩
  | _, _ => s

/-- segments as they name, after a write from `v` on, the slots that the write fills -/
def Node.settle : Node → List Segment → List Segment
  | _, [] => []
  | v, s :: ss => s.settled v :: settle (v.enter s) ss

@[simp] theorem Segment.sigil_settled (s : Segment) (v : Node) : (s.settled v).sigil = s.sigil := by
  unfold settled
  split
  · split <;> rfl
  · rfl

theorem Segment.key_settled_ne (s : Segment) (v : Node) (h : s.key ≠ "") : (s.settled v).key ≠ "" := by
  unfold settled
  split
  · split
    · exact h
    · exact Number.toString_ne_empty _
  · exact h

namespace Node

theorem settle_append (v : Node) (ss ts : List Segment) :
    v.settle (ss ++ ts) = v.settle ss ++ (v.reach ss).settle ts := by
  induction ss generalizing v with
  | nil => rfl
  | cons s ss ih => simp only [List.cons_append, settle, ih, reach, List.foldl_cons]

theorem isEmpty_settle (v : Node) (ss : List Segment) : (v.settle ss).isEmpty = ss.isEmpty := by
  cases ss <;> rfl

theorem first?_settle {n : Nat} {ss : List Segment} (v : Node) (h : PathFault.first? n ss = none) :
    PathFault.first? n (v.settle ss) = none := by
  induction ss generalizing n v with
  | nil => rfl
  | cons s ss ih =>
    simp only [PathFault.first?] at h
    split at h
    · cases h
    · next hkey =>
      split at h
      · cases h
      · next hscalar =>
        have hkey := s.key_settled_ne v hkey
        simp only [settle, PathFault.first?, if_neg hkey, Segment.sigil_settled, isEmpty_settle, if_neg hscalar]
        exact ih _ h

theorem ofSegments?_settle (v : Node) (p : Path) : PathFault.ofSegments? (v.settle p.segments) = none := by
  have hsound := p.sound
  cases hss : p.segments with
  | nil => exact absurd hss p.segments_ne_nil
  | cons s ss =>
    rw [hss] at hsound
    exact first?_settle v hsound

end Node

/-- a path as it names, after a write, the place that the write fills -/
def Store.settle (s : Store) (p : Path) : Path :=
  ⟨s.root.settle p.segments, s.root.ofSegments?_settle p⟩

/-- the container that holds what is at a path, or that a write makes for it -/
def Store.container (s : Store) (p : Path) : Node :=
  s.root.reach p.inner

/-! ### Reading -/

namespace Node

open Store

theorem behind?_setChild {s : Segment} {v : Node} {slot : Slot} (h : v.slot? s = some slot) (w : Node) :
    (v.setChild slot w).behind? (s.settled v) = some w := by
  cases v with
  | map es =>
    cases h
    simp [setChild, behind?, slot?, child?, Segment.settled]
  | list vs =>
    obtain ⟨n, hn, rfl⟩ := Option.map_eq_some_iff.1 h
    have hword := Number.le_maxWord_of_readIndex? hn
    by_cases hlt : n < vs.length
    · simp [setChild, behind?, slot?, child?, Segment.settled, hn, hlt]
    · have hlast : s.settled (.list vs) = ⟨s.sigil, toString vs.length⟩ := by simp [Segment.settled, hn, hlt]
      have hindex : (s.settled (.list vs)).index? = some vs.length := by
        rw [hlast]
        exact Number.readIndex?_toString (by omega)
      simp [setChild, behind?, slot?, child?, hindex, hlt]
  | _ => cases h

/-- the container at the end of segments is changed and put back where the settled segments find it -/
theorem reach_along {path : Path} {f : Node → Except StateError Node} {ss : List Segment} {v v' : Node}
    (hss : ∀ s ∈ ss, s.sigil.isScalar = false) (h : along path f ss v = .ok v') :
    ∃ c, f (v.reach ss) = .ok c ∧ (c.sigil = (v.reach ss).sigil →
      v'.sigil = v.sigil ∧ ∀ q ts, readFrom q (v.settle ss ++ ts) v' = readFrom q ts c) := by
  induction ss generalizing v v' with
  | nil => exact ⟨v', h, fun hc => ⟨hc, fun q ts => rfl⟩⟩
  | cons s ss ih =>
    obtain ⟨slot, child, hslot, hshape, halong, rfl⟩ := along_cons h
    obtain ⟨c, hf, hread⟩ := ih (fun t ht => hss t (List.mem_cons_of_mem _ ht)) halong
    have henter : (v.enter s).sigil = s.sigil := sigil_enter (hss s List.mem_cons_self) hslot hshape
    refine ⟨c, hf, fun hc => ⟨sigil_setChild v slot child, fun q ts => ?_⟩⟩
    obtain ⟨hsigil, hread⟩ := hread hc
    have hfound := behind?_setChild hslot child
    rw [settle, List.cons_append, readFrom_cons hfound (by rw [Segment.sigil_settled, hsigil, henter])]
    exact hread q ts

/-- a reading goes the way of a write until a container is missing; what the write reaches then is fresh -/
theorem readFrom_reach {path : Path} {f : Node → Except StateError Node} {ss : List Segment} {v v' : Node}
    (h : along path f ss v = .ok v') (q : Path) (ts : List Segment) :
    readFrom q (ss ++ ts) v = readFrom q ts (v.reach ss) ∨
      readFrom q (ss ++ ts) v = .ok none ∧ ∃ s, v.reach ss = fresh s := by
  induction ss generalizing v v' with
  | nil => exact .inl rfl
  | cons s ss ih =>
    obtain ⟨slot, child, hslot, hshape, halong, rfl⟩ := along_cons h
    have hreach : v.reach (s :: ss) = (v.enter s).reach ss := rfl
    rw [hreach]
    cases hc : v.child? slot with
    | none =>
      right
      rw [enter_of_missing hslot hc]
      exact ⟨readFrom_cons_of_none hslot hc, reach_fresh s.sigil ss⟩
    | some w =>
      have hbehind : v.behind? s = some w := behind?_eq_some.2 ⟨slot, hslot, hc⟩
      have henter : v.enter s = w := enter_of_child? hslot hc
      rw [List.cons_append, readFrom_cons hbehind (hshape w hc), henter]
      exact ih (henter ▸ halong)

/-- what a write leaves in the slot at the end is of the kind that the path names -/
theorem sigil_eq_of_leafValue {path : Path} {old value : Option Node} {w : Node}
    (h : leafValue path old value = .ok (some w)) : w.sigil = path.leaf.sigil := by
  unfold leafValue at h
  split at h
  · next hs =>
    rw [hs]
    split at h
    · cases h; rfl
    · cases h
    · cases h; rfl
    · obtain ⟨_, hshape, h⟩ := bind_eq_ok.1 h
      cases h
      exact (checkShape_eq_ok.1 hshape).trans hs
  · next hs =>
    rw [hs]
    split at h
    · cases h; rfl
    · cases h; rfl
    · cases h; rfl
    · cases h; rfl
    · obtain ⟨_, hshape, h⟩ := bind_eq_ok.1 h
      cases h
      exact (checkShape_eq_ok.1 hshape).trans hs
  · next hmap hlist =>
    split at h
    · obtain ⟨v, hv, he⟩ := map_eq_ok.1 h
      cases he
      refine sigil_eq_of_coerce ?_ hv
      cases hs : path.leaf.sigil <;> simp_all [Sigil.isScalar]
    · cases h

end Node

namespace Store

open Node

theorem settle_segments (s : Store) (p : Path) :
    (s.settle p).segments = s.root.settle p.inner ++ [p.leaf.settled (s.container p)] := by
  have h := settle_append s.root p.inner [p.leaf]
  rw [p.inner_append_leaf] at h
  exact h

/-- what a write finds in the slot at the end of its path, and what it puts there; a reading finds the same, if that is
of the kind that the path names -/
theorem exists_slot_of_write {s s' : Store} {p : Path} {value : Option Node} (h : s.write p value = .ok s') :
    ∃ slot new, (s.container p).slot? p.leaf = some slot ∧
      leafValue p ((s.container p).child? slot) value = .ok new ∧
      writeLeaf p value (s.container p) = .ok ((s.container p).setSlot slot new) ∧
      ((∀ v, (s.container p).child? slot = some v → v.sigil = p.leaf.sigil) →
        s.read p = .ok ((s.container p).child? slot)) := by
  rw [write_eq] at h
  obtain ⟨root, halong, rfl⟩ := map_eq_ok.1 h
  obtain ⟨c, hleaf, -⟩ := reach_along (fun t => Path.isScalar_of_mem_inner) halong
  have hfind := readFrom_reach halong p [p.leaf]
  rw [p.inner_append_leaf] at hfind
  change writeLeaf p value (s.container p) = .ok c at hleaf
  change s.read p = readFrom p [p.leaf] (s.container p) ∨ s.read p = .ok none ∧ ∃ t, s.container p = fresh t at hfind
  obtain ⟨slot, new, hslot, hnew, rfl⟩ := writeLeaf_eq_ok.1 hleaf
  have hbehind : (s.container p).behind? p.leaf = (s.container p).child? slot := by
    rw [behind?, hslot, Option.bind_some]
  refine ⟨slot, new, hslot, hnew, hleaf, fun hold => ?_⟩
  rcases hfind with hfind | ⟨hfind, t, ht⟩
  · rw [hfind]
    cases hchild : (s.container p).child? slot with
    | none => exact readFrom_cons_of_none hslot hchild
    | some v => exact readFrom_cons (hbehind.trans hchild) (hold v hchild)
  · -- nothing can be in a container that the write has made
    rw [hfind, ← hbehind, ht, behind?_fresh]

/-- **What a write finds and leaves.**  The value that `leafValue` finds is what a reading finds, if it is of the kind
that the path names, and the value that it gives is what a reading finds afterwards. -/
theorem leafValue_of_write {s s' : Store} {p : Path} {value : Option Node} (h : s.write p value = .ok s') :
    ∃ old new, leafValue p old value = .ok new ∧
      ((∀ v, old = some v → v.sigil = p.leaf.sigil) → s.read p = .ok old) ∧
      (new.isSome ∨ (∃ es, s.container p = .map es) → s'.read (s.settle p) = .ok new) := by
  obtain ⟨slot, new, hslot, hnew, hwritten, hfind⟩ := exists_slot_of_write h
  refine ⟨(s.container p).child? slot, new, hnew, hfind, fun hsome => ?_⟩
  rw [write_eq] at h
  obtain ⟨root, halong, rfl⟩ := map_eq_ok.1 h
  obtain ⟨c, hleaf, hback⟩ := reach_along (fun t => Path.isScalar_of_mem_inner) halong
  change writeLeaf p value (s.container p) = .ok c at hleaf
  change c.sigil = (s.container p).sigil → _ at hback
  obtain rfl := Except.ok.inj (hleaf.symm.trans hwritten)
  obtain ⟨-, hback⟩ := hback (sigil_setSlot _ slot new)
  rw [read, settle_segments, hback]
  cases new with
  | some w =>
    have hshape : w.sigil = (p.leaf.settled (s.container p)).sigil :=
      (sigil_eq_of_leafValue hnew).trans (Segment.sigil_settled _ _).symm
    rw [setSlot, readFrom_cons (behind?_setChild hslot w) hshape]
    rfl
  | none =>
    obtain ⟨es, hes⟩ := hsome.resolve_left (by simp)
    rw [setSlot, hes]
    rw [hes] at hslot
    cases hslot
    have hgone : (dropChild (.map es) (.key p.leaf.key)).child? (.key p.leaf.key) = none := by
      simp [dropChild, child?]
    exact readFrom_cons_of_none rfl hgone

end Store

namespace Node

/-- the list that a write of `v` leaves: a list grows by `v`, and where nothing was, `v` is the list or its only
item -/
def listWith (v : Node) : Option Node → Node
  | some (.list vs) => .list (vs ++ [v])
  | _ => if v.sigil = .list then v else .list [v]

section Leaf

variable {path : Path} {old new : Option Node}

theorem leafValue_of_isScalar (hs : path.leaf.sigil.isScalar = true) (value : Option Node) :
    leafValue path old value = match value with
      | some v => (coerce path.leaf.sigil v).map some
      | none => .ok none := by
  unfold leafValue
  cases h : path.leaf.sigil with
  | map =>
    rw [h] at hs
    cases hs
  | list =>
    rw [h] at hs
    cases hs
  | _ => rfl

theorem leafValue_map_some {v : Node} (hs : path.leaf.sigil = .map)
    (h : leafValue path old (some v) = .ok new) : new = some v := by
  unfold leafValue at h
  rw [hs] at h
  cases v <;> cases h
  rfl

theorem leafValue_list_some {v : Node} (hs : path.leaf.sigil = .list)
    (h : leafValue path old (some v) = .ok new) :
    (∀ u, old = some u → u.sigil = path.leaf.sigil) ∧ new = some (v.listWith old) := by
  unfold leafValue at h
  rw [hs] at h
  cases old with
  | none => cases v <;> cases h <;> simp [listWith, Node.sigil]
  | some u =>
    rw [hs]
    cases u with
    | list us => cases v <;> cases h <;> simp [listWith, Node.sigil]
    | _ =>
      obtain ⟨_, hshape, _⟩ := bind_eq_ok.1 h
      simp [checkShape_eq_ok, Node.sigil, hs] at hshape

theorem isSome_of_leafValue {v : Node} (h : leafValue path old (some v) = .ok new) : new.isSome := by
  cases hs : path.leaf.sigil with
  | map => rw [leafValue_map_some hs h]; rfl
  | list => rw [(leafValue_list_some hs h).2]; rfl
  | _ =>
    rw [leafValue_of_isScalar (by rw [hs]; rfl), map_eq_ok] at h
    obtain ⟨w, -, rfl⟩ := h
    rfl

/-- without a value, the container that is there stays, and a fresh one is made where none is -/
theorem leafValue_none_of_not_isScalar (hs : path.leaf.sigil.isScalar = false)
    (h : leafValue path old none = .ok new) :
    (∀ u, old = some u → u.sigil = path.leaf.sigil) ∧ new = some (old.getD (fresh path.leaf.sigil)) := by
  unfold leafValue at h
  have found (u : Node) (h : (do checkShape path path.leaf u; return some u) = .ok new) :
      (∀ w, some u = some w → w.sigil = path.leaf.sigil) ∧ new = some u := by
    obtain ⟨_, hshape, h⟩ := bind_eq_ok.1 h
    cases h
    refine ⟨fun w hw => ?_, rfl⟩
    cases hw
    exact checkShape_eq_ok.1 hshape
  cases hsigil : path.leaf.sigil <;> rw [hsigil] at h hs <;> cases hs
  · cases old with
    | none => cases h; simp [fresh]
    | some u => exact hsigil ▸ found u h
  · cases old with
    | none => cases h; simp [fresh]
    | some u => exact hsigil ▸ found u (by cases u <;> exact h)

end Leaf

end Node

namespace Store

open Node

/-- **A write is read back** at the settled path, as the value that the last sigil makes of what was written and of
what was there. -/
theorem read_settle_of_write {s s' : Store} {p : Path} {value : Option Node} (h : s.write p value = .ok s') :
    match p.leaf.sigil, value with
    | .map, some v => s'.read (s.settle p) = .ok (some v)
    | .map, none => ∃ old, s.read p = .ok old ∧ s'.read (s.settle p) = .ok (some (old.getD (.map [])))
    | .list, some v => ∃ old, s.read p = .ok old ∧ s'.read (s.settle p) = .ok (some (v.listWith old))
    | .list, none => ∃ old, s.read p = .ok old ∧ s'.read (s.settle p) = .ok (some (old.getD (.list [])))
    | sigil, some v => ∃ w, coerce sigil v = .ok w ∧ s'.read (s.settle p) = .ok (some w)
    | _, none => (∃ es, s.container p = .map es) → s'.read (s.settle p) = .ok none := by
  obtain ⟨old, new, hleaf, hread, hback⟩ := leafValue_of_write h
  have scalar (hs : p.leaf.sigil.isScalar = true) :
      (∀ v, value = some v → ∃ w, coerce p.leaf.sigil v = .ok w ∧ s'.read (s.settle p) = .ok (some w)) ∧
        (value = none → (∃ es, s.container p = .map es) → s'.read (s.settle p) = .ok none) := by
    rw [leafValue_of_isScalar hs] at hleaf
    constructor
    · rintro v rfl
      obtain ⟨w, hw, rfl⟩ := map_eq_ok.1 hleaf
      exact ⟨w, hw, hback (.inl rfl)⟩
    · rintro rfl hmap
      cases hleaf
      exact hback (.inr hmap)
  -- one case for each kind of the last sigil; the scalars are all alike
  cases hs : p.leaf.sigil with
  | map =>
    cases value with
    | some v =>
      obtain rfl := leafValue_map_some hs hleaf
      exact hback (.inl rfl)
    | none =>
      obtain ⟨hold, rfl⟩ := leafValue_none_of_not_isScalar (by rw [hs]; rfl) hleaf
      exact ⟨old, hread hold, by rw [hback (.inl rfl), hs]; rfl⟩
  | list =>
    cases value with
    | some v =>
      obtain ⟨hold, rfl⟩ := leafValue_list_some hs hleaf
      exact ⟨old, hread hold, hback (.inl rfl)⟩
    | none =>
      obtain ⟨hold, rfl⟩ := leafValue_none_of_not_isScalar (by rw [hs]; rfl) hleaf
      exact ⟨old, hread hold, by rw [hback (.inl rfl), hs]; rfl⟩
  | _ =>
    rw [hs] at scalar
    cases value with
    | some v => exact (scalar rfl).1 v rfl
    | none => exact (scalar rfl).2 rfl

/-- a map is made behind the last item of a list, and a truth value in it is stored as a string -/
theorem read_settle_of_write_past_end :
    write ⟨.map [("rows", .list [.str "a"])]⟩
        ⟨[⟨.list, "rows"⟩, ⟨.map, "7"⟩, ⟨.str, "done"⟩], by decide⟩ (some (.bool true)) =
      .ok ⟨.map [("rows", .list [.str "a", .map [("done", .str "true")]])]⟩ ∧
    ∃ w, coerce .str (.bool true) = .ok w ∧
      read ⟨.map [("rows", .list [.str "a", .map [("done", .str "true")]])]⟩
        (settle ⟨.map [("rows", .list [.str "a"])]⟩
          ⟨[⟨.list, "rows"⟩, ⟨.map, "7"⟩, ⟨.str, "done"⟩], by decide⟩) = .ok (some w) := by
  have h : write ⟨.map [("rows", .list [.str "a"])]⟩
        ⟨[⟨.list, "rows"⟩, ⟨.map, "7"⟩, ⟨.str, "done"⟩], by decide⟩ (some (.bool true)) =
      .ok ⟨.map [("rows", .list [.str "a", .map [("done", .str "true")]])]⟩ := by rfl
  exact ⟨h, read_settle_of_write h⟩

end Store

end Dialogue
