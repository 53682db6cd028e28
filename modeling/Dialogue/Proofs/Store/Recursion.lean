import Dialogue.Proofs.Except
import Dialogue.Store.Basic

/-!
# Changes of a store by recursion

A change of a store goes down along the inner segments of a path and makes the container at the end of them anew.
The way back through the frames is the way back of a plain recursion:

* `Store.write_eq`: a write is the recursion `Node.along`, which makes the containers that are missing;
* `Store.delete_eq`: a deletion is the recursion `Node.along?`, which ends where a container is missing.

What one step of the recursion does is said once: by `Node.along_cons` and `Node.along?_cons` for a change that is
known to end well, and by `Node.along_of_slot?`, `Node.along?_of_child?` and `Node.along?_of_missing` for a container
that is known.  `Node.writeLeaf_eq_ok` and `Node.dropLeaf?_eq_ok` say so of the change at the end of the way, and
`Store.readFrom_cons_eq_ok` of a step of a reading.
-/

namespace Dialogue

namespace Node

/-- the container `v` with `f` done to the container at the end of segments; missing containers are made -/
def along (path : Path) (f : Node → Except StateError Node) : List Segment → Node → Except StateError Node
  | [], v => f v
  | s :: ss, v => do
    let slot ← v.slot path s
    match v.child? slot with
    | some child =>
      checkShape path s child
      return v.setChild slot (← along path f ss child)
    | none => return v.setChild slot (← along path f ss (fresh s.sigil))

/-- the container `v` with `f` done to the container at the end of segments; nothing if one is missing or `f` does
nothing -/
def along? (path : Path) (f : Node → Except StateError (Option Node)) :
    List Segment → Node → Except StateError (Option Node)
  | [], v => f v
  | s :: ss, v => do
    let slot ← v.slot path s
    match v.child? slot with
    | some child =>
      checkShape path s child
      return (← along? path f ss child).map (v.setChild slot)
    | none => return none

/-- the last container with `value` written -/
def writeLeaf (path : Path) (value : Option Node) (v : Node) : Except StateError Node := do
  let slot ← v.slot path path.leaf
  match ← leafValue path (v.child? slot) value with
  | some w => return v.setChild slot w
  | none => return v.dropChild slot

/-- the last container without what is in the slot, if there is something -/
def dropLeaf? (path : Path) (v : Node) : Except StateError (Option Node) := do
  let slot ← v.slot path path.leaf
  match v.child? slot with
  | none => return none
  | some _ => return some (v.dropChild slot)

end Node

namespace Store

open Node

/-- with containers that wait to be put back, the way down and back is the recursion, and then the way back through
those containers -/
theorem descend_bind (path : Path) (f : Node → Except StateError Node) (ss : List Segment) (frames : List Frame)
    (v : Node) :
    (do let (frames, c) ← descend path ss frames v; return unwind frames (← f c)) =
      (along path f ss v).map (unwind frames) := by
  induction ss generalizing frames v with
  | nil => cases h : f v <;> simp [descend, along, bind, Except.bind, Except.map, pure, Except.pure, h]
  | cons s ss ih =>
    simp only [descend, along]
    cases v.slot path s with
    | error e => rfl
    | ok slot =>
      -- the frame that is noted on the way down is the container put back on the way up
      have back (child : Node) : (along path f ss child).map (unwind (⟨v, slot⟩ :: frames)) =
          ((along path f ss child).map (v.setChild slot)).map (unwind frames) := by
        cases along path f ss child <;> rfl
      simp only [bind, Except.bind] at ih ⊢
      cases v.child? slot with
      | none =>
        simp only [ih, back]
        cases along path f ss (fresh s.sigil) <;> rfl
      | some child =>
        simp only
        cases checkShape path s child with
        | error e => rfl
        | ok _ =>
          simp only [ih, back]
          cases along path f ss child <;> rfl

/-- so it is with the way down that ends where a container is missing -/
theorem descend?_bind (path : Path) (f : Node → Except StateError (Option Node)) (ss : List Segment)
    (frames : List Frame) (v : Node) :
    (do
      match ← descend? path ss frames v with
      | none => return none
      | some (frames, c) => return (← f c).map (unwind frames)) =
      (along? path f ss v).map (Option.map (unwind frames)) := by
  induction ss generalizing frames v with
  | nil => cases h : f v <;> simp [descend?, along?, bind, Except.bind, Except.map, pure, Except.pure, h]
  | cons s ss ih =>
    simp only [descend?, along?]
    cases v.slot path s with
    | error e => rfl
    | ok slot =>
      have back (child : Node) : (along? path f ss child).map (Option.map (unwind (⟨v, slot⟩ :: frames))) =
          ((along? path f ss child).map (Option.map (v.setChild slot))).map (Option.map (unwind frames)) := by
        cases along? path f ss child with
        | error e => rfl
        | ok o => cases o <;> rfl
      simp only [bind, Except.bind] at ih ⊢
      cases v.child? slot with
      | none => rfl
      | some child =>
        simp only
        cases checkShape path s child with
        | error e => rfl
        | ok _ =>
          simp only [ih, back]
          cases along? path f ss child <;> rfl

/-- **A write is a recursion along the path.** -/
theorem write_eq (s : Store) (path : Path) (value : Option Node) :
    s.write path value = (along path (writeLeaf path value) path.inner s.root).map Store.mk := by
  calc s.write path value
    _ = (do let (frames, c) ← descend path path.inner [] s.root
            return unwind frames (← writeLeaf path value c)).map Store.mk := by
      simp only [write, writeLeaf, bind, Except.bind]
      cases descend path path.inner [] s.root with
      | error e => rfl
      | ok r =>
        simp only
        cases r.2.slot path path.leaf with
        | error e => rfl
        | ok slot =>
          simp only
          cases leafValue path (r.2.child? slot) value with
          | error e => rfl
          | ok o => cases o <;> rfl
    _ = ((along path (writeLeaf path value) path.inner s.root).map (unwind [])).map Store.mk := by
      rw [descend_bind]
    _ = (along path (writeLeaf path value) path.inner s.root).map Store.mk := by
      cases along path (writeLeaf path value) path.inner s.root <;> rfl

/-- **A deletion is a recursion along the path.** -/
theorem delete_eq (s : Store) (path : Path) :
    s.delete path = (along? path (dropLeaf? path) path.inner s.root).map fun o => (o.map Store.mk).getD s := by
  calc s.delete path
    _ = (do match ← descend? path path.inner [] s.root with
            | none => return none
            | some (frames, c) => return (← dropLeaf? path c).map (unwind frames)).map
          fun o : Option Node => (o.map Store.mk).getD s := by
      simp only [delete, dropLeaf?, bind, Except.bind]
      cases descend? path path.inner [] s.root with
      | error e => rfl
      | ok o =>
        cases o with
        | none => rfl
        | some r =>
          simp only
          cases r.2.slot path path.leaf with
          | error e => rfl
          | ok slot =>
            simp only
            cases r.2.child? slot <;> rfl
    _ = ((along? path (dropLeaf? path) path.inner s.root).map (Option.map (unwind []))).map
          fun o : Option Node => (o.map Store.mk).getD s := by
      rw [descend?_bind]
    _ = (along? path (dropLeaf? path) path.inner s.root).map fun o : Option Node => (o.map Store.mk).getD s := by
      cases along? path (dropLeaf? path) path.inner s.root with
      | error e => rfl
      | ok o => cases o <;> rfl

end Store

/-! ### One step of the recursion -/

namespace Node

/-- the slot that a segment names in a container, if it names one -/
def slot? (s : Segment) : Node → Option Slot
  | .map _ => some (.key s.key)
  | .list _ => s.index?.map .index
  | _ => none

/-- the value behind a segment -/
def behind? (v : Node) (s : Segment) : Option Node :=
  (v.slot? s).bind v.child?

/-- the value behind a segment, or what a write makes there -/
def enter (v : Node) (s : Segment) : Node :=
  (v.behind? s).getD (fresh s.sigil)

theorem slot_eq_ok {path : Path} {s : Segment} {v : Node} {slot : Slot} :
    v.slot path s = .ok slot ↔ v.slot? s = some slot := by
  cases v with
  | list vs => cases h : s.index? <;> simp [Node.slot, slot?, h]
  | _ => simp [Node.slot, slot?]

theorem checkShape_eq_ok {path : Path} {s : Segment} {v : Node} {u : Unit} :
    checkShape path s v = .ok u ↔ v.sigil = s.sigil := by
  unfold checkShape
  split <;> simp_all

theorem sigil_fresh {s : Sigil} (h : s.isScalar = false) : (fresh s).sigil = s := by
  cases s <;> simp_all [fresh, Node.sigil, Sigil.isScalar]

@[simp] theorem sigil_setChild (v : Node) (slot : Slot) (w : Node) : (v.setChild slot w).sigil = v.sigil := by
  cases v <;> cases slot <;> rfl

@[simp] theorem sigil_dropChild (v : Node) (slot : Slot) : (v.dropChild slot).sigil = v.sigil := by
  cases v <;> cases slot <;> rfl

theorem behind?_eq_some {v w : Node} {s : Segment} :
    v.behind? s = some w ↔ ∃ slot, v.slot? s = some slot ∧ v.child? slot = some w :=
  Option.bind_eq_some_iff

theorem enter_of_child? {v child : Node} {s : Segment} {slot : Slot} (hslot : v.slot? s = some slot)
    (hchild : v.child? slot = some child) : v.enter s = child := by
  rw [enter, behind?, hslot, Option.bind_some, hchild]
  rfl

theorem enter_of_missing {v : Node} {s : Segment} {slot : Slot} (hslot : v.slot? s = some slot)
    (hchild : v.child? slot = none) : v.enter s = fresh s.sigil := by
  rw [enter, behind?, hslot, Option.bind_some, hchild]
  rfl

theorem sigil_enter {v : Node} {s : Segment} {slot : Slot} (hs : s.sigil.isScalar = false)
    (hslot : v.slot? s = some slot) (hkind : ∀ c, v.child? slot = some c → c.sigil = s.sigil) :
    (v.enter s).sigil = s.sigil := by
  cases hc : v.child? slot with
  | none => rw [enter_of_missing hslot hc, sigil_fresh hs]
  | some c => rw [enter_of_child? hslot hc, hkind c hc]

/-- a write goes through the value behind the first segment, or through the one that it makes there -/
theorem along_cons {path : Path} {f : Node → Except StateError Node} {s : Segment} {ss : List Segment} {v v' : Node}
    (h : along path f (s :: ss) v = .ok v') :
    ∃ slot child, v.slot? s = some slot ∧ (∀ c, v.child? slot = some c → c.sigil = s.sigil) ∧
      along path f ss (v.enter s) = .ok child ∧ v' = v.setChild slot child := by
  obtain ⟨slot, hslot, h⟩ := bind_eq_ok.1 h
  rw [slot_eq_ok] at hslot
  cases hc : v.child? slot with
  | none =>
    rw [hc] at h
    obtain ⟨child, halong, h⟩ := bind_eq_ok.1 h
    cases h
    exact ⟨slot, child, hslot, by simp [hc], enter_of_missing hslot hc ▸ halong, rfl⟩
  | some c =>
    rw [hc] at h
    obtain ⟨_, hshape, h⟩ := bind_eq_ok.1 h
    obtain ⟨child, halong, h⟩ := bind_eq_ok.1 h
    cases h
    refine ⟨slot, child, hslot, fun c' hc' => ?_, enter_of_child? hslot hc ▸ halong, rfl⟩
    rw [hc] at hc'
    cases hc'
    exact checkShape_eq_ok.1 hshape

/-- a change goes on in the value behind the first segment, or in the one that a write makes there -/
theorem along_of_slot? {path : Path} {f : Node → Except StateError Node} {s : Segment} {ss : List Segment} {v : Node}
    {slot : Slot} (hslot : v.slot? s = some slot) (hkind : ∀ c, v.child? slot = some c → c.sigil = s.sigil) :
    along path f (s :: ss) v = (along path f ss (v.enter s)).map (v.setChild slot) := by
  cases hc : v.child? slot with
  | none =>
    rw [enter_of_missing hslot hc]
    simp only [along, slot_eq_ok.2 hslot, hc, bind, Except.bind]
    cases along path f ss (fresh s.sigil) <;> rfl
  | some c =>
    have hshape : checkShape path s c = .ok () := checkShape_eq_ok.2 (hkind c hc)
    rw [enter_of_child? hslot hc]
    simp only [along, slot_eq_ok.2 hslot, hc, hshape, bind, Except.bind]
    cases along path f ss c <;> rfl

theorem along_of_child? {path : Path} {f : Node → Except StateError Node} {s : Segment} {ss : List Segment}
    {v c : Node} {slot : Slot} (hslot : v.slot? s = some slot) (hchild : v.child? slot = some c)
    (hkind : c.sigil = s.sigil) : along path f (s :: ss) v = (along path f ss c).map (v.setChild slot) := by
  have hkind' (c' : Node) (hc' : v.child? slot = some c') : c'.sigil = s.sigil := by
    rw [hchild] at hc'
    cases hc'
    exact hkind
  rw [along_of_slot? hslot hkind', enter_of_child? hslot hchild]

/-- a deletion that does something goes through the value behind the first segment -/
theorem along?_cons {path : Path} {f : Node → Except StateError (Option Node)} {s : Segment} {ss : List Segment}
    {v : Node} {o : Option Node} (h : along? path f (s :: ss) v = .ok o) :
    ∃ slot, v.slot? s = some slot ∧
      (v.child? slot = none ∧ o = none ∨
        ∃ child o', v.child? slot = some child ∧ child.sigil = s.sigil ∧ along? path f ss child = .ok o' ∧
          o = o'.map (v.setChild slot)) := by
  obtain ⟨slot, hslot, h⟩ := bind_eq_ok.1 h
  rw [slot_eq_ok] at hslot
  refine ⟨slot, hslot, ?_⟩
  cases hc : v.child? slot with
  | none =>
    rw [hc] at h
    cases h
    exact .inl ⟨rfl, rfl⟩
  | some child =>
    rw [hc] at h
    obtain ⟨_, hshape, h⟩ := bind_eq_ok.1 h
    obtain ⟨o', halong, h⟩ := bind_eq_ok.1 h
    cases h
    exact .inr ⟨child, o', rfl, checkShape_eq_ok.1 hshape, halong, rfl⟩

theorem along?_of_child? {path : Path} {f : Node → Except StateError (Option Node)} {s : Segment} {ss : List Segment}
    {v c : Node} {slot : Slot} (hslot : v.slot? s = some slot) (hchild : v.child? slot = some c)
    (hkind : c.sigil = s.sigil) :
    along? path f (s :: ss) v = (along? path f ss c).map (Option.map (v.setChild slot)) := by
  have hshape : checkShape path s c = .ok () := checkShape_eq_ok.2 hkind
  simp only [along?, slot_eq_ok.2 hslot, hchild, hshape, bind, Except.bind]
  cases along? path f ss c <;> rfl

theorem along?_of_missing {path : Path} {f : Node → Except StateError (Option Node)} {s : Segment}
    {ss : List Segment} {v : Node} {slot : Slot} (hslot : v.slot? s = some slot) (hchild : v.child? slot = none) :
    along? path f (s :: ss) v = .ok none := by
  simp only [along?, slot_eq_ok.2 hslot, hchild, bind, Except.bind]
  rfl

/-- a container with a value in a slot, or without what is in the slot -/
def setSlot (v : Node) (slot : Slot) : Option Node → Node
  | some w => v.setChild slot w
  | none => v.dropChild slot

@[simp] theorem sigil_setSlot (v : Node) (slot : Slot) (o : Option Node) : (v.setSlot slot o).sigil = v.sigil := by
  cases o <;> simp [setSlot]

/-- a write leaves in the slot of the last segment what `leafValue` gives -/
theorem writeLeaf_eq_ok {path : Path} {value : Option Node} {v v' : Node} :
    writeLeaf path value v = .ok v' ↔
      ∃ slot new, v.slot? path.leaf = some slot ∧ leafValue path (v.child? slot) value = .ok new ∧
        v' = v.setSlot slot new := by
  constructor
  · intro h
    obtain ⟨slot, hslot, h⟩ := bind_eq_ok.1 h
    obtain ⟨new, hnew, h⟩ := bind_eq_ok.1 h
    refine ⟨slot, new, slot_eq_ok.1 hslot, hnew, ?_⟩
    cases new <;> cases h <;> rfl
  · rintro ⟨slot, new, hslot, hnew, rfl⟩
    refine bind_eq_ok.2 ⟨slot, slot_eq_ok.2 hslot, bind_eq_ok.2 ⟨new, hnew, ?_⟩⟩
    cases new <;> rfl

/-- a deletion takes out what is in the slot of the last segment, and does nothing if nothing is there -/
theorem dropLeaf?_eq_ok {path : Path} {v : Node} {o : Option Node} :
    dropLeaf? path v = .ok o ↔
      ∃ slot, v.slot? path.leaf = some slot ∧
        (v.child? slot = none ∧ o = none ∨ (∃ w, v.child? slot = some w) ∧ o = some (v.dropChild slot)) := by
  constructor
  · intro h
    obtain ⟨slot, hslot, h⟩ := bind_eq_ok.1 h
    refine ⟨slot, slot_eq_ok.1 hslot, ?_⟩
    cases hc : v.child? slot with
    | none =>
      rw [hc] at h
      cases h
      exact .inl ⟨rfl, rfl⟩
    | some w =>
      rw [hc] at h
      cases h
      exact .inr ⟨⟨w, rfl⟩, rfl⟩
  · rintro ⟨slot, hslot, ⟨hc, rfl⟩ | ⟨⟨w, hc⟩, rfl⟩⟩
    · exact bind_eq_ok.2 ⟨slot, slot_eq_ok.2 hslot, by rw [hc]; rfl⟩
    · exact bind_eq_ok.2 ⟨slot, slot_eq_ok.2 hslot, by rw [hc]; rfl⟩

end Node

namespace Store

open Node

theorem readFrom_cons {path : Path} {s : Segment} {ss : List Segment} {v w : Node} (h : v.behind? s = some w)
    (hw : w.sigil = s.sigil) : readFrom path (s :: ss) v = readFrom path ss w := by
  obtain ⟨slot, hslot, hchild⟩ := behind?_eq_some.1 h
  have hshape : checkShape path s w = .ok () := checkShape_eq_ok.2 hw
  simp [readFrom, slot_eq_ok.2 hslot, hchild, hshape, bind, Except.bind]

theorem readFrom_cons_of_none {path : Path} {s : Segment} {ss : List Segment} {v : Node} {slot : Slot}
    (hslot : v.slot? s = some slot) (hchild : v.child? slot = none) : readFrom path (s :: ss) v = .ok none := by
  simp [readFrom, slot_eq_ok.2 hslot, hchild, bind, Except.bind, pure, Except.pure]

/-- a reading that ends well ends where nothing is, or goes on in a value of the kind that the segment names -/
theorem readFrom_cons_eq_ok {path : Path} {s : Segment} {ss : List Segment} {v : Node} {o : Option Node} :
    readFrom path (s :: ss) v = .ok o ↔
      ∃ slot, v.slot? s = some slot ∧
        (v.child? slot = none ∧ o = none ∨
          ∃ c, v.child? slot = some c ∧ c.sigil = s.sigil ∧ readFrom path ss c = .ok o) := by
  constructor
  · intro h
    obtain ⟨slot, hslot, h⟩ := bind_eq_ok.1 h
    refine ⟨slot, slot_eq_ok.1 hslot, ?_⟩
    cases hc : v.child? slot with
    | none =>
      rw [hc] at h
      cases h
      exact .inl ⟨rfl, rfl⟩
    | some c =>
      rw [hc] at h
      obtain ⟨_, hshape, h⟩ := bind_eq_ok.1 h
      exact .inr ⟨c, rfl, checkShape_eq_ok.1 hshape, h⟩
  · rintro ⟨slot, hslot, ⟨hnone, rfl⟩ | ⟨c, hc, hkind, hread⟩⟩
    · exact readFrom_cons_of_none hslot hnone
    · rw [readFrom_cons (behind?_eq_some.2 ⟨slot, hslot, hc⟩) hkind, hread]

end Store

end Dialogue
