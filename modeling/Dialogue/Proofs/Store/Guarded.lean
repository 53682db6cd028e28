import Dialogue.Proofs.Path.Segments
import Dialogue.Proofs.Store.Keys

/-!
# Stores without wrong turns

A store is a map, and what lies on the way of a path is of the kind that the path says.  So a path never has to go on
from a scalar, and a key is only ever looked up in a map and an index in a list.  The operations of `Guarded` break off
where this fails; `Store.clear_of_reached` says that on every store that is reached they do what the operations of
`Store` do, to the end.

* `Guarded.readFrom_eq`, `Guarded.descend_eq`, `Guarded.descend?_eq`: the way down from a container;
* `Guarded.unwind_eq`: the way back through frames whose slots are of the kind of their containers;
* `Store.sigil_of_read`: what is read is of the kind that the last segment names.
-/

namespace Dialogue

def Slot.kind : Slot → Sigil
  | .key _ => .map
  | .index _ => .list

/-- whether the slot of a frame is one of its container -/
def Frame.Suits (f : Frame) : Prop :=
  f.slot.kind = f.parent.sigil

/-- a run that can break off, and otherwise gives a result or an error -/
abbrev Guarded := ExceptT StateError Option

namespace Guarded

variable {α β : Type}

def stuck : Guarded α :=
  ExceptT.mk none

def of (x : Except StateError α) : Guarded α :=
  ExceptT.mk (some x)

theorem of_ok_bind (a : α) (f : α → Guarded β) : (of (.ok a) >>= f) = f a :=
  rfl

/-- two runs that begin alike are alike if they go on alike -/
theorem of_bind_of {x : Except StateError α} {f : α → Guarded β} {g : α → Except StateError β}
    (h : ∀ a, x = .ok a → f a = of (g a)) : (of x >>= f) = of (x >>= g) := by
  cases x with
  | error e => rfl
  | ok a => exact h a rfl

/-! ### One container -/

/-- the slot that a segment names in a container; breaks off at a scalar -/
def slot (path : Path) (s : Segment) (v : Node) : Guarded Slot :=
  if v.isContainer then of (v.slot path s) else stuck

/-- the value in a slot of a container; breaks off at a slot of another kind -/
def child? (v : Node) (slot : Slot) : Guarded (Option Node) :=
  if slot.kind = v.sigil then return v.child? slot else stuck

/-- the container with a value in a slot; breaks off at a slot of another kind -/
def setChild (v : Node) (slot : Slot) (w : Node) : Guarded Node :=
  if slot.kind = v.sigil then return v.setChild slot w else stuck

/-- the container without what is in a slot; breaks off at a slot of another kind -/
def dropChild (v : Node) (slot : Slot) : Guarded Node :=
  if slot.kind = v.sigil then return v.dropChild slot else stuck

/-! ### Along a path -/

def readFrom (path : Path) : List Segment → Node → Guarded (Option Node)
  | [], v => return some v
  | s :: ss, v => do
    let slot ← slot path s v
    match ← child? v slot with
    | none => return none
    | some child =>
      of (Node.checkShape path s child)
      readFrom path ss child

def read (s : Store) (path : Path) : Guarded (Option Node) :=
  readFrom path path.segments s.root

def descend (path : Path) : List Segment → List Frame → Node → Guarded (List Frame × Node)
  | [], frames, v => return (frames, v)
  | s :: ss, frames, v => do
    let slot ← slot path s v
    match ← child? v slot with
    | some child =>
      of (Node.checkShape path s child)
      descend path ss (⟨v, slot⟩ :: frames) child
    | none => descend path ss (⟨v, slot⟩ :: frames) (Node.fresh s.sigil)

def descend? (path : Path) : List Segment → List Frame → Node → Guarded (Option (List Frame × Node))
  | [], frames, v => return some (frames, v)
  | s :: ss, frames, v => do
    let slot ← slot path s v
    match ← child? v slot with
    | some child =>
      of (Node.checkShape path s child)
      descend? path ss (⟨v, slot⟩ :: frames) child
    | none => return none

def unwind : List Frame → Node → Guarded Node
  | [], v => return v
  | f :: frames, v => do
    let v ← setChild f.parent f.slot v
    unwind frames v

def write (s : Store) (path : Path) (value : Option Node) : Guarded Store := do
  let (frames, container) ← descend path path.inner [] s.root
  let slot ← slot path path.leaf container
  let old ← child? container slot
  match ← of (Node.leafValue path old value) with
  | some v => return ⟨← unwind frames (← setChild container slot v)⟩
  | none => return ⟨← unwind frames (← dropChild container slot)⟩

def delete (s : Store) (path : Path) : Guarded Store := do
  match ← descend? path path.inner [] s.root with
  | none => return s
  | some (frames, container) =>
    let slot ← slot path path.leaf container
    match ← child? container slot with
    | none => return s
    | some _ => return ⟨← unwind frames (← dropChild container slot)⟩

end Guarded

/-! ### Nothing breaks off -/

namespace Guarded

open Node

variable {path : Path} {s : Segment} {ss : List Segment} {frames frames' : List Frame} {v c w : Node} {sl : Slot}

theorem isContainer_of_sigil (h : v.sigil = s.sigil) (hs : s.sigil.isScalar = false) : v.isContainer = true := by
  rw [isContainer, h, hs]
  rfl

theorem isContainer_fresh (t : Sigil) : (fresh t).isContainer = true := by
  cases t <;> rfl

theorem kind_of_slot (h : v.slot path s = .ok sl) : sl.kind = v.sigil := by
  obtain ⟨hv, rfl⟩ | ⟨hv, n, rfl⟩ := slot?_cases (slot_eq_ok.1 h)
  · exact hv.symm
  · exact hv.symm

theorem slot_eq (hv : v.isContainer = true) : slot path s v = of (v.slot path s) :=
  if_pos hv

theorem child?_eq (h : sl.kind = v.sigil) : child? v sl = of (.ok (v.child? sl)) :=
  if_pos h

theorem setChild_eq (h : sl.kind = v.sigil) (w : Node) : setChild v sl w = of (.ok (v.setChild sl w)) :=
  if_pos h

theorem dropChild_eq (h : sl.kind = v.sigil) : dropChild v sl = of (.ok (v.dropChild sl)) :=
  if_pos h

/-- a reading from a container does not break off: what it goes on from is of the kind of an inner segment -/
theorem readFrom_eq (hv : v.isContainer = true) (hss : ∀ s ∈ ss.dropLast, s.sigil.isScalar = false) :
    readFrom path ss v = of (Store.readFrom path ss v) := by
  induction ss generalizing v with
  | nil => rfl
  | cons s ss ih =>
    rw [readFrom, Store.readFrom, slot_eq hv]
    refine of_bind_of fun sl hslot => ?_
    rw [child?_eq (kind_of_slot hslot), of_ok_bind]
    cases v.child? sl with
    | none => rfl
    | some child =>
      refine of_bind_of fun _ hshape => ?_
      -- the last segment may name a scalar, but the reading does not go on from there
      cases ss with
      | nil => rfl
      | cons t ts =>
        rw [List.dropLast_cons_cons, List.forall_mem_cons] at hss
        exact ih (isContainer_of_sigil (checkShape_eq_ok.1 hshape) hss.1) hss.2

theorem descend_eq (hv : v.isContainer = true) (hss : ∀ s ∈ ss, s.sigil.isScalar = false) :
    descend path ss frames v = of (Store.descend path ss frames v) := by
  induction ss generalizing frames v with
  | nil => rfl
  | cons s ss ih =>
    rw [List.forall_mem_cons] at hss
    rw [descend, Store.descend, slot_eq hv]
    refine of_bind_of fun sl hslot => ?_
    rw [child?_eq (kind_of_slot hslot), of_ok_bind]
    cases v.child? sl with
    | none => exact ih (isContainer_fresh s.sigil) hss.2
    | some child =>
      exact of_bind_of fun _ hshape => ih (isContainer_of_sigil (checkShape_eq_ok.1 hshape) hss.1) hss.2

theorem descend?_eq (hv : v.isContainer = true) (hss : ∀ s ∈ ss, s.sigil.isScalar = false) :
    descend? path ss frames v = of (Store.descend? path ss frames v) := by
  induction ss generalizing frames v with
  | nil => rfl
  | cons s ss ih =>
    rw [List.forall_mem_cons] at hss
    rw [descend?, Store.descend?, slot_eq hv]
    refine of_bind_of fun sl hslot => ?_
    rw [child?_eq (kind_of_slot hslot), of_ok_bind]
    cases v.child? sl with
    | none => rfl
    | some child =>
      exact of_bind_of fun _ hshape => ih (isContainer_of_sigil (checkShape_eq_ok.1 hshape) hss.1) hss.2

/-- the way down ends at a container, and every slot on it is one of its container -/
theorem suits_of_descend (hv : v.isContainer = true) (hss : ∀ s ∈ ss, s.sigil.isScalar = false)
    (hf : ∀ f ∈ frames, f.Suits) (h : Store.descend path ss frames v = .ok (frames', c)) :
    (∀ f ∈ frames', f.Suits) ∧ c.isContainer = true := by
  induction ss generalizing frames v with
  | nil =>
    cases h
    exact ⟨hf, hv⟩
  | cons s ss ih =>
    rw [List.forall_mem_cons] at hss
    obtain ⟨sl, hslot, h⟩ := bind_eq_ok.1 h
    have hf' : ∀ f ∈ ⟨v, sl⟩ :: frames, f.Suits := List.forall_mem_cons.2 ⟨kind_of_slot hslot, hf⟩
    cases hc : v.child? sl with
    | none =>
      rw [hc] at h
      exact ih (isContainer_fresh s.sigil) hss.2 hf' h
    | some child =>
      rw [hc] at h
      obtain ⟨_, hshape, h⟩ := bind_eq_ok.1 h
      exact ih (isContainer_of_sigil (checkShape_eq_ok.1 hshape) hss.1) hss.2 hf' h

/-- where no container is missing the two ways down are the same -/
theorem descend_of_descend? {r : List Frame × Node} (h : Store.descend? path ss frames v = .ok (some r)) :
    Store.descend path ss frames v = .ok r := by
  induction ss generalizing frames v with
  | nil =>
    cases h
    rfl
  | cons s ss ih =>
    obtain ⟨sl, hslot, h⟩ := bind_eq_ok.1 h
    refine bind_eq_ok.2 ⟨sl, hslot, ?_⟩
    cases hc : v.child? sl with
    | none =>
      rw [hc] at h
      cases h
    | some child =>
      rw [hc] at h
      obtain ⟨u, hshape, h⟩ := bind_eq_ok.1 h
      exact bind_eq_ok.2 ⟨u, hshape, ih h⟩

theorem unwind_eq (hf : ∀ f ∈ frames, f.Suits) : unwind frames v = of (.ok (Store.unwind frames v)) := by
  induction frames generalizing v with
  | nil => rfl
  | cons f frames ih =>
    rw [List.forall_mem_cons] at hf
    rw [unwind, setChild_eq hf.1, of_ok_bind]
    exact ih hf.2

variable {st : Store} {p : Path}

theorem read_eq (h : st.root.isContainer = true) (p : Path) : read st p = of (st.read p) :=
  readFrom_eq h fun _ hs => Path.isScalar_of_mem_inner hs

theorem write_eq (h : st.root.isContainer = true) (p : Path) (value : Option Node) :
    write st p value = of (st.write p value) := by
  have hinner : ∀ s ∈ p.inner, s.sigil.isScalar = false := fun s hs => Path.isScalar_of_mem_inner hs
  rw [write, Store.write, descend_eq h hinner]
  refine of_bind_of fun r hdescend => ?_
  obtain ⟨frames, c⟩ := r
  obtain ⟨hf, hc⟩ := suits_of_descend h hinner (fun f hf => absurd hf List.not_mem_nil) hdescend
  dsimp only
  rw [slot_eq hc]
  refine of_bind_of fun sl hslot => ?_
  have hsl : sl.kind = c.sigil := kind_of_slot hslot
  rw [child?_eq hsl, of_ok_bind]
  refine of_bind_of fun new _ => ?_
  cases new with
  | some v =>
    dsimp only
    rw [setChild_eq hsl, of_ok_bind, unwind_eq hf]
    rfl
  | none =>
    dsimp only
    rw [dropChild_eq hsl, of_ok_bind, unwind_eq hf]
    rfl

theorem delete_eq (h : st.root.isContainer = true) (p : Path) : delete st p = of (st.delete p) := by
  have hinner : ∀ s ∈ p.inner, s.sigil.isScalar = false := fun s hs => Path.isScalar_of_mem_inner hs
  rw [delete, Store.delete, descend?_eq h hinner]
  refine of_bind_of fun o hdescend => ?_
  cases o with
  | none => rfl
  | some r =>
    obtain ⟨frames, c⟩ := r
    obtain ⟨hf, hc⟩ := suits_of_descend h hinner (fun f hf => absurd hf List.not_mem_nil)
      (descend_of_descend? hdescend)
    dsimp only
    rw [slot_eq hc]
    refine of_bind_of fun sl hslot => ?_
    have hsl : sl.kind = c.sigil := kind_of_slot hslot
    rw [child?_eq hsl, of_ok_bind]
    cases c.child? sl with
    | none => rfl
    | some old =>
      dsimp only
      rw [dropChild_eq hsl, of_ok_bind, unwind_eq hf]
      rfl

end Guarded

/-! ### No error at a scalar -/

/-- whether an error says that a path cannot go on from a scalar -/
def StateError.AtScalar : StateError → Prop
  | .traversal _ _ (.scalar _) => True
  | _ => False

namespace Guarded

open Node

variable {α β : Type} {path : Path} {s : Segment} {v : Node}

/-- a run that does not end at a scalar -/
def Unblocked (x : Guarded α) : Prop :=
  ∀ e, x = of (.error e) → ¬ e.AtScalar

theorem Unblocked.bind {x : Guarded α} {f : α → Guarded β} (hx : x.Unblocked) (hf : ∀ a, (f a).Unblocked) :
    (x >>= f).Unblocked := by
  rcases x with _ | e | a
  · rintro e ⟨⟩
  · rintro e' ⟨⟩
    exact hx e rfl
  · exact hf a

theorem unblocked_of_ok (a : α) : (of (.ok a)).Unblocked := by
  rintro e ⟨⟩

theorem Unblocked.map {x : Except StateError α} (hx : (of x).Unblocked) (f : α → β) : (of (x.map f)).Unblocked := by
  cases x with
  | ok a => exact unblocked_of_ok (f a)
  | error e =>
    rintro e' ⟨⟩
    exact hx e rfl

/-- a guard does not end a run with an error -/
theorem unblocked_ite {p : Prop} [Decidable p] {x : Guarded α} (hx : x.Unblocked) :
    (if p then x else stuck).Unblocked := by
  split
  · exact hx
  · rintro e ⟨⟩

theorem unblocked_checkShape (path : Path) (s : Segment) (v : Node) : (of (checkShape path s v)).Unblocked := by
  unfold checkShape
  split
  · exact unblocked_of_ok ()
  · rintro e ⟨⟩ ⟨⟩

/-- the guard lets no scalar through to the branch of the error -/
theorem unblocked_slot (path : Path) (s : Segment) (v : Node) : (slot path s v).Unblocked := by
  cases v with
  | map es => exact unblocked_of_ok _
  | list vs =>
    rw [slot_eq rfl, Node.slot]
    cases s.index? with
    | some n => exact unblocked_of_ok _
    | none => rintro e ⟨⟩ ⟨⟩
  | _ => rintro e ⟨⟩

theorem unblocked_child? (v : Node) (sl : Slot) : (child? v sl).Unblocked :=
  unblocked_ite (unblocked_of_ok _)

theorem unblocked_setChild (v : Node) (sl : Slot) (w : Node) : (setChild v sl w).Unblocked :=
  unblocked_ite (unblocked_of_ok _)

theorem unblocked_dropChild (v : Node) (sl : Slot) : (dropChild v sl).Unblocked :=
  unblocked_ite (unblocked_of_ok _)

theorem unblocked_coerce (t : Sigil) (v : Node) : (of (coerce t v)).Unblocked := by
  unfold coerce
  split <;> try exact unblocked_of_ok _
  · split
    · exact unblocked_of_ok _
    · rintro e ⟨⟩ ⟨⟩
  · rintro e ⟨⟩ ⟨⟩

theorem unblocked_leafValue (path : Path) (old value : Option Node) : (of (leafValue path old value)).Unblocked := by
  have found (u : Node) : (of (do checkShape path path.leaf u; return some u)).Unblocked := by
    rw [← of_bind_of fun _ _ => rfl]
    exact (unblocked_checkShape path path.leaf u).bind fun _ => unblocked_of_ok _
  unfold leafValue
  split
  · split
    · exact unblocked_of_ok _
    · rintro e ⟨⟩ ⟨⟩
    · exact unblocked_of_ok _
    · exact found _
  · split
    · exact unblocked_of_ok _
    · exact unblocked_of_ok _
    · exact unblocked_of_ok _
    · exact unblocked_of_ok _
    · exact found _
  · cases value with
    | none => exact unblocked_of_ok _
    | some v => exact (unblocked_coerce path.leaf.sigil v).map some

theorem unblocked_readFrom (path : Path) (ss : List Segment) (v : Node) : (readFrom path ss v).Unblocked := by
  induction ss generalizing v with
  | nil => exact unblocked_of_ok _
  | cons s ss ih =>
    refine (unblocked_slot path s v).bind fun sl => (unblocked_child? v sl).bind fun o => ?_
    cases o with
    | none => exact unblocked_of_ok _
    | some child => exact (unblocked_checkShape path s child).bind fun _ => ih child

theorem unblocked_descend (path : Path) (ss : List Segment) (frames : List Frame) (v : Node) :
    (descend path ss frames v).Unblocked := by
  induction ss generalizing frames v with
  | nil => exact unblocked_of_ok _
  | cons s ss ih =>
    refine (unblocked_slot path s v).bind fun sl => (unblocked_child? v sl).bind fun o => ?_
    cases o with
    | none => exact ih _ _
    | some child => exact (unblocked_checkShape path s child).bind fun _ => ih _ _

theorem unblocked_descend? (path : Path) (ss : List Segment) (frames : List Frame) (v : Node) :
    (descend? path ss frames v).Unblocked := by
  induction ss generalizing frames v with
  | nil => exact unblocked_of_ok _
  | cons s ss ih =>
    refine (unblocked_slot path s v).bind fun sl => (unblocked_child? v sl).bind fun o => ?_
    cases o with
    | none => exact unblocked_of_ok _
    | some child => exact (unblocked_checkShape path s child).bind fun _ => ih _ _

theorem unblocked_unwind (frames : List Frame) (v : Node) : (unwind frames v).Unblocked := by
  induction frames generalizing v with
  | nil => exact unblocked_of_ok _
  | cons f frames ih => exact (unblocked_setChild _ _ _).bind ih

theorem unblocked_write (st : Store) (p : Path) (value : Option Node) : (write st p value).Unblocked := by
  refine (unblocked_descend p p.inner [] st.root).bind fun ⟨frames, c⟩ => ?_
  refine (unblocked_slot p p.leaf c).bind fun sl => (unblocked_child? c sl).bind fun old => ?_
  refine (unblocked_leafValue p old value).bind fun new => ?_
  cases new with
  | some v =>
    exact (unblocked_setChild c sl v).bind fun w => (unblocked_unwind frames w).bind fun _ => unblocked_of_ok _
  | none =>
    exact (unblocked_dropChild c sl).bind fun w => (unblocked_unwind frames w).bind fun _ => unblocked_of_ok _

theorem unblocked_delete (st : Store) (p : Path) : (delete st p).Unblocked := by
  refine (unblocked_descend? p p.inner [] st.root).bind fun o => ?_
  cases o with
  | none => exact unblocked_of_ok _
  | some r =>
    refine (unblocked_slot p p.leaf r.2).bind fun sl => (unblocked_child? r.2 sl).bind fun old => ?_
    cases old with
    | none => exact unblocked_of_ok _
    | some _ =>
      exact (unblocked_dropChild r.2 sl).bind fun w => (unblocked_unwind r.1 w).bind fun _ => unblocked_of_ok _

/-- the plain run is the guarded one to its end, and that is not at a scalar -/
def Clear (x : Guarded α) (y : Except StateError α) : Prop :=
  x = of y ∧ ∀ e, y = .error e → ¬ e.AtScalar

theorem Unblocked.clear {x : Guarded α} {y : Except StateError α} (hx : x.Unblocked) (h : x = of y) : x.Clear y :=
  ⟨h, fun e he => hx e (by rw [h, he])⟩

end Guarded

/-! ### Every store that is reached -/

namespace Store

variable {s s' : Store} {p : Path}

/-- the stores that writes and deletions make of the empty store and of the stores of maps -/
inductive Reached : Store → Prop
  | empty : Reached empty
  | ofMap (entries : List (String × Node)) : Reached (ofMap entries)
  | write {s s' : Store} {p : Path} {value : Option Node} (h : Reached s) (hw : s.write p value = .ok s') : Reached s'
  | delete {s s' : Store} {p : Path} (h : Reached s) (hd : s.delete p = .ok s') : Reached s'

theorem Reached.sigil_root (h : s.Reached) : s.root.sigil = .map := by
  induction h with
  | empty => rfl
  | ofMap entries => rfl
  | write _ hw ih => rw [sigil_root_write hw, ih]
  | delete _ hd ih => rw [sigil_root_delete hd, ih]

/-- a reading that finds a value goes on from a child of the kind that the segment names -/
theorem exists_child_of_readFrom {path : Path} {seg : Segment} {ss : List Segment} {v w : Node}
    (h : readFrom path (seg :: ss) v = .ok (some w)) :
    ∃ child, child.sigil = seg.sigil ∧ readFrom path ss child = .ok (some w) := by
  obtain ⟨slot, -, ⟨-, hnone⟩ | ⟨child, -, hkind, h⟩⟩ := readFrom_cons_eq_ok.1 h
  · cases hnone
  · exact ⟨child, hkind, h⟩

theorem sigil_of_readFrom {path : Path} {ss : List Segment} {seg : Segment} {v w : Node}
    (h : readFrom path (ss ++ [seg]) v = .ok (some w)) : w.sigil = seg.sigil := by
  induction ss generalizing v with
  | nil =>
    obtain ⟨child, hchild, h⟩ := exists_child_of_readFrom h
    cases h
    exact hchild
  | cons t ts ih =>
    obtain ⟨child, -, h⟩ := exists_child_of_readFrom h
    exact ih h

theorem sigil_of_read {v : Node} (h : s.read p = .ok (some v)) : v.sigil = p.leaf.sigil := by
  rw [read, ← p.inner_append_leaf] at h
  exact sigil_of_readFrom h

/-- **No path runs into a scalar.**  The root of every store that is reached is a map; on the way of a path a key is
looked up and replaced in maps only and an index in lists only, and nothing is looked up in a scalar; what is read is
of the kind that the last segment names. -/
theorem clear_of_reached (h : s.Reached) :
    s.root.sigil = .map ∧
      ∀ p : Path,
        (Guarded.read s p).Clear (s.read p) ∧ (∀ value, (Guarded.write s p value).Clear (s.write p value)) ∧
          (Guarded.delete s p).Clear (s.delete p) ∧ ∀ v, s.read p = .ok (some v) → v.sigil = p.leaf.sigil := by
  have hroot : s.root.sigil = .map := h.sigil_root
  have hcontainer : s.root.isContainer = true := by
    rw [Node.isContainer, hroot]
    rfl
  refine ⟨hroot, fun p => ⟨?_, fun value => ?_, ?_, fun v hv => sigil_of_read hv⟩⟩
  · exact (Guarded.unblocked_readFrom p p.segments s.root).clear (Guarded.read_eq hcontainer p)
  · exact (Guarded.unblocked_write s p value).clear (Guarded.write_eq hcontainer p value)
  · exact (Guarded.unblocked_delete s p).clear (Guarded.delete_eq hcontainer p)

/-- the title of a store of a map is replaced and its rows get a second item; the store that is reached so is read at
an item -/
theorem clear_of_reached_by_writes :
    (∃ s : Store,
      (ofMap [("rows", .list [.str "a"]), ("title", .str "t")]).write ⟨[⟨.str, "title"⟩], by decide⟩
          (some (.str "u")) = .ok s ∧
        s.write ⟨[⟨.list, "rows"⟩], by decide⟩ (some (.bool true)) =
          .ok ⟨.map [("rows", .list [.str "a", .bool true]), ("title", .str "u")]⟩) ∧
      (Guarded.read ⟨.map [("rows", .list [.str "a", .bool true]), ("title", .str "u")]⟩
        ⟨[⟨.list, "rows"⟩, ⟨.bool, "1"⟩], by decide⟩).Clear (.ok (some (.bool true))) := by
  have htitle : (ofMap [("rows", .list [.str "a"]), ("title", .str "t")]).write ⟨[⟨.str, "title"⟩], by decide⟩
      (some (.str "u")) = .ok ⟨.map [("rows", .list [.str "a"]), ("title", .str "u")]⟩ := by rfl
  have hrows : write ⟨.map [("rows", .list [.str "a"]), ("title", .str "u")]⟩ ⟨[⟨.list, "rows"⟩], by decide⟩
      (some (.bool true)) = .ok ⟨.map [("rows", .list [.str "a", .bool true]), ("title", .str "u")]⟩ := by rfl
  exact ⟨⟨_, htitle, hrows⟩,
    ((clear_of_reached (.write (.write (.ofMap _) htitle) hrows)).2 ⟨[⟨.list, "rows"⟩, ⟨.bool, "1"⟩], by decide⟩).1⟩

end Store

end Dialogue
