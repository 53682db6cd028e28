import Dialogue.Proofs.Store.Branches
import Dialogue.Proofs.Store.Ordered

/-!
# A container put in another's place

Where every container on the way along segments is there, a change at the end of the way is a change of the last
container alone: it is put in the place of the old one, and nothing else is touched.

* `Node.leads_or_ends` — the way of a deletion that ends well leads to a container, or ends where one is missing;
* `Node.along_of_leads`, `Node.along?_of_leads`, `Node.readFrom_of_leads` — along a way that leads to a container,
  writes, deletions and readings depend on this container only;
* `Node.Leads.graft`, `Node.graft_graft`, `Node.graft_self` — the laws of putting a container in the place of another.
-/

namespace Dialogue

namespace Node

open Store

variable {path : Path} {s : Segment} {ss : List Segment} {slot : Slot} {v w c c' c'' : Node}

/-- segments lead from a value to a container: everything on the way is there, and of the kind that its segment
names -/
inductive Leads : List Segment → Node → Node → Prop
  | nil (v : Node) : Leads [] v v
  | cons {s : Segment} {ss : List Segment} {v w c : Node} (hw : v.behind? s = some w) (hkind : w.sigil = s.sigil)
    (h : Leads ss w c) : Leads (s :: ss) v c

/-- on the way along segments something is missing, and everything before it is of the kind that its segment names -/
inductive Ends : List Segment → Node → Prop
  | here {s : Segment} {ss : List Segment} {v : Node} {slot : Slot} (hslot : v.slot? s = some slot)
    (hnone : v.child? slot = none) : Ends (s :: ss) v
  | there {s : Segment} {ss : List Segment} {v w : Node} (hw : v.behind? s = some w) (hkind : w.sigil = s.sigil)
    (h : Ends ss w) : Ends (s :: ss) v

/-- the value `v` with `c` in the place of the container at the end of segments -/
def graft : List Segment → Node → Node → Node
  | [], _, c => c
  | s :: ss, v, c =>
    match v.slot? s with
    | some slot => v.setChild slot (graft ss (v.enter s) c)
    | none => v

/-! ### One step -/

theorem graft_cons (hslot : v.slot? s = some slot) (hchild : v.child? slot = some w) (c : Node) :
    graft (s :: ss) v c = v.setChild slot (graft ss w c) := by
  rw [graft, hslot, enter_of_child? hslot hchild]

@[simp] theorem slot?_setChild (v : Node) (slot : Slot) (w : Node) (s : Segment) :
    (v.setChild slot w).slot? s = v.slot? s := by
  cases v <;> cases slot <;> rfl

theorem child?_setChild (h : v.child? slot = some w) (c : Node) : (v.setChild slot c).child? slot = some c := by
  cases v with
  | map es =>
    cases slot with
    | key k => exact Entries.get?_insert_self k c es
    | index n => cases h
  | list vs =>
    cases slot with
    | key k => cases h
    | index n =>
      have hlt : n < vs.length := (List.getElem?_eq_some_iff.1 h).1
      simp [setChild, child?, hlt]
  | _ => cases h

/-- of two values that are put in one place the second stays -/
theorem setChild_setChild (h : v.child? slot = some w) (c c' : Node) :
    (v.setChild slot c).setChild slot c' = v.setChild slot c' := by
  cases v with
  | map es =>
    cases slot with
    | key k => exact congrArg Node.map (Entries.insert_insert_self k c' c es)
    | index n => cases h
  | list vs =>
    cases slot with
    | key k => cases h
    | index n =>
      have hlt : n < vs.length := (List.getElem?_eq_some_iff.1 h).1
      simp [setChild, hlt]
  | _ => cases h

theorem setChild_of_child? (hv : v.Ordered) (h : v.child? slot = some w) : v.setChild slot w = v := by
  cases slot with
  | key k => exact setChild_eq_self hv h
  | index n =>
    cases v with
    | list vs =>
      obtain ⟨hlt, hw⟩ := List.getElem?_eq_some_iff.1 h
      simp [setChild, hlt, ← hw]
    | _ => cases h

/-! ### Along the way -/

theorem lead?_of_leads (h : Leads ss v c) : lead? ss v = some c := by
  induction h with
  | nil v => rfl
  | cons hw _ _ ih => rw [lead?, hw, Option.bind_some, ih]

theorem lead?_of_ends (h : Ends ss v) : lead? ss v = none := by
  induction h with
  | here hslot hnone => rw [lead?, behind?, hslot, Option.bind_some, hnone, Option.bind_none]
  | there hw _ _ ih => rw [lead?, hw, Option.bind_some, ih]

theorem along_of_leads (f : Node → Except StateError Node) (h : Leads ss v c) :
    along path f ss v = (f c).map (graft ss v) := by
  induction h with
  | nil v =>
    rw [along]
    cases f v <;> rfl
  | @cons s ss v w c hw hkind _ ih =>
    obtain ⟨slot, hslot, hchild⟩ := behind?_eq_some.1 hw
    rw [along_of_child? hslot hchild hkind, ih]
    cases f c with
    | error e => rfl
    | ok c' => exact congrArg Except.ok (graft_cons hslot hchild c').symm

theorem along?_of_leads (f : Node → Except StateError (Option Node)) (h : Leads ss v c) :
    along? path f ss v = (f c).map (Option.map (graft ss v)) := by
  induction h with
  | nil v =>
    rw [along?]
    cases f v with
    | error e => rfl
    | ok o => cases o <;> rfl
  | @cons s ss v w c hw hkind _ ih =>
    obtain ⟨slot, hslot, hchild⟩ := behind?_eq_some.1 hw
    rw [along?_of_child? hslot hchild hkind, ih]
    cases f c with
    | error e => rfl
    | ok o =>
      cases o with
      | none => rfl
      | some c' => exact congrArg (fun u => Except.ok (some u)) (graft_cons hslot hchild c').symm

theorem readFrom_of_leads (h : Leads ss v c) (q : Path) (ts : List Segment) :
    readFrom q (ss ++ ts) v = readFrom q ts c := by
  induction h with
  | nil v => rfl
  | cons hw hkind _ ih => rw [List.cons_append, readFrom_cons hw hkind, ih]

theorem along?_of_ends (f : Node → Except StateError (Option Node)) (h : Ends ss v) :
    along? path f ss v = .ok none := by
  induction h with
  | here hslot hnone => exact along?_of_missing hslot hnone
  | there hw hkind _ ih =>
    obtain ⟨slot, hslot, hchild⟩ := behind?_eq_some.1 hw
    rw [along?_of_child? hslot hchild hkind, ih]
    rfl

theorem readFrom_of_ends (h : Ends ss v) (q : Path) (ts : List Segment) : readFrom q (ss ++ ts) v = .ok none := by
  induction h with
  | here hslot hnone => exact readFrom_cons_of_none hslot hnone
  | there hw hkind _ ih => rw [List.cons_append, readFrom_cons hw hkind, ih]

/-- **The way of a deletion** that ends well leads to a container, or ends where one is missing. -/
theorem leads_or_ends {f : Node → Except StateError (Option Node)} {o : Option Node}
    (h : along? path f ss v = .ok o) : (∃ c, Leads ss v c) ∨ Ends ss v := by
  induction ss generalizing v o with
  | nil => exact .inl ⟨v, .nil v⟩
  | cons s ss ih =>
    obtain ⟨slot, hslot, ⟨hnone, -⟩ | ⟨w, o', hchild, hkind, halong, -⟩⟩ := along?_cons h
    · exact .inr (.here hslot hnone)
    · have hw : v.behind? s = some w := behind?_eq_some.2 ⟨slot, hslot, hchild⟩
      rcases ih halong with ⟨c, hc⟩ | hends
      · exact .inl ⟨c, .cons hw hkind hc⟩
      · exact .inr (.there hw hkind hends)

/-! ### The laws -/

theorem sigil_graft (h : Leads ss v c) (hc : c'.sigil = c.sigil) : (graft ss v c').sigil = v.sigil := by
  cases h with
  | nil => exact hc
  | cons hw _ _ =>
    obtain ⟨slot, hslot, hchild⟩ := behind?_eq_some.1 hw
    rw [graft_cons hslot hchild, sigil_setChild]

theorem Leads.graft (h : Leads ss v c) (hc : c'.sigil = c.sigil) : Leads ss (graft ss v c') c' := by
  induction h with
  | nil v => exact .nil c'
  | @cons s ss v w c hw hkind h ih =>
    obtain ⟨slot, hslot, hchild⟩ := behind?_eq_some.1 hw
    rw [graft_cons hslot hchild]
    refine .cons (behind?_eq_some.2 ⟨slot, ?_, child?_setChild hchild _⟩) ?_ (ih hc)
    · rw [slot?_setChild, hslot]
    · rw [sigil_graft h hc, hkind]

theorem graft_graft (h : Leads ss v c) (hc : c'.sigil = c.sigil) : graft ss (graft ss v c') c'' = graft ss v c'' := by
  induction h with
  | nil v => rfl
  | @cons s ss v w c hw hkind h ih =>
    obtain ⟨slot, hslot, hchild⟩ := behind?_eq_some.1 hw
    have hslot' : (v.setChild slot (Node.graft ss w c')).slot? s = some slot := by rw [slot?_setChild, hslot]
    rw [graft_cons hslot hchild, graft_cons hslot hchild, graft_cons hslot' (child?_setChild hchild _), ih hc,
      setChild_setChild hchild]

theorem graft_self (hv : v.Ordered) (h : Leads ss v c) : graft ss v c = v := by
  induction h with
  | nil v => rfl
  | cons hw _ _ ih =>
    obtain ⟨slot, hslot, hchild⟩ := behind?_eq_some.1 hw
    rw [graft_cons hslot hchild, ih (hv.child hchild), setChild_of_child? hv hchild]

end Node

end Dialogue
