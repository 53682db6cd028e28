import Dialogue.Proofs.Store.Keys
import Dialogue.Proofs.Store.ReadBack

/-!
# Branches of a store

Two paths can go the same way through maps and lists and part in one of them.  A change at the one leaves alone what
is read at the other, an error as well as a value:

* `Node.readFrom_setChild_of_parts`: what is put into a slot is not seen by a segment that names another one;
* `Node.readFrom_along`: a change below a container is seen below that container only;
* `Store.read_of_fork`: writes, and deletions from a map.
-/

namespace Dialogue

namespace Node

open Store

variable {path q : Path} {s a b : Segment} {ss way rest qs : List Segment} {v v' w c : Node} {slot : Slot}

/-- the value that segments lead to, if every container on the way is there -/
def lead? : List Segment → Node → Option Node
  | [], v => some v
  | s :: ss, v => (v.behind? s).bind (lead? ss)

/-- two segments that part in a container: other keys of a map, or an index of a list other than the one at which a
write puts something, which is the length of the list if it is told to go past the end -/
def Parts : Node → Segment → Segment → Prop
  | .map _, a, b => a.key ≠ b.key
  | .list vs, a, b => ∀ n, a.index? = some n → b.index? ≠ some (min n vs.length)
  | _, _, _ => False

/-! ### One step -/

theorem readFrom_congr (hslot : v'.slot q b = v.slot q b)
    (hchild : ∀ slot, v.slot? b = some slot → v'.child? slot = v.child? slot) :
    readFrom q (b :: qs) v' = readFrom q (b :: qs) v := by
  rw [readFrom, readFrom, hslot]
  cases h : v.slot q b with
  | error e => rfl
  | ok slot => simp only [bind, Except.bind, hchild slot (slot_eq_ok.1 h)]

/-- what is put into a slot is not seen by a segment that parts from the one that names the slot -/
theorem readFrom_setChild_of_parts (hslot : v.slot? a = some slot) (h : v.Parts a b) (w : Node) :
    readFrom q (b :: qs) (v.setChild slot w) = readFrom q (b :: qs) v := by
  cases v with
  | map es =>
    cases hslot
    refine readFrom_congr rfl fun slot hb => ?_
    cases hb
    exact child?_setChild_of_ne (fun hk => h (by injection hk)) w
  | list vs =>
    obtain ⟨n, hn, rfl⟩ := Option.map_eq_some_iff.1 hslot
    refine readFrom_congr rfl fun slot hb => ?_
    obtain ⟨m, hm, rfl⟩ := Option.map_eq_some_iff.1 hb
    have hne : m ≠ min n vs.length := fun he => h n hn (he ▸ hm)
    change (if n < vs.length then vs.set n w else vs ++ [w])[m]? = vs[m]?
    split
    · next hlt => rw [List.getElem?_set_ne (by omega)]
    · next hge =>
      -- the new item is the last one, and no other index is added
      rcases Nat.lt_or_ge m vs.length with hlt | hle
      · rw [List.getElem?_append_left hlt]
      · rw [List.getElem?_eq_none (by simp; omega), List.getElem?_eq_none hle]
  | _ => cases hslot

/-- what is taken out of a map is not seen by a segment that parts from the one that names it -/
theorem readFrom_dropChild_of_parts (hv : v.sigil = .map) (hslot : v.slot? a = some slot) (h : v.Parts a b) :
    readFrom q (b :: qs) (v.dropChild slot) = readFrom q (b :: qs) v := by
  cases v with
  | map es =>
    cases hslot
    refine readFrom_congr rfl fun slot hb => ?_
    cases hb
    exact child?_dropChild_of_ne fun hk => h (by injection hk)
  | _ => cases hv

/-! ### The common way -/

theorem settled_of_behind? (h : v.behind? s = some w) : s.settled v = s := by
  obtain ⟨slot, hslot, hchild⟩ := Option.bind_eq_some_iff.1 h
  cases v with
  | list vs =>
    obtain ⟨n, hn, rfl⟩ := Option.map_eq_some_iff.1 hslot
    have hlt : n < vs.length := (List.getElem?_eq_some_iff.1 hchild).1
    simp [Segment.settled, hn, hlt]
  | _ => rfl

/-- a change at the end of segments is a change of the container that they lead to, and both readings go through it -/
theorem readFrom_along {f : Node → Except StateError Node} (hf : ∀ c c', f c = .ok c' → c'.sigil = c.sigil)
    (hway : lead? way v = some c) (h : along path f (way ++ rest) v = .ok v') :
    ∃ c', along path f rest c = .ok c' ∧
      ∀ q qs, readFrom q (way ++ qs) v = readFrom q qs c ∧ readFrom q (way ++ qs) v' = readFrom q qs c' := by
  induction way generalizing v v' with
  | nil =>
    cases hway
    exact ⟨v', h, fun q qs => ⟨rfl, rfl⟩⟩
  | cons s way ih =>
    obtain ⟨w, hbehind, hway⟩ := Option.bind_eq_some_iff.1 hway
    obtain ⟨slot, child, hslot, hshape, halong, rfl⟩ := along_cons h
    have hw : w.sigil = s.sigil := by
      rw [behind?, hslot] at hbehind
      exact hshape w hbehind
    have hbehind' : (v.setChild slot child).behind? s = some child := by
      have hset := behind?_setChild hslot child
      rwa [settled_of_behind? hbehind] at hset
    rw [enter, hbehind, Option.getD_some] at halong
    obtain ⟨c', hc', hread⟩ := ih hway halong
    refine ⟨c', hc', fun q qs => ?_⟩
    rw [List.cons_append, readFrom_cons hbehind hw, readFrom_cons hbehind' ((sigil_along hf halong).trans hw)]
    exact hread q qs

/-- a change below a container, along a segment and what follows it, is not seen along one that parts from it; `hlast`
says so of the container that is changed itself -/
theorem readFrom_along_of_parts {f : Node → Except StateError Node} (hf : ∀ c c', f c = .ok c' → c'.sigil = c.sigil)
    (hway : lead? way v = some c) (hparts : c.Parts a b)
    (hlast : rest = [] → ∀ c', f c = .ok c' → readFrom q (b :: qs) c' = readFrom q (b :: qs) c)
    (h : along path f (way ++ (a :: rest).dropLast) v = .ok v') :
    readFrom q (way ++ b :: qs) v' = readFrom q (way ++ b :: qs) v := by
  obtain ⟨c', hc', hread⟩ := readFrom_along hf hway h
  rw [(hread q (b :: qs)).1, (hread q (b :: qs)).2]
  cases rest with
  | nil => exact hlast rfl c' hc'
  | cons t ts =>
    rw [List.dropLast_cons_cons] at hc'
    obtain ⟨slot, child, hslot, -, -, rfl⟩ := along_cons hc'
    exact readFrom_setChild_of_parts hslot hparts child

end Node

/-! ### Two paths -/

namespace Store

open Node

variable {s s' : Store} {p q : Path}

/-- where two paths part in a store: the same segments `way` lead both of them to a container that is there, and they
go on in it by the segments `next` and `other`, which part in it -/
structure Fork (s : Store) (p q : Path) where
  /-- what the paths have in common -/
  way : List Segment
  /-- the container in which they part -/
  container : Node
  /-- where the first path goes on -/
  next : Segment
  /-- the segments that follow it -/
  rest : List Segment
  /-- where the second path goes on -/
  other : Segment
  /-- the segments that follow it -/
  otherRest : List Segment
  left : p.segments = way ++ next :: rest
  right : q.segments = way ++ other :: otherRest
  there : s.root.lead? way = some container
  parts : container.Parts next other

namespace Fork

variable (k : s.Fork p q)

include k

theorem inner_eq : p.inner = k.way ++ (k.next :: k.rest).dropLast := by
  rw [Path.inner, k.left, List.dropLast_append_of_ne_nil (List.cons_ne_nil _ _)]

theorem leaf_eq (hrest : k.rest = []) : p.leaf = k.next := by
  simp [Path.leaf, k.left, hrest]

theorem lead_inner (hrest : k.rest = []) : s.root.lead? p.inner = some k.container := by
  rw [k.inner_eq, hrest, List.dropLast_singleton, List.append_nil, k.there]

/-- what a change along the first path leaves at the second, if it does so in the container where they part -/
theorem read_eq_of_along {f : Node → Except StateError Node} (hf : ∀ c c', f c = .ok c' → c'.sigil = c.sigil)
    (hlast : k.rest = [] → ∀ c', f k.container = .ok c' →
      readFrom q (k.other :: k.otherRest) c' = readFrom q (k.other :: k.otherRest) k.container)
    (h : along p f p.inner s.root = .ok s'.root) : s'.read q = s.read q := by
  rw [k.inner_eq] at h
  rw [read, read, k.right]
  exact readFrom_along_of_parts hf k.there k.parts hlast h

end Fork

/-- **Other branches stay.**  What is read at a path, be it an error, is the same before and after a write at a path
that parts from it, and before and after a deletion there that takes something out of a map. -/
theorem read_of_fork (k : s.Fork p q) :
    (∀ v, s.write p (some v) = .ok s' → s'.read q = s.read q) ∧
      ((∀ c, s.root.lead? p.inner = some c → c.sigil = .map) → s.delete p = .ok s' → s'.read q = s.read q) := by
  constructor
  · intro v h
    refine k.read_eq_of_along (fun _ _ => sigil_writeLeaf) (fun hrest c' hc' => ?_) (write_eq_ok h)
    obtain ⟨slot, new, hslot, hnew, rfl⟩ := writeLeaf_eq_ok.1 hc'
    rw [k.leaf_eq hrest] at hslot
    -- a write of a value leaves a value, so nothing is taken out of a list
    obtain ⟨w, rfl⟩ := Option.isSome_iff_exists.1 (isSome_of_leafValue hnew)
    exact readFrom_setChild_of_parts hslot k.parts w
  · intro hmap h
    obtain rfl | ⟨f, halong, hf⟩ := eq_or_along_of_delete h
    · rfl
    · refine k.read_eq_of_along (fun c c' hc => ?_) (fun hrest c' hc' => ?_) halong
      · obtain ⟨slot, -, rfl⟩ := hf c c' hc
        exact sigil_dropChild c slot
      · obtain ⟨slot, hslot, rfl⟩ := hf _ c' hc'
        rw [k.leaf_eq hrest] at hslot
        exact readFrom_dropChild_of_parts (hmap _ (k.lead_inner hrest)) hslot k.parts

/-- index `7` appends to a list of one item, and a title is deleted beside the list: both times a reading of the item
as a number is the error that it was -/
theorem read_of_fork_in_rows :
    (write ⟨.map [("rows", .list [.str "a"]), ("title", .str "t")]⟩
        ⟨[⟨.list, "rows"⟩, ⟨.map, "7"⟩, ⟨.str, "done"⟩], by decide⟩ (some (.bool true)) =
      .ok ⟨.map [("rows", .list [.str "a", .map [("done", .str "true")]]), ("title", .str "t")]⟩ ∧
    read ⟨.map [("rows", .list [.str "a", .map [("done", .str "true")]]), ("title", .str "t")]⟩
        ⟨[⟨.list, "rows"⟩, ⟨.num, "0"⟩], by decide⟩ =
      read ⟨.map [("rows", .list [.str "a"]), ("title", .str "t")]⟩ ⟨[⟨.list, "rows"⟩, ⟨.num, "0"⟩], by decide⟩) ∧
    delete ⟨.map [("rows", .list [.str "a"]), ("title", .str "t")]⟩ ⟨[⟨.str, "title"⟩], by decide⟩ =
      .ok ⟨.map [("rows", .list [.str "a"])]⟩ ∧
    read ⟨.map [("rows", .list [.str "a"])]⟩ ⟨[⟨.list, "rows"⟩, ⟨.num, "0"⟩], by decide⟩ =
      read ⟨.map [("rows", .list [.str "a"]), ("title", .str "t")]⟩ ⟨[⟨.list, "rows"⟩, ⟨.num, "0"⟩], by decide⟩ := by
  have hwrite : write ⟨.map [("rows", .list [.str "a"]), ("title", .str "t")]⟩
        ⟨[⟨.list, "rows"⟩, ⟨.map, "7"⟩, ⟨.str, "done"⟩], by decide⟩ (some (.bool true)) =
      .ok ⟨.map [("rows", .list [.str "a", .map [("done", .str "true")]]), ("title", .str "t")]⟩ := by rfl
  have hdelete : delete ⟨.map [("rows", .list [.str "a"]), ("title", .str "t")]⟩ ⟨[⟨.str, "title"⟩], by decide⟩ =
      .ok ⟨.map [("rows", .list [.str "a"])]⟩ := by rfl
  refine ⟨⟨hwrite, (read_of_fork ?_).1 _ hwrite⟩, hdelete, (read_of_fork ?_).2 (fun c hc => ?_) hdelete⟩
  · exact ⟨[⟨.list, "rows"⟩], .list [.str "a"], ⟨.map, "7"⟩, [⟨.str, "done"⟩], ⟨.num, "0"⟩, [], rfl, rfl, rfl,
      fun n hn h => by cases hn; cases h⟩
  · exact ⟨[], _, ⟨.str, "title"⟩, [], ⟨.list, "rows"⟩, [⟨.num, "0"⟩], rfl, rfl, rfl,
      (by decide : "title" ≠ "rows")⟩
  · cases hc
    rfl

end Store

end Dialogue
