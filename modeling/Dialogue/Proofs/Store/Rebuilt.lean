import Dialogue.Proofs.Store.Graft

/-!
# Stores rebuilt from the inside

A write and a deletion note the containers that they pass on the way down, and put them back afterwards, the innermost
first.  Here is the recursion on the whole path that they stand for: it calls itself for the child that the next
segment names, and makes the container anew when the call returns.

* `Node.along_writeLeaf`, `Node.along?_dropLeaf?` — changes of the container at the end of the inner segments are this
  recursion;
* `Node.dropAt_eq` — a deletion with nothing to do may as well rebuild every container on its way, if the entries of
  every map are in order;
* `Store.changes_rebuilt` — the frames of a write and of a deletion give the store or the error of the recursion.
-/

namespace Dialogue

namespace Node

variable {path : Path} {ss : List Segment} {v : Node}

/-! ### The recursion -/

/-- the container `v` with `value` written at the end of segments; a missing container is a fresh one -/
def writeAt (path : Path) (value : Option Node) : List Segment → Node → Except StateError Node
  | [], v => .ok v
  | [s], v => do
    let slot ← v.slot path s
    match ← leafValue path (v.child? slot) value with
    | some w => return v.setChild slot w
    | none => return v.dropChild slot
  | s :: t :: ss, v => do
    let slot ← v.slot path s
    match v.child? slot with
    | some child =>
      checkShape path s child
      return v.setChild slot (← writeAt path value (t :: ss) child)
    | none => return v.setChild slot (← writeAt path value (t :: ss) (fresh s.sigil))

/-- the container `v` without what is at the end of segments; a container whose child is missing is left as it is, and
the ones around it are made anew all the same -/
def dropAt (path : Path) : List Segment → Node → Except StateError Node
  | [], v => .ok v
  | [s], v => do
    let slot ← v.slot path s
    match v.child? slot with
    | some _ => return v.dropChild slot
    | none => return v
  | s :: t :: ss, v => do
    let slot ← v.slot path s
    match v.child? slot with
    | some child =>
      checkShape path s child
      return v.setChild slot (← dropAt path (t :: ss) child)
    | none => return v

/-- the container `v` without what is at the end of segments; nothing where a child is missing, and so nothing in the
containers around it -/
def dropAt? (path : Path) : List Segment → Node → Except StateError (Option Node)
  | [], _ => .ok none
  | [s], v => do
    let slot ← v.slot path s
    match v.child? slot with
    | some _ => return some (v.dropChild slot)
    | none => return none
  | s :: t :: ss, v => do
    let slot ← v.slot path s
    match v.child? slot with
    | some child =>
      checkShape path s child
      return (← dropAt? path (t :: ss) child).map (v.setChild slot)
    | none => return none

/-! ### Changes of the last container -/

/-- a write in the container at the end of segments is the recursion on these segments and the last one -/
theorem along_writeLeaf (path : Path) (value : Option Node) (ss : List Segment) (v : Node) :
    along path (writeLeaf path value) ss v = writeAt path value (ss ++ [path.leaf]) v := by
  induction ss generalizing v with
  | nil => rfl
  | cons s ss ih =>
    -- the last segment follows, so that this one is before the last
    obtain ⟨t, ts, hts⟩ : ∃ t ts, ss ++ [path.leaf] = t :: ts := List.exists_cons_of_ne_nil (by simp)
    rw [along, List.cons_append, hts, writeAt, ← hts]
    refine bind_congr fun slot => ?_
    cases v.child? slot <;> simp only [ih]

/-- so is a deletion in this container -/
theorem along?_dropLeaf? (path : Path) (ss : List Segment) (v : Node) :
    along? path (dropLeaf? path) ss v = dropAt? path (ss ++ [path.leaf]) v := by
  induction ss generalizing v with
  | nil =>
    refine bind_congr fun slot => ?_
    cases v.child? slot <;> rfl
  | cons s ss ih =>
    obtain ⟨t, ts, hts⟩ : ∃ t ts, ss ++ [path.leaf] = t :: ts := List.exists_cons_of_ne_nil (by simp)
    rw [along?, List.cons_append, hts, dropAt?, ← hts]
    refine bind_congr fun slot => ?_
    cases v.child? slot <;> simp only [ih]

/-- where nothing is to do, the containers that are made anew are what they were -/
theorem dropAt_eq (hv : v.Ordered) : dropAt path ss v = (dropAt? path ss v).map fun o => o.getD v := by
  fun_induction dropAt? path ss v with
  | case1 v => rfl
  | case2 s v =>
    rw [dropAt]
    cases v.slot path s with
    | error e => rfl
    | ok slot => cases hc : v.child? slot <;> simp [hc, bind, Except.bind, pure, Except.pure, Except.map]
  | case3 s t ss v ih =>
    rw [dropAt]
    cases v.slot path s with
    | error e => rfl
    | ok slot =>
      cases hc : v.child? slot with
      | none => simp [hc, bind, Except.bind, pure, Except.pure, Except.map]
      | some child =>
        have hself : v.setChild slot child = v := setChild_of_child? hv hc
        simp only [hc, bind, Except.bind, ih child (hv.child hc)]
        cases checkShape path s child with
        | error e => rfl
        | ok _ =>
          cases dropAt? path (t :: ss) child with
          | error e => rfl
          | ok o =>
            cases o with
            | none =>
              -- nothing is done below, and the child is put back as it was
              exact congrArg Except.ok hself
            | some child' => rfl

end Node

namespace Store

open Node

/-- **The frames of a change do what the recursion does.**  A write is the recursion that makes missing containers,
with the same store or the same error.  A deletion is the recursion that does nothing where a child is missing; in a
store with maps in order it is also the one that then makes every container around the missing child anew. -/
theorem changes_rebuilt (s : Store) (path : Path) :
    (∀ value, s.write path value = (writeAt path value path.segments s.root).map Store.mk) ∧
      s.delete path = (dropAt? path path.segments s.root).map (fun o => (o.map Store.mk).getD s) ∧
      (s.root.Ordered → s.delete path = (dropAt path path.segments s.root).map Store.mk) := by
  have hdelete : s.delete path = (dropAt? path path.segments s.root).map fun o => (o.map Store.mk).getD s := by
    rw [delete_eq, along?_dropLeaf?, path.inner_append_leaf]
  refine ⟨fun value => ?_, hdelete, fun hs => ?_⟩
  · rw [write_eq, along_writeLeaf, path.inner_append_leaf]
  · rw [hdelete, dropAt_eq hs]
    cases dropAt? path path.segments s.root with
    | error e => rfl
    | ok o => cases o <;> rfl

def shelf : Store :=
  ⟨.map [("rows", .list [.map [("name", .str "a")]]), ("title", .str "t")]⟩

def lateName : Path :=
  ⟨[⟨.list, "rows"⟩, ⟨.map, "7"⟩, ⟨.str, "name"⟩], by decide⟩

def firstSize : Path :=
  ⟨[⟨.list, "rows"⟩, ⟨.map, "0"⟩, ⟨.num, "size"⟩], by decide⟩

def titleLong : Path :=
  ⟨[⟨.map, "title"⟩, ⟨.bool, "long"⟩], by decide⟩

/-- the name far past the end is written in a fresh last row; the size of the first row is not there, and the row and
the rows that are made anew around it are what they were; the way through the title ends in an error -/
theorem changes_rebuilt_shelf :
    shelf.root.Ordered ∧
      writeAt lateName (some (.str "b")) lateName.segments shelf.root =
        .ok (.map [("rows", .list [.map [("name", .str "a")], .map [("name", .str "b")]]), ("title", .str "t")]) ∧
      shelf.write lateName (some (.str "b")) =
        .ok ⟨.map [("rows", .list [.map [("name", .str "a")], .map [("name", .str "b")]]), ("title", .str "t")]⟩ ∧
      dropAt firstSize firstSize.segments shelf.root = .ok shelf.root ∧ shelf.delete firstSize = .ok shelf ∧
      shelf.delete titleLong = .error (.traversal titleLong ⟨.map, "title"⟩ (.shape .map .str)) := by
  have hordered : shelf.root.Ordered := by
    refine .map (show ["rows", "title"].Pairwise (· < ·) by decide) ?_
    simp only [List.mem_cons, List.not_mem_nil, or_false, forall_eq_or_imp, forall_eq]
    refine ⟨.list ?_, .str "t"⟩
    simp only [List.mem_cons, List.not_mem_nil, or_false, forall_eq]
    refine .map (show ["name"].Pairwise (· < ·) by decide) ?_
    simp only [List.mem_cons, List.not_mem_nil, or_false, forall_eq]
    exact .str "a"
  have hwrite : writeAt lateName (some (.str "b")) lateName.segments shelf.root =
      .ok (.map [("rows", .list [.map [("name", .str "a")], .map [("name", .str "b")]]), ("title", .str "t")]) := by
    rfl
  have hdrop : dropAt firstSize firstSize.segments shelf.root = .ok shelf.root := by rfl
  refine ⟨hordered, hwrite, ?_, hdrop, ?_, ?_⟩
  · rw [(changes_rebuilt shelf lateName).1, hwrite]
    rfl
  · rw [(changes_rebuilt shelf firstSize).2.2 hordered, hdrop]
    rfl
  · rw [(changes_rebuilt shelf titleLong).2.1]
    rfl

end Store

end Dialogue
