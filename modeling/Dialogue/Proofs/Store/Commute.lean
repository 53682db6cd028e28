import Dialogue.Proofs.Store.Graft
import Dialogue.Proofs.Store.Open

/-!
# Writes that follow one another

Two writes at paths that part in a map can be made in either order, and the second of two writes at one path takes the
place of the first (`Store.write_write`).

* `Node.Patches` — what a change below a map depends on, and what it does, is under one key of the map;
* `Node.patch_comm` — so two changes under different keys of one map can change places;
* `Node.Within` — a path names the same slots after a write as before it, if no index on it is past the end of its
  list;
* `Node.along_overwrite` — then a second write goes the way of the first.
-/

namespace Dialogue

namespace Node

open Store

variable {path : Path} {s : Segment} {ss ts : List Segment} {slot : Slot} {v v' u w c x y : Node} {j k : String}
  {o o' value : Option Node} {f : Node → Except StateError Node}

/-! ### Changes under one key of a map -/

/-- the map with a value under a key, or with none -/
def patch (v : Node) (k : String) : Option Node → Node
  | some w => v.setChild (.key k) w
  | none => v.dropChild (.key k)

/-- `f` puts `o` under a key of the map `v`, and does so in every map that has the same under this key -/
def Patches (f : Node → Except StateError Node) (k : String) (v : Node) (o : Option Node) : Prop :=
  ∀ u : Node, u.sigil = .map → u.child? (.key k) = v.child? (.key k) → f u = .ok (u.patch k o)

theorem setSlot_key (v : Node) (k : String) (o : Option Node) : v.setSlot (.key k) o = v.patch k o := by
  cases o <;> rfl

@[simp] theorem sigil_patch (v : Node) (k : String) (o : Option Node) : (v.patch k o).sigil = v.sigil := by
  rw [← setSlot_key, sigil_setSlot]

theorem child?_patch_of_ne (h : j ≠ k) (v : Node) (o : Option Node) :
    (v.patch j o).child? (.key k) = v.child? (.key k) := by
  have hslot : Slot.key j ≠ .key k := fun he => h (by injection he)
  rw [← setSlot_key, child?_setSlot_of_ne hslot]

/-- changes under different keys can change places; a removal does so only if the keys are in order -/
theorem patch_comm (hne : j ≠ k) (hv : o = none ∨ o' = none → v.Ordered) :
    (v.patch j o).patch k o' = (v.patch k o').patch j o := by
  cases v with
  | map es =>
    have hsorted (h : o = none ∨ o' = none) : Entries.Sorted es := by
      cases hv h with
      | map hkeys _ => exact hkeys
    cases o with
    | some x =>
      cases o' with
      | some y => exact congrArg Node.map (Entries.insert_comm hne.symm y x es)
      | none => exact congrArg Node.map (Entries.erase_insert_comm (hsorted (.inr rfl)) hne.symm x)
    | none =>
      cases o' with
      | some y => exact congrArg Node.map (Entries.erase_insert_comm (hsorted (.inl rfl)) hne y).symm
      | none => exact congrArg Node.map (Entries.erase_erase_comm k j es)
  | _ => cases o <;> cases o' <;> rfl

/-- a change below a map goes through one key of it -/
theorem patches_along (hv : v.sigil = .map) (h : along path f (s :: ss) v = .ok v') :
    ∃ w, Patches (along path f (s :: ss)) s.key v (some w) := by
  obtain ⟨slot, w, hslot, hkind, halong, -⟩ := along_cons h
  obtain rfl := eq_key_of_slot? hv hslot
  refine ⟨w, fun u hu hsame => ?_⟩
  have hslot' : u.slot? s = some (.key s.key) := slot?_of_map hu s
  have henter : u.enter s = v.enter s := by
    rw [enter, enter, behind?, behind?, hslot', hslot, Option.bind_some, Option.bind_some, hsame]
  rw [along_of_slot? hslot' (by rwa [hsame]), henter, halong]
  rfl

/-- a write in a map is a change under the key of its last segment, and a value that is written leaves one -/
theorem patches_writeLeaf (hv : v.sigil = .map) (h : writeLeaf path value v = .ok v') :
    ∃ o, Patches (writeLeaf path value) path.leaf.key v o ∧ (o = none → value = none) := by
  obtain ⟨slot, o, hslot, ho, -⟩ := writeLeaf_eq_ok.1 h
  obtain rfl := eq_key_of_slot? hv hslot
  refine ⟨o, fun u hu hsame => ?_, ?_⟩
  · rw [← setSlot_key]
    exact writeLeaf_eq_ok.2 ⟨_, o, slot?_of_map hu path.leaf, hsame ▸ ho, rfl⟩
  · rintro rfl
    cases value with
    | none => rfl
    | some w => cases isSome_of_leafValue ho

/-- so is a write that goes on below a map -/
theorem exists_patches (hv : v.sigil = .map) (hleaf : ss = [] → path.leaf = s)
    (h : along path (writeLeaf path value) (s :: ss).dropLast v = .ok v') :
    ∃ o, Patches (along path (writeLeaf path value) (s :: ss).dropLast) s.key v o ∧ (o = none → value = none) := by
  cases ss with
  | nil =>
    rw [← hleaf rfl]
    exact patches_writeLeaf hv h
  | cons t ts =>
    rw [List.dropLast_cons_cons] at h ⊢
    obtain ⟨w, hw⟩ := patches_along hv h
    exact ⟨some w, hw, nofun⟩

/-- the containers that a write goes through are of the kinds that their segments name -/
theorem leads_of_along (h : along path f (ss ++ ts) v = .ok v') (hc : lead? ss v = some c) : Leads ss v c := by
  induction ss generalizing v v' with
  | nil =>
    cases hc
    exact .nil c
  | cons s ss ih =>
    obtain ⟨w, hw, hc⟩ := Option.bind_eq_some_iff.1 hc
    obtain ⟨slot, child, hslot, hkind, halong, -⟩ := along_cons h
    rw [enter, hw, Option.getD_some] at halong
    refine .cons hw (hkind w ?_) (ih halong hc)
    rw [← hw, behind?, hslot, Option.bind_some]

theorem Ordered.of_leads (hv : v.Ordered) (h : Leads ss v c) : c.Ordered := by
  induction h with
  | nil v => exact hv
  | cons hw _ _ ih =>
    obtain ⟨slot, -, hchild⟩ := behind?_eq_some.1 hw
    exact ih (hv.child hchild)

/-! ### A write over another -/

/-- whether a segment that is an index of a list is at most the length of the list -/
def Admits : Node → Segment → Prop
  | .list vs, s => ∀ n, s.index? = some n → n ≤ vs.length
  | _, _ => True

/-- whether no segment is an index past the end of its list, be the list there or made by a write -/
def Within : Node → List Segment → Prop
  | _, [] => True
  | v, s :: ss => v.Admits s ∧ (v.enter s).Within ss

/-- what is put into a slot is found there, and gives way to what is put there next -/
theorem setChild_of_admits (hslot : v.slot? s = some slot) (h : v.Admits s) (x y : Node) :
    (v.setChild slot x).child? slot = some x ∧ (v.setChild slot x).setChild slot y = v.setChild slot y := by
  cases v with
  | map es =>
    cases hslot
    exact ⟨Entries.get?_insert_self _ x es, congrArg Node.map (Entries.insert_insert_self _ y x es)⟩
  | list vs =>
    obtain ⟨n, hn, rfl⟩ := Option.map_eq_some_iff.1 hslot
    have hle : n ≤ vs.length := h n hn
    rcases Nat.lt_or_ge n vs.length with hlt | hge
    · simp [setChild, child?, hlt]
    · -- the first value has become the last item, at this index
      obtain rfl : n = vs.length := by omega
      simp [setChild, child?]
  | _ => cases hslot

theorem leafValue_congr (hleaf : path.leaf.sigil ≠ .list) (old old' : Option Node) (w : Node) :
    leafValue path old (some w) = leafValue path old' (some w) := by
  unfold leafValue
  cases hs : path.leaf.sigil with
  | list => exact absurd hs hleaf
  | map => cases w <;> rfl
  | _ => rfl

theorem writeLeaf_overwrite (hleaf : path.leaf.sigil ≠ .list) (hv : v.Admits path.leaf)
    (hx : writeLeaf path (some x) v = .ok v') (hy : writeLeaf path (some y) v = .ok u) :
    writeLeaf path (some y) v' = .ok u := by
  obtain ⟨slot, a, hslot, ha, rfl⟩ := writeLeaf_eq_ok.1 hx
  obtain ⟨slot', b, hslot', hb, rfl⟩ := writeLeaf_eq_ok.1 hy
  obtain rfl : slot = slot' := Option.some.inj (hslot.symm.trans hslot')
  obtain ⟨a, rfl⟩ := Option.isSome_iff_exists.1 (isSome_of_leafValue ha)
  obtain ⟨b, rfl⟩ := Option.isSome_iff_exists.1 (isSome_of_leafValue hb)
  have hslot' : (v.setChild slot a).slot? path.leaf = some slot := by
    rw [slot?_setChild, hslot]
  rw [leafValue_congr hleaf _ ((v.setChild slot a).child? slot)] at hb
  exact writeLeaf_eq_ok.2 ⟨slot, some b, hslot', hb, (setChild_of_admits hslot hv a b).2.symm⟩

/-- **A second write goes the way of the first**: where this has made a container, it is there, and where it has made
an item of a list, the index is not past the end any more. -/
theorem along_overwrite (hleaf : path.leaf.sigil ≠ .list) (hss : ∀ t ∈ ss, t.sigil.isScalar = false)
    (hv : v.Within (ss ++ [path.leaf])) (hx : along path (writeLeaf path (some x)) ss v = .ok v')
    (hy : along path (writeLeaf path (some y)) ss v = .ok u) :
    along path (writeLeaf path (some y)) ss v' = .ok u := by
  induction ss generalizing v v' u with
  | nil => exact writeLeaf_overwrite hleaf hv.1 hx hy
  | cons s ss ih =>
    obtain ⟨slot, a, hslot, hkind, ha, rfl⟩ := along_cons hx
    obtain ⟨slot', b, hslot', -, hb, rfl⟩ := along_cons hy
    rw [hslot] at hslot'
    cases hslot'
    obtain ⟨hadmits, hwithin⟩ := hv
    have hstep : along path (writeLeaf path (some y)) ss a = .ok b :=
      ih (fun t ht => hss t (List.mem_cons_of_mem s ht)) hwithin ha hb
    have henter : (v.enter s).sigil = s.sigil := sigil_enter (hss s List.mem_cons_self) hslot hkind
    have hsigil : a.sigil = s.sigil := (sigil_along (fun _ _ => sigil_writeLeaf) ha).trans henter
    obtain ⟨hfound, hset⟩ := setChild_of_admits hslot hadmits a b
    have hslot' : (v.setChild slot a).slot? s = some slot := by rw [slot?_setChild, hslot]
    rw [along_of_child? hslot' hfound hsigil, hstep]
    exact congrArg Except.ok hset

end Node

/-! ### Two writes of a store -/

namespace Store

open Node

variable {s s' s₁ s₂ : Store} {p q : Path} {way rest : List Segment} {next : Segment} {c : Node} {j : String}
  {o value : Option Node}

/-- a write below a container that is there changes this container and puts it back in its place -/
theorem write_of_branch (hc : Leads way s.root c) (hp : p.segments = way ++ next :: rest) (value : Option Node) :
    s.write p value =
      (along p (writeLeaf p value) (next :: rest).dropLast c).map fun c' => ⟨graft way s.root c'⟩ := by
  have hinner : p.inner = way ++ (next :: rest).dropLast := by
    rw [Path.inner, hp, List.dropLast_append_of_ne_nil (List.cons_ne_nil next rest)]
  rw [write_eq, hinner, along_append, along_of_leads _ hc]
  cases along p (writeLeaf p value) (next :: rest).dropLast c <;> rfl

/-- a write below a map that is there is a change under one key of the map -/
theorem exists_patches_of_write (hp : p.segments = way ++ next :: rest) (hc : s.root.lead? way = some c)
    (hmap : c.sigil = .map) (h : s.write p value = .ok s') :
    Leads way s.root c ∧ ∃ o, Patches (along p (writeLeaf p value) (next :: rest).dropLast) next.key c o ∧
      (o = none → value = none) ∧ s' = ⟨graft way s.root (c.patch next.key o)⟩ := by
  have hleads : Leads way s.root c := by
    have halong := write_eq_ok h
    rw [Path.inner, hp, List.dropLast_append_of_ne_nil (List.cons_ne_nil next rest)] at halong
    exact leads_of_along halong hc
  refine ⟨hleads, ?_⟩
  rw [write_of_branch hleads hp] at h
  obtain ⟨c', hc', rfl⟩ := map_eq_ok.1 h
  have hleaf : rest = [] → p.leaf = next := by
    intro hrest
    simp [Path.leaf, hp, hrest]
  obtain ⟨o, ho, hnone⟩ := exists_patches hmap hleaf hc'
  have hpatch : c' = c.patch next.key o := by
    rw [ho c hmap rfl] at hc'
    exact (Except.ok.inj hc').symm
  exact ⟨o, ho, hnone, by rw [hpatch]⟩

/-- whatever has been changed under another key of the map, the write is the same change -/
theorem write_of_patches (hleads : Leads way s.root c) (hmap : c.sigil = .map)
    (hp : p.segments = way ++ next :: rest) (hne : j ≠ next.key) {o' : Option Node}
    (h : Patches (along p (writeLeaf p value) (next :: rest).dropLast) next.key c o) :
    write ⟨graft way s.root (c.patch j o')⟩ p value = .ok ⟨graft way s.root ((c.patch j o').patch next.key o)⟩ := by
  have hsigil : (c.patch j o').sigil = c.sigil := sigil_patch c j o'
  have hstep := h (c.patch j o') (hsigil.trans hmap) (child?_patch_of_ne hne c o')
  rw [write_of_branch (hleads.graft hsigil) hp, hstep]
  simp only [Except.map]
  rw [graft_graft hleads hsigil]

/-- **Writes that part in a map can be made in either order.** -/
theorem exists_write_of_fork (k : s.Fork p q) (hmap : k.container.sigil = .map) {v w : Option Node}
    (horder : v = none ∨ w = none → s.root.Ordered) (hv : s.write p v = .ok s₁) (hw : s.write q w = .ok s₂) :
    ∃ t, s₁.write q w = .ok t ∧ s₂.write p v = .ok t := by
  obtain ⟨hleads, o, ho, hnone, rfl⟩ := exists_patches_of_write k.left k.there hmap hv
  obtain ⟨-, o', ho', hnone', rfl⟩ := exists_patches_of_write k.right k.there hmap hw
  have hne : k.next.key ≠ k.other.key := by
    have hparts := k.parts
    cases hc : k.container with
    | map es =>
      rw [hc] at hparts
      exact hparts
    | _ =>
      rw [hc] at hmap
      cases hmap
  have hcomm : (k.container.patch k.next.key o).patch k.other.key o' =
      (k.container.patch k.other.key o').patch k.next.key o :=
    patch_comm hne fun h => (horder (h.imp hnone hnone')).of_leads hleads
  refine ⟨⟨graft k.way s.root ((k.container.patch k.next.key o).patch k.other.key o')⟩, ?_, ?_⟩
  · exact write_of_patches hleads hmap k.right hne ho'
  · rw [hcomm]
    exact write_of_patches hleads hmap k.left hne.symm ho

/-- **A second write takes the place of the first.** -/
theorem write_overwrite (hp : s.root.Within p.segments) (hleaf : p.leaf.sigil ≠ .list) {v w : Node}
    (hv : s.write p (some v) = .ok s₁) (hw : s.write p (some w) = .ok s₂) : s₁.write p (some w) = .ok s₂ := by
  rw [← p.inner_append_leaf] at hp
  have halong : along p (writeLeaf p (some w)) p.inner s₁.root = .ok s₂.root :=
    along_overwrite hleaf (fun t => Path.isScalar_of_mem_inner) hp (write_eq_ok hv) (write_eq_ok hw)
  rw [write_eq, halong]
  rfl

/-- **Two writes, one after the other.**  If their paths part in a map, they can be made in either order, where a write
without a value needs the entries of maps to be in order, as they always are in stores that are built by writes.  If
their paths are the same, the second one leaves what it leaves without the first, unless it appends to a list, or an
index on the path is past the end of its list and names another slot each time. -/
theorem write_write (s : Store) :
    (∀ (p q : Path) (k : s.Fork p q), k.container.sigil = .map → ∀ v w s₁ s₂,
      (v = none ∨ w = none → s.root.Ordered) → s.write p v = .ok s₁ → s.write q w = .ok s₂ →
        ∃ t, s₁.write q w = .ok t ∧ s₂.write p v = .ok t) ∧
      ∀ p : Path, s.root.Within p.segments → p.leaf.sigil ≠ .list → ∀ v w s₁ s₂,
        s.write p (some v) = .ok s₁ → s.write p (some w) = .ok s₂ → s₁.write p (some w) = .ok s₂ := by
  constructor
  · intro p q k hmap v w s₁ s₂ horder hv hw
    exact exists_write_of_fork k hmap horder hv hw
  · intro p hp hleaf v w s₁ s₂ hv hw
    exact write_overwrite hp hleaf hv hw

def rowed : Store :=
  ⟨.map [("rows", .list [.map [("title", .str "t")]])]⟩

def rowTags : Path := ⟨[⟨.list, "rows"⟩, ⟨.map, "0"⟩, ⟨.list, "tags"⟩], by decide⟩

def rowTitle : Path := ⟨[⟨.list, "rows"⟩, ⟨.map, "0"⟩, ⟨.str, "title"⟩], by decide⟩

def nextRowDone : Path := ⟨[⟨.list, "rows"⟩, ⟨.map, "1"⟩, ⟨.str, "done"⟩], by decide⟩

/-- the title of the row is taken away before or after a tag is put beside it, and a second row is written twice -/
theorem write_write_rowed :
    (rowed.write rowTags (some (.str "x")) =
        .ok ⟨.map [("rows", .list [.map [("tags", .list [.str "x"]), ("title", .str "t")]])]⟩ ∧
      rowed.write rowTitle none = .ok ⟨.map [("rows", .list [.map []])]⟩ ∧
      ∃ t, write ⟨.map [("rows", .list [.map [("tags", .list [.str "x"]), ("title", .str "t")]])]⟩ rowTitle none =
          .ok t ∧ write ⟨.map [("rows", .list [.map []])]⟩ rowTags (some (.str "x")) = .ok t) ∧
    rowed.root.Within nextRowDone.segments ∧
      rowed.write nextRowDone (some (.bool true)) =
        .ok ⟨.map [("rows", .list [.map [("title", .str "t")], .map [("done", .str "true")]])]⟩ ∧
      write ⟨.map [("rows", .list [.map [("title", .str "t")], .map [("done", .str "true")]])]⟩ nextRowDone
          (some (.str "no")) =
        .ok ⟨.map [("rows", .list [.map [("title", .str "t")], .map [("done", .str "no")]])]⟩ := by
  obtain ⟨hcomm, hover⟩ := write_write rowed
  have hordered : rowed.root.Ordered := by
    refine .map (show ["rows"].Pairwise (· < ·) by decide) ?_
    simp only [List.mem_singleton, forall_eq]
    refine .list ?_
    simp only [List.mem_singleton, forall_eq]
    refine .map (show ["title"].Pairwise (· < ·) by decide) ?_
    simp only [List.mem_singleton, forall_eq]
    exact .str "t"
  have hfork : ∃ k : rowed.Fork rowTags rowTitle, k.container = .map [("title", .str "t")] :=
    ⟨⟨[⟨.list, "rows"⟩, ⟨.map, "0"⟩], .map [("title", .str "t")], ⟨.list, "tags"⟩, [], ⟨.str, "title"⟩, [],
      rfl, rfl, rfl, (by decide : "tags" ≠ "title")⟩, rfl⟩
  have hwithin : rowed.root.Within nextRowDone.segments := by
    refine ⟨trivial, fun n hn => ?_, trivial, trivial⟩
    cases hn
    decide
  constructor
  · obtain ⟨k, hk⟩ := hfork
    refine ⟨by rfl, by rfl, hcomm _ _ k ?_ _ _ _ _ (fun _ => hordered) (by rfl) (by rfl)⟩
    rw [hk]
    rfl
  · exact ⟨hwithin, by rfl, hover nextRowDone hwithin (by decide) (.bool true) _ _ _ (by rfl) (by rfl)⟩

end Store

end Dialogue
