import Dialogue.Proofs.Edits

/-!
# Changes that succeed

A path through maps can be read and changed if nothing but maps is on its way:

* `Store.read_eq_of_open`: a reading finds what is under the keys;
* `Store.exists_write_of_open`, `Store.exists_delete_of_open`: a write and a deletion succeed;
* `Store.exists_delete_item`: an item of a list can be taken out of it;
* `Store.fits_write`: what a write goes through are maps after it, too.

The same is said of scoped paths that a snapshot has an open way to (`Snapshot.Reaches`).
-/

namespace Dialogue

namespace Node

open Store

variable {path : Path} {s : Segment} {ss way rest : List Segment} {v v' w : Node} {k : String} {ks ls : List String}
  {t : Sigil}

/-- whether what is under keys, if anything, is of a kind -/
def Fits (v : Node) (ks : List String) (t : Sigil) : Prop :=
  ∀ w, under? ks v = some w → w.sigil = t

/-- whether nothing but maps is on the way along keys -/
def Open (v : Node) (ks : List String) : Prop :=
  ∀ ls, ls <+: ks → v.Fits ls .map

theorem Fits.of_none (h : under? ks v = none) (t : Sigil) : v.Fits ks t := by
  intro w hw
  rw [h] at hw
  cases hw

theorem Fits.of_some (h : under? ks v = some w) : v.Fits ks w.sigil := by
  intro u hu
  rw [h] at hu
  cases hu
  rfl

theorem Open.sigil_eq (h : v.Open ks) : v.sigil = .map :=
  h [] List.nil_prefix v rfl

theorem open_nil_iff : v.Open [] ↔ v.sigil = .map := by
  refine ⟨Open.sigil_eq, fun h ls hls w hw => ?_⟩
  rw [List.prefix_nil.1 hls] at hw
  cases hw
  exact h

theorem open_concat_iff : v.Open (ks ++ [k]) ↔ v.Open ks ∧ v.Fits (ks ++ [k]) .map := by
  constructor
  · exact fun h => ⟨fun ls hls => h ls (hls.trans (List.prefix_append ks [k])), h _ List.prefix_rfl⟩
  · rintro ⟨h, hk⟩ ls hls
    rcases List.prefix_concat_iff.1 hls with rfl | hls
    · exact hk
    · exact h ls hls

theorem under?_singleton (k : String) (v : Node) : under? [k] v = v.child? (.key k) := by
  rw [under?]
  cases v.child? (.key k) <;> rfl

theorem Open.tail {c : Node} (h : v.Open (k :: ks)) (hc : v.child? (.key k) = some c) : c.Open ks := by
  intro ls hls w hw
  refine h (k :: ls) (List.cons_prefix_cons.2 ⟨rfl, hls⟩) w ?_
  rw [under?_cons_of_child? hc, hw]

theorem open_fresh (t : Sigil) (ht : t = .map) (ks : List String) : (fresh t).Open ks := by
  subst ht
  intro ls _ w hw
  cases ls with
  | nil => cases hw; rfl
  | cons l ls =>
    rw [under?_fresh] at hw
    cases hw

/-! ### Along the way -/

theorem readFrom_of_open (hway : v.Open (ss.dropLast.map Segment.key)) (hss : ∀ s ∈ ss.dropLast, s.sigil = .map)
    (hlast : ∀ s ∈ ss.getLast?, v.Fits (ss.map Segment.key) s.sigil) :
    readFrom path ss v = .ok (under? (ss.map Segment.key) v) := by
  induction ss generalizing v with
  | nil => rfl
  | cons s ss ih =>
    have hslot : v.slot? s = some (.key s.key) := slot?_of_map hway.sigil_eq s
    rw [List.map_cons, under?]
    cases hc : v.child? (.key s.key) with
    | none => exact readFrom_cons_of_none hslot hc
    | some c =>
      have hfits (t : Sigil) (ht : v.Fits (s.key :: ss.map Segment.key) t) : c.Fits (ss.map Segment.key) t := by
        intro w hw
        exact ht w (by rw [under?_cons_of_child? hc, hw])
      have hrest : c.sigil = s.sigil ∧ readFrom path ss c = .ok (under? (ss.map Segment.key) c) := by
        cases ss with
        | nil => exact ⟨hfits _ (hlast s (by simp)) c rfl, rfl⟩
        | cons u us =>
          rw [List.dropLast_cons_cons] at hway hss
          rw [List.getLast?_cons_cons] at hlast
          have hc' : c.Open ((u :: us).dropLast.map Segment.key) := hway.tail hc
          exact ⟨hc'.sigil_eq.trans (hss s List.mem_cons_self).symm,
            ih hc' (fun t ht => hss t (List.mem_cons_of_mem _ ht)) fun t ht => hfits _ (hlast t ht)⟩
      rw [readFrom_cons (behind?_eq_some.2 ⟨_, hslot, hc⟩) hrest.1, hrest.2, Option.bind_some]

/-- a change along an open way succeeds if it does so in the map at its end -/
theorem exists_along_of_open {f : Node → Except StateError Node} (hway : v.Open (ss.map Segment.key))
    (hss : ∀ s ∈ ss, s.sigil = .map)
    (hf : ∀ c, c.sigil = .map → (∀ k ks, under? (k :: ks) c = under? (ss.map Segment.key ++ k :: ks) v) →
      ∃ c', f c = .ok c') : ∃ v', along path f ss v = .ok v' := by
  induction ss generalizing v with
  | nil => exact hf v hway.sigil_eq fun k ks => rfl
  | cons s ss ih =>
    have hs : s.sigil = .map := hss s List.mem_cons_self
    have hslot? : v.slot? s = some (.key s.key) := slot?_of_map hway.sigil_eq s
    have hnext : ∃ child, along path f ss (v.enter s) = .ok child := by
      refine ih ?_ (fun t ht => hss t (List.mem_cons_of_mem _ ht)) fun c hc hunder => hf c hc fun k ks => ?_
      · cases hc : v.child? (.key s.key) with
        | none => rw [enter_of_missing hslot? hc]; exact open_fresh _ hs _
        | some c => rw [enter_of_child? hslot? hc]; exact hway.tail hc
      · rw [hunder, List.map_cons, List.cons_append, under?_enter hslot? hway.sigil_eq (by simp)]
    have hkind (c : Node) (hc : v.child? (.key s.key) = some c) : c.sigil = s.sigil :=
      (hway.tail hc).sigil_eq.trans hs.symm
    obtain ⟨child, halong⟩ := hnext
    exact ⟨v.setChild (.key s.key) child, by rw [along_of_slot? hslot? hkind, halong]; rfl⟩

theorem exists_along?_of_open {f : Node → Except StateError (Option Node)} (hway : v.Open (ss.map Segment.key))
    (hss : ∀ s ∈ ss, s.sigil = .map) (hf : ∀ c, c.sigil = .map → ∃ o, f c = .ok o) :
    ∃ o, along? path f ss v = .ok o := by
  induction ss generalizing v with
  | nil => exact hf v hway.sigil_eq
  | cons s ss ih =>
    have hslot : v.slot? s = some (.key s.key) := slot?_of_map hway.sigil_eq s
    cases hc : v.child? (.key s.key) with
    | none => exact ⟨none, along?_of_missing hslot hc⟩
    | some c =>
      have hc' : c.Open (ss.map Segment.key) := hway.tail hc
      have hkind : c.sigil = s.sigil := hc'.sigil_eq.trans (hss s List.mem_cons_self).symm
      obtain ⟨o, halong⟩ := ih hc' fun t ht => hss t (List.mem_cons_of_mem _ ht)
      exact ⟨o.map (v.setChild (.key s.key)), by rw [along?_of_child? hslot hc hkind, halong]; rfl⟩

theorem along_append (path : Path) (f : Node → Except StateError Node) (ss ts : List Segment) (v : Node) :
    along path f (ss ++ ts) v = along path (along path f ts) ss v := by
  induction ss generalizing v with
  | nil => rfl
  | cons s ss ih => simp only [List.cons_append, along, ih]

/-- a map can be written where a map or nothing is, and so can nothing -/
theorem exists_leafValue_of_map {old value : Option Node} (hs : path.leaf.sigil = .map)
    (hold : ∀ v, old = some v → v.sigil = .map) (hvalue : ∀ v, value = some v → v.sigil = .map) :
    ∃ new, leafValue path old value = .ok new := by
  unfold leafValue
  rw [hs]
  cases value with
  | none =>
    cases old with
    | none => exact ⟨_, rfl⟩
    | some u =>
      have hshape : checkShape path path.leaf u = .ok () := checkShape_eq_ok.2 ((hold u rfl).trans hs.symm)
      exact ⟨_, bind_eq_ok.2 ⟨(), hshape, rfl⟩⟩
  | some v =>
    have hv := hvalue v rfl
    cases v with
    | map es => exact ⟨_, rfl⟩
    | _ => cases hv

end Node

namespace Store

open Node

variable {s s' : Store} {p : Path} {value : Option Node} {ks : List String} {t : Sigil}

def Fits (s : Store) (ks : List String) (t : Sigil) : Prop :=
  s.root.Fits ks t

def Open (s : Store) (ks : List String) : Prop :=
  s.root.Open ks

theorem read_eq_of_open (hway : s.Open (p.inner.map Segment.key)) (hp : p.Plain) (hleaf : s.Fits p.keys p.leaf.sigil) :
    s.read p = .ok (s.under? p.keys) := by
  refine readFrom_of_open hway hp fun u hu => ?_
  rw [List.getLast?_eq_some_getLast p.segments_ne_nil, Option.mem_some_iff] at hu
  exact hu ▸ hleaf

theorem exists_write_of_open (hway : s.Open (p.inner.map Segment.key)) (hp : p.Plain)
    (hleaf : ∃ new, leafValue p (s.under? p.keys) value = .ok new) : ∃ s', s.write p value = .ok s' := by
  obtain ⟨new, hnew⟩ := hleaf
  obtain ⟨root, halong⟩ : ∃ root, along p (writeLeaf p value) p.inner s.root = .ok root := by
    refine exists_along_of_open hway hp fun c hc hunder => ?_
    have hslot : c.slot? p.leaf = some (.key p.leaf.key) := slot?_of_map hc p.leaf
    have hold : c.child? (.key p.leaf.key) = s.under? p.keys := by
      rw [under?, p.keys_eq, ← hunder]
      simp [Node.under?]
    rw [← hold] at hnew
    exact ⟨_, writeLeaf_eq_ok.2 ⟨_, new, hslot, hnew, rfl⟩⟩
  exact ⟨⟨root⟩, by rw [write_eq, halong]; rfl⟩

theorem exists_delete_of_open (hway : s.Open (p.inner.map Segment.key)) (hp : p.Plain) :
    ∃ s', s.delete p = .ok s' := by
  obtain ⟨o, halong⟩ : ∃ o, along? p (dropLeaf? p) p.inner s.root = .ok o := by
    refine exists_along?_of_open hway hp fun c hc => ?_
    have hslot : c.slot? p.leaf = some (.key p.leaf.key) := slot?_of_map hc p.leaf
    cases hchild : c.child? (.key p.leaf.key) with
    | none => exact ⟨none, dropLeaf?_eq_ok.2 ⟨_, hslot, .inl ⟨hchild, rfl⟩⟩⟩
    | some w => exact ⟨_, dropLeaf?_eq_ok.2 ⟨_, hslot, .inr ⟨⟨w, hchild⟩, rfl⟩⟩⟩
  exact ⟨_, by rw [delete_eq, halong]; rfl⟩

/-- an item can be taken out of a list at the top -/
theorem exists_delete_item {k : String} {item : Segment} {n : Nat} {vs : List Node} (hroot : s.root.sigil = .map)
    (hp : p.segments = [⟨.list, k⟩, item]) (hlist : s.under? [k] = some (.list vs)) (hindex : item.index? = some n)
    (hn : n < vs.length) : ∃ s', s.delete p = .ok s' ∧ s'.under? [k] = some (.list (vs.eraseIdx n)) := by
  have hinner : p.inner = [⟨.list, k⟩] := by simp [Path.inner, hp]
  have hleaf : p.leaf = item := by simp [Path.leaf, hp]
  have hslot : s.root.slot p ⟨.list, k⟩ = .ok (.key k) := slot_of_map hroot p _
  have hchild : s.root.child? (.key k) = some (.list vs) := by
    rwa [under?, under?_singleton] at hlist
  have hitem : ∃ v, (Node.list vs).child? (.index n) = some v := ⟨vs[n], List.getElem?_eq_getElem hn⟩
  obtain ⟨v, hv⟩ := hitem
  have hdrop : dropLeaf? p (.list vs) = .ok (some (.list (vs.eraseIdx n))) := by
    refine dropLeaf?_eq_ok.2 ⟨.index n, ?_, .inr ⟨⟨v, hv⟩, rfl⟩⟩
    rw [hleaf, slot?, hindex]
    rfl
  have halong : along? p (dropLeaf? p) p.inner s.root =
      .ok (some (s.root.setChild (.key k) (.list (vs.eraseIdx n)))) := by
    rw [hinner]
    refine bind_eq_ok.2 ⟨.key k, hslot, ?_⟩
    rw [hchild]
    refine bind_eq_ok.2 ⟨(), checkShape_eq_ok.2 rfl, bind_eq_ok.2 ⟨_, hdrop, rfl⟩⟩
  refine ⟨⟨s.root.setChild (.key k) (.list (vs.eraseIdx n))⟩, by rw [delete_eq, halong]; rfl, ?_⟩
  rw [under?, under?_setChild_self hroot]
  rfl

/-- a deletion at an item of a list leaves a part of the list -/
theorem items_of_delete {k : String} {item : Segment} {vs : List Node} (hroot : s.root.sigil = .map)
    (hp : p.segments = [⟨.list, k⟩, item]) (hlist : s.under? [k] = some (.list vs)) (h : s.delete p = .ok s') :
    ∃ items, s'.under? [k] = some (.list items) ∧ items.Sublist vs := by
  obtain ⟨o, halong, hs'⟩ := delete_eq_ok h
  rw [show p.inner = [⟨.list, k⟩] by simp [Path.inner, hp]] at halong
  have hchild : s.root.child? (.key k) = some (.list vs) := by
    rwa [under?, under?_singleton] at hlist
  obtain ⟨slot, hslot, hcases⟩ := along?_cons halong
  obtain rfl := eq_key_of_slot? hroot hslot
  obtain ⟨hnone, -⟩ | ⟨child, rest, hc, -, hdrop, rfl⟩ := hcases
  · rw [hchild] at hnone
    cases hnone
  rw [hchild] at hc
  cases hc
  cases rest with
  | none =>
    refine ⟨vs, ?_, List.Sublist.refl vs⟩
    rw [under?, hs']
    exact hlist
  | some child' =>
    obtain ⟨slot, hindex, ⟨-, hnone⟩ | ⟨-, hdrop⟩⟩ := dropLeaf?_eq_ok.1 hdrop
    · cases hnone
    cases hdrop
    obtain ⟨n, -, rfl⟩ := Option.map_eq_some_iff.1 hindex
    refine ⟨vs.eraseIdx n, ?_, List.eraseIdx_sublist vs n⟩
    rw [under?, hs', Option.map_some, Option.getD_some, under?_setChild_self hroot]
    rfl

/-- what a write goes through are maps after it, too -/
theorem fits_write (way : List Segment) {rest : List Segment} (hroot : s.root.sigil = .map) (hp : p.inner = way ++ rest)
    (hway : ∀ u ∈ way, u.sigil = .map) (h : s.write p value = .ok s') : s'.Fits (way.map Segment.key) .map := by
  have halong := write_eq_ok h
  rw [hp, along_append] at halong
  obtain ⟨c, c', hrest, hc, hunder, -⟩ := under?_along hroot hway halong
  have hc' : c'.sigil = .map := (sigil_along (fun _ _ => sigil_writeLeaf) hrest).trans hc
  exact hc' ▸ Fits.of_some hunder

end Store

namespace Snapshot

variable {s s' : Snapshot} {p : ScopedPath} {q : Place} {value : Option Node} {t : Sigil} {k : String} {w : Node}

def Fits (s : Snapshot) (q : Place) (t : Sigil) : Prop :=
  ∀ w, s.under? q = some w → w.sigil = t

theorem Fits.of_eq (h : s.Fits q t) (hq : s'.under? q = s.under? q) : s'.Fits q t := by
  rw [Fits, hq]
  exact h

/-- whether the way of a path is through maps, and nothing but maps is on it -/
structure Reaches (s : Snapshot) (p : ScopedPath) : Prop where
  plain : p.path.Plain
  clear : (s.store p.scope).Open (p.path.inner.map Segment.key)

theorem Reaches.rootedAt (h : s.Reaches p) : s.RootedAt p.scope :=
  h.clear.sigil_eq

theorem reaches_of_rootedAt (h : s.RootedAt p.scope) (hp : p.path.inner = []) : s.Reaches p where
  plain := by
    rw [Path.Plain, hp]
    exact List.forall_mem_nil _
  clear := by
    rw [hp]
    exact Node.open_nil_iff.2 h

theorem reaches_of_fits (h : s.RootedAt p.scope) (hfits : s.Fits (p.scope, [k]) .map)
    (hp : p.path.inner = [⟨.map, k⟩]) : s.Reaches p where
  plain := by
    rw [Path.Plain, hp]
    simp
  clear := by
    rw [hp]
    exact Node.open_concat_iff.2 ⟨Node.open_nil_iff.2 h, hfits⟩

theorem get_eq (h : s.Reaches p) (hleaf : s.Fits p.place p.path.leaf.sigil) : s.get p = .ok (s.under? p.place) :=
  Store.read_eq_of_open h.clear h.plain hleaf

theorem exists_put (h : s.Reaches p) (hleaf : ∃ new, Node.leafValue p.path (s.under? p.place) value = .ok new) :
    ∃ s', s.put p value = .ok s' := by
  obtain ⟨store, hstore⟩ := Store.exists_write_of_open h.clear h.plain hleaf
  exact ⟨_, put_eq_ok.2 ⟨store, hstore, rfl⟩⟩

theorem exists_put_scalar {v : Node} (h : s.Reaches p) (hscalar : p.path.leaf.sigil.isScalar = true)
    (hw : Node.coerce p.path.leaf.sigil v = .ok w) :
    ∃ s', s.put p (some v) = .ok s' ∧ s'.under? p.place = some w := by
  have hleaf : Node.leafValue p.path (s.under? p.place) (some v) = .ok (some w) := by
    rw [Node.leafValue_of_isScalar hscalar, map_eq_ok]
    exact ⟨w, hw, rfl⟩
  obtain ⟨s', hput⟩ := exists_put h ⟨_, hleaf⟩
  exact ⟨s', hput, under?_put_scalar h.rootedAt h.plain hscalar hw hput⟩

theorem exists_remove (h : s.Reaches p) : ∃ s', s.remove p = .ok s' ∧ s'.under? p.place = none := by
  obtain ⟨store, hstore⟩ := Store.exists_delete_of_open h.clear h.plain
  have hremove : s.remove p = .ok (s.withStore p.scope store) := remove_eq_ok.2 ⟨store, hstore, rfl⟩
  exact ⟨_, hremove, under?_remove_of_prefix hremove List.prefix_rfl⟩

/-- what a put goes through are maps after it, too -/
theorem fits_put (way : List Segment) {rest : List Segment} (hs : s.RootedAt p.scope) (hp : p.path.inner = way ++ rest)
    (hway : ∀ u ∈ way, u.sigil = .map) (h : s.put p value = .ok s') :
    s'.Fits (p.scope, way.map Segment.key) .map := by
  obtain ⟨store, hwrite, rfl⟩ := put_eq_ok.1 h
  intro w hw
  rw [under?, store_withStore_self] at hw
  exact Store.fits_write way hs hp hway hwrite w hw

end Snapshot

end Dialogue
