import Dialogue.Proofs.Entries
import Dialogue.Proofs.Store.Keys
import Dialogue.Proofs.Store.ReadBack

/-!
# Maps in order

The entries of a map are in the order of their keys, in a store and in every value inside it; writes and deletions
keep it so (`Store.ordered_write`, `Store.ordered_delete`).  In such a store a value is written over itself without
any change (`Store.write_eq_self`).
-/

namespace Dialogue

namespace Node

/-- a value in which the entries of every map are in the order of their keys -/
inductive Ordered : Node → Prop
  | bool (b : Bool) : Ordered (.bool b)
  | num (x : Float) : Ordered (.num x)
  | str (s : String) : Ordered (.str s)
  | list {vs : List Node} (h : ∀ v ∈ vs, Ordered v) : Ordered (.list vs)
  | map {es : List (String × Node)} (hkeys : Entries.Sorted es) (h : ∀ e ∈ es, Ordered e.2) : Ordered (.map es)

variable {path : Path} {s : Segment} {ss : List Segment} {slot : Slot} {v v' w : Node}

theorem Ordered.child (hv : v.Ordered) {c : Node} (h : v.child? slot = some c) : c.Ordered := by
  cases hv with
  | list hvs =>
    cases slot with
    | index n => exact hvs c (List.mem_of_getElem? h)
    | key k => cases h
  | map _ hes =>
    cases slot with
    | key k => exact hes (k, c) (Entries.mem_of_get? h)
    | index n => cases h
  | _ => cases h

theorem ordered_setChild (hv : v.Ordered) (hw : w.Ordered) (slot : Slot) : (v.setChild slot w).Ordered := by
  cases hv with
  | @list vs hvs =>
    cases slot with
    | index n =>
      refine .list fun u hu => ?_
      split at hu
      · rcases List.mem_or_eq_of_mem_set hu with hu | rfl
        · exact hvs u hu
        · exact hw
      · rcases List.mem_append.1 hu with hu | hu
        · exact hvs u hu
        · exact List.mem_singleton.1 hu ▸ hw
    | key k => exact .list hvs
  | @map es hkeys hes =>
    cases slot with
    | key k =>
      refine .map (Entries.sorted_insert hkeys k w) fun e he => ?_
      rcases Entries.mem_insert he with rfl | he
      · exact hw
      · exact hes e he
    | index n => exact .map hkeys hes
  | bool b => exact .bool b
  | num x => exact .num x
  | str s => exact .str s

theorem ordered_dropChild (hv : v.Ordered) (slot : Slot) : (v.dropChild slot).Ordered := by
  cases hv with
  | @list vs hvs =>
    cases slot with
    | index n => exact .list fun u hu => hvs u (List.mem_of_mem_eraseIdx hu)
    | key k => exact .list hvs
  | @map es hkeys hes =>
    cases slot with
    | key k => exact .map (Entries.sorted_erase hkeys k) fun e he => hes e (List.mem_of_mem_filter he)
    | index n => exact .map hkeys hes
  | bool b => exact .bool b
  | num x => exact .num x
  | str s => exact .str s

theorem ordered_fresh (t : Sigil) : (fresh t).Ordered := by
  cases t with
  | list => exact .list fun v hv => absurd hv List.not_mem_nil
  | _ => exact .map Entries.sorted_nil fun e he => absurd he List.not_mem_nil

theorem ordered_of_isScalar (h : v.sigil.isScalar = true) : v.Ordered := by
  cases v with
  | bool b => exact .bool b
  | num x => exact .num x
  | str s => exact .str s
  | _ => cases h

theorem ordered_along {f : Node → Except StateError Node} (hf : ∀ c c', c.Ordered → f c = .ok c' → c'.Ordered)
    (hv : v.Ordered) (h : along path f ss v = .ok v') : v'.Ordered := by
  induction ss generalizing v v' with
  | nil => exact hf v v' hv h
  | cons s ss ih =>
    obtain ⟨slot, child, hslot, -, halong, rfl⟩ := along_cons h
    refine ordered_setChild hv (ih ?_ halong) slot
    cases hc : v.child? slot with
    | some c => exact enter_of_child? hslot hc ▸ hv.child hc
    | none => exact enter_of_missing hslot hc ▸ ordered_fresh s.sigil

theorem ordered_listWith {old : Option Node} (hv : v.Ordered) (hold : ∀ u, old = some u → u.Ordered) :
    (v.listWith old).Ordered := by
  have alone : (if v.sigil = .list then v else .list [v]).Ordered := by
    split
    · exact hv
    · exact .list fun u hu => List.mem_singleton.1 hu ▸ hv
  unfold listWith
  split
  · next vs =>
    cases hold _ rfl with
    | list hvs =>
      refine .list fun u hu => ?_
      rcases List.mem_append.1 hu with hu | hu
      · exact hvs u hu
      · exact List.mem_singleton.1 hu ▸ hv
  · exact alone

theorem ordered_leafValue {old value : Option Node} (hold : ∀ v, old = some v → v.Ordered)
    (hvalue : ∀ v, value = some v → v.Ordered) (h : leafValue path old value = .ok (some w)) : w.Ordered := by
  cases hs : path.leaf.sigil.isScalar with
  | true => exact ordered_of_isScalar (by rw [sigil_eq_of_leafValue h, hs])
  | false =>
    cases value with
    | none =>
      obtain ⟨-, hw⟩ := leafValue_none_of_not_isScalar hs h
      cases old with
      | some v =>
        cases hw
        exact hold v rfl
      | none =>
        cases hw
        exact ordered_fresh _
    | some v =>
      cases hsigil : path.leaf.sigil with
      | map =>
        cases leafValue_map_some hsigil h
        exact hvalue w rfl
      | list =>
        cases (leafValue_list_some hsigil h).2
        exact ordered_listWith (hvalue v rfl) hold
      | _ =>
        rw [hsigil] at hs
        cases hs

/-! ### A value over itself -/

theorem setChild_eq_self {k : String} (hv : v.Ordered) (h : v.child? (.key k) = some w) :
    v.setChild (.key k) w = v := by
  cases hv with
  | map hkeys hes => rw [setChild, Entries.insert_eq_self hkeys h]
  | _ => cases h

/-- the slot of a segment whose key is found -/
theorem slot?_of_child?_key (h : v.child? (.key s.key) = some w) (hslot : v.slot? s = some slot) :
    slot = .key s.key :=
  Option.some.inj (hslot.symm.trans (slot?_of_map (sigil_of_child?_key h) s))

/-- along maps, a change that leaves the map at the end of the way as it was leaves everything as it was -/
theorem along_eq_self {f : Node → Except StateError Node} {k : String} {ks : List String} (hv : v.Ordered)
    (hunder : under? (ss.map Segment.key ++ k :: ks) v = some w)
    (hf : ∀ c c', c.Ordered → under? (k :: ks) c = some w → f c = .ok c' → c' = c) (h : along path f ss v = .ok v') :
    v' = v := by
  induction ss generalizing v v' with
  | nil => exact hf v v' hv hunder h
  | cons s ss ih =>
    obtain ⟨slot, child, hslot, -, halong, rfl⟩ := along_cons h
    rw [List.map_cons, List.cons_append, under?, Option.bind_eq_some_iff] at hunder
    obtain ⟨c, hc, hunder⟩ := hunder
    obtain rfl := slot?_of_child?_key hc hslot
    rw [enter_of_child? hslot hc] at halong
    rw [ih (hv.child hc) hunder halong]
    exact setChild_eq_self hv hc

end Node

namespace Store

open Node

variable {s s' : Store} {p : Path} {value : Option Node} {w : Node}

theorem ordered_write (hs : s.root.Ordered) (hvalue : ∀ v, value = some v → v.Ordered) (h : s.write p value = .ok s') :
    s'.root.Ordered := by
  refine ordered_along (fun c c' hc hc' => ?_) hs (write_eq_ok h)
  obtain ⟨slot, new, -, hnew, rfl⟩ := writeLeaf_eq_ok.1 hc'
  cases new with
  | some w => exact ordered_setChild hc (ordered_leafValue (fun v hv => hc.child hv) hvalue hnew) slot
  | none => exact ordered_dropChild hc slot

theorem ordered_delete (hs : s.root.Ordered) (h : s.delete p = .ok s') : s'.root.Ordered := by
  obtain rfl | ⟨f, halong, hf⟩ := eq_or_along_of_delete h
  · exact hs
  · refine ordered_along (fun c c' hc hc' => ?_) hs halong
    obtain ⟨slot, -, rfl⟩ := hf c c' hc'
    exact ordered_dropChild hc slot

/-- **A value over itself changes nothing**, if it is stored as it is. -/
theorem write_eq_self (hs : s.root.Ordered) (hw : s.under? p.keys = some w)
    (hleaf : ∀ new, leafValue p (some w) (some w) = .ok new → new = some w) (h : s.write p (some w) = .ok s') :
    s' = s := by
  rw [under?, p.keys_eq] at hw
  have hroot : s'.root = s.root := by
    refine along_eq_self hs hw (fun c c' hc hw hc' => ?_) (write_eq_ok h)
    obtain ⟨slot, new, hslot, hnew, rfl⟩ := writeLeaf_eq_ok.1 hc'
    have hchild : c.child? (.key p.leaf.key) = some w := by simpa [Node.under?] using hw
    obtain rfl := slot?_of_child?_key hchild hslot
    rw [hchild] at hnew
    obtain rfl := hleaf new hnew
    exact setChild_eq_self hc hchild
  cases s
  cases s'
  cases hroot
  rfl

end Store

end Dialogue
