import Dialogue.Proofs.Store.Graft

/-!
# What is deleted

A deletion takes an item out of a list, or a value out of a map, if the way to it is there; otherwise it changes
nothing.

* `Node.dropChild_of_writeLeaf`, `Node.writeLeaf_none` — how a removal goes with writes in one container;
* `Store.delete_of_leads`, `Store.write_of_leads` — the changes of a store are those of the container at the end of
  the way;
* `Store.gone_of_delete` — what a deletion leaves, what a second one does, and how deletions go with writes at the
  same path.
-/

namespace Dialogue

/-! ### One container -/

namespace Node

variable {path : Path} {slot : Slot} {v c c' : Node} {value : Option Node}

/-- what is written under a key is taken out with what was there before -/
theorem dropChild_setChild_key (v : Node) (k : String) (w : Node) :
    (v.setChild (.key k) w).dropChild (.key k) = v.dropChild (.key k) := by
  cases v with
  | map es => exact congrArg Node.map (Entries.erase_insert_self k w es)
  | _ => rfl

theorem dropChild_dropChild_key (v : Node) (k : String) :
    (v.dropChild (.key k)).dropChild (.key k) = v.dropChild (.key k) :=
  dropChild_eq_self (child?_dropChild_self v k)

/-- a container without what is in the slot that the last segment of a path names -/
def Removed (path : Path) (c c' : Node) : Prop :=
  ∃ slot, c.slot? path.leaf = some slot ∧ c' = c.dropChild slot

/-- the slot of the last segment in a map -/
theorem removed_iff_of_map (hc : c.sigil = .map) : Removed path c c' ↔ c' = c.dropChild (.key path.leaf.key) := by
  cases c with
  | map es => simp [Removed, slot?]
  | _ => cases hc

/-- what a write does to a map is undone with the value -/
theorem dropChild_of_writeLeaf (hc : c.sigil = .map) (h : writeLeaf path value c = .ok c') :
    c'.dropChild (.key path.leaf.key) = c.dropChild (.key path.leaf.key) := by
  obtain ⟨slot, new, hslot, -, rfl⟩ := writeLeaf_eq_ok.1 h
  obtain rfl := eq_key_of_slot? hc hslot
  cases new with
  | some w => exact dropChild_setChild_key c path.leaf.key w
  | none => exact dropChild_dropChild_key c path.leaf.key

theorem writeLeaf_none (hleaf : path.leaf.sigil.isScalar = true) (h : Removed path c c') :
    writeLeaf path none c = .ok c' := by
  obtain ⟨slot, hslot, rfl⟩ := h
  exact writeLeaf_eq_ok.2 ⟨slot, none, hslot, leafValue_of_isScalar hleaf none, rfl⟩

end Node

/-! ### A store -/

namespace Store

open Node

variable {s s' s₁ : Store} {p : Path} {c c' : Node} {value : Option Node}

theorem write_of_leads (h : Leads p.inner s.root c) (value : Option Node) :
    s.write p value = (writeLeaf p value c).map fun c' => ⟨graft p.inner s.root c'⟩ := by
  rw [write_eq, along_of_leads _ h]
  cases writeLeaf p value c <;> rfl

theorem delete_of_leads (h : Leads p.inner s.root c) :
    s.delete p = (dropLeaf? p c).map fun o => (o.map fun c' => ⟨graft p.inner s.root c'⟩).getD s := by
  rw [delete_eq, along?_of_leads _ h]
  cases dropLeaf? p c with
  | error e => rfl
  | ok o => cases o <;> rfl

theorem delete_of_ends (h : Ends p.inner s.root) : s.delete p = .ok s := by
  rw [delete_eq, along?_of_ends _ h]
  rfl

theorem read_of_leads (h : Leads p.inner s.root c) : s.read p = readFrom p [p.leaf] c := by
  rw [read, ← p.inner_append_leaf, readFrom_of_leads h]

theorem read_of_ends (h : Ends p.inner s.root) : s.read p = .ok none := by
  rw [read, ← p.inner_append_leaf, readFrom_of_ends h]

theorem leads_or_ends_of_delete (h : s.delete p = .ok s₁) :
    (∃ c, Leads p.inner s.root c) ∨ Ends p.inner s.root := by
  obtain ⟨o, halong, -⟩ := delete_eq_ok h
  exact leads_or_ends halong

/-- where the way leads to a container, a deletion removes something from it or does nothing at all -/
theorem cases_of_delete (hc : Leads p.inner s.root c) (h : s.delete p = .ok s₁) :
    ∃ slot, c.slot? p.leaf = some slot ∧
      (c.child? slot = none ∧ s₁ = s ∨
        (c.child? slot).isSome = true ∧ s₁ = ⟨graft p.inner s.root (c.dropChild slot)⟩) := by
  rw [delete_of_leads hc] at h
  obtain ⟨o, ho, h⟩ := map_eq_ok.1 h
  obtain ⟨slot, hslot, ⟨hnone, rfl⟩ | ⟨⟨w, hchild⟩, rfl⟩⟩ := dropLeaf?_eq_ok.1 ho
  · exact ⟨slot, hslot, .inl ⟨hnone, h.symm⟩⟩
  · exact ⟨slot, hslot, .inr ⟨Option.isSome_of_eq_some hchild, h.symm⟩⟩

/-- a store with maps in order is after a deletion what it was, without what was at the path -/
theorem eq_graft_of_delete (hs : s.root.Ordered) (hc : Leads p.inner s.root c) (h : s.delete p = .ok s₁) :
    ∃ c', Removed p c c' ∧ s₁ = ⟨graft p.inner s.root c'⟩ := by
  obtain ⟨slot, hslot, ⟨hnone, rfl⟩ | ⟨-, rfl⟩⟩ := cases_of_delete hc h
  · refine ⟨c, ⟨slot, hslot, (dropChild_eq_self hnone).symm⟩, ?_⟩
    rw [graft_self hs hc]
  · exact ⟨c.dropChild slot, ⟨slot, hslot, rfl⟩, rfl⟩

/-- a path at an item of a list: every container on its way is there, and the last is a list that has the index -/
structure AtItem (s : Store) (p : Path) (vs : List Node) (n : Nat) : Prop where
  there : s.root.lead? p.inner = some (.list vs)
  index : p.leaf.index? = some n
  lt : n < vs.length

theorem slot?_of_atItem {vs : List Node} {n : Nat} (h : s.AtItem p vs n) :
    (Node.list vs).slot? p.leaf = some (.index n) ∧ ((Node.list vs).child? (.index n)).isSome = true := by
  refine ⟨?_, ?_⟩
  · rw [slot?, h.index, Option.map_some]
  · simp [child?, h.lt]

theorem items_of_atItem {vs : List Node} {n : Nat} (hitem : s.AtItem p vs n) (h : s.delete p = .ok s₁) :
    s₁.root.lead? p.inner = some (.list (vs.eraseIdx n)) := by
  rcases leads_or_ends_of_delete h with ⟨c, hc⟩ | hends
  · obtain rfl : c = .list vs := Option.some.inj ((lead?_of_leads hc).symm.trans hitem.there)
    obtain ⟨hslot, hsome⟩ := slot?_of_atItem hitem
    obtain ⟨slot, hslot', ⟨hnone, -⟩ | ⟨-, rfl⟩⟩ := cases_of_delete hc h
    · rw [hslot] at hslot'
      cases hslot'
      rw [hnone] at hsome
      cases hsome
    · rw [hslot] at hslot'
      cases hslot'
      exact lead?_of_leads (hc.graft rfl)
  · have hthere := hitem.there
    rw [lead?_of_ends hends] at hthere
    cases hthere

theorem eq_of_delete_of_read (hread : s.read p = .ok none) (h : s.delete p = .ok s₁) : s₁ = s := by
  rcases leads_or_ends_of_delete h with ⟨c, hc⟩ | hends
  · obtain ⟨slot, hslot, ⟨-, rfl⟩ | ⟨hsome, -⟩⟩ := cases_of_delete hc h
    · rfl
    · rw [read_of_leads hc] at hread
      obtain ⟨slot', hslot', ⟨hnone, -⟩ | ⟨w, -, -, hw⟩⟩ := readFrom_cons_eq_ok.1 hread
      · obtain rfl : slot = slot' := Option.some.inj (hslot.symm.trans hslot')
        rw [hnone] at hsome
        cases hsome
      · cases hw
  · rw [delete_of_ends hends] at h
    cases h
    rfl

/-- a deletion from a map leaves nothing at the path -/
theorem gone_of_delete_of_map {es : List (String × Node)} (hc : Leads p.inner s.root (.map es))
    (h : s.delete p = .ok s₁) : s₁.read p = .ok none ∧ s₁.delete p = .ok s₁ := by
  obtain ⟨slot, hslot, ⟨hnone, rfl⟩ | ⟨-, rfl⟩⟩ := cases_of_delete hc h
  · refine ⟨?_, h⟩
    rw [read_of_leads hc]
    exact readFrom_cons_of_none hslot hnone
  · cases hslot
    have hc' : Leads p.inner (graft p.inner s.root (dropChild (.map es) (.key p.leaf.key)))
        (dropChild (.map es) (.key p.leaf.key)) := hc.graft rfl
    have hslot : (dropChild (.map es) (.key p.leaf.key)).slot? p.leaf = some (.key p.leaf.key) := rfl
    have hnone := child?_dropChild_self (.map es) p.leaf.key
    constructor
    · rw [read_of_leads hc']
      exact readFrom_cons_of_none hslot hnone
    · rw [delete_of_leads hc', dropLeaf?_eq_ok.2 ⟨_, hslot, .inl ⟨hnone, rfl⟩⟩]
      rfl

/-- outside an item of a list, a deletion takes something out of a map, or does nothing -/
theorem eq_or_map_of_delete (hitem : ∀ vs n, ¬ s.AtItem p vs n) (h : s.delete p = .ok s₁) :
    s₁ = s ∨ ∃ es, Leads p.inner s.root (.map es) := by
  rcases leads_or_ends_of_delete h with ⟨c, hc⟩ | hends
  · obtain ⟨slot, hslot, ⟨-, rfl⟩ | ⟨hsome, -⟩⟩ := cases_of_delete hc h
    · exact .inl rfl
    · cases c with
      | map es => exact .inr ⟨es, hc⟩
      | list vs =>
        obtain ⟨n, hn, rfl⟩ := Option.map_eq_some_iff.1 hslot
        refine absurd ⟨lead?_of_leads hc, hn, ?_⟩ (hitem vs n)
        simpa [child?] using hsome
      | _ => cases hslot
  · rw [delete_of_ends hends] at h
    cases h
    exact .inl rfl

/-- the container that the way of a deletion leads to -/
theorem leads_of_lead? (h : s.delete p = .ok s₁) (hc : s.root.lead? p.inner = some c) : Leads p.inner s.root c := by
  rcases leads_or_ends_of_delete h with ⟨c', hc'⟩ | hends
  · rw [lead?_of_leads hc'] at hc
    cases hc
    exact hc'
  · rw [lead?_of_ends hends] at hc
    cases hc

/-- a deletion undoes a write at the same path of a map -/
theorem delete_of_write (hs : s.root.Ordered) {es : List (String × Node)} (hc : Leads p.inner s.root (.map es))
    (h : s.delete p = .ok s₁) (hwrite : s.write p value = .ok s') : s'.delete p = .ok s₁ := by
  rw [write_of_leads hc] at hwrite
  obtain ⟨c', hc', rfl⟩ := map_eq_ok.1 hwrite
  have hmap : c'.sigil = .map := sigil_writeLeaf hc'
  have hleads := hc.graft hmap
  -- both deletions leave the map of `s` without the key
  have hdrop := dropChild_of_writeLeaf rfl hc'
  obtain ⟨d, hd, rfl⟩ := eq_graft_of_delete hs hc h
  rw [removed_iff_of_map rfl, ← hdrop] at hd
  obtain ⟨es', rfl⟩ : ∃ es', c' = .map es' := by
    cases c' with
    | map es' => exact ⟨es', rfl⟩
    | _ => cases hmap
  rw [delete_of_leads hleads]
  have hslot : (Node.map es').slot? p.leaf = some (.key p.leaf.key) := rfl
  cases hchild : (Node.map es').child? (.key p.leaf.key) with
  | none =>
    rw [dropLeaf?_eq_ok.2 ⟨_, hslot, .inl ⟨hchild, rfl⟩⟩, hd, dropChild_eq_self hchild]
    rfl
  | some w =>
    rw [dropLeaf?_eq_ok.2 ⟨_, hslot, .inr ⟨⟨w, hchild⟩, rfl⟩⟩, hd]
    exact congrArg (fun r => Except.ok (Store.mk r)) (graft_graft hc hmap)

theorem write_none_of_delete (hs : s.root.Ordered) (hc : Leads p.inner s.root c)
    (hleaf : p.leaf.sigil.isScalar = true) (h : s.delete p = .ok s₁) : s.write p none = .ok s₁ := by
  obtain ⟨d, hd, rfl⟩ := eq_graft_of_delete hs hc h
  rw [write_of_leads hc, writeLeaf_none hleaf hd]
  rfl

/-- **The laws of deletion.**  An item of a list is taken out of it, and the others stay in order.  Elsewhere nothing
is left at the path if the last container is a map or missing, a second deletion does nothing, and neither does the
first if there was nothing.  Where every container is there, a deletion undoes a write in a map, and a scalar that is
written without a value is deleted; two stores with the same entries are one store if each map has its entries in the
order of their keys. -/
theorem gone_of_delete (h : s.delete p = .ok s₁) :
    (∀ vs n, s.AtItem p vs n → s₁.root.lead? p.inner = some (.list (vs.eraseIdx n))) ∧
      ((∀ vs n, ¬ s.AtItem p vs n) →
        ((s.root.lead? p.inner = none ∨ ∃ es, s.root.lead? p.inner = some (.map es)) → s₁.read p = .ok none) ∧
          s₁.delete p = .ok s₁ ∧ (s.read p = .ok none → s₁ = s)) ∧
      (s.root.Ordered → ∀ c, s.root.lead? p.inner = some c →
        (c.sigil = .map → ∀ value s', s.write p value = .ok s' → s'.delete p = .ok s₁) ∧
          (p.leaf.sigil.isScalar = true → s.write p none = .ok s₁)) := by
  refine ⟨fun vs n hitem => items_of_atItem hitem h, ?_, ?_⟩
  · intro hitem
    refine ⟨?_, ?_, fun hread => eq_of_delete_of_read hread h⟩
    · rintro (hmissing | ⟨es, hmap⟩)
      · rcases leads_or_ends_of_delete h with ⟨c, hc⟩ | hends
        · rw [lead?_of_leads hc] at hmissing
          cases hmissing
        · rw [delete_of_ends hends] at h
          cases h
          exact read_of_ends hends
      · exact (gone_of_delete_of_map (leads_of_lead? h hmap) h).1
    · rcases eq_or_map_of_delete hitem h with rfl | ⟨es, hc⟩
      · exact h
      · exact (gone_of_delete_of_map hc h).2
  · intro hs c hc
    have hleads := leads_of_lead? h hc
    refine ⟨?_, fun hleaf => write_none_of_delete hs hleads hleaf h⟩
    intro hmap value s' hwrite
    cases c with
    | map es => exact delete_of_write hs hleads h hwrite
    | _ => cases hmap

def titled : Store :=
  ⟨.map [("rows", .list [.str "a", .str "b"]), ("title", .str "t")]⟩

/-- the first row is deleted, and the title is: each by a path of its own, and the second one as it is by a write -/
theorem gone_of_delete_titled :
    titled.AtItem ⟨[⟨.list, "rows"⟩, ⟨.str, "0"⟩], by decide⟩ [.str "a", .str "b"] 0 ∧
      titled.delete ⟨[⟨.list, "rows"⟩, ⟨.str, "0"⟩], by decide⟩ =
        .ok ⟨.map [("rows", .list [.str "b"]), ("title", .str "t")]⟩ ∧
      lead? [⟨.list, "rows"⟩] (.map [("rows", .list [.str "b"]), ("title", .str "t")]) = some (.list [.str "b"]) ∧
      titled.root.Ordered ∧
      titled.write ⟨[⟨.str, "title"⟩], by decide⟩ (some (.num 2)) =
        .ok ⟨.map [("rows", .list [.str "a", .str "b"]), ("title", .str "2")]⟩ ∧
      delete ⟨.map [("rows", .list [.str "a", .str "b"]), ("title", .str "2")]⟩ ⟨[⟨.str, "title"⟩], by decide⟩ =
        .ok ⟨.map [("rows", .list [.str "a", .str "b"])]⟩ ∧
      read ⟨.map [("rows", .list [.str "a", .str "b"])]⟩ ⟨[⟨.str, "title"⟩], by decide⟩ = .ok none := by
  have hitem : titled.AtItem ⟨[⟨.list, "rows"⟩, ⟨.str, "0"⟩], by decide⟩ [.str "a", .str "b"] 0 :=
    ⟨rfl, by decide +kernel, by decide⟩
  have hrow : titled.delete ⟨[⟨.list, "rows"⟩, ⟨.str, "0"⟩], by decide⟩ =
      .ok ⟨.map [("rows", .list [.str "b"]), ("title", .str "t")]⟩ := by rfl
  have htitle : titled.delete ⟨[⟨.str, "title"⟩], by decide⟩ =
      .ok ⟨.map [("rows", .list [.str "a", .str "b"])]⟩ := by rfl
  have hwrite : titled.write ⟨[⟨.str, "title"⟩], by decide⟩ (some (.num 2)) =
      .ok ⟨.map [("rows", .list [.str "a", .str "b"]), ("title", .str "2")]⟩ := by rfl
  have hordered : titled.root.Ordered := by
    refine .map (show ["rows", "title"].Pairwise (· < ·) by decide) ?_
    simp only [List.mem_cons, List.not_mem_nil, or_false, forall_eq_or_imp, forall_eq]
    refine ⟨.list ?_, .str "t"⟩
    simp only [List.mem_cons, List.not_mem_nil, or_false, forall_eq_or_imp, forall_eq]
    exact ⟨.str "a", .str "b"⟩
  have hnone (vs : List Node) (n : Nat) : ¬ titled.AtItem ⟨[⟨.str, "title"⟩], by decide⟩ vs n := by
    intro h
    cases h.there
  obtain ⟨-, hgone, hlaws⟩ := gone_of_delete htitle
  exact ⟨hitem, hrow, (gone_of_delete hrow).1 _ _ hitem, hordered, hwrite,
    (hlaws hordered _ rfl).1 rfl _ _ hwrite, (hgone hnone).1 (.inr ⟨_, rfl⟩)⟩

end Store

end Dialogue
