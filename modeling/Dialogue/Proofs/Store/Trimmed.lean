import Mathlib.Logic.Relation
import Dialogue.Proofs.Store.Graft

/-!
# What deletions take away

A deletion takes one thing out of a map or a list, at any depth (`Node.Trims`).  What follows in a list then moves up,
so the same thing can be found at the same place again; but the value as a whole is never what it was.

* `Node.trims_of_along?`: a deletion takes something out exactly if something is there;
* `Node.ne_of_trims`: no sequence of deletions leads back.
-/

namespace Dialogue

namespace Node

variable {u v w c d : Node} {vs ws : List Node} {k : String} {path : Path} {ss : List Segment} {o : Option Node}

/-- one thing is taken out of a value, at any depth -/
inductive Trims : Node → Node → Prop
  | drop {v c : Node} {slot : Slot} (h : v.child? slot = some c) : Trims v (v.dropChild slot)
  | inside {v c d : Node} {slot : Slot} (h : v.child? slot = some c) (h' : Trims c d) : Trims v (v.setChild slot d)

/-- a value lacks something of another: a key, an item, or something below a key or below an item of as many -/
inductive Lacks : Node → Node → Prop
  | key {v w c : Node} {k : String} (hv : v.child? (.key k) = some c) (hw : w.child? (.key k) = none) : Lacks v w
  | item {vs ws : List Node} (h : ws.length < vs.length) : Lacks (.list vs) (.list ws)
  | belowKey {v w c d : Node} {k : String} (hv : v.child? (.key k) = some c) (hw : w.child? (.key k) = some d)
    (h : Lacks c d) : Lacks v w
  | belowItem {vs ws : List Node} {c d : Node} {n : Nat} (hlen : ws.length = vs.length) (hv : vs[n]? = some c)
    (hw : ws[n]? = some d) (h : Lacks c d) : Lacks (.list vs) (.list ws)

/-! ### One deletion -/

theorem trims_of_along? (h : along? path (dropLeaf? path) ss v = .ok o) :
    o = none ∧ v.lead? (ss ++ [path.leaf]) = none ∨
      ∃ w c, o = some w ∧ v.lead? (ss ++ [path.leaf]) = some c ∧ Trims v w := by
  induction ss generalizing v o with
  | nil =>
    obtain ⟨slot, hslot, ⟨hc, rfl⟩ | ⟨⟨c, hc⟩, rfl⟩⟩ := dropLeaf?_eq_ok.1 h
    · exact .inl ⟨rfl, by simp [lead?, behind?, hslot, hc]⟩
    · exact .inr ⟨_, c, rfl, by simp [lead?, behind?, hslot, hc], .drop hc⟩
  | cons s ss ih =>
    obtain ⟨slot, hslot, ⟨hc, rfl⟩ | ⟨c, o, hc, -, halong, rfl⟩⟩ := along?_cons h
    · exact .inl ⟨rfl, by simp [lead?, behind?, hslot, hc]⟩
    have hlead : v.lead? (s :: ss ++ [path.leaf]) = c.lead? (ss ++ [path.leaf]) := by
      simp [lead?, behind?, hslot, hc]
    obtain ⟨rfl, hnone⟩ | ⟨w, d, rfl, hd, hw⟩ := ih halong
    · exact .inl ⟨rfl, hlead.trans hnone⟩
    · exact .inr ⟨_, d, rfl, hlead.trans hd, .inside hc hw⟩

/-- under a key there is nothing, or what was there, or what is left of it -/
theorem child?_of_trims (h : Trims v w) (k : String) :
    w.child? (.key k) = none ∨ w.child? (.key k) = v.child? (.key k) ∨
      ∃ c d, v.child? (.key k) = some c ∧ w.child? (.key k) = some d ∧ Trims c d := by
  cases h with
  | @drop _ c slot hc =>
    by_cases hk : slot = .key k
    · subst hk
      exact .inl (child?_dropChild_self v k)
    · exact .inr (.inl (child?_dropChild_of_ne hk))
  | @inside _ c d slot hc hd =>
    by_cases hk : slot = .key k
    · subst hk
      exact .inr (.inr ⟨c, d, hc, child?_setChild hc d, hd⟩)
    · exact .inr (.inl (child?_setChild_of_ne hk d))

/-- of a list an item is missing, or something below one of as many items -/
theorem items_of_trims (h : Trims (.list vs) w) :
    ∃ ws, w = .list ws ∧ (ws.length < vs.length ∨
      ∃ n c d, vs[n]? = some c ∧ Trims c d ∧ ws = vs.set n d) := by
  have index {slot : Slot} {c : Node} (hc : (Node.list vs).child? slot = some c) :
      ∃ n, slot = .index n ∧ vs[n]? = some c := by
    cases slot with
    | key k => cases hc
    | index n => exact ⟨n, rfl, hc⟩
  cases h with
  | drop hc =>
    obtain ⟨n, rfl, hn⟩ := index hc
    have hlt : n < vs.length := (List.getElem?_eq_some_iff.1 hn).1
    refine ⟨vs.eraseIdx n, rfl, .inl ?_⟩
    rw [List.length_eraseIdx_of_lt hlt]
    omega
  | @inside _ c d _ hc hd =>
    obtain ⟨n, rfl, hn⟩ := index hc
    have hlt : n < vs.length := (List.getElem?_eq_some_iff.1 hn).1
    exact ⟨vs.set n d, by rw [setChild, if_pos hlt], .inr ⟨n, c, d, hn, hd, rfl⟩⟩

/-! ### Sequences of deletions -/

theorem Lacks.of_trims (h : Trims v w) : Lacks v w := by
  induction h with
  | @drop v c slot hc =>
    cases slot with
    | key k => exact .key hc (child?_dropChild_self v k)
    | index n =>
      cases v with
      | list vs =>
        have hlt : n < vs.length := (List.getElem?_eq_some_iff.1 hc).1
        refine .item ?_
        rw [List.length_eraseIdx_of_lt hlt]
        omega
      | _ => cases hc
  | @inside v c d slot hc _ ih =>
    have hd := child?_setChild hc d
    cases slot with
    | key k => exact .belowKey hc hd ih
    | index n =>
      cases v with
      | list vs =>
        have hlt : n < vs.length := (List.getElem?_eq_some_iff.1 hc).1
        rw [setChild, if_pos hlt] at hd ⊢
        exact .belowItem (List.length_set ..) hc hd ih
      | _ => cases hc

/-- what is lacking still is when more is taken out -/
theorem Lacks.trims (h : Lacks u v) (h' : Trims v w) : Lacks u w := by
  induction h generalizing w with
  | @key u v c k hu hv =>
    rcases child?_of_trims h' k with hw | hw | ⟨d, _, hd, -⟩
    · exact .key hu hw
    · exact .key hu (hw.trans hv)
    · rw [hv] at hd
      cases hd
  | item hlt =>
    obtain ⟨xs, rfl, hshorter | ⟨n, c, d, -, -, rfl⟩⟩ := items_of_trims h'
    · exact .item (Nat.lt_trans hshorter hlt)
    · exact .item (by rwa [List.length_set])
  | @belowKey u v c d k hu hv hcd ih =>
    rcases child?_of_trims h' k with hw | hw | ⟨d', e, hd', he, htrims⟩
    · exact .key hu hw
    · exact .belowKey hu (hw.trans hv) hcd
    · rw [hv] at hd'
      cases hd'
      exact .belowKey hu he (ih htrims)
  | @belowItem us vs c d n hlen hu hv hcd ih =>
    obtain ⟨xs, rfl, hshorter | ⟨m, d', e, hd', htrims, rfl⟩⟩ := items_of_trims h'
    · exact .item (hlen ▸ hshorter)
    have hlen' : (vs.set m e).length = us.length := (List.length_set ..).trans hlen
    by_cases hm : m = n
    · subst hm
      rw [hv] at hd'
      cases hd'
      have hlt : m < vs.length := (List.getElem?_eq_some_iff.1 hv).1
      exact .belowItem hlen' hu (List.getElem?_set_self hlt) (ih htrims)
    · exact .belowItem hlen' hu ((List.getElem?_set_ne hm).trans hv) hcd

theorem Lacks.ne (h : Lacks v w) : v ≠ w := by
  induction h with
  | key hv hw =>
    rintro rfl
    rw [hv] at hw
    cases hw
  | item hlt =>
    rintro ⟨⟩
    exact Nat.lt_irrefl _ hlt
  | belowKey hv hw _ ih =>
    rintro rfl
    rw [hv] at hw
    exact ih (Option.some.inj hw)
  | belowItem _ hv hw _ ih =>
    rintro ⟨⟩
    rw [hv] at hw
    exact ih (Option.some.inj hw)

/-- **No sequence of deletions leads back.** -/
theorem ne_of_trims (h : Relation.TransGen Trims v w) : v ≠ w := by
  have hlacks : Lacks v w := by
    induction h with
    | single h => exact .of_trims h
    | tail _ h ih => exact ih.trims h
  exact hlacks.ne

end Node

end Dialogue
