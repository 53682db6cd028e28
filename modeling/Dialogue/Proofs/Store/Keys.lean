import Mathlib.Tactic.Common
import Dialogue.Proofs.Entries
import Dialogue.Proofs.Path.Segments
import Dialogue.Proofs.Store.Recursion

/-!
# Stores by keys

What a store holds under a sequence of keys, each in a map.  A change of the store at a path is seen through the keys
of the path.  A write and a deletion both fill or empty one slot (`Store.ChangedAt`), and much that is said of them
follows from this:

* `Store.under?_write_of_apart`, `Store.under?_delete_of_apart`: nothing changes under keys that go another way;
* `Store.under?_write`: what a write leaves under the keys of its path;
* `Store.under?_delete_of_prefix`: a deletion leaves nothing under the keys of its path;
* `Store.under?_of_under?_delete`: a deletion makes nothing;
* `Store.isSome_under?_write`, `Store.isSome_under?_delete`: what lies on the way of a change is still there after it.
-/

namespace Dialogue

/-- two sequences of keys of which neither begins with the other -/
def Apart (ks ls : List String) : Prop :=
  ¬ ks <+: ls ∧ ¬ ls <+: ks

instance (ks ls : List String) : Decidable (Apart ks ls) := by
  unfold Apart
  infer_instance

namespace Apart

variable {k l : String} {ks ls : List String}

theorem symm (h : Apart ks ls) : Apart ls ks := ⟨h.2, h.1⟩

theorem cons_iff : Apart (k :: ks) (l :: ls) ↔ (k = l → Apart ks ls) := by
  unfold Apart
  rw [List.cons_prefix_cons, List.cons_prefix_cons]
  constructor
  · rintro ⟨h₁, h₂⟩ rfl
    exact ⟨fun h => h₁ ⟨rfl, h⟩, fun h => h₂ ⟨rfl, h⟩⟩
  · intro h
    exact ⟨fun ⟨hk, hp⟩ => (h hk).1 hp, fun ⟨hk, hp⟩ => (h hk.symm).2 hp⟩

theorem of_head_ne (h : k ≠ l) (ks ls : List String) : Apart (k :: ks) (l :: ls) :=
  cons_iff.2 fun he => absurd he h

theorem not_nil_right (ks : List String) : ¬ Apart ks [] :=
  fun h => h.2 (List.nil_prefix)

theorem not_nil_left (ls : List String) : ¬ Apart [] ls :=
  fun h => h.1 (List.nil_prefix)

theorem append_left (h : Apart ks ls) (js : List String) : Apart (ks ++ js) ls := by
  refine ⟨fun hp => h.1 ((List.prefix_append ks js).trans hp), fun hp => ?_⟩
  rcases List.prefix_or_prefix_of_prefix hp (List.prefix_append ks js) with h' | h'
  · exact h.2 h'
  · exact h.1 h'

theorem append_right (h : Apart ks ls) (js : List String) : Apart ks (ls ++ js) :=
  (h.symm.append_left js).symm

end Apart

/-- the keys of a path -/
def Path.keys (p : Path) : List String :=
  p.segments.map Segment.key

/-- a path whose way is through maps only -/
def Path.Plain (p : Path) : Prop :=
  ∀ s ∈ p.inner, s.sigil = .map

instance (p : Path) : Decidable p.Plain := by
  unfold Path.Plain
  infer_instance

theorem Path.keys_eq (p : Path) : p.keys = p.inner.map Segment.key ++ [p.leaf.key] := by
  rw [keys, ← p.inner_append_leaf, List.map_append]
  rfl

/-- the first segment of a path is its last one or the first of the inner ones -/
theorem Path.inner_cases {p : Path} {s : Segment} {ss : List Segment} (h : p.segments = s :: ss) :
    p.inner = [] ∧ p.leaf = s ∨ ∃ ts, p.inner = s :: ts := by
  cases ss with
  | nil => exact .inl ⟨by simp [Path.inner, h], by simp [Path.leaf, h]⟩
  | cons t ts => exact .inr ⟨(t :: ts).dropLast, by simp [Path.inner, h]⟩

namespace Node

/-- the value under a sequence of keys, each in a map -/
def under? : List String → Node → Option Node
  | [], v => some v
  | k :: ks, v => (v.child? (.key k)).bind (under? ks)

variable {v v' w : Node} {k : String} {ks ls : List String}

theorem under?_append (ks ls : List String) (v : Node) : under? (ks ++ ls) v = (under? ks v).bind (under? ls) := by
  induction ks generalizing v with
  | nil => rfl
  | cons k ks ih =>
    rw [List.cons_append, under?, under?]
    cases v.child? (.key k) with
    | none => rfl
    | some c => exact ih c

theorem under?_of_prefix (h : ks <+: ls) (hv : under? ks v = none) : under? ls v = none := by
  obtain ⟨js, rfl⟩ := h
  rw [under?_append, hv]
  rfl

theorem child?_key_of_sigil_ne (h : v.sigil ≠ .map) (k : String) : v.child? (.key k) = none := by
  cases v with
  | map es => exact absurd rfl h
  | _ => rfl

theorem sigil_of_child?_key (h : v.child? (.key k) = some w) : v.sigil = .map := by
  by_contra hv
  rw [child?_key_of_sigil_ne hv] at h
  cases h

theorem under?_cons_of_sigil_ne (h : v.sigil ≠ .map) (k : String) (ks : List String) : under? (k :: ks) v = none := by
  rw [under?, child?_key_of_sigil_ne h]
  rfl

theorem sigil_of_under?_cons (h : under? (k :: ks) v = some w) : v.sigil = .map := by
  obtain ⟨c, hc, -⟩ := Option.bind_eq_some_iff.1 h
  exact sigil_of_child?_key hc

theorem slot?_of_map (hv : v.sigil = .map) (s : Segment) : v.slot? s = some (.key s.key) := by
  cases v with
  | map es => rfl
  | _ => cases hv

theorem eq_key_of_slot? {s : Segment} {slot : Slot} (hv : v.sigil = .map) (h : v.slot? s = some slot) :
    slot = .key s.key :=
  Option.some.inj (h.symm.trans (slot?_of_map hv s))

theorem slot_of_map (hv : v.sigil = .map) (path : Path) (s : Segment) : v.slot path s = .ok (.key s.key) :=
  slot_eq_ok.2 (slot?_of_map hv s)

theorem slot?_cases {s : Segment} {slot : Slot} (h : v.slot? s = some slot) :
    (v.sigil = .map ∧ slot = .key s.key) ∨ (v.sigil = .list ∧ ∃ n, slot = .index n) := by
  cases v with
  | map es =>
    cases h
    exact .inl ⟨rfl, rfl⟩
  | list vs =>
    obtain ⟨n, -, rfl⟩ := Option.map_eq_some_iff.1 h
    exact .inr ⟨rfl, n, rfl⟩
  | _ => cases h

theorem key_of_slot? {s : Segment} (h : v.slot? s = some (.key k)) : v.sigil = .map ∧ s.key = k := by
  obtain ⟨hv, hslot⟩ | ⟨-, n, hn⟩ := slot?_cases h
  · injection hslot with hslot
    exact ⟨hv, hslot.symm⟩
  · cases hn

theorem child?_setChild_self (h : v.sigil = .map) (k : String) (w : Node) :
    (v.setChild (.key k) w).child? (.key k) = some w := by
  cases v with
  | map es => exact Entries.get?_insert_self k w es
  | _ => cases h

theorem child?_setChild_of_ne {slot : Slot} (h : slot ≠ .key k) (w : Node) :
    (v.setChild slot w).child? (.key k) = v.child? (.key k) := by
  cases v with
  | map es =>
    cases slot with
    | key l => exact Entries.get?_insert_of_ne (fun hk => h (by rw [hk])) w es
    | index n => rfl
  | _ => cases slot <;> rfl

theorem child?_dropChild_self (v : Node) (k : String) : (v.dropChild (.key k)).child? (.key k) = none := by
  cases v with
  | map es => exact Entries.get?_erase_self k es
  | _ => rfl

theorem child?_dropChild_of_ne {slot : Slot} (h : slot ≠ .key k) :
    (v.dropChild slot).child? (.key k) = v.child? (.key k) := by
  cases v with
  | map es =>
    cases slot with
    | key l => exact Entries.get?_erase_of_ne (fun hk => h (by rw [hk])) es
    | index n => rfl
  | _ => cases slot <;> rfl

theorem child?_setSlot_of_ne {slot : Slot} (h : slot ≠ .key k) (o : Option Node) :
    (v.setSlot slot o).child? (.key k) = v.child? (.key k) := by
  cases o with
  | some w => exact child?_setChild_of_ne h w
  | none => exact child?_dropChild_of_ne h

theorem child?_setSlot_self (h : v.sigil = .map) (k : String) (o : Option Node) :
    (v.setSlot (.key k) o).child? (.key k) = o := by
  cases o with
  | some w => exact child?_setChild_self h k w
  | none => exact child?_dropChild_self v k

theorem under?_setChild_of_ne {slot : Slot} (h : slot ≠ .key k) (w : Node) :
    under? (k :: ks) (v.setChild slot w) = under? (k :: ks) v := by
  rw [under?, child?_setChild_of_ne h, under?]

theorem under?_setChild_self (h : v.sigil = .map) (k : String) (w : Node) :
    under? (k :: ks) (v.setChild (.key k) w) = under? ks w := by
  rw [under?, child?_setChild_self h]
  rfl

theorem under?_cons_of_child? {c : Node} (h : v.child? (.key k) = some c) : under? (k :: ks) v = under? ks c := by
  rw [under?, h]
  rfl

theorem under?_fresh (s : Sigil) (k : String) (ks : List String) : under? (k :: ks) (fresh s) = none := by
  cases s <;> rfl

/-- what is under a key before a write is what the write goes through, unless that is made by it -/
theorem under?_enter {s : Segment} {slot : Slot} (hslot : v.slot? s = some slot) (hv : v.sigil = .map)
    (hne : ks ≠ []) : under? ks (v.enter s) = under? (s.key :: ks) v := by
  obtain rfl := eq_key_of_slot? hv hslot
  cases hc : v.child? (.key s.key) with
  | some c => rw [enter_of_child? hslot hc, under?_cons_of_child? hc]
  | none =>
    obtain ⟨l, ls, rfl⟩ := List.exists_cons_of_ne_nil hne
    rw [enter_of_missing hslot hc, under?_fresh, under?, hc]
    rfl

/-! ### Keys that go another way -/

theorem under?_along_of_apart {path : Path} {f : Node → Except StateError Node} {last : String}
    (hf : ∀ c c', f c = .ok c' → ∀ ls, Apart [last] ls → under? ls c' = under? ls c) {ss : List Segment}
    (h : along path f ss v = .ok v') (hks : Apart (ss.map Segment.key ++ [last]) ks) : under? ks v' = under? ks v := by
  induction ss generalizing v v' ks with
  | nil => exact hf v v' h ks hks
  | cons s ss ih =>
    obtain ⟨slot, child, hslot, -, halong, rfl⟩ := along_cons h
    cases ks with
    | nil => exact absurd hks (Apart.not_nil_right _)
    | cons k ks =>
      rw [List.map_cons, List.cons_append, Apart.cons_iff] at hks
      by_cases hk : slot = .key k
      · subst hk
        obtain ⟨hv, rfl⟩ := key_of_slot? hslot
        have hne : ks ≠ [] := by
          rintro rfl
          exact Apart.not_nil_right _ (hks rfl)
        rw [under?_setChild_self hv, ih halong (hks rfl), under?_enter hslot hv hne]
      · exact under?_setChild_of_ne hk child

theorem slot_ne_of_apart {s : Segment} {slot : Slot} (hslot : v.slot? s = some slot)
    (h : Apart [s.key] (k :: ks)) : slot ≠ .key k := by
  rintro rfl
  exact Apart.not_nil_left _ (Apart.cons_iff.1 h (key_of_slot? hslot).2)

theorem under?_setSlot_of_apart {s : Segment} {slot : Slot} (hslot : v.slot? s = some slot) (hks : Apart [s.key] ks)
    (o : Option Node) : under? ks (v.setSlot slot o) = under? ks v := by
  cases ks with
  | nil => exact absurd hks (Apart.not_nil_right _)
  | cons k ks => rw [under?, child?_setSlot_of_ne (slot_ne_of_apart hslot hks), under?]

/-- a deletion that does something is a change on the way of a write -/
theorem along_of_along? {path : Path} {f : Node → Except StateError (Option Node)} {ss : List Segment}
    (h : along? path f ss v = .ok (some v')) : along path (fun c => (f c).map (·.getD c)) ss v = .ok v' := by
  induction ss generalizing v v' with
  | nil =>
    rw [along?] at h
    rw [along, h]
    rfl
  | cons s ss ih =>
    obtain ⟨slot, hslot, ⟨-, ho⟩ | ⟨child, o, hc, hshape, halong, ho⟩⟩ := along?_cons h
    · cases ho
    · obtain ⟨child', rfl, rfl⟩ := Option.map_eq_some_iff.1 ho.symm
      rw [along_of_child? hslot hc hshape, ih halong]
      rfl

/-! ### Keys that end on the way -/

theorem ne_of_not_starting {last : String} (h : ¬ [last] <+: k :: ks) : last ≠ k := by
  rintro rfl
  exact h (List.cons_prefix_cons.2 ⟨rfl, List.nil_prefix⟩)

theorem slot_ne_of_not_starting {s : Segment} {slot : Slot} (hslot : v.slot? s = some slot)
    (h : ¬ [s.key] <+: k :: ks) : slot ≠ .key k := by
  rintro rfl
  exact ne_of_not_starting h (key_of_slot? hslot).2

/-- what lies on the way to a change is still there after it -/
theorem isSome_under?_along {path : Path} {f : Node → Except StateError Node} {last : String}
    (hf : ∀ c c', f c = .ok c' → ∀ ls, ¬ [last] <+: ls → (under? ls c).isSome → (under? ls c').isSome)
    {ss : List Segment} (h : along path f ss v = .ok v') (hks : ¬ ss.map Segment.key ++ [last] <+: ks)
    (hv : (under? ks v).isSome) : (under? ks v').isSome := by
  induction ss generalizing v v' ks with
  | nil => exact hf v v' h ks hks hv
  | cons s ss ih =>
    obtain ⟨slot, child, hslot, -, halong, rfl⟩ := along_cons h
    cases ks with
    | nil => rfl
    | cons k ks =>
      by_cases hk : slot = .key k
      · subst hk
        obtain ⟨hmap, rfl⟩ := key_of_slot? hslot
        rw [List.map_cons, List.cons_append, List.cons_prefix_cons, not_and] at hks
        rw [under?_setChild_self hmap]
        refine ih halong (hks rfl) ?_
        cases ks with
        | nil => rfl
        | cons l ls => rwa [under?_enter hslot hmap (List.cons_ne_nil l ls)]
      · rwa [under?_setChild_of_ne hk]

theorem isSome_under?_setSlot {s : Segment} {slot : Slot} (hslot : v.slot? s = some slot) (hks : ¬ [s.key] <+: ks)
    (hv : (under? ks v).isSome) (o : Option Node) : (under? ks (v.setSlot slot o)).isSome := by
  cases ks with
  | nil => rfl
  | cons k ks => rwa [under?, child?_setSlot_of_ne (slot_ne_of_not_starting hslot hks)]

/-! ### Deletions -/

theorem dropChild_eq_self {slot : Slot} (h : v.child? slot = none) : v.dropChild slot = v := by
  cases v with
  | map es =>
    cases slot with
    | key k => exact congrArg Node.map (Entries.erase_eq_self h)
    | index n => rfl
  | list vs =>
    cases slot with
    | key k => rfl
    | index n => exact congrArg Node.list (List.eraseIdx_of_length_le (List.getElem?_eq_none_iff.1 h))
  | _ => rfl

/-- where nothing is in the slot of a segment, nothing is under its key: a list has nothing under a key -/
theorem under?_cons_of_slot? {s : Segment} {slot : Slot} (hslot : v.slot? s = some slot) (hc : v.child? slot = none) :
    under? (s.key :: ks) v = none := by
  obtain ⟨-, rfl⟩ | ⟨hlist, -⟩ := slot?_cases hslot
  · rw [under?, hc, Option.bind_none]
  · exact under?_cons_of_sigil_ne (by simp [hlist]) _ _

theorem isContainer_of_slot? {s : Segment} {slot : Slot} (hslot : v.slot? s = some slot) : v.isContainer = true := by
  obtain ⟨hv, -⟩ | ⟨hv, -⟩ := slot?_cases hslot <;> simp [isContainer, hv, Sigil.isScalar]

/-- nothing is left where a deletion went, and nothing was there if it did nothing -/
theorem under?_along?_dropLeaf? {path : Path} {ss : List Segment} {o : Option Node}
    (h : along? path (dropLeaf? path) ss v = .ok o) :
    under? (ss.map Segment.key ++ [path.leaf.key]) (o.getD v) = none := by
  induction ss generalizing v o with
  | nil =>
    obtain ⟨slot, hslot, ⟨hc, rfl⟩ | ⟨-, rfl⟩⟩ := dropLeaf?_eq_ok.1 h
    · rw [Option.getD_none, List.map_nil, List.nil_append]
      exact under?_cons_of_slot? hslot hc
    · obtain ⟨-, rfl⟩ | ⟨hlist, -⟩ := slot?_cases hslot
      · simp [under?, child?_dropChild_self]
      · exact under?_cons_of_sigil_ne (by simp [hlist]) _ _
  | cons s ss ih =>
    obtain ⟨slot, hslot, ⟨hc, rfl⟩ | ⟨child, o, hc, -, halong, rfl⟩⟩ := along?_cons h
    · rw [List.map_cons, List.cons_append, Option.getD_none]
      exact under?_cons_of_slot? hslot hc
    · have ih := ih halong
      rw [List.map_cons, List.cons_append]
      obtain ⟨hv, rfl⟩ | ⟨hlist, -⟩ := slot?_cases hslot
      · cases o with
        | none => rwa [Option.map_none, Option.getD_none, under?_cons_of_child? hc]
        | some child' => rwa [Option.map_some, Option.getD_some, under?_setChild_self hv]
      · refine under?_cons_of_sigil_ne ?_ _ _
        cases o <;> simp [hlist]

/-- what is there after a deletion was there before, or is a container of which a part is gone -/
theorem under?_of_under?_along? {path : Path} {ss : List Segment}
    (h : along? path (dropLeaf? path) ss v = .ok (some v')) (hw : under? ks v' = some w) :
    ∃ u, under? ks v = some u ∧ (u = w ∨ u.sigil = w.sigil ∧ w.isContainer = true) := by
  induction ss generalizing v v' ks with
  | nil =>
    obtain ⟨slot, hslot, ⟨-, ho⟩ | ⟨-, ho⟩⟩ := dropLeaf?_eq_ok.1 h
    · cases ho
    cases ho
    cases ks with
    | nil =>
      cases hw
      have hwhole : (v.dropChild slot).isContainer = v.isContainer := by simp [isContainer]
      exact ⟨v, rfl, .inr ⟨by simp, hwhole.trans (isContainer_of_slot? hslot)⟩⟩
    | cons k ks =>
      have hk : slot ≠ .key k := by
        rintro rfl
        simp [under?, child?_dropChild_self] at hw
      rw [under?, child?_dropChild_of_ne hk] at hw
      exact ⟨w, hw, .inl rfl⟩
  | cons s ss ih =>
    obtain ⟨slot, hslot, ⟨-, ho⟩ | ⟨child, o, hc, -, halong, ho⟩⟩ := along?_cons h
    · cases ho
    obtain ⟨child', rfl, rfl⟩ := Option.map_eq_some_iff.1 ho.symm
    cases ks with
    | nil =>
      cases hw
      have hwhole : (v.setChild slot child').isContainer = v.isContainer := by simp [isContainer]
      exact ⟨v, rfl, .inr ⟨by simp, hwhole.trans (isContainer_of_slot? hslot)⟩⟩
    | cons k ks =>
      by_cases hk : slot = .key k
      · subst hk
        rw [under?_setChild_self (key_of_slot? hslot).1] at hw
        obtain ⟨u, hu, hor⟩ := ih halong hw
        exact ⟨u, by rw [under?_cons_of_child? hc, hu], hor⟩
      · rw [under?_setChild_of_ne hk] at hw
        exact ⟨w, hw, .inl rfl⟩

/-! ### The way through maps -/

section Plain

variable {path : Path} {ss : List Segment}

/-- along maps a write changes the map at the end of the way, which is made if it is missing -/
theorem under?_along {f : Node → Except StateError Node} (hv : v.sigil = .map) (hss : ∀ s ∈ ss, s.sigil = .map)
    (h : along path f ss v = .ok v') :
    ∃ c c', f c = .ok c' ∧ c.sigil = .map ∧ under? (ss.map Segment.key) v' = some c' ∧
      ∀ k ks, under? (k :: ks) c = under? (ss.map Segment.key ++ k :: ks) v := by
  induction ss generalizing v v' with
  | nil => exact ⟨v, v', h, hv, rfl, fun k ks => rfl⟩
  | cons s ss ih =>
    obtain ⟨slot, child, hslot, hshape, halong, rfl⟩ := along_cons h
    have hs : s.sigil = .map := hss s List.mem_cons_self
    have henter : (v.enter s).sigil = .map := (sigil_enter (by rw [hs]; rfl) hslot hshape).trans hs
    obtain ⟨c, c', hf, hc, hunder, hold⟩ := ih henter (fun t ht => hss t (List.mem_cons_of_mem _ ht)) halong
    obtain rfl := eq_key_of_slot? hv hslot
    refine ⟨c, c', hf, hc, ?_, fun k ks => ?_⟩
    · rw [List.map_cons, under?_setChild_self hv, hunder]
    · rw [hold, List.map_cons, List.cons_append, under?_enter hslot hv (by simp)]

theorem under?_of_readFrom {o : Option Node} (hv : v.sigil = .map) (hss : ∀ s ∈ ss.dropLast, s.sigil = .map)
    (h : Store.readFrom path ss v = .ok o) : under? (ss.map Segment.key) v = o := by
  induction ss generalizing v with
  | nil =>
    cases h
    rfl
  | cons s ss ih =>
    obtain ⟨slot, hslot, ⟨hc, rfl⟩ | ⟨c, hc, hkind, h⟩⟩ := Store.readFrom_cons_eq_ok.1 h
    · exact under?_cons_of_slot? hslot hc
    · obtain rfl := eq_key_of_slot? hv hslot
      rw [List.map_cons, under?_cons_of_child? hc]
      cases ss with
      | nil =>
        cases h
        rfl
      | cons t ts =>
        rw [List.dropLast_cons_cons] at hss
        exact ih (hkind.trans (hss s List.mem_cons_self)) (fun u hu => hss u (List.mem_cons_of_mem _ hu)) h

/-- what is under the keys is found by a reading along maps, if it is of the kind that the path names -/
theorem readFrom_of_under? (hss : ∀ s ∈ ss.dropLast, s.sigil = .map) (h : under? (ss.map Segment.key) v = some w)
    (hlast : ∀ s ∈ ss.getLast?, w.sigil = s.sigil) : Store.readFrom path ss v = .ok (some w) := by
  induction ss generalizing v with
  | nil =>
    cases h
    rfl
  | cons s ss ih =>
    rw [List.map_cons, under?] at h
    obtain ⟨c, hc, h⟩ := Option.bind_eq_some_iff.1 h
    have hslot : v.slot? s = some (.key s.key) := slot?_of_map (sigil_of_child?_key hc) s
    have hc' : c.sigil = s.sigil ∧ Store.readFrom path ss c = .ok (some w) := by
      cases ss with
      | nil =>
        cases h
        exact ⟨hlast s (by simp), rfl⟩
      | cons t ts =>
        rw [List.dropLast_cons_cons] at hss
        rw [List.getLast?_cons_cons] at hlast
        refine ⟨?_, ih (fun u hu => hss u (List.mem_cons_of_mem _ hu)) h hlast⟩
        rw [hss s List.mem_cons_self, sigil_of_under?_cons h]
    obtain ⟨hsigil, hread⟩ := hc'
    rw [Store.readFrom_cons (behind?_eq_some.2 ⟨_, hslot, hc⟩) hsigil, hread]

/-- a deletion along maps does nothing only if nothing is there -/
theorem eq_none_of_along? {o : Option Node} (hv : v.sigil = .map) (hss : ∀ s ∈ ss, s.sigil = .map)
    (h : along? path (dropLeaf? path) ss v = .ok o)
    (hnone : under? (ss.map Segment.key ++ [path.leaf.key]) v = none) : o = none := by
  induction ss generalizing v o with
  | nil =>
    obtain ⟨slot, hslot, ⟨-, rfl⟩ | ⟨⟨w, hc⟩, -⟩⟩ := dropLeaf?_eq_ok.1 h
    · rfl
    · obtain rfl := eq_key_of_slot? hv hslot
      simp [under?, hc] at hnone
  | cons s ss ih =>
    obtain ⟨slot, hslot, ⟨-, rfl⟩ | ⟨child, o, hc, hshape, halong, rfl⟩⟩ := along?_cons h
    · rfl
    obtain rfl := eq_key_of_slot? hv hslot
    rw [List.map_cons, List.cons_append, under?_cons_of_child? hc] at hnone
    have hchild : child.sigil = .map := by rw [hshape, hss s List.mem_cons_self]
    rw [ih hchild (fun t ht => hss t (List.mem_cons_of_mem _ ht)) halong hnone]
    rfl

end Plain

/-! ### The root -/

theorem sigil_along {path : Path} {f : Node → Except StateError Node}
    (hf : ∀ c c', f c = .ok c' → c'.sigil = c.sigil) {ss : List Segment} (h : along path f ss v = .ok v') :
    v'.sigil = v.sigil := by
  cases ss with
  | nil => exact hf v v' h
  | cons s ss =>
    obtain ⟨slot, child, -, -, -, rfl⟩ := along_cons h
    exact sigil_setChild v slot child

theorem sigil_writeLeaf {path : Path} {value : Option Node} (h : writeLeaf path value v = .ok v') :
    v'.sigil = v.sigil := by
  obtain ⟨slot, new, -, -, rfl⟩ := writeLeaf_eq_ok.1 h
  exact sigil_setSlot v slot new

end Node

namespace Store

open Node

variable {s s' : Store} {p : Path} {value : Option Node} {ks : List String}

def under? (s : Store) (ks : List String) : Option Node :=
  s.root.under? ks

theorem write_eq_ok (h : s.write p value = .ok s') : along p (writeLeaf p value) p.inner s.root = .ok s'.root := by
  rw [write_eq] at h
  obtain ⟨root, halong, rfl⟩ := map_eq_ok.1 h
  exact halong

theorem delete_eq_ok (h : s.delete p = .ok s') :
    ∃ o, along? p (dropLeaf? p) p.inner s.root = .ok o ∧ s'.root = o.getD s.root := by
  rw [delete_eq] at h
  obtain ⟨o, halong, rfl⟩ := map_eq_ok.1 h
  refine ⟨o, halong, ?_⟩
  cases o <;> rfl

/-- a deletion does nothing, or it goes the way of a write and empties a slot -/
theorem eq_or_along_of_delete (h : s.delete p = .ok s') :
    s' = s ∨ ∃ f, along p f p.inner s.root = .ok s'.root ∧
      ∀ c c', f c = .ok c' → ∃ slot, c.slot? p.leaf = some slot ∧ c' = c.setSlot slot none := by
  obtain ⟨o, halong, hroot⟩ := delete_eq_ok h
  cases o with
  | none =>
    cases s
    cases s'
    cases hroot
    exact .inl rfl
  | some root =>
    rw [Option.getD_some] at hroot
    refine .inr ⟨_, hroot ▸ along_of_along? halong, fun c c' hc => ?_⟩
    obtain ⟨o, ho, rfl⟩ := map_eq_ok.1 hc
    obtain ⟨slot, hslot, ⟨hnone, rfl⟩ | ⟨-, rfl⟩⟩ := dropLeaf?_eq_ok.1 ho
    · exact ⟨slot, hslot, (dropChild_eq_self hnone).symm⟩
    · exact ⟨slot, hslot, rfl⟩

/-- what a write and a deletion at a path have in common: one slot of the container at the end of the way is filled or
emptied, if anything is changed -/
def ChangedAt (p : Path) (s s' : Store) : Prop :=
  s' = s ∨ ∃ f, along p f p.inner s.root = .ok s'.root ∧
    ∀ c c', f c = .ok c' → ∃ slot new, c.slot? p.leaf = some slot ∧ c' = c.setSlot slot new

theorem changedAt_of_write (h : s.write p value = .ok s') : ChangedAt p s s' := by
  refine .inr ⟨_, write_eq_ok h, fun c c' hc => ?_⟩
  obtain ⟨slot, new, hslot, -, hc'⟩ := writeLeaf_eq_ok.1 hc
  exact ⟨slot, new, hslot, hc'⟩

theorem changedAt_of_delete (h : s.delete p = .ok s') : ChangedAt p s s' := by
  obtain rfl | ⟨f, halong, hf⟩ := eq_or_along_of_delete h
  · exact .inl rfl
  · refine .inr ⟨f, halong, fun c c' hc => ?_⟩
    obtain ⟨slot, hslot, hc'⟩ := hf c c' hc
    exact ⟨slot, none, hslot, hc'⟩

namespace ChangedAt

variable (h : ChangedAt p s s')

include h

theorem sigil_root : s'.root.sigil = s.root.sigil := by
  obtain rfl | ⟨f, halong, hf⟩ := h
  · rfl
  · refine sigil_along (fun c c' hc => ?_) halong
    obtain ⟨slot, new, -, rfl⟩ := hf c c' hc
    exact sigil_setSlot c slot new

theorem under?_of_apart (hks : Apart p.keys ks) : s'.under? ks = s.under? ks := by
  obtain rfl | ⟨f, halong, hf⟩ := h
  · rfl
  · rw [p.keys_eq] at hks
    refine under?_along_of_apart (fun c c' hc ls hls => ?_) halong hks
    obtain ⟨slot, new, hslot, rfl⟩ := hf c c' hc
    exact under?_setSlot_of_apart hslot hls new

theorem isSome_under? (hks : ¬ p.keys <+: ks) (hs : (s.under? ks).isSome) : (s'.under? ks).isSome := by
  obtain rfl | ⟨f, halong, hf⟩ := h
  · exact hs
  · rw [p.keys_eq] at hks
    refine isSome_under?_along (fun c c' hc ls hls hv => ?_) halong hks hs
    obtain ⟨slot, new, hslot, rfl⟩ := hf c c' hc
    exact isSome_under?_setSlot hslot hls hv new

end ChangedAt

theorem sigil_root_write (h : s.write p value = .ok s') : s'.root.sigil = s.root.sigil :=
  (changedAt_of_write h).sigil_root

theorem sigil_root_delete (h : s.delete p = .ok s') : s'.root.sigil = s.root.sigil :=
  (changedAt_of_delete h).sigil_root

/-- a key that is no position has a slot in a map only -/
theorem sigil_eq_map_of_slot? {v : Node} {seg : Segment} {slot : Slot} (hindex : seg.index? = none)
    (h : v.slot? seg = some slot) : v.sigil = .map := by
  obtain ⟨hv, -⟩ | ⟨hv, n, rfl⟩ := slot?_cases h
  · exact hv
  · cases v with
    | list vs =>
      rw [slot?, hindex] at h
      cases h
    | _ => cases hv

theorem sigil_root_of_read {o : Option Node} {seg : Segment} {ss : List Segment} (hp : p.segments = seg :: ss)
    (hindex : seg.index? = none) (h : s.read p = .ok o) : s.root.sigil = .map := by
  rw [read, hp] at h
  obtain ⟨slot, hslot, -⟩ := readFrom_cons_eq_ok.1 h
  exact sigil_eq_map_of_slot? hindex hslot

theorem sigil_root_of_write {seg : Segment} {ss : List Segment} (hp : p.segments = seg :: ss)
    (hindex : seg.index? = none) (h : s.write p value = .ok s') : s.root.sigil = .map := by
  have halong := write_eq_ok h
  obtain ⟨hinner, hleaf⟩ | ⟨ts, hinner⟩ := Path.inner_cases hp <;> rw [hinner] at halong
  · obtain ⟨slot, -, hslot, -⟩ := writeLeaf_eq_ok.1 halong
    rw [hleaf] at hslot
    exact sigil_eq_map_of_slot? hindex hslot
  · obtain ⟨slot, -, hslot, -⟩ := along_cons halong
    exact sigil_eq_map_of_slot? hindex hslot

theorem sigil_root_of_delete {seg : Segment} {ss : List Segment} (hp : p.segments = seg :: ss)
    (hindex : seg.index? = none) (h : s.delete p = .ok s') : s.root.sigil = .map := by
  obtain ⟨o, halong, -⟩ := delete_eq_ok h
  obtain ⟨hinner, hleaf⟩ | ⟨ts, hinner⟩ := Path.inner_cases hp <;> rw [hinner] at halong
  · obtain ⟨slot, hslot, -⟩ := dropLeaf?_eq_ok.1 halong
    rw [hleaf] at hslot
    exact sigil_eq_map_of_slot? hindex hslot
  · obtain ⟨slot, hslot, -⟩ := along?_cons halong
    exact sigil_eq_map_of_slot? hindex hslot

theorem under?_write_of_apart (h : s.write p value = .ok s') (hks : Apart p.keys ks) : s'.under? ks = s.under? ks :=
  (changedAt_of_write h).under?_of_apart hks

theorem under?_delete_of_apart (h : s.delete p = .ok s') (hks : Apart p.keys ks) : s'.under? ks = s.under? ks :=
  (changedAt_of_delete h).under?_of_apart hks

theorem isSome_under?_write (h : s.write p value = .ok s') (hks : ¬ p.keys <+: ks) (hs : (s.under? ks).isSome) :
    (s'.under? ks).isSome :=
  (changedAt_of_write h).isSome_under? hks hs

theorem isSome_under?_delete (h : s.delete p = .ok s') (hks : ¬ p.keys <+: ks) (hs : (s.under? ks).isSome) :
    (s'.under? ks).isSome :=
  (changedAt_of_delete h).isSome_under? hks hs

theorem under?_delete_of_prefix (h : s.delete p = .ok s') (hks : p.keys <+: ks) : s'.under? ks = none := by
  obtain ⟨o, halong, hroot⟩ := delete_eq_ok h
  refine under?_of_prefix hks ?_
  rw [hroot, p.keys_eq]
  exact under?_along?_dropLeaf? halong

theorem under?_of_under?_delete {w : Node} (h : s.delete p = .ok s') (hw : s'.under? ks = some w) :
    ∃ u, s.under? ks = some u ∧ (u = w ∨ u.sigil = w.sigil ∧ w.isContainer = true) := by
  obtain ⟨o, halong, hroot⟩ := delete_eq_ok h
  rw [under?, hroot] at hw
  cases o with
  | none => exact ⟨w, hw, .inl rfl⟩
  | some v => exact under?_of_under?_along? halong hw

section Plain

variable (hroot : s.root.sigil = .map) (hp : p.Plain)

include hroot hp

theorem delete_eq_self (h : s.delete p = .ok s') (hnone : s.under? p.keys = none) : s' = s := by
  obtain ⟨o, halong, hs'⟩ := delete_eq_ok h
  rw [under?, p.keys_eq] at hnone
  obtain rfl := eq_none_of_along? hroot hp halong hnone
  cases s
  cases s'
  cases hs'
  rfl

theorem under?_of_read {o : Option Node} (h : s.read p = .ok o) : s.under? p.keys = o :=
  under?_of_readFrom hroot hp h

theorem under?_write (h : s.write p value = .ok s') :
    ∃ new, leafValue p (s.under? p.keys) value = .ok new ∧ s'.under? p.keys = new := by
  obtain ⟨c, c', hleaf, hc, hunder, hold⟩ := under?_along hroot hp (write_eq_ok h)
  obtain ⟨slot, new, hslot, hnew, rfl⟩ := writeLeaf_eq_ok.1 hleaf
  obtain rfl := eq_key_of_slot? hc hslot
  have hfound : s.under? p.keys = c.child? (.key p.leaf.key) := by
    rw [under?, p.keys_eq, ← hold]
    simp [Node.under?]
  refine ⟨new, by rw [hfound, hnew], ?_⟩
  rw [under?, p.keys_eq, under?_append, hunder, Option.bind_some]
  simp [Node.under?, child?_setSlot_self hc]

end Plain

theorem read_of_under? {w : Node} (hp : p.Plain) (h : s.under? p.keys = some w) (hw : w.sigil = p.leaf.sigil) :
    s.read p = .ok (some w) := by
  refine readFrom_of_under? hp h fun t ht => ?_
  rw [List.getLast?_eq_some_getLast p.segments_ne_nil, Option.mem_some_iff] at ht
  rw [hw, ← ht]
  rfl

end Store

end Dialogue
