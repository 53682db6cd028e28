import Dialogue.Goal
import Dialogue.Proofs.Edits
import Dialogue.Proofs.Store.Trimmed

/-!
# Objects

The objects of an utterance, and what is taken from one of them by removals.  `Sweeps D q s s'` says that from the
snapshot `s` to `s'` the object at the keys `q` loses what is under the keys in `D`, and nothing else.  Sweeps follow
one another (`Sweeps.trans`), and an object stays as it is exactly if nothing is taken from it (`Sweeps.kept_iff`).

`Strips D s s'` says so of all objects together, and of slots that lead through lists as well: items that move up can
take the place of one that is taken away, but the objects are not the same again (`Strips.trans`).
-/

namespace Dialogue

open Slots Snapshot

/-! ### Objects and their slots -/

/-- where an utterance holds an object -/
def objectAt (ks : List String) : Place :=
  (.utterance, "objects" :: ks)

/-- the keys of the objects that belong to a goal -/
def Goal.Owns (g : Goal) (ks : List String) : Prop :=
  ∃ slot ∈ g.objectSlots, slot.keys = ks

theorem segments_of_join {slot : Path} {p : ScopedPath} (h : objects.join slot = .ok p) :
    p.scope = .utterance ∧ p.path.segments = ⟨.map, "objects"⟩ :: slot.segments := by
  obtain ⟨path, hpath, h⟩ := bind_eq_ok.1 h
  cases h
  exact ⟨rfl, Path.join_eq_ok.1 hpath⟩

theorem place_of_join {slot : Path} {p : ScopedPath} (h : objects.join slot = .ok p) :
    p.place = objectAt slot.keys := by
  obtain ⟨hscope, hsegments⟩ := segments_of_join h
  rw [ScopedPath.place, Path.keys, hscope, hsegments]
  rfl

theorem plain_of_join {slot : Path} {p : ScopedPath} (h : objects.join slot = .ok p) (hslot : slot.Plain) :
    p.path.Plain := by
  obtain ⟨-, hsegments⟩ := segments_of_join h
  unfold Path.Plain Path.inner
  rw [hsegments, List.dropLast_cons_of_ne_nil slot.segments_ne_nil]
  intro seg hseg
  rcases List.mem_cons.1 hseg with rfl | hseg
  · rfl
  · exact hslot seg hseg

/-! ### What is taken from an object -/

section

variable {D D' : List String → Prop} {q ks : List String} {s s' s'' : Snapshot}

/-- nothing is taken from an object by taking away what is under the keys in `D` -/
def Spares (D : List String → Prop) (q : List String) (s : Snapshot) : Prop :=
  ∀ d, D d → (d <+: q → s.under? (objectAt q) = none) ∧ (q <+: d → s.under? (objectAt d) = none)

/-- what is under the keys in `D` is taken away, and nothing else of an object -/
structure Sweeps (D : List String → Prop) (q : List String) (s s' : Snapshot) : Prop where
  gone : ∀ ks, q <+: ks → (s'.under? (objectAt ks) = none ↔ s.under? (objectAt ks) = none ∨ ∃ d, D d ∧ d <+: ks)
  kept : Spares D q s → s'.under? (objectAt q) = s.under? (objectAt q)
  objects : (s.under? objects.place).isSome → (s'.under? Slots.objects.place).isSome

theorem under?_below (h : s'.under? (objectAt q) = s.under? (objectAt q)) (hks : q <+: ks) :
    s'.under? (objectAt ks) = s.under? (objectAt ks) := by
  obtain ⟨js, rfl⟩ := hks
  have hparts (s : Snapshot) : s.under? (objectAt (q ++ js)) = (s.under? (objectAt q)).bind (Node.under? js) :=
    under?_append s .utterance ("objects" :: q) js
  rw [hparts, hparts, h]

theorem Spares.of_under?_eq (h : Spares D q s) (heq : s'.under? (objectAt q) = s.under? (objectAt q)) :
    Spares D q s' := by
  intro d hd
  obtain ⟨habove, hbelow⟩ := h d hd
  refine ⟨fun hdq => ?_, fun hqd => ?_⟩
  · rw [heq]
    exact habove hdq
  · rw [under?_below heq hqd]
    exact hbelow hqd

namespace Sweeps

/-- **An object stays exactly if nothing is taken from it.** -/
theorem kept_iff (h : Sweeps D q s s') : s'.under? (objectAt q) = s.under? (objectAt q) ↔ Spares D q s := by
  refine ⟨fun heq d hd => ⟨fun hdq => ?_, fun hqd => ?_⟩, h.kept⟩
  · rw [← heq]
    exact (h.gone q List.prefix_rfl).2 (.inr ⟨d, hd, hdq⟩)
  · rw [← under?_below heq hqd]
    exact (h.gone d hqd).2 (.inr ⟨d, hd, List.prefix_rfl⟩)

theorem of_eq (heq : s'.under? (objectAt q) = s.under? (objectAt q))
    (hobjects : (s.under? Slots.objects.place).isSome → (s'.under? Slots.objects.place).isSome) :
    Sweeps (fun _ => False) q s s' := by
  refine ⟨fun ks hks => ?_, fun _ => heq, hobjects⟩
  rw [under?_below heq hks]
  simp

theorem congr (h : Sweeps D q s s') (hD : ∀ d, D d ↔ D' d) : Sweeps D' q s s' := by
  have heq : D = D' := funext fun d => propext (hD d)
  rwa [← heq]

theorem trans (h : Sweeps D q s s') (h' : Sweeps D' q s' s'') : Sweeps (fun d => D d ∨ D' d) q s s'' := by
  refine ⟨fun ks hks => ?_, fun hspares => ?_, fun hs => h'.objects (h.objects hs)⟩
  · rw [h'.gone ks hks, h.gone ks hks, or_assoc]
    simp only [or_and_right, exists_or]
  · have heq := h.kept fun d hd => hspares d (.inl hd)
    have hspares' : Spares D' q s' := Spares.of_under?_eq (fun d hd => hspares d (.inr hd)) heq
    exact (h'.kept hspares').trans heq

end Sweeps

/-- a change elsewhere is none of the objects as a whole -/
theorem not_starting_of_apart {p : ScopedPath} (h : p.place.Apart (objectAt q)) :
    ¬ (p.scope = objects.place.1 ∧ p.path.keys <+: objects.place.2) := by
  rintro ⟨hscope, hkeys⟩
  have hq : objects.place.2 <+: (objectAt q).2 := List.cons_prefix_cons.2 ⟨rfl, List.nil_prefix⟩
  exact (h hscope).1 (hkeys.trans hq)

theorem sweeps_of_edits {W R : ScopedPath → Prop} (hW : ∀ p, W p → p.place.Apart (objectAt q))
    (hR : ∀ p, R p → p.place.Apart (objectAt q)) (h : s.Edits W R s') : Sweeps (fun _ => False) q s s' :=
  .of_eq (h.under?_of_apart hW hR)
    (h.isSome_under? (fun p hp => not_starting_of_apart (hW p hp)) fun p hp => not_starting_of_apart (hR p hp))

theorem keys_ne_nil (slot : Path) : slot.keys ≠ [] := by
  unfold Path.keys
  rw [Ne, List.map_eq_nil_iff]
  exact slot.segments_ne_nil

theorem sweeps_of_remove {slot : Path} {p : ScopedPath} (hs : s.RootedAt .utterance) (hslot : slot.Plain)
    (hp : objects.join slot = .ok p) (h : s.remove p = .ok s') : Sweeps (· = slot.keys) q s s' := by
  have hplace := place_of_join hp
  have hscope : p.scope = .utterance := congrArg Prod.fst hplace
  have hkeys : p.path.keys = "objects" :: slot.keys := congrArg Prod.snd hplace
  have hgone (ks : List String) :
      s'.under? (objectAt ks) = none ↔ s.under? (objectAt ks) = none ∨ slot.keys <+: ks := by
    have hiff : s'.under? (p.scope, "objects" :: ks) = none ↔ _ := under?_remove_eq_none_iff h
    rw [hscope, hkeys, List.prefix_cons_inj] at hiff
    exact hiff
  refine ⟨fun ks _ => ?_, fun hspares => ?_, ?_⟩
  · rw [hgone ks]
    simp
  · obtain ⟨habove, hbelow⟩ := hspares _ rfl
    -- nothing was at the place if the slot lies above it, and nothing is removed if the slot lies below
    by_cases hdq : slot.keys <+: q
    · rw [habove hdq, hgone q]
      exact .inl (habove hdq)
    by_cases hqd : q <+: slot.keys
    · have hnone := hbelow hqd
      rw [← hplace] at hnone
      rw [remove_eq_self (hscope ▸ hs) (plain_of_join hp hslot) h hnone]
    · refine under?_remove_of_apart h ?_
      rw [hplace]
      exact fun _ => Apart.cons_iff.2 fun _ => ⟨hdq, hqd⟩
  · refine isSome_under?_remove h ?_
    rintro ⟨-, hstarts⟩
    rw [hkeys, show objects.place.2 = ["objects"] from rfl, List.prefix_cons_inj, List.prefix_nil] at hstarts
    exact keys_ne_nil slot hstarts

/-! ### What is taken from all objects -/

/-- what an utterance holds at a slot of its objects -/
def Snapshot.object? (s : Snapshot) (slot : Path) : Option Node :=
  (s.under? objects.place).bind (Node.lead? slot.segments)

/-- the objects lose something by removals -/
def Loses (s s' : Snapshot) : Prop :=
  ∃ v w, s.under? objects.place = some v ∧ s'.under? objects.place = some w ∧ Relation.TransGen Node.Trims v w

/-- the objects lose what is at the slots in `D`, and stay as they are exactly if nothing is there -/
structure Strips (D : Path → Prop) (s s' : Snapshot) : Prop where
  same_or : s'.under? objects.place = s.under? objects.place ∨ Loses s s'
  same_iff : s'.under? objects.place = s.under? objects.place ↔ ∀ slot, D slot → s.object? slot = none

theorem object?_congr (h : s'.under? objects.place = s.under? objects.place) (slot : Path) :
    s'.object? slot = s.object? slot := by
  rw [object?, object?, h]

namespace Loses

theorem ne (h : Loses s s') : s'.under? objects.place ≠ s.under? objects.place := by
  obtain ⟨v, w, hv, hw, htrims⟩ := h
  rw [hv, hw]
  intro heq
  exact Node.ne_of_trims htrims (Option.some.inj heq).symm

theorem trans (h : Loses s s') (h' : Loses s' s'') : Loses s s'' := by
  obtain ⟨v, w, hv, hw, hvw⟩ := h
  obtain ⟨w', x, hw', hx, hwx⟩ := h'
  rw [hw] at hw'
  cases hw'
  exact ⟨v, x, hv, hx, hvw.trans hwx⟩

end Loses

namespace Strips

variable {D D' : Path → Prop}

theorem of_eq (h : s'.under? objects.place = s.under? objects.place) : Strips (fun _ => False) s s' :=
  ⟨.inl h, fun _ _ => False.elim, fun _ => h⟩

theorem congr (h : Strips D s s') (hD : ∀ slot, D slot ↔ D' slot) : Strips D' s s' := by
  have heq : D = D' := funext fun slot => propext (hD slot)
  rwa [← heq]

/-- what the first removals take away the others do not bring back -/
theorem trans (h : Strips D s s') (h' : Strips D' s' s'') : Strips (fun slot => D slot ∨ D' slot) s s'' := by
  obtain hsame | hloses := h.same_or
  · have hnone := h.same_iff.1 hsame
    refine ⟨?_, ?_⟩
    · obtain hsame' | ⟨v, w, hv, hw, htrims⟩ := h'.same_or
      · exact .inl (hsame'.trans hsame)
      · exact .inr ⟨v, w, hsame.symm.trans hv, hw, htrims⟩
    · rw [← hsame, h'.same_iff]
      simp only [object?_congr hsame]
      exact ⟨fun hnone' slot hslot => hslot.elim (hnone slot) (hnone' slot),
        fun hall slot hslot => hall slot (.inr hslot)⟩
  · have hloses' : Loses s s'' := by
      obtain hsame' | hloses' := h'.same_or
      · obtain ⟨v, w, hv, hw, htrims⟩ := hloses
        exact ⟨v, w, hv, hsame'.trans hw, htrims⟩
      · exact hloses.trans hloses'
    refine ⟨.inr hloses', fun hsame => absurd hsame hloses'.ne, fun hnone => ?_⟩
    exact absurd (h.same_iff.2 fun slot hslot => hnone slot (.inl hslot)) hloses.ne

end Strips

theorem under?_objects (s : Snapshot) :
    s.under? objects.place = (s.store .utterance).root.child? (.key "objects") := by
  change ((s.store .utterance).root.child? (.key "objects")).bind (Node.under? []) = _
  cases (s.store .utterance).root.child? (.key "objects") <;> rfl

/-- a removal of an object does nothing, or there was something and it is lost -/
theorem cases_of_remove {slot : Path} {p : ScopedPath} (hp : objects.join slot = .ok p) (h : s.remove p = .ok s') :
    s'.under? objects.place = s.under? objects.place ∧ s.object? slot = none ∨
      Loses s s' ∧ s.object? slot ≠ none := by
  obtain ⟨hscope, hsegments⟩ := segments_of_join hp
  have hinner : p.path.inner = ⟨.map, "objects"⟩ :: slot.inner := by
    rw [Path.inner, hsegments, List.dropLast_cons_of_ne_nil slot.segments_ne_nil, Path.inner]
  have hleaf : slot.inner ++ [p.path.leaf] = slot.segments := by
    rw [← slot.inner_append_leaf]
    simp only [Path.leaf, hsegments, List.getLast_cons slot.segments_ne_nil]
  obtain ⟨store, hdelete, rfl⟩ := remove_eq_ok.1 h
  rw [hscope] at hdelete ⊢
  obtain ⟨o, halong, hroot⟩ := Store.delete_eq_ok hdelete
  rw [hinner] at halong
  obtain ⟨i, hi, hor⟩ := Node.along?_cons halong
  have hmap : (s.store .utterance).root.sigil = .map := Store.sigil_eq_map_of_slot? (by rfl) hi
  obtain rfl := Node.eq_key_of_slot? hmap hi
  rw [under?_objects, under?_objects, store_withStore_self, hroot]
  obtain ⟨hnone, rfl⟩ | ⟨v, o, hv, -, hrest, rfl⟩ := hor
  · refine .inl ⟨rfl, ?_⟩
    rw [object?, under?_objects, hnone, Option.bind_none]
  have hs : s.under? objects.place = some v := (under?_objects s).trans hv
  have hobject : s.object? slot = v.lead? (slot.inner ++ [p.path.leaf]) := by
    rw [object?, hs, Option.bind_some, hleaf]
  obtain ⟨rfl, hnone⟩ | ⟨w, c, rfl, hc, htrims⟩ := Node.trims_of_along? hrest
  · exact .inl ⟨rfl, hobject.trans hnone⟩
  · refine .inr ⟨⟨v, w, hs, ?_, .single htrims⟩, by simp [hobject, hc]⟩
    rw [under?_objects, store_withStore_self, hroot]
    exact Node.child?_setChild_self hmap "objects" w

theorem strips_of_remove {slot : Path} {p : ScopedPath} (hp : objects.join slot = .ok p) (h : s.remove p = .ok s') :
    Strips (· = slot) s s' := by
  obtain ⟨hsame, hnone⟩ | ⟨hloses, hsome⟩ := cases_of_remove hp h
  · exact ⟨.inl hsame, fun _ d hd => hd ▸ hnone, fun _ => hsame⟩
  · exact ⟨.inr hloses, fun hsame => absurd hsame hloses.ne, fun hnone => absurd (hnone slot rfl) hsome⟩

end

end Dialogue
