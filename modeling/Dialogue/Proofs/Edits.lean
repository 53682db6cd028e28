import Mathlib.Data.List.Basic
import Dialogue.Command.Run
import Dialogue.Proofs.Store.Keys
import Dialogue.Proofs.Store.ReadBack

/-!
# Edits of a snapshot

Every part of a turn changes its snapshot by writes and removals at certain paths.  `Snapshot.Edits` says at which,
and what lies elsewhere stays (`Edits.under?_of_apart`).  The commands are edits at the paths that they name
(`Command.edits_run`), and so is an update with commands (`Snapshot.edits_update`).
-/

namespace Dialogue

/-- keys in the store of a scope -/
abbrev Place := Scope × List String

/-- two places of which neither is inside the other -/
def Place.Apart (p q : Place) : Prop :=
  p.1 = q.1 → Dialogue.Apart p.2 q.2

instance (p q : Place) : Decidable (p.Apart q) := by
  unfold Place.Apart
  infer_instance

theorem Place.Apart.symm {p q : Place} (h : p.Apart q) : q.Apart p :=
  fun hscope => (h hscope.symm).symm

theorem Place.apart_of_scope_ne {p q : Place} (h : p.1 ≠ q.1) : p.Apart q :=
  fun hscope => absurd hscope h

theorem Place.apart_of_head_ne {k l : String} (h : k ≠ l) (scope scope' : Scope) (ks ls : List String) :
    Place.Apart (scope, k :: ks) (scope', l :: ls) :=
  fun _ => Apart.of_head_ne h ks ls

/-- where a path leads -/
def ScopedPath.place (p : ScopedPath) : Place :=
  (p.scope, p.path.keys)

namespace Snapshot

variable {s s' s'' : Snapshot} {p : ScopedPath} {q : Place} {value o : Option Node}

def under? (s : Snapshot) (q : Place) : Option Node :=
  (s.store q.1).under? q.2

theorem under?_append (s : Snapshot) (scope : Scope) (ks ls : List String) :
    s.under? (scope, ks ++ ls) = (s.under? (scope, ks)).bind (Node.under? ls) :=
  Node.under?_append ks ls _

/-- whether the store of a scope is a map -/
def RootedAt (s : Snapshot) (scope : Scope) : Prop :=
  (s.store scope).root.sigil = .map

theorem put_eq_ok : s.put p value = .ok s' ↔
    ∃ store, (s.store p.scope).write p.path value = .ok store ∧ s.withStore p.scope store = s' := by
  simp only [put, bind_eq_ok, pure_eq_ok]

theorem remove_eq_ok : s.remove p = .ok s' ↔
    ∃ store, (s.store p.scope).delete p.path = .ok store ∧ s.withStore p.scope store = s' := by
  simp only [remove, bind_eq_ok, pure_eq_ok]

theorem sigil_withStore {scope : Scope} {store : Store} (h : store.root.sigil = (s.store scope).root.sigil)
    (other : Scope) : ((s.withStore scope store).store other).root.sigil = (s.store other).root.sigil := by
  by_cases ho : other = scope
  · rw [ho, store_withStore_self, h]
  · rw [store_withStore_of_ne ho]

theorem rootedAt_put {scope : Scope} (h : s.put p value = .ok s') (hs : s.RootedAt scope) : s'.RootedAt scope := by
  obtain ⟨store, hw, rfl⟩ := put_eq_ok.1 h
  rw [RootedAt, sigil_withStore (Store.sigil_root_write hw)]
  exact hs

theorem rootedAt_remove {scope : Scope} (h : s.remove p = .ok s') (hs : s.RootedAt scope) : s'.RootedAt scope := by
  obtain ⟨store, hw, rfl⟩ := remove_eq_ok.1 h
  rw [RootedAt, sigil_withStore (Store.sigil_root_delete hw)]
  exact hs

theorem under?_put_of_apart (h : s.put p value = .ok s') (hq : p.place.Apart q) : s'.under? q = s.under? q := by
  obtain ⟨store, hw, rfl⟩ := put_eq_ok.1 h
  by_cases hscope : p.scope = q.1
  · rw [under?, ← hscope, store_withStore_self, Store.under?_write_of_apart hw (hq hscope), hscope]
    rfl
  · rw [under?, store_withStore_of_ne (Ne.symm hscope)]
    rfl

theorem under?_remove_of_apart (h : s.remove p = .ok s') (hq : p.place.Apart q) : s'.under? q = s.under? q := by
  obtain ⟨store, hw, rfl⟩ := remove_eq_ok.1 h
  by_cases hscope : p.scope = q.1
  · rw [under?, ← hscope, store_withStore_self, Store.under?_delete_of_apart hw (hq hscope), hscope]
    rfl
  · rw [under?, store_withStore_of_ne (Ne.symm hscope)]
    rfl

theorem under?_remove_of_prefix {ks : List String} (h : s.remove p = .ok s') (hks : p.path.keys <+: ks) :
    s'.under? (p.scope, ks) = none := by
  obtain ⟨store, hw, rfl⟩ := remove_eq_ok.1 h
  rw [under?, store_withStore_self]
  exact Store.under?_delete_of_prefix hw hks

theorem under?_remove_of_place {scope : Scope} {ls ks : List String} (h : s.remove p = .ok s')
    (hp : p.place = (scope, ls)) (hks : ls <+: ks) : s'.under? (scope, ks) = none := by
  have hscope : p.scope = scope := congrArg Prod.fst hp
  have hkeys : p.path.keys = ls := congrArg Prod.snd hp
  rw [← hscope]
  rw [← hkeys] at hks
  exact under?_remove_of_prefix h hks

/-- what is there after a removal was there before, or is a container of which a part is gone -/
theorem under?_of_under?_remove {w : Node} (h : s.remove p = .ok s') (hw : s'.under? q = some w) :
    ∃ u, s.under? q = some u ∧ (u = w ∨ u.sigil = w.sigil ∧ w.isContainer = true) := by
  obtain ⟨store, hd, rfl⟩ := remove_eq_ok.1 h
  by_cases hscope : q.1 = p.scope
  · rw [under?, hscope, store_withStore_self] at hw
    rw [under?, hscope]
    exact Store.under?_of_under?_delete hd hw
  · rw [under?, store_withStore_of_ne hscope] at hw
    exact ⟨w, hw, .inl rfl⟩

theorem isSome_under?_put (h : s.put p value = .ok s') (hq : ¬ (p.scope = q.1 ∧ p.path.keys <+: q.2))
    (hs : (s.under? q).isSome) : (s'.under? q).isSome := by
  obtain ⟨store, hw, rfl⟩ := put_eq_ok.1 h
  by_cases hscope : p.scope = q.1
  · rw [under?, ← hscope, store_withStore_self]
    rw [under?, ← hscope] at hs
    exact Store.isSome_under?_write hw (fun hp => hq ⟨hscope, hp⟩) hs
  · rw [under?, store_withStore_of_ne (Ne.symm hscope)]
    exact hs

theorem isSome_under?_remove (h : s.remove p = .ok s') (hq : ¬ (p.scope = q.1 ∧ p.path.keys <+: q.2))
    (hs : (s.under? q).isSome) : (s'.under? q).isSome := by
  obtain ⟨store, hd, rfl⟩ := remove_eq_ok.1 h
  by_cases hscope : p.scope = q.1
  · rw [under?, ← hscope, store_withStore_self]
    rw [under?, ← hscope] at hs
    exact Store.isSome_under?_delete hd (fun hp => hq ⟨hscope, hp⟩) hs
  · rw [under?, store_withStore_of_ne (Ne.symm hscope)]
    exact hs

/-- a removal takes away what is under the keys of its path, and nothing else -/
theorem under?_remove_eq_none_iff {ks : List String} (h : s.remove p = .ok s') :
    s'.under? (p.scope, ks) = none ↔ s.under? (p.scope, ks) = none ∨ p.path.keys <+: ks := by
  constructor
  · intro hnone
    by_contra hnot
    rw [not_or] at hnot
    obtain ⟨hsome, hks⟩ := hnot
    have hstays : (s'.under? (p.scope, ks)).isSome :=
      isSome_under?_remove h (fun hp => hks hp.2) (Option.isSome_iff_ne_none.2 hsome)
    rw [hnone] at hstays
    cases hstays
  · rintro (hnone | hks)
    · cases hw : s'.under? (p.scope, ks) with
      | none => rfl
      | some w =>
        obtain ⟨u, hu, -⟩ := under?_of_under?_remove h hw
        rw [hnone] at hu
        cases hu
    · exact under?_remove_of_prefix h hks

theorem under?_get (hs : s.RootedAt p.scope) (hp : p.path.Plain) (h : s.get p = .ok o) : s.under? p.place = o :=
  Store.under?_of_read hs hp h

theorem under?_put (hs : s.RootedAt p.scope) (hp : p.path.Plain) (h : s.put p value = .ok s') :
    ∃ new, Node.leafValue p.path (s.under? p.place) value = .ok new ∧ s'.under? p.place = new := by
  obtain ⟨store, hw, rfl⟩ := put_eq_ok.1 h
  obtain ⟨new, hleaf, hnew⟩ := Store.under?_write hs hp hw
  refine ⟨new, hleaf, ?_⟩
  rw [under?, ScopedPath.place, store_withStore_self, hnew]

theorem under?_put_scalar {v w : Node} (hs : s.RootedAt p.scope) (hp : p.path.Plain)
    (hscalar : p.path.leaf.sigil.isScalar = true) (hw : Node.coerce p.path.leaf.sigil v = .ok w)
    (h : s.put p (some v) = .ok s') : s'.under? p.place = some w := by
  obtain ⟨new, hleaf, hnew⟩ := under?_put hs hp h
  rw [Node.leafValue_of_isScalar hscalar, map_eq_ok] at hleaf
  obtain ⟨w', hw', rfl⟩ := hleaf
  rw [hw] at hw'
  cases hw'
  exact hnew

theorem remove_eq_self (hs : s.RootedAt p.scope) (hp : p.path.Plain) (h : s.remove p = .ok s')
    (hnone : s.under? p.place = none) : s' = s := by
  obtain ⟨store, hd, rfl⟩ := remove_eq_ok.1 h
  rw [Store.delete_eq_self hs hp hd hnone]
  cases p.scope <;> rfl

/-! ### Sequences of edits -/

/-- what a snapshot becomes by writes and removals at certain paths -/
inductive Edits (W R : ScopedPath → Prop) (s : Snapshot) : Snapshot → Prop
  | refl : Edits W R s s
  | put {p : ScopedPath} {value : Option Node} {s' s'' : Snapshot} (h : Edits W R s s') (hp : W p)
      (hput : s'.put p value = .ok s'') : Edits W R s s''
  | remove {p : ScopedPath} {s' s'' : Snapshot} (h : Edits W R s s') (hp : R p)
      (hremove : s'.remove p = .ok s'') : Edits W R s s''

namespace Edits

variable {W R W' R' : ScopedPath → Prop}

theorem trans (h : Edits W R s s') (h' : Edits W R s' s'') : Edits W R s s'' := by
  induction h' with
  | refl => exact h
  | put _ hp hput ih => exact ih.put hp hput
  | remove _ hp hremove ih => exact ih.remove hp hremove

theorem mono (hW : ∀ p, W p → W' p) (hR : ∀ p, R p → R' p) (h : Edits W R s s') : Edits W' R' s s' := by
  induction h with
  | refl => exact .refl
  | put _ hp hput ih => exact ih.put (hW _ hp) hput
  | remove _ hp hremove ih => exact ih.remove (hR _ hp) hremove

theorem of_put (hp : W p) (h : s.put p value = .ok s') : Edits W R s s' :=
  Edits.refl.put hp h

theorem of_remove (hp : R p) (h : s.remove p = .ok s') : Edits W R s s' :=
  Edits.refl.remove hp h

theorem rootedAt {scope : Scope} (h : Edits W R s s') (hs : s.RootedAt scope) : s'.RootedAt scope := by
  induction h with
  | refl => exact hs
  | put _ _ hput ih => exact rootedAt_put hput ih
  | remove _ _ hremove ih => exact rootedAt_remove hremove ih

theorem under?_of_apart (h : Edits W R s s') (hW : ∀ p, W p → p.place.Apart q) (hR : ∀ p, R p → p.place.Apart q) :
    s'.under? q = s.under? q := by
  induction h with
  | refl => rfl
  | put _ hp hput ih => rw [under?_put_of_apart hput (hW _ hp), ih]
  | remove _ hp hremove ih => rw [under?_remove_of_apart hremove (hR _ hp), ih]

theorem isSome_under? (h : Edits W R s s') (hW : ∀ p, W p → ¬ (p.scope = q.1 ∧ p.path.keys <+: q.2))
    (hR : ∀ p, R p → ¬ (p.scope = q.1 ∧ p.path.keys <+: q.2)) (hs : (s.under? q).isSome) : (s'.under? q).isSome := by
  induction h with
  | refl => exact hs
  | put _ hp hput ih => exact isSome_under?_put hput (hW _ hp) ih
  | remove _ hp hremove ih => exact isSome_under?_remove hremove (hR _ hp) ih

/-- what is there after writes elsewhere was there before, or is a container of which a part is gone -/
theorem under?_of_under? {w : Node} (h : Edits W R s s') (hW : ∀ p, W p → p.place.Apart q)
    (hw : s'.under? q = some w) :
    ∃ u, s.under? q = some u ∧ (u = w ∨ u.sigil = w.sigil ∧ w.isContainer = true) := by
  induction h generalizing w with
  | refl => exact ⟨w, hw, .inl rfl⟩
  | put _ hp hput ih =>
    rw [under?_put_of_apart hput (hW _ hp)] at hw
    exact ih hw
  | remove _ hp hremove ih =>
    obtain ⟨u, hu, hor⟩ := under?_of_under?_remove hremove hw
    obtain ⟨t, ht, hor'⟩ := ih hu
    refine ⟨t, ht, ?_⟩
    rcases hor with rfl | ⟨hsigil, hw⟩
    · exact hor'
    · rcases hor' with rfl | ⟨hsigil', -⟩
      · exact .inr ⟨hsigil, hw⟩
      · exact .inr ⟨hsigil'.trans hsigil, hw⟩

end Edits

end Snapshot

/-! ### Commands -/

namespace Command

open Slots

/-- the paths at which a command writes -/
def Writes : Command → ScopedPath → Prop
  | .set target _, p => p = target
  | .remove _, _ => False
  | .switchGoal scope _, p => p = intentNameIn scope ∨ p = previousIntent ∨ p = previousIntents
  | .completeGoal, p => p = nextIntent ∨ p = intentName

/-- the paths at which a command removes what is there -/
def Removes : Command → ScopedPath → Prop
  | .set _ _, _ => False
  | .remove target, p => p = target
  | .switchGoal _ _, p => p = previousIntent
  | .completeGoal, p => p = nextIntent ∨ ∃ n, p = previousIntentAt n

/-- a command that leaves a place alone -/
def Avoids (c : Command) (q : Place) : Prop :=
  (∀ p, c.Writes p → p.place.Apart q) ∧ ∀ p, c.Removes p → p.place.Apart q

theorem avoids_put {p : ScopedPath} {v : Node} {q : Place} (h : p.place.Apart q) : (put p v).Avoids q := by
  refine ⟨?_, fun r hr => hr.elim⟩
  rintro r rfl
  exact h

theorem avoids_remove {p : ScopedPath} {q : Place} (h : p.place.Apart q) : (remove p).Avoids q := by
  refine ⟨fun r hr => hr.elim, ?_⟩
  rintro r rfl
  exact h

variable {c : Command} {s s' : Snapshot}

theorem edits_pre (h : c.pre s = .ok s') : s.Edits c.Writes c.Removes s' := by
  cases c with
  | set target value => cases h; exact .refl
  | remove target => cases h; exact .refl
  | switchGoal scope goal =>
    obtain ⟨s₁, hremove, h⟩ := bind_eq_ok.1 h
    have h₁ : s.Edits (Writes (.switchGoal scope goal)) (Removes (.switchGoal scope goal)) s₁ :=
      .of_remove rfl hremove
    obtain ⟨o, -, h⟩ := bind_eq_ok.1 h
    split at h
    · split at h
      · exact h₁.put (.inr (.inl rfl)) h
      · cases h
        exact h₁
    · cases h
      exact h₁
  | completeGoal =>
    obtain ⟨s₁, hremove, h⟩ := bind_eq_ok.1 h
    have h₁ : s.Edits (Writes .completeGoal) (Removes .completeGoal) s₁ := .of_remove (.inl rfl) hremove
    obtain ⟨o, -, h⟩ := bind_eq_ok.1 h
    split at h
    · exact h₁.put (.inl rfl) h
    · cases h
      exact h₁

theorem edits_apply (h : c.apply s = .ok s') : s.Edits c.Writes c.Removes s' := by
  cases c with
  | set target value =>
    cases value with
    | literal v => exact .of_put rfl h
    | marker m => cases h
    | fetch source =>
      obtain ⟨o, -, h⟩ := bind_eq_ok.1 h
      exact .of_put rfl h
  | remove target => exact .of_remove rfl h
  | switchGoal scope goal => exact .of_put (.inl rfl) h
  | completeGoal => cases h; exact .refl

theorem edits_post (h : c.post s = .ok s') : s.Edits c.Writes c.Removes s' := by
  cases c with
  | set target value => cases h; exact .refl
  | remove target => cases h; exact .refl
  | switchGoal scope goal =>
    obtain ⟨o, -, h⟩ := bind_eq_ok.1 h
    cases o with
    | none => cases h; exact .refl
    | some v =>
      obtain ⟨s₁, hput, h⟩ := bind_eq_ok.1 h
      exact (Snapshot.Edits.of_put (.inr (.inr rfl)) hput).remove rfl h
  | completeGoal =>
    obtain ⟨o, -, h⟩ := bind_eq_ok.1 h
    cases o with
    | none => cases h; exact .refl
    | some v =>
      obtain ⟨o, -, h⟩ := bind_eq_ok.1 h
      obtain ⟨s₁, hput, h⟩ := bind_eq_ok.1 h
      have h₁ : s.Edits (Writes .completeGoal) (Removes .completeGoal) s₁ := .of_put (.inr rfl) hput
      -- the name is taken off the history, if there is one, before the note of it is removed
      simp only at h
      split at h
      · obtain ⟨s₂, hpop, h⟩ := bind_eq_ok.1 h
        exact (h₁.remove (.inr ⟨_, rfl⟩) hpop).remove (.inl rfl) h
      · exact h₁.remove (.inl rfl) h

theorem put_of_run {target : ScopedPath} {v : Node} (h : (put target v).run s = .ok s') :
    s.put target (some v) = .ok s' := by
  obtain ⟨s₁, hpre, h⟩ := bind_eq_ok.1 h
  obtain ⟨s₂, happly, hpost⟩ := bind_eq_ok.1 h
  cases hpre
  cases hpost
  exact happly

theorem remove_of_run {target : ScopedPath} (h : (remove target).run s = .ok s') : s.remove target = .ok s' := by
  obtain ⟨s₁, hpre, h⟩ := bind_eq_ok.1 h
  obtain ⟨s₂, happly, hpost⟩ := bind_eq_ok.1 h
  cases hpre
  cases hpost
  exact happly

theorem put_of_run_copy {target source : ScopedPath} (h : (copy target source).run s = .ok s') :
    ∃ value, s.get source = .ok value ∧ s.put target value = .ok s' := by
  obtain ⟨s₁, hpre, h⟩ := bind_eq_ok.1 h
  obtain ⟨s₂, happly, hpost⟩ := bind_eq_ok.1 h
  cases hpre
  cases hpost
  exact bind_eq_ok.1 happly

theorem edits_run (h : c.run s = .ok s') : s.Edits c.Writes c.Removes s' := by
  obtain ⟨s₁, hpre, h⟩ := bind_eq_ok.1 h
  obtain ⟨s₂, happly, hpost⟩ := bind_eq_ok.1 h
  exact ((edits_pre hpre).trans (edits_apply happly)).trans (edits_post hpost)

end Command

namespace Snapshot

theorem update_cons_eq_ok {c : Command} {cs : List Command} {s s' : Snapshot} :
    s.update (c :: cs) = .ok s' ↔ ∃ s₁, c.run s = .ok s₁ ∧ s₁.update cs = .ok s' :=
  bind_eq_ok

theorem edits_update {W R : ScopedPath → Prop} {cs : List Command} {s s' : Snapshot}
    (hW : ∀ c ∈ cs, ∀ p, c.Writes p → W p) (hR : ∀ c ∈ cs, ∀ p, c.Removes p → R p) (h : s.update cs = .ok s') :
    s.Edits W R s' := by
  induction cs generalizing s with
  | nil => cases h; exact .refl
  | cons c cs ih =>
    obtain ⟨s₁, hrun, h⟩ := bind_eq_ok.1 h
    have h₁ : s.Edits W R s₁ :=
      (Command.edits_run hrun).mono (hW c List.mem_cons_self) (hR c List.mem_cons_self)
    exact h₁.trans (ih (fun c hc => hW c (List.mem_cons_of_mem _ hc)) (fun c hc => hR c (List.mem_cons_of_mem _ hc)) h)

/-- an update with commands that leave a place alone edits a snapshot elsewhere -/
theorem edits_of_avoids {q : Place} {cs : List Command} {s s' : Snapshot} (hcs : ∀ c ∈ cs, c.Avoids q)
    (h : s.update cs = .ok s') : s.Edits (fun p => p.place.Apart q) (fun p => p.place.Apart q) s' :=
  edits_update (fun c hc => (hcs c hc).1) (fun c hc => (hcs c hc).2) h

theorem under?_of_update_of_avoids {q : Place} {cs : List Command} {s s' : Snapshot} (hcs : ∀ c ∈ cs, c.Avoids q)
    (h : s.update cs = .ok s') : s'.under? q = s.under? q :=
  (edits_of_avoids hcs h).under?_of_apart (fun _ hp => hp) fun _ hp => hp

theorem rootedAt_of_update {scope : Scope} {cs : List Command} {s s' : Snapshot} (h : s.update cs = .ok s')
    (hs : s.RootedAt scope) : s'.RootedAt scope := by
  have hedits : s.Edits (fun _ => True) (fun _ => True) s' :=
    edits_update (fun _ _ _ _ => trivial) (fun _ _ _ _ => trivial) h
  exact hedits.rootedAt hs

theorem update_append_eq_ok {cs ds : List Command} {s s' : Snapshot} :
    s.update (cs ++ ds) = .ok s' ↔ ∃ s₁, s.update cs = .ok s₁ ∧ s₁.update ds = .ok s' := by
  rw [update, List.foldlM_append, bind_eq_ok]
  rfl

/-- what a command puts is there after an update, if the commands that follow leave it alone -/
theorem under?_of_update_put {p : ScopedPath} {v w : Node} {s s' : Snapshot} (cs : List Command) {ds : List Command}
    (hs : s.RootedAt p.scope) (hp : p.path.Plain) (hscalar : p.path.leaf.sigil.isScalar = true)
    (hw : Node.coerce p.path.leaf.sigil v = .ok w) (h : s.update (cs ++ .put p v :: ds) = .ok s')
    (hds : ds.Forall (·.Avoids p.place)) : s'.under? p.place = some w := by
  obtain ⟨s₁, hbefore, h⟩ := update_append_eq_ok.1 h
  obtain ⟨s₂, hrun, hafter⟩ := update_cons_eq_ok.1 h
  have hs₁ := rootedAt_of_update hbefore hs
  have hput := under?_put_scalar hs₁ hp hscalar hw (Command.put_of_run hrun)
  rw [under?_of_update_of_avoids (List.forall_iff_forall_mem.1 hds) hafter, hput]

end Snapshot

end Dialogue
