import Dialogue.Proofs.History
import Dialogue.Proofs.Store.Found

/-!
# What a completion leaves alone

A completion changes the name of the active goal, its own note and the history of goals.  A slot that was filled just
before is read as it was, whatever kinds of containers it lies in, if its keys are apart from those
(`Command.get_of_completeGoal`).
-/

namespace Dialogue

open Slots

namespace Store

open Node

/-- a write that goes on below the first container finds it of the kind that the path names, if it is there, and leaves
it there -/
theorem head_of_write {s s' : Store} {p : Path} {value : Option Node} {t u : Segment} {us : List Segment}
    (hroot : s.root.sigil = .map) (hp : p.segments = t :: u :: us) (h : s.write p value = .ok s') :
    (∀ c, s.under? [t.key] = some c → c.sigil = t.sigil) ∧ ∃ c, s'.under? [t.key] = some c ∧ c.sigil = t.sigil := by
  have hinner : p.inner = t :: (u :: us).dropLast := by simp [Path.inner, hp]
  have hcontainer : t.sigil.isScalar = false := Path.isScalar_of_mem_inner (hinner ▸ List.mem_cons_self)
  have halong := write_eq_ok h
  rw [hinner] at halong
  obtain ⟨slot, child, hslot, hshape, hrest, hs'⟩ := along_cons halong
  obtain rfl := eq_key_of_slot? hroot hslot
  have henter : (s.root.enter t).sigil = t.sigil := sigil_enter hcontainer hslot hshape
  refine ⟨fun c hc => hshape c ?_, child, ?_, (sigil_along (fun _ _ => sigil_writeLeaf) hrest).trans henter⟩
  · rwa [under?, under?_singleton] at hc
  · rw [under?, hs', under?_setChild_self hroot]
    rfl

end Store

namespace Snapshot

variable {s s' : Snapshot} {p : ScopedPath} {value : Option Node} {t u : Segment} {ts us : List Segment}

theorem head_of_put (hs : s.RootedAt p.scope) (hp : p.path.segments = t :: u :: us) (h : s.put p value = .ok s') :
    (∀ c, s.under? (p.scope, [t.key]) = some c → c.sigil = t.sigil) ∧
      ∃ c, s'.under? (p.scope, [t.key]) = some c ∧ c.sigil = t.sigil := by
  obtain ⟨store, hw, rfl⟩ := put_eq_ok.1 h
  obtain ⟨hold, c, hc, hsigil⟩ := Store.head_of_write hs hp hw
  refine ⟨hold, c, ?_, hsigil⟩
  rw [under?, store_withStore_self, hc]

theorem rootedAt_of_rootedAt_put {scope : Scope} (h : s.put p value = .ok s') (hs' : s'.RootedAt scope) :
    s.RootedAt scope := by
  obtain ⟨store, hw, rfl⟩ := put_eq_ok.1 h
  rwa [RootedAt, sigil_withStore (Store.sigil_root_write hw)] at hs'

/-- a path is read in the same way in two maps that have the same under its first key -/
theorem get_of_head (hp : p.path.segments = t :: ts) (hs : s.RootedAt p.scope) (hs' : s'.RootedAt p.scope)
    (h : s'.under? (p.scope, [t.key]) = s.under? (p.scope, [t.key])) : s'.get p = s.get p :=
  get_congr [] hp (List.forall_mem_nil _) rfl hs rfl hs' h

end Snapshot

namespace Command

open Snapshot

variable {s s₁ s' : Snapshot} {p : ScopedPath} {v : Node} {t u : Segment} {us : List Segment}

/-- a completion with no goal to go back to changes its note only; with one it writes the name of this goal -/
theorem cases_of_completeGoal (h : Command.completeGoal.run s = .ok s') :
    s.Edits (· = nextIntent) (· = nextIntent) s' ∨
      ∃ s₁ s₂ goal, s.Edits (· = nextIntent) (· = nextIntent) s₁ ∧ s₁.put intentName (some goal) = .ok s₂ ∧
        s₂.Edits (fun _ => False) (fun r => r = nextIntent ∨ ∃ n, r = previousIntentAt n) s' := by
  obtain ⟨s₁, hpre, h⟩ := bind_eq_ok.1 h
  obtain ⟨s₂, happly, hpost⟩ := bind_eq_ok.1 h
  cases happly
  have hnote : s.Edits (· = nextIntent) (· = nextIntent) s₁ := by
    obtain ⟨s₀, hremove, hpre⟩ := bind_eq_ok.1 hpre
    have hforget : s.Edits (· = nextIntent) (· = nextIntent) s₀ := .of_remove rfl hremove
    obtain ⟨o, -, hpre⟩ := bind_eq_ok.1 hpre
    split at hpre
    · exact hforget.put rfl hpre
    · cases hpre
      exact hforget
  obtain ⟨o, -, hpost⟩ := bind_eq_ok.1 hpost
  cases o with
  | none =>
    cases hpost
    exact .inl hnote
  | some goal =>
    obtain ⟨o, -, hpost⟩ := bind_eq_ok.1 hpost
    obtain ⟨s₂, hname, hpost⟩ := bind_eq_ok.1 hpost
    refine .inr ⟨s₁, s₂, goal, hnote, hname, ?_⟩
    simp only at hpost
    split at hpost
    · obtain ⟨s₃, hpop, hforget⟩ := bind_eq_ok.1 hpost
      exact (Edits.of_remove (.inr ⟨_, rfl⟩) hpop).remove (.inl rfl) hforget
    · exact .of_remove (.inl rfl) hpost

theorem rootedAt_of_completeGoal (h : Command.completeGoal.run s = .ok s') :
    s.RootedAt .utterance ∧ s.RootedAt .conversation := by
  obtain ⟨s₁, hpre, -⟩ := bind_eq_ok.1 h
  obtain ⟨s₀, hremove, hpre⟩ := bind_eq_ok.1 hpre
  obtain ⟨o, hget, -⟩ := bind_eq_ok.1 hpre
  have hconv : s₀.RootedAt .conversation := Store.sigil_root_of_read rfl rfl hget
  obtain ⟨store, -, rfl⟩ := remove_eq_ok.1 hremove
  exact ⟨rootedAt_of_remove rfl rfl hremove, hconv⟩

/-- a completion leaves alone what is under keys apart from those that it changes -/
theorem under?_of_completeGoal {q : Place} (hname : intentName.place.Apart q) (hnote : nextIntent.place.Apart q)
    (hhistory : previousIntents.place.Apart q) (h : Command.completeGoal.run s = .ok s') :
    s'.under? q = s.under? q := by
  obtain ⟨hwrites, hremoves⟩ := avoids_completeGoal hname hhistory hnote
  exact (edits_run h).under?_of_apart hwrites hremoves

/-- whether the keys of a path are apart from those that a completion changes -/
structure ApartFromCompletion (p : ScopedPath) : Prop where
  name : intentName.place.Apart p.place
  note : nextIntent.place.Apart p.place
  history : previousIntents.place.Apart p.place

theorem apart_of_apart_cons {scope scope' : Scope} {k l : String} {ks : List String}
    (h : Place.Apart (scope, [k]) (scope', l :: ks)) : Place.Apart (scope, [k]) (scope', [l]) := by
  intro hscope
  refine Apart.cons_iff.2 fun hk => ?_
  exact absurd (Apart.cons_iff.1 (h hscope) hk) (Apart.not_nil_left _)

/-- edits of the note and of the history leave alone the goal of the utterance, with all that is kept beside its name -/
theorem under?_intent_of_edits {W R : ScopedPath → Prop} (hW : ∀ r, W r → r = nextIntent)
    (hR : ∀ r, R r → r = nextIntent ∨ ∃ n, r = previousIntentAt n) (h : s.Edits W R s') (ks : List String) :
    s'.under? (.utterance, "intent" :: ks) = s.under? (.utterance, "intent" :: ks) := by
  have hnote : nextIntent.place.Apart (.utterance, "intent" :: ks) :=
    Place.apart_of_head_ne (by decide) .utterance .utterance [] ks
  refine h.under?_of_apart (fun r hr => ?_) fun r hr => ?_
  · rw [hW r hr]
    exact hnote
  · rcases hR r hr with rfl | ⟨n, rfl⟩
    · exact hnote
    · exact Place.apart_of_scope_ne (by rintro ⟨⟩)

/-- a slot beside the name of the goal is read as it was: if the name was written, the slot lies in the same map -/
theorem get_of_completeGoal_beside_name (hscope : p.scope = .utterance)
    (hsegments : p.path.segments = t :: u :: us) (ht : t.key = "intent") (hu : "name" ≠ u.key)
    (hput : s.put p (some v) = .ok s₁) (h : Command.completeGoal.run s₁ = .ok s') : s'.get p = s₁.get p := by
  obtain ⟨hutt, -⟩ := rootedAt_of_completeGoal h
  have hutt' : s'.RootedAt .utterance := (edits_run h).rootedAt hutt
  have hroot : s.RootedAt p.scope := hscope ▸ rootedAt_of_rootedAt_put hput hutt
  obtain ⟨-, c, hc, hkind⟩ := head_of_put hroot hsegments hput
  rw [hscope, ht] at hc
  rcases cases_of_completeGoal h with hedits | ⟨s₂, s₃, goal, hbefore, hname, hafter⟩
  · refine get_of_head hsegments (hscope ▸ hutt) (hscope ▸ hutt') ?_
    rw [hscope, ht]
    exact under?_intent_of_edits (fun _ hx => hx) (fun _ hx => .inl hx) hedits []
  · have hbefore' := under?_intent_of_edits (fun _ hx => hx) (fun _ hx => .inl hx) hbefore
    have hafter' := under?_intent_of_edits (fun _ hx => hx.elim) (fun _ hx => hx) hafter
    -- the name was written through what is there, so that is a map
    obtain ⟨hold, c', hc', hmap'⟩ := head_of_put (p := intentName) (hbefore.rootedAt hutt) rfl hname
    have hmap : c.sigil = .map := hold c ((hbefore' []).trans hc)
    have hbeside : s₃.under? (.utterance, ["intent", u.key]) = s₂.under? (.utterance, ["intent", u.key]) := by
      refine under?_put_of_apart hname fun _ => ?_
      exact Apart.cons_iff.2 fun _ => Apart.of_head_ne hu [] []
    refine get_congr [t] hsegments ?_ ?_ hmap ?_ hmap' ?_
    · exact List.forall_mem_singleton.2 (hkind.symm.trans hmap)
    · rw [hscope, List.map_singleton, ht, hc]
    · rw [hscope, List.map_singleton, ht]
      exact (hafter' []).trans hc'
    · rw [hscope, List.map_singleton, ht]
      exact (hafter' [u.key]).trans (hbeside.trans (hbefore' [u.key]))

/-- **A slot that was filled just before a completion is read as it was.** -/
theorem get_of_completeGoal (hp : ApartFromCompletion p) (hput : s.put p (some v) = .ok s₁)
    (h : Command.completeGoal.run s₁ = .ok s') : s'.get p = s₁.get p := by
  obtain ⟨hutt, hconv⟩ := rootedAt_of_completeGoal h
  have hutt' : s'.RootedAt .utterance := (edits_run h).rootedAt hutt
  have hconv' : s'.RootedAt .conversation := (edits_run h).rootedAt hconv
  obtain ⟨t, ts, hsegments⟩ := List.exists_cons_of_ne_nil p.path.segments_ne_nil
  have hplace : p.place = (p.scope, t.key :: ts.map Segment.key) := by
    rw [ScopedPath.place, Path.keys, hsegments]
    rfl
  obtain ⟨hname, hnote, hhistory⟩ := hp
  rw [hplace] at hname hnote hhistory
  -- a completion writes under keys of the turn and of the conversation, each with another first key or scope
  cases hscope : p.scope with
  | user =>
    have hroot : s'.under? (.user, []) = s₁.under? (.user, []) :=
      under?_of_completeGoal (Place.apart_of_scope_ne (by decide)) (Place.apart_of_scope_ne (by decide))
        (Place.apart_of_scope_ne (by decide)) h
    have hroot' : s'.user.root = s₁.user.root := Option.some.inj hroot
    unfold Snapshot.get Store.read
    rw [hscope]
    exact congrArg (Store.readFrom p.path p.path.segments) hroot'
  | conversation =>
    refine get_of_head hsegments (hscope ▸ hconv) (hscope ▸ hconv') ?_
    rw [hscope] at hhistory ⊢
    exact under?_of_completeGoal (Place.apart_of_scope_ne (by rintro ⟨⟩)) (Place.apart_of_scope_ne (by rintro ⟨⟩))
      (apart_of_apart_cons hhistory) h
  | utterance =>
    rw [hscope] at hname hnote
    by_cases ht : t.key = "intent"
    · have hrest : Apart ["name"] (ts.map Segment.key) := Apart.cons_iff.1 (hname rfl) ht.symm
      cases ts with
      | nil => exact absurd hrest (Apart.not_nil_right _)
      | cons u us =>
        refine get_of_completeGoal_beside_name hscope hsegments ht (fun hu => ?_) hput h
        exact Apart.not_nil_left _ (Apart.cons_iff.1 hrest hu)
    · refine get_of_head hsegments (hscope ▸ hutt) (hscope ▸ hutt') ?_
      rw [hscope]
      exact under?_of_completeGoal (Place.apart_of_head_ne (Ne.symm ht) .utterance .utterance ["name"] [])
        (apart_of_apart_cons hnote)
        (Place.apart_of_scope_ne (by rintro ⟨⟩)) h

end Command

end Dialogue
