import Dialogue.Proofs.History

/-!
# Shapes

What a turn reads and changes without being told to has fixed places, and at each of them the values are of one kind.
A conversation in which they are is well formed (`Store.WellFormed`), and so is the conversation of a snapshot in a
turn, which has such places in the utterance, too (`Snapshot.Shaped`).

* `Snapshot.Shaped.edits`: which puts and removals keep the shapes;
* `Snapshot.Shaped.run`: the commands that do;
* `Snapshot.Shaped.exists_update`: the commands that succeed because of them.
-/

namespace Dialogue

open Slots

/-- a conversation between two turns: the objects, the goal and the prompt that it keeps are maps, the name of the goal
is a string, and the history is a list of strings, if they are there -/
structure Store.WellFormed (conv : Store) : Prop where
  rooted : conv.root.sigil = .map
  partials : conv.Fits ["partials"] .map
  intent : conv.Fits ["intent"] .map
  prompt : conv.Fits ["prompt"] .map
  name : conv.Fits ["intent", "name"] .str
  history : ∀ v, conv.under? ["previousIntents"] = some v → ∃ goals : List String, v = .list (goals.map .str)

theorem Store.wellFormed_empty : Store.empty.WellFormed :=
  ⟨rfl, nofun, nofun, nofun, nofun, nofun⟩

/-- whether a put at a path keeps the kind of what is at a place: it goes elsewhere, or through a map there, or what it
puts there is of this kind -/
def ScopedPath.Respects (p : ScopedPath) (q : Place) (t : Sigil) : Prop :=
  p.place.Apart q ∨
    (p.scope = q.1 ∧ t = .map ∧ (p.path.inner.take q.2.length).map Segment.key = q.2 ∧
      ∀ u ∈ p.path.inner.take q.2.length, u.sigil = .map) ∨
    (p.place = q ∧ p.path.Plain ∧ p.path.leaf.sigil = t)

instance (p : ScopedPath) (q : Place) (t : Sigil) : Decidable (p.Respects q t) := by
  unfold ScopedPath.Respects
  infer_instance

namespace Snapshot

variable {s s' : Snapshot} {p : ScopedPath} {q : Place} {value : Option Node} {t : Sigil} {c : Command}
  {cs : List Command}

/-! ### Puts and removals -/

theorem fits_put_self (hs : s.RootedAt p.scope) (hp : p.path.Plain) (h : s.put p value = .ok s') :
    s'.Fits p.place p.path.leaf.sigil := by
  obtain ⟨new, hleaf, hnew⟩ := under?_put hs hp h
  intro w hw
  rw [hnew] at hw
  rw [hw] at hleaf
  exact Node.sigil_eq_of_leafValue hleaf

theorem fits_of_respects (hs : s.RootedAt p.scope) (hq : s.Fits q t) (hp : p.Respects q t)
    (h : s.put p value = .ok s') : s'.Fits q t := by
  obtain hapart | ⟨hscope, rfl, hkeys, hway⟩ | ⟨rfl, hplain, rfl⟩ := hp
  · exact hq.of_eq (under?_put_of_apart h hapart)
  · have hfits := fits_put (p.path.inner.take q.2.length) hs (List.take_append_drop _ _).symm hway h
    rwa [hkeys, hscope] at hfits
  · exact fits_put_self hs hplain h

theorem fits_remove (hq : s.Fits q t) (h : s.remove p = .ok s') : s'.Fits q t := by
  intro w hw
  obtain ⟨u, hu, rfl | ⟨hsigil, -⟩⟩ := under?_of_under?_remove h hw
  · exact hq _ hu
  · rw [← hsigil]
    exact hq _ hu

/-! ### The shapes of a turn -/

/-- the kinds of what is at the places of a turn -/
def shapes : List (Place × Sigil) :=
  [(objects.place, .map), (intent.place, .map), (intentName.place, .str), (partials.place, .map),
    (carriedIntent.place, .map), (carriedIntentName.place, .str), (prompt.place, .map)]

/-- a snapshot in which everything is of its kind -/
structure Typed (s : Snapshot) : Prop where
  utterance : s.RootedAt .utterance
  conversation : s.RootedAt .conversation
  kinds : ∀ e ∈ shapes, s.Fits e.1 e.2

/-- a snapshot in a turn: the history is a list of strings, too -/
structure Shaped (s : Snapshot) : Prop extends Typed s where
  history : ∀ v, s.under? previousIntents.place = some v → ∃ goals : List String, v = .list (goals.map .str)

/-- a path at which a put leaves everything of its kind -/
def TypedPut (p : ScopedPath) : Prop :=
  p.scope ≠ .user ∧ ∀ e ∈ shapes, p.Respects e.1 e.2

instance (p : ScopedPath) : Decidable (TypedPut p) := by
  unfold TypedPut
  infer_instance

/-- a path at which something can be put in a turn -/
def TamePut (p : ScopedPath) : Prop :=
  TypedPut p ∧ p.place.Apart previousIntents.place

instance (p : ScopedPath) : Decidable (TamePut p) := by
  unfold TamePut
  infer_instance

/-- a path at which something can be removed in a turn: anything but the history, of which single goals can be taken -/
def TameRemoval (p : ScopedPath) : Prop :=
  p.place.Apart previousIntents.place ∨ ∃ n, p = previousIntentAt n

namespace Typed

theorem rootedAt (h : s.Typed) {scope : Scope} (hscope : scope ≠ .user) : s.RootedAt scope := by
  cases scope with
  | user => exact absurd rfl hscope
  | conversation => exact h.conversation
  | utterance => exact h.utterance

theorem fits (h : s.Typed) (he : (q, t) ∈ shapes) : s.Fits q t :=
  h.kinds (q, t) he

theorem reaches (h : s.Typed) {k : String} (hk : ((p.scope, [k]), Sigil.map) ∈ shapes)
    (hp : p.path.inner = [⟨.map, k⟩]) (hscope : p.scope ≠ .user) : s.Reaches p :=
  reaches_of_fits (h.rootedAt hscope) (h.fits hk) hp

theorem edits (hs : s.Typed) {R : ScopedPath → Prop} (h : s.Edits TypedPut R s') : s'.Typed := by
  induction h with
  | refl => exact hs
  | put _ hp hput ih =>
    exact ⟨rootedAt_put hput ih.utterance, rootedAt_put hput ih.conversation,
      fun e he => fits_of_respects (ih.rootedAt hp.1) (ih.kinds e he) (hp.2 e he) hput⟩
  | remove _ _ hremove ih =>
    exact ⟨rootedAt_remove hremove ih.utterance, rootedAt_remove hremove ih.conversation,
      fun e he => fits_remove (ih.kinds e he) hremove⟩

end Typed

namespace Shaped

theorem keepsGoals (h : s.Shaped) : s.KeepsGoals where
  utterance := h.utterance
  conversation := h.conversation
  intent := h.fits (by decide)
  name := h.fits (by decide)
  history := h.history

theorem wellFormed (h : s.Shaped) : s.conversation.WellFormed where
  rooted := h.conversation
  partials := h.fits (q := partials.place) (by decide)
  intent := h.fits (q := carriedIntent.place) (by decide)
  prompt := h.fits (q := prompt.place) (by decide)
  name := h.fits (q := carriedIntentName.place) (by decide)
  history := h.history

/-- the history without one of its goals -/
theorem history_of_remove {n : Nat} (hs : s.Shaped) (h : s.remove (previousIntentAt n) = .ok s') (v : Node)
    (hv : s'.under? previousIntents.place = some v) : ∃ goals : List String, v = .list (goals.map .str) := by
  obtain ⟨u, hu, -⟩ := under?_of_under?_remove h hv
  obtain ⟨goals, rfl⟩ := hs.history u hu
  obtain ⟨store, hdelete, rfl⟩ := remove_eq_ok.1 h
  obtain ⟨items, hitems, hsub⟩ := Store.items_of_delete hs.conversation rfl hu hdelete
  rw [show (s.withStore _ store).under? previousIntents.place = store.under? ["previousIntents"] from rfl, hitems] at hv
  cases hv
  obtain ⟨rest, -, rfl⟩ := List.sublist_map_iff.1 hsub
  exact ⟨rest, rfl⟩

/-- what can be done in a turn keeps the shapes -/
theorem edits (hs : s.Shaped) (h : s.Edits TamePut TameRemoval s') : s'.Shaped := by
  induction h with
  | refl => exact hs
  | put _ hp hput ih =>
    refine ⟨ih.toTyped.edits (R := fun _ => False) (.of_put hp.1 hput), ?_⟩
    rw [under?_put_of_apart hput hp.2]
    exact ih.history
  | remove _ hp hremove ih =>
    refine ⟨ih.toTyped.edits (R := fun _ => True) (.of_remove trivial hremove), ?_⟩
    rcases hp with hapart | ⟨n, rfl⟩
    · rw [under?_remove_of_apart hremove hapart]
      exact ih.history
    · exact ih.history_of_remove hremove

end Shaped

end Snapshot

/-! ### Commands -/

/-- a command that keeps the shapes of a turn -/
def Command.Tame : Command → Prop
  | .set target _ => Snapshot.TamePut target
  | .remove target => Snapshot.TameRemoval target
  | .switchGoal scope _ => scope = .utterance
  | .completeGoal => True

namespace Snapshot

variable {s s' : Snapshot} {p target source : ScopedPath} {c : Command} {cs : List Command}

namespace Shaped

theorem edits_of_writes (hs : s.Shaped) (hW : ∀ p, c.Writes p → TamePut p) (hR : ∀ p, c.Removes p → TameRemoval p)
    (h : c.run s = .ok s') : s'.Shaped :=
  hs.edits ((Command.edits_run h).mono hW hR)

/-- a switch keeps the shapes: what it pushes is the name of a goal -/
theorem switchGoal (hs : s.Shaped) {goal : String} (h : (Command.switchGoal .utterance goal).run s = .ok s') :
    s'.Shaped := by
  obtain ⟨m, hm⟩ := hs.keepsGoals.exists_shows
  obtain ⟨s₁, hrun, h₁, -⟩ := hm.exists_switch goal
  rw [h] at hrun
  cases hrun
  refine ⟨hs.toTyped.edits (R := fun _ => True) ((Command.edits_run h).mono (fun p hp => ?_) fun _ _ => trivial),
    fun v hv => ?_⟩
  · rcases hp with rfl | rfl | rfl <;> decide
  · rcases h₁.history with hlist | ⟨hnone, -⟩
    · rw [hlist] at hv
      cases hv
      exact ⟨_, rfl⟩
    · rw [hnone] at hv
      cases hv

/-- **Each command of a turn keeps the shapes.** -/
theorem run (hs : s.Shaped) (hc : c.Tame) (h : c.run s = .ok s') : s'.Shaped := by
  cases c with
  | set target value =>
    refine hs.edits_of_writes ?_ (by rintro p ⟨⟩) h
    rintro p rfl
    exact hc
  | remove target =>
    refine hs.edits_of_writes (by rintro p ⟨⟩) ?_ h
    rintro p rfl
    exact hc
  | switchGoal scope goal =>
    obtain rfl : scope = .utterance := hc
    exact hs.switchGoal h
  | completeGoal =>
    refine hs.edits_of_writes ?_ ?_ h
    · rintro p (rfl | rfl) <;> decide
    · rintro p (rfl | ⟨n, rfl⟩)
      · exact .inl (by decide)
      · exact .inr ⟨n, rfl⟩

theorem copy (hs : s.Shaped) (htarget : TamePut target) (h : (Command.copy target source).run s = .ok s') :
    s'.Shaped :=
  hs.run (c := .copy target source) htarget h

theorem update (hs : s.Shaped) (hcs : ∀ c ∈ cs, c.Tame) (h : s.update cs = .ok s') : s'.Shaped := by
  induction cs generalizing s with
  | nil =>
    cases h
    exact hs
  | cons c cs ih =>
    obtain ⟨s₁, hrun, h⟩ := update_cons_eq_ok.1 h
    exact ih (hs.run (hcs c List.mem_cons_self) hrun) (fun c hc => hcs c (List.mem_cons_of_mem _ hc)) h

end Shaped

/-! ### Commands that succeed -/

theorem run_put {v : Node} (h : s.put p (some v) = .ok s') : (Command.put p v).run s = .ok s' :=
  bind_eq_ok.2 ⟨s, rfl, bind_eq_ok.2 ⟨s', h, rfl⟩⟩

theorem run_remove (h : s.remove p = .ok s') : (Command.remove p).run s = .ok s' :=
  bind_eq_ok.2 ⟨s, rfl, bind_eq_ok.2 ⟨s', h, rfl⟩⟩

/-- a map can be copied where there is an open way to both ends, if nothing but maps is there -/
theorem exists_copy (ht : s.Reaches target) (hs : s.Reaches source) (htarget : s.Fits target.place .map)
    (hsource : s.Fits source.place .map) (hleaf : target.path.leaf.sigil = .map)
    (hleaf' : source.path.leaf.sigil = .map) : ∃ s', (Command.copy target source).run s = .ok s' := by
  have hget : s.get source = .ok (s.under? source.place) := get_eq hs (hleaf' ▸ hsource)
  obtain ⟨s', hput⟩ : ∃ s', s.put target (s.under? source.place) = .ok s' :=
    exists_put ht (Node.exists_leafValue_of_map hleaf htarget hsource)
  exact ⟨s', bind_eq_ok.2 ⟨s, rfl, bind_eq_ok.2 ⟨s', bind_eq_ok.2 ⟨_, hget, hput⟩, rfl⟩⟩⟩

/-- a command that succeeds wherever the shapes are right, and keeps them -/
structure Applies (c : Command) : Prop where
  tame : c.Tame
  succeeds : ∀ {s : Snapshot}, s.Shaped → ∃ s', c.run s = .ok s'

theorem applies_put {k : String} {v w : Node} (hp : TamePut p) (hk : ((p.scope, [k]), Sigil.map) ∈ shapes)
    (hinner : p.path.inner = [⟨.map, k⟩]) (hscalar : p.path.leaf.sigil.isScalar = true)
    (hw : Node.coerce p.path.leaf.sigil v = .ok w) : Applies (.put p v) where
  tame := hp
  succeeds hs := by
    obtain ⟨s', hput, -⟩ := exists_put_scalar (hs.reaches hk hinner hp.1.1) hscalar hw
    exact ⟨s', run_put hput⟩

theorem applies_remove (hp : TameRemoval p) (hscope : p.scope ≠ .user) (hinner : p.path.inner = []) :
    Applies (.remove p) where
  tame := hp
  succeeds hs := by
    obtain ⟨s', hremove, -⟩ := exists_remove (reaches_of_rootedAt (hs.rootedAt hscope) hinner)
    exact ⟨s', run_remove hremove⟩

theorem applies_switchGoal (goal : String) : Applies (.switchGoal .utterance goal) where
  tame := rfl
  succeeds hs := by
    obtain ⟨m, hm⟩ := hs.keepsGoals.exists_shows
    obtain ⟨s', hrun, -⟩ := hm.exists_switch goal
    exact ⟨s', hrun⟩

/-- **Commands that succeed one by one succeed one after the other.** -/
theorem Shaped.exists_update (hs : s.Shaped) (hcs : ∀ c ∈ cs, Applies c) : ∃ s', s.update cs = .ok s' := by
  induction cs generalizing s with
  | nil => exact ⟨s, rfl⟩
  | cons c cs ih =>
    have hc : Applies c := hcs c List.mem_cons_self
    obtain ⟨s₁, hrun⟩ := hc.succeeds hs
    obtain ⟨s', hupdate⟩ := ih (hs.run hc.tame hrun) fun c hc => hcs c (List.mem_cons_of_mem _ hc)
    exact ⟨s', update_cons_eq_ok.2 ⟨s₁, hrun, hupdate⟩⟩

end Snapshot

end Dialogue
