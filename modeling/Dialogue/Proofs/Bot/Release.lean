import Dialogue.Bot.Script
import Dialogue.Proofs.Bot.Carry
import Dialogue.Proofs.Bot.Run
import Dialogue.Proofs.Prompt

/-!
# Released objects

After each action the objects of a goal are released, be it the goal that the action was for or another one.
`Bot.Released` says which goals that are in a turn, at any depth.  Where the actions leave an object alone, only
releases change it (`Bot.Tracks.of_ran`), and it loses what belongs to these goals (`Bot.tracks_sweeps`); so do all
objects together (`Bot.tracks_strips`).

When a goal is completed, the goal that it had interrupted becomes active before the actions run
(`Bot.active_of_completes`), and so it is this goal whose objects are released (`Bot.released_iff_of_active`).
`Bot.ReleasesOnly` is what a turn should do instead.
-/

namespace Dialogue

open Slots Snapshot

/-- an action writes nothing but what it wants said -/
def Action.Speaks (a : Action) (b : Bot) : Prop :=
  ∀ runs s cs, a.act runs b.goals s = .ok cs → ∀ c ∈ cs, ∀ p, c.Writes p ∨ c.Removes p → p = actionSpoken

theorem Action.Speaks.avoids {a : Action} {b : Bot} (h : a.Speaks b) {q : Place} (hq : actionSpoken.place.Apart q)
    {runs : Nat} {s : Snapshot} {cs : List Command} (hact : a.act runs b.goals s = .ok cs) : ∀ c ∈ cs, c.Avoids q := by
  intro c hc
  refine ⟨fun p hp => ?_, fun p hp => ?_⟩
  · rw [h runs s cs hact c hc p (.inl hp)]
    exact hq
  · rw [h runs s cs hact c hc p (.inr hp)]
    exact hq

namespace Bot

variable {b : Bot} {n m : Nat} {a c : Action} {as : List Action} {s s' s₁ s₂ v : Snapshot} {t t' u w : Tally}
  {after : Option String} {g : Goal} {o : Outcome} {q : List String}

/-! ### One release -/

theorem sweeps_of_foldlM {slots : List Path} (hs : s.RootedAt .utterance) (hslots : ∀ slot ∈ slots, slot.Plain)
    (h : (slots.foldlM (fun s slot => do s.remove (← objects.join slot)) s : Except DialogueError Snapshot) = .ok s') :
    Sweeps (fun d => ∃ slot ∈ slots, slot.keys = d) q s s' := by
  induction slots generalizing s with
  | nil =>
    cases h
    exact (Sweeps.of_eq rfl id).congr (by simp)
  | cons slot slots ih =>
    obtain ⟨s₁, h₁, h⟩ := bind_eq_ok.1 h
    obtain ⟨p, hp, h₁⟩ := bind_eq_ok.1 h₁
    rw [liftState_eq_ok] at hp h₁
    have hfirst := sweeps_of_remove hs (hslots slot List.mem_cons_self) hp h₁ (q := q)
    have hrest := ih (rootedAt_remove h₁ hs) (fun slot hslot => hslots slot (List.mem_cons_of_mem _ hslot)) h
    exact (hfirst.trans hrest).congr fun d => by simp [eq_comm]

theorem sweeps_of_release (hslots : ∀ g, b.HasGoal g → ∀ slot ∈ g.objectSlots, slot.Plain)
    (h : b.releaseObjects after s = .ok s') :
    Sweeps (fun d => ∃ g, b.Releases after s g ∧ g.Owns d) q s s' := by
  obtain ⟨hs, -⟩ := rootedAt_of_release h
  rcases steps_of_release h with ⟨rfl, hnone⟩ | ⟨g, hg, h⟩
  · exact (Sweeps.of_eq rfl id).congr fun d => by simp [hnone]
  · obtain ⟨name, -, hname⟩ := Option.bind_eq_some_iff.1 hg.found
    have hgoal : b.HasGoal g := ⟨name, by rw [Repertoire.goal, hname]⟩
    refine (sweeps_of_foldlM hs (hslots g hgoal) h).congr fun d => ⟨fun hd => ⟨g, hg, hd⟩, ?_⟩
    rintro ⟨g', hg', hd⟩
    rwa [hg.unique hg']

theorem strips_of_foldlM {slots : List Path}
    (h : (slots.foldlM (fun s slot => do s.remove (← objects.join slot)) s : Except DialogueError Snapshot) = .ok s') :
    Strips (· ∈ slots) s s' := by
  induction slots generalizing s with
  | nil =>
    cases h
    exact (Strips.of_eq rfl).congr (by simp)
  | cons slot slots ih =>
    obtain ⟨s₁, h₁, h⟩ := bind_eq_ok.1 h
    obtain ⟨p, hp, h₁⟩ := bind_eq_ok.1 h₁
    rw [liftState_eq_ok] at hp h₁
    exact ((strips_of_remove hp h₁).trans (ih h)).congr fun d => by simp

theorem strips_of_release (h : b.releaseObjects after s = .ok s') :
    Strips (fun slot => ∃ g, b.Releases after s g ∧ slot ∈ g.objectSlots) s s' := by
  rcases steps_of_release h with ⟨rfl, hnone⟩ | ⟨g, hg, h⟩
  · exact (Strips.of_eq rfl).congr fun slot => by simp [hnone]
  · refine (strips_of_foldlM h).congr fun slot => ⟨fun hslot => ⟨g, hg, hslot⟩, ?_⟩
    rintro ⟨g', hg', hslot⟩
    rwa [hg.unique hg']

/-! ### Goals whose objects are released -/

/-- while actions run one after the other, `n` of them inside each other, the objects of a goal are released -/
def Released (b : Bot) (n : Nat) (as : List Action) (s : Snapshot) (t : Tally) (g : Goal) : Prop :=
  ∃ m a v w after v' w', b.Starts n as s t m a v w ∧ b.Ends m a v w after v' w' ∧ b.Releases after v' g

/-- while the actions of a goal that an action makes active run, the objects of a goal are released -/
def ReleasedInside (b : Bot) (n : Nat) (a : Action) (s : Snapshot) (t : Tally) (g : Goal) : Prop :=
  ∃ g' s₁ u r s₂, b.Reopens a s t g' s₁ u r ∧ r.snapshot.update r.commands = .ok s₂ ∧ b.Released n r.actions s₂ u g

theorem not_released_nil : ¬ b.Released n [] s t g := by
  rintro ⟨m, a, v, w, after, v', w', hstarts, -⟩
  cases hstarts

/-- objects are released inside the first action, after it, or by the actions that follow -/
theorem released_cons_iff (h : Yields (b.process (n + 1) b.processor a s) t o u) (hends : b.Ends n a s t after s' u) :
    b.Released (n + 1) (a :: as) s t g ↔
      b.ReleasedInside n a s t g ∨ b.Releases after s' g ∨ b.Released (n + 1) as o.snapshot u g := by
  constructor
  · rintro ⟨m, c, v, w, after', v', w', hstarts, hends', hg⟩
    cases hstarts with
    | first =>
      obtain ⟨rfl, rfl⟩ := hends.unique hends'
      exact .inr (.inl hg)
    | later hfirst hstarts =>
      obtain ⟨rfl, rfl⟩ := h.unique hfirst
      exact .inr (.inr ⟨m, c, v, w, after', v', w', hstarts, hends', hg⟩)
    | inside hreopens hs₂ hstarts =>
      exact .inl ⟨_, _, _, _, _, hreopens, hs₂, m, c, v, w, after', v', w', hstarts, hends', hg⟩
  · rintro (⟨g', s₁, u', r, s₂, hreopens, hs₂, m, c, v, w, after', v', w', hstarts, hends', hg⟩ | hg |
      ⟨m, c, v, w, after', v', w', hstarts, hends', hg⟩)
    · exact ⟨m, c, v, w, after', v', w', .inside hreopens hs₂ hstarts, hends', hg⟩
    · exact ⟨n, a, s, t, after, s', u, .first, hends, hg⟩
    · exact ⟨m, c, v, w, after', v', w', .later h hstarts, hends', hg⟩

/-- if the active goal stays, nothing runs inside an action -/
theorem not_releasedInside {before : Option String} (hrun : Yields (a.run b s) t s₁ u)
    (hbefore : s.textAt intentName = .ok before) (hafter : s₁.textAt intentName = .ok after)
    (hsame : ∀ old new, before = some old → after = some new → old = new) : ¬ b.ReleasedInside n a s t g := by
  rintro ⟨g', s₁', u', r, s₂, hreopens, -⟩
  obtain ⟨rfl, rfl⟩ := hreopens.ran.unique hrun
  obtain ⟨old, new, hold, hnew, hne, -⟩ := hreopens.changed
  rw [hbefore] at hold
  rw [hafter] at hnew
  exact hne (hsame old new (Except.ok.inj hold) (Except.ok.inj hnew))

theorem releasedInside_iff {g' : Goal} {r : Response} (h : b.Reopens a s t g' s₁ u r)
    (hs₂ : r.snapshot.update r.commands = .ok s₂) : b.ReleasedInside n a s t g ↔ b.Released n r.actions s₂ u g := by
  constructor
  · rintro ⟨g'', s₁', u', r', s₂', h', hs₂', hg⟩
    obtain ⟨rfl, rfl, rfl⟩ := h.unique h'
    rw [hs₂] at hs₂'
    cases hs₂'
    exact hg
  · intro hg
    exact ⟨g', s₁, u, r, s₂, h, hs₂, hg⟩

/-- the actions that run leave a place alone -/
def ActElsewhere (b : Bot) (n : Nat) (as : List Action) (s : Snapshot) (t : Tally) (q : Place) : Prop :=
  ∀ {m a v w}, b.Starts n as s t m a v w → ∀ {runs σ cs}, a.act runs b.goals σ = .ok cs → ∀ c ∈ cs, c.Avoids q

/-- what an action that leaves a place alone edits, and what it takes back -/
theorem edits_of_run {p : Place} (hact : ∀ {runs σ cs}, a.act runs b.goals σ = .ok cs → ∀ c ∈ cs, c.Avoids p)
    (hspoken : actionSpoken.place.Apart p) (h : Yields (a.run b s) t s' t') :
    s.Edits (fun r => r.place.Apart p) (fun r => r.place.Apart p) s' := by
  obtain ⟨s₁, runs, cs, hremove, hcs, hupdate⟩ := Action.update_of_run h
  exact (Edits.of_remove hspoken hremove).trans (edits_of_avoids (hact hcs) hupdate)

theorem apart_of_ownWrites {p : ScopedPath} (hp : OwnWrites p) : p.place.Apart (objectAt q) := by
  simp only [OwnWrites, List.mem_cons, List.not_mem_nil, or_false] at hp
  rcases hp with rfl | rfl | rfl | rfl | rfl | rfl | rfl | rfl | rfl <;>
    exact Place.apart_of_head_ne (by decide) _ _ _ _

theorem apart_of_ownRemoves {p : ScopedPath} (hp : OwnRemoves p) : p.place.Apart (objectAt q) := by
  simp only [OwnRemoves, List.mem_cons, List.not_mem_nil, or_false] at hp
  rcases hp with (rfl | rfl | rfl) | ⟨k, rfl⟩ <;> exact Place.apart_of_head_ne (by decide) _ _ _ _

/-- a relation between snapshots that says what becomes of an object, where the stages are the built-in ones: nothing by
changes elsewhere, and what it says when the objects of certain goals are released -/
structure Tracks (b : Bot) (q : List String) (R : (Goal → Prop) → Snapshot → Snapshot → Prop) : Prop where
  builtIn : b.BuiltIn
  elsewhere : ∀ {W V : ScopedPath → Prop} {s s'}, (∀ p, W p → p.place.Apart (objectAt q)) →
    (∀ p, V p → p.place.Apart (objectAt q)) → s.Edits W V s' → R (fun _ => False) s s'
  release : ∀ {after s s'}, b.releaseObjects after s = .ok s' → R (b.Releases after s) s s'
  trans : ∀ {G G' s s' s''}, R G s s' → R G' s' s'' → R (fun g => G g ∨ G' g) s s''

namespace Tracks

variable {R : (Goal → Prop) → Snapshot → Snapshot → Prop} {G G' : Goal → Prop}

theorem congr (h : R G s s') (hG : ∀ g, G g ↔ G' g) : R G' s s' := by
  have heq : G = G' := funext fun g => propext (hG g)
  rwa [← heq]

theorem refl (hR : b.Tracks q R) (s : Snapshot) : R (fun _ => False) s s :=
  hR.elsewhere (W := fun _ => False) (V := fun _ => False) (fun _ => False.elim) (fun _ => False.elim) .refl

/-- only actions and releases change an object, and only releases do if the actions leave it alone -/
theorem of_ends (hR : b.Tracks q R)
    (hact : ∀ {runs σ cs}, a.act runs b.goals σ = .ok cs → ∀ c ∈ cs, c.Avoids (objectAt q))
    (hinside : ∀ {g s₁ u r s₂ s₃ u'}, b.Reopens a s t g s₁ u r → r.snapshot.update r.commands = .ok s₂ →
      b.Ran n r.actions s₂ u s₃ u' → R (b.Released n r.actions s₂ u) s₂ s₃)
    (hprocessor : b.processor = .revalidating) (h : b.Ends n a s t after s' t') :
    R (b.ReleasedInside n a s t) s s' := by
  have hspoken : actionSpoken.place.Apart (objectAt q) := Place.apart_of_head_ne (by decide) _ _ _ _
  obtain ⟨before, s₁, u, hbefore, hrun, hafter, hreopen⟩ := h
  have hfirst : R (fun _ => False) s s₁ :=
    hR.elsewhere (fun _ hp => hp) (fun _ hp => hp) (edits_of_run hact hspoken hrun)
  obtain ⟨rfl, -, hsame⟩ | ⟨old, new, rfl, rfl, hne, hreval⟩ := steps_of_reopen hreopen
  · exact congr hfirst fun g => ⟨False.elim, not_releasedInside hrun hbefore hafter hsame⟩
  · obtain ⟨g, r, s₂, s₃, value, hg, hr, hs₂, hran, hput⟩ := steps_of_revalidate hreval
    have hreopens : b.Reopens a s t g s₁ u r := ⟨hprocessor, hrun, ⟨old, new, hbefore, hafter, hne, hg⟩, hr⟩
    have hres := resolution_of_resolveAnew hR.builtIn hr
    have hupdate := hs₂
    rw [hres.snapshot_eq] at hupdate
    have hresolved : R (fun _ => False) s₁ s₂ :=
      hR.elsewhere (fun _ => apart_of_ownWrites) (fun _ => apart_of_ownRemoves) (hres.edits hupdate)
    have hspeaks : R (fun _ => False) s₃ s' :=
      hR.elsewhere (W := (· = actionSpoken)) (V := fun _ => False) (fun p hp => hp ▸ hspoken) (fun _ => False.elim)
        (.of_put rfl hput)
    have hall := hR.trans (hR.trans (hR.trans hfirst hresolved) (hinside hreopens hs₂ hran)) hspeaks
    refine congr hall fun g => ?_
    simp only [or_false, false_or, releasedInside_iff hreopens hs₂]

/-- **Where the actions leave an object alone, only releases change it**: by induction on how many actions can run
inside each other, and on the actions. -/
theorem of_ran (hR : b.Tracks q R) (hprocessor : b.processor = .revalidating)
    (hacts : b.ActElsewhere n as s t (objectAt q)) (h : b.Ran n as s t s' t') : R (b.Released n as s t) s s' := by
  induction n generalizing as s t s' t' with
  | zero =>
    cases h with
    | nil => exact congr (hR.refl s) fun g => ⟨False.elim, not_released_nil⟩
    | cons hfirst _ => exact absurd hfirst process_zero
  | succ n ih =>
    induction h with
    | nil => exact congr (hR.refl _) fun g => ⟨False.elim, not_released_nil⟩
    | @cons a as s s' t u t' o hfirst _ ih' =>
      obtain ⟨k, after, s₂, hk, hends, hrelease⟩ := steps_of_process_revalidating hprocessor hfirst
      cases hk
      -- what runs inside has one run less, which is the outer induction; what runs later is the inner one
      have hinside : R (b.ReleasedInside n a s t) s s₂ :=
        hR.of_ends (hacts .first)
          (fun hreopens hs₂ hran => ih (fun hstarts => hacts (.inside hreopens hs₂ hstarts)) hran) hprocessor hends
      have hreleased := hR.release hrelease
      have hrest := ih' fun hstarts => hacts (.later hfirst hstarts)
      refine congr (hR.trans (hR.trans hinside hreleased) hrest) fun g => ?_
      rw [released_cons_iff hfirst hends, or_assoc]

end Tracks

/-- an object loses what belongs to the goals whose objects are released -/
theorem tracks_sweeps (hb : b.BuiltIn) (hslots : ∀ g, b.HasGoal g → ∀ slot ∈ g.objectSlots, slot.Plain)
    (q : List String) : b.Tracks q fun G => Sweeps (fun d => ∃ g, G g ∧ g.Owns d) q where
  builtIn := hb
  elsewhere hW hV h := (sweeps_of_edits hW hV h).congr fun d => by simp
  release h := sweeps_of_release hslots h
  trans h h' := (h.trans h').congr fun d => by simp only [or_and_right, exists_or]

/-- all objects together lose what is at the slots of the goals whose objects are released -/
theorem tracks_strips (hb : b.BuiltIn) : b.Tracks [] fun G => Strips fun slot => ∃ g, G g ∧ slot ∈ g.objectSlots where
  builtIn := hb
  elsewhere hW hV h := (Strips.of_eq (h.under?_of_apart hW hV)).congr fun slot => by simp
  release h := strips_of_release h
  trans h h' := (h.trans h').congr fun slot => by simp only [or_and_right, exists_or]

/-! ### Actions that only speak -/

theorem eq_of_speaks {old new : String} (ha : a.Speaks b) (h : Yields (a.run b s) t s' u)
    (hold : s.textAt intentName = .ok (some old)) (hnew : s'.textAt intentName = .ok (some new)) : old = new := by
  obtain ⟨hs, hs'⟩ := Action.rootedAt_of_run h
  have hact {runs σ cs} (h : a.act runs b.goals σ = .ok cs) : ∀ c ∈ cs, c.Avoids intentName.place :=
    ha.avoids (by decide) h
  have hsame : s'.under? intentName.place = s.under? intentName.place :=
    (edits_of_run hact (by decide) h).under?_of_apart (fun _ hp => hp) fun _ hp => hp
  have htext := under?_of_textAt hs (by decide) hold
  rw [← hsame, under?_of_textAt hs' (by decide) hnew] at htext
  exact (Option.some.inj htext).symm

/-- nothing runs inside actions that only speak -/
theorem mem_of_starts (hspeaks : ∀ a ∈ as, a.Speaks b) (h : b.Starts n as s t m c v w) : c ∈ as := by
  induction h with
  | first => exact List.mem_cons_self
  | later _ _ ih => exact List.mem_cons_of_mem _ (ih fun a ha => hspeaks a (List.mem_cons_of_mem _ ha))
  | inside hreopens _ _ _ =>
    obtain ⟨old, new, hold, hnew, hne, -⟩ := hreopens.changed
    exact absurd (eq_of_speaks (hspeaks _ List.mem_cons_self) hreopens.ran hold hnew) hne

theorem actElsewhere_of_speaks (hspeaks : ∀ a ∈ as, a.Speaks b) {q : Place} (hq : actionSpoken.place.Apart q) :
    b.ActElsewhere n as s t q :=
  fun hstarts _ _ _ hact => (hspeaks _ (mem_of_starts hspeaks hstarts)).avoids hq hact

/-! ### Actions that leave the goal alone -/

/-- a goal is active, and its constraints hold -/
structure Active (name : String) (s : Snapshot) : Prop where
  rooted : s.RootedAt .utterance
  named : s.under? intentName.place = some (.str name)
  validated : s.under? intentValidated.place = some (.bool true)

variable {name : String} {p : Goal}

theorem Active.of_edits {W R : ScopedPath → Prop} (hs : Active name s) (hW : ∀ p, W p → p.place.Apart intent.place)
    (hR : ∀ p, R p → p.place.Apart intent.place) (h : s.Edits W R s') : Active name s' := by
  have stays (k : String) : s'.under? (.utterance, ["intent", k]) = s.under? (.utterance, ["intent", k]) :=
    h.under?_of_apart (fun p hp hscope => (hW p hp hscope).append_right [k])
      fun p hp hscope => (hR p hp hscope).append_right [k]
  exact ⟨h.rootedAt hs.rooted, (stays "name").trans hs.named, (stays "validated").trans hs.validated⟩

theorem Active.eq_some_of_textAt {o : Option String} (hs : Active name s) (h : s.textAt intentName = .ok o) :
    o = some name := by
  rw [← under?_of_textAt hs.rooted (by decide) h, hs.named]
  rfl

/-- an action that leaves the goal alone leaves it active -/
theorem active_of_ends (hact : ∀ {runs σ cs}, a.act runs b.goals σ = .ok cs → ∀ c ∈ cs, c.Avoids intent.place)
    (hs : Active name s) (h : b.Ends n a s t after s' t') : after = some name ∧ Active name s' := by
  obtain ⟨before, s₁, u, hbefore, hrun, hafter, hreopen⟩ := h
  have h₁ : Active name s₁ := hs.of_edits (fun _ hp => hp) (fun _ hp => hp) (edits_of_run hact (by decide) hrun)
  obtain rfl := hs.eq_some_of_textAt hbefore
  obtain rfl := h₁.eq_some_of_textAt hafter
  obtain ⟨rfl, -, -⟩ | ⟨old, new, hold, hnew, hne, -⟩ := steps_of_reopen hreopen
  · exact ⟨rfl, h₁⟩
  · cases hold
    cases hnew
    exact absurd rfl hne

theorem active_of_release (hs : Active name s) (h : b.releaseObjects after s = .ok s') : Active name s' := by
  refine hs.of_edits (fun p hp => hp.elim) (fun p hp => ?_) (edits_releaseObjects h)
  obtain ⟨ks, hp⟩ := hp
  rw [hp]
  exact Place.apart_of_head_ne (by decide) _ _ _ _

/-- **Where the actions leave the goal alone, it is active wherever one starts.** -/
theorem active_of_starts (hprocessor : b.processor = .revalidating) (hacts : b.ActElsewhere n as s t intent.place)
    (hs : Active name s) (h : b.Starts n as s t m c v w) : Active name v := by
  induction h with
  | first => exact hs
  | later hfirst _ ih =>
    obtain ⟨k, after, s₂, rfl, hends, hrelease⟩ := steps_of_process_revalidating hprocessor hfirst
    obtain ⟨-, hs₂⟩ := active_of_ends (hacts .first) hs hends
    exact ih (fun hstarts => hacts (.later hfirst hstarts)) (active_of_release hs₂ hrelease)
  | inside hreopens _ _ _ =>
    -- the goal has not changed, so no other one is resolved
    obtain ⟨old, new, hold, hnew, hne, -⟩ := hreopens.changed
    have h₁ := hs.of_edits (fun _ hp => hp) (fun _ hp => hp) (edits_of_run (hacts .first) (by decide) hreopens.ran)
    have hsame := (hs.eq_some_of_textAt hold).trans (h₁.eq_some_of_textAt hnew).symm
    exact absurd (Option.some.inj hsame) hne

theorem releases_iff_of_active (hs : Active name s) (hp : b.goal? name = some p)
    (h : b.releaseObjects (some name) s = .ok s') : b.Releases (some name) s g ↔ g = p := by
  obtain ⟨x, hx, -⟩ := bind_eq_ok.1 h
  rw [liftState_eq_ok] at hx
  obtain rfl := flag_of_under? hs.rooted (by decide) hs.validated hx
  constructor
  · intro hg
    exact Option.some.inj (hg.found.symm.trans hp)
  · rintro rfl
    exact ⟨hx, hp⟩

/-- **Where the actions leave the goal alone, its objects are released and no others.** -/
theorem released_iff_of_active (hprocessor : b.processor = .revalidating) (hp : b.goal? name = some p)
    (has : as ≠ []) (hacts : b.ActElsewhere n as s t intent.place) (hs : Active name s) (h : b.Ran n as s t s' t') :
    b.Released n as s t g ↔ g = p := by
  constructor
  · rintro ⟨m, c, v, w, after, v', w', hstarts, hends, hg⟩
    obtain ⟨rfl, -⟩ := active_of_ends (hacts hstarts) (active_of_starts hprocessor hacts hs hstarts) hends
    exact Option.some.inj (hg.found.symm.trans hp)
  · rintro rfl
    cases h with
    | nil => exact absurd rfl has
    | cons hfirst _ =>
      obtain ⟨k, after, s₂, rfl, hends, hrelease⟩ := steps_of_process_revalidating hprocessor hfirst
      obtain ⟨rfl, hs₂⟩ := active_of_ends (hacts .first) hs hends
      exact (released_cons_iff hfirst hends).2 (.inr (.inl ((releases_iff_of_active hs₂ hp hrelease).2 rfl)))

/-! ### The last release -/

/-- actions have run one after the other, up to the release after the last of them -/
inductive Closes (b : Bot) : Nat → List Action → Snapshot → Tally → Option String → Snapshot → Prop
  | last {n : Nat} {a : Action} {s s' : Snapshot} {t t' : Tally} {after : Option String}
      (h : b.Ends n a s t after s' t') : Closes b (n + 1) [a] s t after s'
  | cons {n : Nat} {a : Action} {as : List Action} {s s' : Snapshot} {t u : Tally} {o : Outcome}
      {after : Option String} (h : Yields (b.process n b.processor a s) t o u)
      (h' : Closes b n as o.snapshot u after s') : Closes b n (a :: as) s t after s'

theorem closes_of_ran (hprocessor : b.processor = .revalidating) (has : as ≠ []) (h : b.Ran n as s t s' t') :
    ∃ after v, b.Closes n as s t after v ∧ b.releaseObjects after v = .ok s' := by
  induction h with
  | nil => exact absurd rfl has
  | @cons a as s s' t u t' o hfirst hrest ih =>
    cases as with
    | nil =>
      cases hrest
      obtain ⟨k, after, s₂, rfl, hends, hrelease⟩ := steps_of_process_revalidating hprocessor hfirst
      exact ⟨after, s₂, .last hends, hrelease⟩
    | cons c cs =>
      obtain ⟨after, v, hcloses, hrelease⟩ := ih (List.cons_ne_nil c cs)
      exact ⟨after, v, .cons hfirst hcloses, hrelease⟩

theorem ends_of_closes (h : b.Closes n as s t after s') :
    ∃ m a v w w', b.Starts n as s t m a v w ∧ b.Ends m a v w after s' w' := by
  induction h with
  | last hends => exact ⟨_, _, _, _, _, .first, hends⟩
  | cons hfirst _ ih =>
    obtain ⟨m, a, v, w, w', hstarts, hends⟩ := ih
    exact ⟨m, a, v, w, w', .later hfirst hstarts, hends⟩

/-- nothing is kept of an object after a release: nothing was there, or it belongs to the goal that is released -/
def Cleared (b : Bot) (active : Option String) (s : Snapshot) (ks : List String) : Prop :=
  s.kept? ks = none ∨ (s.under? objects.place).isSome ∧ ∃ g, b.Releases active s g ∧ ∃ d, g.Owns d ∧ d <+: ks

/-- **What the last release leaves of an object is what a turn keeps of it.** -/
theorem kept?_eq_none_iff_of_release (hslots : ∀ g, b.HasGoal g → ∀ slot ∈ g.objectSlots, slot.Plain)
    (h : b.releaseObjects after s = .ok s') (ks : List String) : s'.kept? ks = none ↔ b.Cleared after s ks := by
  have hsweeps := sweeps_of_release hslots h (q := ks)
  unfold Cleared
  cases hv : s.under? objects.place with
  | some v =>
    obtain ⟨v', hv'⟩ := Option.isSome_iff_exists.1 (hsweeps.objects (by rw [hv]; rfl))
    rw [kept?_of_objects hv', kept?_of_objects hv]
    refine (hsweeps.gone ks List.prefix_rfl).trans (or_congr Iff.rfl ⟨?_, ?_⟩)
    · rintro ⟨d, ⟨g, hg, hd⟩, hdk⟩
      exact ⟨rfl, g, hg, d, hd, hdk⟩
    · rintro ⟨-, g, hg, d, hd, hdk⟩
      exact ⟨d, ⟨g, hg, hd⟩, hdk⟩
  | none =>
    have hedits := edits_releaseObjects h
    have hnone : s'.under? objects.place = none := by
      cases hv' : s'.under? objects.place with
      | none => rfl
      | some v' =>
        obtain ⟨x, hx, -⟩ := hedits.under?_of_under? (fun _ => False.elim) hv'
        rw [hv] at hx
        cases hx
    have hpartials : s'.under? (.conversation, "partials" :: ks) = s.under? (.conversation, "partials" :: ks) := by
      refine hedits.under?_of_apart (fun _ => False.elim) fun p hp => ?_
      obtain ⟨ls, hp⟩ := hp
      rw [hp]
      exact Place.apart_of_head_ne (by decide) _ _ _ _
    rw [kept?_of_none hnone, kept?_of_none hv, hpartials]
    simp

/-! ### Turns that complete a goal -/

section

variable {input : String} {user conv : Store} {s₀ s₃ : Snapshot} {x : Utterance} {r : Response} {turn : Turn}
  {ks : List String} {completed interrupted : Goal}

/-- the goal that was interrupted last is taken up -/
theorem named_of_completeGoal {vs : List Node} (hs : s.RootedAt .utterance)
    (hhistory : s.get previousIntents = .ok (some (.list vs))) (hlast : vs.getLast? = some (.str name))
    (h : Command.completeGoal.run s = .ok s') : s'.under? intentName.place = some (.str name) := by
  obtain ⟨s₁, hpre, h⟩ := bind_eq_ok.1 h
  obtain ⟨s₂, happly, hpost⟩ := bind_eq_ok.1 h
  cases happly
  obtain ⟨s₀, hremove, hpre⟩ := bind_eq_ok.1 hpre
  have hs₀ := rootedAt_remove hremove hs
  have hsame : s₀.get previousIntents = s.get previousIntents := by
    obtain ⟨store, -, rfl⟩ := remove_eq_ok.1 hremove
    rfl
  have hfound : (some (Node.list vs)).bind (fun v => v.asList?.bind List.getLast?) = some (.str name) := hlast
  obtain ⟨o, ho, hput⟩ := bind_eq_ok.1 hpre
  rw [hsame, hhistory] at ho
  cases ho
  simp only [hfound] at hput
  have hs₁ := rootedAt_put hput hs₀
  have hnext : s₁.under? nextIntent.place = some (.str name) := under?_put_scalar hs₀ (by decide) rfl rfl hput
  obtain ⟨o, ho, hpost⟩ := bind_eq_ok.1 hpost
  rw [under?_get hs₁ (by decide) ho] at hnext
  subst hnext
  obtain ⟨_, -, hpost⟩ := bind_eq_ok.1 hpost
  obtain ⟨s₂, hname, hpost⟩ := bind_eq_ok.1 hpost
  have hnamed : s₂.under? intentName.place = some (.str name) := under?_put_scalar hs₁ (by decide) rfl rfl hname
  -- the goal is taken off the history, if there is one, and the note of it is removed
  simp only at hpost
  split at hpost
  · obtain ⟨s₃, hpop, hpost⟩ := bind_eq_ok.1 hpost
    rw [under?_remove_of_apart hpost (by decide), under?_remove_of_apart hpop ?_, hnamed]
    intro hscope
    cases hscope
  · rw [under?_remove_of_apart hpost (by decide), hnamed]

theorem rootedAt_of_opens {scope : Scope} (h : b.Opens input user conv s₀ x s₁ g s₂ r s₃) (hs : s₀.RootedAt scope) :
    s₂.RootedAt scope ∧ s₃.RootedAt scope := by
  obtain ⟨payload, cs, -, -, hupdate⟩ := h.responds.payload
  have h₁ : s₁.RootedAt scope := rootedAt_of_update hupdate hs
  have h₂ : s₂.RootedAt scope := by
    obtain rfl | ⟨_, _, _, _, -, hput⟩ := steps_of_takeAnswer h.responds.answered
    · exact h₁
    · exact rootedAt_put hput h₁
  exact ⟨h₂, ((resolution_of_resolve h.responds.resolved).edits h.carried).rootedAt h₂⟩

/-- a turn in which the user agrees to a goal, which is completed, while another goal was interrupted last -/
structure Completes (b : Bot) (input : String) (user conv : Store) (s₀ : Snapshot) (x : Utterance) (s₁ : Snapshot)
    (completed : Goal) (s₂ : Snapshot) (r : Response) (s₃ : Snapshot) (interrupted : Goal) : Prop where
  revalidating : b.processor = .revalidating
  opens : b.Opens input user conv s₀ x s₁ completed s₂ r s₃
  confirms : completed.confirmOnValid = true
  acts : r.actions ≠ []
  known : b.goal? interrupted.name = some interrupted
  other : interrupted.name ≠ completed.name
  last : ∃ vs, s₂.get previousIntents = .ok (some (.list vs)) ∧ vs.getLast? = some (.str interrupted.name)

/-- **Before the actions of a completed goal run, the interrupted goal is active again**, and is taken for valid. -/
theorem active_of_completes (hs : s₀.RootedAt .utterance)
    (h : b.Completes input user conv s₀ x s₁ completed s₂ r s₃ interrupted) : Active interrupted.name s₃ := by
  obtain ⟨hs₂, hs₃⟩ := rootedAt_of_opens h.opens hs
  have hres := resolution_of_resolve h.opens.responds.resolved
  have hcarried := h.opens.carried
  rw [(hres.agreed h.confirms h.acts).2] at hcarried
  obtain ⟨v, hcomplete, hrest⟩ := update_cons_eq_ok.1 hcarried
  obtain ⟨vs, hhistory, hlast⟩ := h.last
  have hnamed : v.under? intentName.place = some (.str interrupted.name) :=
    named_of_completeGoal hs₂ hhistory hlast hcomplete
  have hvalidated := hres.validated h.acts hs₂ h.opens.carried
  have hsame : s₃.under? intentName.place = v.under? intentName.place := by
    have havoid : [Command.put intentValidated (.bool true), .remove prompt].Forall (·.Avoids intentName.place) :=
      ⟨Command.avoids_put (by decide), Command.avoids_remove (by decide)⟩
    exact under?_of_update_of_avoids (List.forall_iff_forall_mem.1 havoid) hrest
  exact ⟨hs₃, hsame.trans hnamed, hvalidated⟩

/-- the payload, the answer and the actions of a turn leave a place alone -/
structure Elsewhere (b : Bot) (n : Nat) (x : Utterance) (s₁ : Snapshot) (as : List Action) (s₃ : Snapshot) (t : Tally)
    (q : Place) : Prop where
  payload : ∀ {payload cs}, b.dictionary.lookup x = .ok (some payload) → Command.parseAll payload = .ok cs →
    ∀ c ∈ cs, c.Avoids q
  answer : ∀ {answer target value p}, s₁.Answers answer target value p → p.place.Apart q
  actions : b.ActElsewhere n as s₃ t q

/-- until the actions run, an object that is left alone stays -/
theorem sweeps_of_opens (helsewhere : b.Elsewhere n x s₁ r.actions s₃ t (objectAt q))
    (h : b.Opens input user conv s₀ x s₁ g s₂ r s₃) : Sweeps (fun _ => False) q s₀ s₃ := by
  obtain ⟨payload, cs, hlookup, hparse, hupdate⟩ := h.responds.payload
  have h₁ : Sweeps (fun _ => False) q s₀ s₁ :=
    sweeps_of_edits (fun _ hp => hp) (fun _ hp => hp) (edits_of_avoids (helsewhere.payload hlookup hparse) hupdate)
  have h₂ : Sweeps (fun _ => False) q s₁ s₂ := by
    obtain rfl | ⟨answer, target, value, p, hanswers, hput⟩ := steps_of_takeAnswer h.responds.answered
    · exact .of_eq rfl id
    · exact sweeps_of_edits (W := (· = p)) (R := fun _ => False) (fun _ hp => hp ▸ helsewhere.answer hanswers)
        (fun _ => False.elim) (.of_put rfl hput)
  have h₃ : Sweeps (fun _ => False) q s₂ s₃ :=
    sweeps_of_edits (fun _ => apart_of_ownWrites) (fun _ => apart_of_ownRemoves)
      ((resolution_of_resolve h.responds.resolved).edits h.carried)
  exact ((h₁.trans h₂).trans h₃).congr (by simp)

/-- in a conversation nothing is kept of an object that belongs to a released goal -/
def Unreleased (b : Bot) (n : Nat) (as : List Action) (s : Snapshot) (t : Tally) (conv : Store) (ks : List String) :
    Prop :=
  ∀ g, b.Released n as s t g → ∀ d, g.Owns d →
    (d <+: ks → conv.under? ("partials" :: ks) = none) ∧ (ks <+: d → conv.under? ("partials" :: d) = none)

/-- a turn releases the objects of the completed goal, and the interrupted goal keeps its own -/
structure ReleasesOnly (before after : Store) (completed interrupted : Goal) : Prop where
  released : ∀ ks, completed.Owns ks → after.under? ("partials" :: ks) = none
  kept : ∀ ks, interrupted.Owns ks → (∀ d, completed.Owns d → Apart d ks) →
    after.under? ("partials" :: ks) = before.under? ("partials" :: ks)

theorem under?_objectAt_of_seeded (hs : s₀.Seeded conv) (hks : ks ≠ []) :
    s₀.under? (objectAt ks) = conv.under? ("partials" :: ks) := by
  obtain ⟨k, ls, rfl⟩ := List.exists_cons_of_ne_nil hks
  exact hs.objects k ls

theorem spares_iff_unreleased (hs : s₀.Seeded conv) (hks : ks ≠ []) :
    Spares (fun d => ∃ g, b.Released n as s t g ∧ g.Owns d) ks s₀ ↔ b.Unreleased n as s t conv ks := by
  unfold Spares Unreleased
  have below {d : List String} (hkd : ks <+: d) : s₀.under? (objectAt d) = conv.under? ("partials" :: d) := by
    refine under?_objectAt_of_seeded hs ?_
    rintro rfl
    exact hks (List.prefix_nil.1 hkd)
  rw [under?_objectAt_of_seeded hs hks]
  constructor
  · intro h g hg d hd
    obtain ⟨habove, hbelow⟩ := h d ⟨g, hg, hd⟩
    exact ⟨habove, fun hkd => (below hkd).symm.trans (hbelow hkd)⟩
  · rintro h d ⟨g, hg, hd⟩
    obtain ⟨habove, hbelow⟩ := h g hg d hd
    exact ⟨habove, fun hkd => (below hkd).trans (hbelow hkd)⟩

theorem ne_nil_of_owns (h : g.Owns ks) : ks ≠ [] := by
  obtain ⟨slot, -, rfl⟩ := h
  exact keys_ne_nil slot

/-- a turn with actions ends with a release, and then keeps its objects -/
theorem closes_of_answerWithin (hprocessor : b.processor = .revalidating)
    (h : b.Opens input user conv s₀ x s₁ g s₂ r s₃) (hr : r.actions ≠ [])
    (hturn : Yields (b.answerWithin n input user conv) t turn t') :
    ∃ after v v', b.Ran n r.actions s₃ t v' t' ∧ b.Closes n r.actions s₃ t after v ∧
      b.releaseObjects after v = .ok v' ∧
        ∀ ks, ks ≠ [] → turn.conversation.under? ("partials" :: ks) = v'.kept? ks := by
  obtain ⟨s₀', wf, r', s₃', v', goal, e, hs₀, hwf, hrespond, hs₃, hran, -, hcarry, -, hconv⟩ :=
    steps_of_answerWithin hturn
  -- there is one beginning, one response and one way to carry it out
  obtain ⟨wf', hwf', -, -, hbest⟩ := h.best
  rw [h.seeded] at hs₀
  cases hs₀
  rw [hwf'] at hwf
  cases hwf
  rw [hbest] at hrespond
  cases hrespond
  have hres := resolution_of_resolve h.responds.resolved
  rw [hres.snapshot_eq, h.carried] at hs₃
  cases hs₃
  obtain ⟨after, v, hcloses, hrelease⟩ := closes_of_ran hprocessor hr hran
  refine ⟨after, v, v', hran, hcloses, hrelease, fun ks hks => ?_⟩
  obtain ⟨k, ls, rfl⟩ := List.exists_cons_of_ne_nil hks
  rw [hconv]
  exact under?_partials_of_carrying hcarry k ls

/-- a goal with an object, and nothing to do -/
def visit : Goal where
  name := "visit"
  objectSlots := [⟨[⟨.map, "city"⟩], by decide⟩]

def ticketObject : Path :=
  ⟨[⟨.map, "ticket"⟩], by decide⟩

def order : Goal where
  name := "order"
  successActions := ["pay"]
  confirmOnValid := true
  objectSlots := [ticketObject]

def errands : Bot where
  name := "errands"
  dictionary := Dictionary.empty.insert ["yes"] "utt:/prompt.value -> yes"
  workflows := [.basic "default"]
  processors := []
  actions := [("pay", .script "pay" "utt:/action.spoken -> paid")]
  goals := [("order", order), ("visit", visit)]

def errandsQuestion : List (String × Node) :=
  [("boolean", .bool true), ("intent", .str "order"), ("question", .str "Is that okay?"),
    ("slot", .str "utt:/intent?confirmed")]

def errandsAnswer : List (String × Node) :=
  errandsQuestion ++ [("value", .str "yes")]

def errandsObjects : List (String × Node) :=
  [("city", .map [("name", .str "Paris")]), ("ticket", .map [("count", .str "two")])]

def errandsAsked : Store :=
  ⟨.map [("intent", .map [("name", .str "order")]), ("partials", .map errandsObjects),
    ("previousIntents", .list [.str "visit"]), ("prompt", .map errandsQuestion)]⟩

def errandsDone : Store :=
  ⟨.map [("intent", .map [("name", .str "visit")]), ("partials", .map [("ticket", .map [("count", .str "two")])]),
    ("previousIntents", .list [])]⟩

def errandsTurn (intent prompt : List (String × Node)) : Snapshot :=
  ⟨.empty, errandsAsked,
    ⟨.map [("intent", .map intent), ("objects", .map errandsObjects), ("prompt", .map prompt)]⟩⟩

def errandsResponse : Response where
  spoken := ""
  snapshot := errandsTurn [("confirmed", .bool true), ("name", .str "order")] errandsAnswer
  score := .one
  commands := [.completeGoal, .put intentValidated (.bool true), .remove prompt]
  actions := [.script "pay" "utt:/action.spoken -> paid"]

def errandsCompleted : Snapshot :=
  ⟨.empty, ⟨.map [("intent", .map [("name", .str "order")]), ("partials", .map errandsObjects),
      ("previousIntents", .list [])]⟩,
    ⟨.map [("intent", .map [("confirmed", .bool true), ("name", .str "visit"), ("validated", .bool true)]),
      ("objects", .map errandsObjects), ("prompt", .map errandsAnswer)]⟩⟩

/-- the order is completed, and the visit is taken up again -/
theorem completes_errands :
    errands.Completes "yes" .empty errandsAsked (errandsTurn [("name", .str "order")] errandsQuestion) (.parse "yes")
      (errandsTurn [("name", .str "order")] errandsAnswer) order errandsResponse.snapshot
      errandsResponse errandsCompleted visit where
  revalidating := by rfl
  opens := ⟨by rfl, ⟨_, by rfl, Workflow.builtIn_basic _ _, ⟨_, by rfl, List.mem_singleton_self _⟩, by rfl⟩,
    ⟨⟨"utt:/prompt.value -> yes", _, by rfl, by rfl, by rfl⟩, ⟨"order", by rfl, by rfl⟩, by rfl, by rfl⟩, by rfl⟩
  confirms := rfl
  acts := List.cons_ne_nil _ _
  known := by rfl
  other := by decide
  last := ⟨[.str "visit"], by rfl, rfl⟩

theorem answer_errands :
    Yields (errands.answer "yes" .empty errandsAsked) [] ⟨"paid", .empty, errandsDone⟩ [("pay", 1)] := by
  rfl

theorem plain_errands : ∀ g, errands.HasGoal g → ∀ slot ∈ g.objectSlots, slot.Plain := by
  rintro g ⟨name, hname⟩ slot hslot
  have hmem := mem_of_goal hname
  simp only [errands, List.mem_cons, Prod.mk.injEq, List.not_mem_nil, or_false] at hmem
  rcases hmem with ⟨-, rfl⟩ | ⟨-, rfl⟩
  · obtain rfl := List.mem_singleton.1 hslot
    decide
  · obtain rfl := List.mem_singleton.1 hslot
    decide

theorem actElsewhere_errands {p : Place} (hp : actionSpoken.place.Apart p) :
    errands.ActElsewhere n errandsResponse.actions s t p := by
  refine actElsewhere_of_speaks (fun a ha runs σ cs hact c hc q hq => ?_) hp
  obtain rfl := List.mem_singleton.1 ha
  cases hact
  obtain rfl := List.mem_singleton.1 hc
  rcases hq with hq | hq
  · exact hq
  · exact hq.elim

theorem elsewhere_errands :
    errands.Elsewhere n (.parse "yes") (errandsTurn [("name", .str "order")] errandsAnswer)
      errandsResponse.actions errandsCompleted t (objectAt ks) where
  payload hlookup hparse := by
    have hpayload : errands.dictionary.lookup (.parse "yes") = .ok (some "utt:/prompt.value -> yes") := by rfl
    rw [hpayload] at hlookup
    cases hlookup
    have hcommands : Command.parseAll "utt:/prompt.value -> yes" = .ok [.put answerValue (.str "yes")] := by rfl
    rw [hcommands] at hparse
    cases hparse
    intro c hc
    obtain rfl := List.mem_singleton.1 hc
    exact Command.avoids_put (Place.apart_of_head_ne (by decide) _ _ _ _)
  answer hanswers := by
    have hasked : (errandsTurn [("name", .str "order")] errandsAnswer).textAt answerSlot =
        .ok (some "utt:/intent?confirmed") := by rfl
    have htarget := hanswers.asked
    rw [hasked] at htarget
    cases htarget
    have hgoes : ScopedPath.parse "utt:/intent?confirmed" = .ok intentConfirmed := by rfl
    have hpath := hanswers.goes
    rw [hgoes] at hpath
    cases hpath
    exact Place.apart_of_head_ne (by decide) _ _ _ _
  actions := actElsewhere_errands (Place.apart_of_head_ne (by decide) _ _ _ _)

/-- **Whose objects a completed goal takes with it.**  A turn that completes a goal ends with a release.  The turn
releases the objects of the completed goal exactly if none is left at the last release, or if they belong to the goal
that is released then; the interrupted goal keeps its objects exactly if nothing is kept of those that belong to
released goals.  If the actions leave the goal alone, it is the interrupted goal that is released, and no other. -/
theorem releasesOnly_iff (hslots : ∀ g, b.HasGoal g → ∀ slot ∈ g.objectSlots, slot.Plain)
    (hroot : conv.root.sigil = .map) (h : b.Completes input user conv s₀ x s₁ completed s₂ r s₃ interrupted)
    (helsewhere : ∀ ks, interrupted.Owns ks → (∀ d, completed.Owns d → Apart d ks) →
      b.Elsewhere n x s₁ r.actions s₃ t (objectAt ks))
    (hturn : Yields (b.answerWithin n input user conv) t turn t') :
    ∃ after v, b.Closes n r.actions s₃ t after v ∧
      (ReleasesOnly conv turn.conversation completed interrupted ↔
        (∀ ks, completed.Owns ks → b.Cleared after v ks) ∧
          ∀ ks, interrupted.Owns ks → (∀ d, completed.Owns d → Apart d ks) →
            b.Unreleased n r.actions s₃ t conv ks) ∧
      (b.ActElsewhere n r.actions s₃ t intent.place →
        (∀ g, b.Releases after v g ↔ g = interrupted) ∧ ∀ g, b.Released n r.actions s₃ t g ↔ g = interrupted) := by
  have hseeded := seeded_of_update hroot h.opens.seeded
  have hres := resolution_of_resolve h.opens.responds.resolved
  obtain ⟨after, v, v', hran, hcloses, hrelease, hturn⟩ :=
    closes_of_answerWithin h.revalidating h.opens h.acts hturn
  have released (ks : List String) (hks : completed.Owns ks) :
      turn.conversation.under? ("partials" :: ks) = none ↔ b.Cleared after v ks := by
    rw [hturn ks (ne_nil_of_owns hks)]
    exact kept?_eq_none_iff_of_release hslots hrelease ks
  have kept (ks : List String) (hks : interrupted.Owns ks) (hapart : ∀ d, completed.Owns d → Apart d ks) :
      turn.conversation.under? ("partials" :: ks) = conv.under? ("partials" :: ks) ↔
        b.Unreleased n r.actions s₃ t conv ks := by
    have hnil := ne_nil_of_owns hks
    have hothers := helsewhere ks hks hapart
    have hsweeps : Sweeps (fun d => ∃ g, b.Released n r.actions s₃ t g ∧ g.Owns d) ks s₀ v' :=
      ((sweeps_of_opens hothers h.opens).trans
        ((tracks_sweeps h.opens.builtIn hslots ks).of_ran h.revalidating hothers.actions hran)).congr (by simp)
    obtain ⟨o, ho⟩ := hseeded.hasObjects
    obtain ⟨o', ho'⟩ := Option.isSome_iff_exists.1 (hsweeps.objects (by rw [ho]; rfl))
    rw [hturn ks hnil, kept?_of_objects ho', ← under?_objectAt_of_seeded hseeded hnil,
      ← spares_iff_unreleased hseeded hnil]
    exact hsweeps.kept_iff
  refine ⟨after, v, hcloses, ⟨fun honly => ?_, fun ⟨hcleared, hunreleased⟩ => ?_⟩, fun hacts => ?_⟩
  · exact ⟨fun ks hks => (released ks hks).1 (honly.released ks hks),
      fun ks hks hapart => (kept ks hks hapart).1 (honly.kept ks hks hapart)⟩
  · exact ⟨fun ks hks => (released ks hks).2 (hcleared ks hks),
      fun ks hks hapart => (kept ks hks hapart).2 (hunreleased ks hks hapart)⟩
  -- the completion makes the interrupted goal active, and no action makes another one so
  · have hactive := active_of_completes hseeded.rooted h
    obtain ⟨m, c, w, u, u', hstarts, hends⟩ := ends_of_closes hcloses
    have hlast := active_of_starts h.revalidating hacts hactive hstarts
    obtain ⟨rfl, hlast'⟩ := active_of_ends (hacts hstarts) hlast hends
    exact ⟨fun g => releases_iff_of_active hlast' h.known hrelease,
      fun g => released_iff_of_active h.revalidating h.known h.acts hacts hactive hran⟩

/-- with the order the objects of the visit are released, and of no other goal -/
theorem released_errands :
    errands.Completes "yes" .empty errandsAsked (errandsTurn [("name", .str "order")] errandsQuestion) (.parse "yes")
        (errandsTurn [("name", .str "order")] errandsAnswer) order
        errandsResponse.snapshot errandsResponse errandsCompleted visit ∧
      Yields (errands.answer "yes" .empty errandsAsked) [] ⟨"paid", .empty, errandsDone⟩ [("pay", 1)] ∧
      ∀ g, errands.Released nestingLimit errandsResponse.actions errandsCompleted [] g ↔ g = visit := by
  obtain ⟨after, v, -, -, hreleased⟩ :=
    releasesOnly_iff plain_errands rfl completes_errands (fun _ _ _ => elsewhere_errands) answer_errands
  exact ⟨completes_errands, answer_errands, (hreleased (actElsewhere_errands (by decide))).2⟩

/-- a turn that completes a goal need not release its objects, nor leave those of the interrupted goal -/
theorem not_releasesOnly_errands :
    ¬ ∀ (b : Bot) (n : Nat) (input : String) (user conv : Store) (s₀ : Snapshot) (x : Utterance) (s₁ : Snapshot)
        (completed : Goal) (s₂ : Snapshot) (r : Response) (s₃ : Snapshot) (interrupted : Goal) (t t' : Tally)
        (turn : Turn), (∀ g, b.HasGoal g → ∀ slot ∈ g.objectSlots, slot.Plain) → conv.root.sigil = .map →
      b.Completes input user conv s₀ x s₁ completed s₂ r s₃ interrupted →
      (∀ ks, interrupted.Owns ks → (∀ d, completed.Owns d → Apart d ks) →
        b.Elsewhere n x s₁ r.actions s₃ t (objectAt ks)) →
      Yields (b.answerWithin n input user conv) t turn t' →
        ReleasesOnly conv turn.conversation completed interrupted := by
  intro h
  have honly := h errands nestingLimit "yes" .empty errandsAsked _ _ _ _ _ _ _ _ _ _ _ plain_errands rfl
    completes_errands (fun _ _ _ => elsewhere_errands) answer_errands
  have hticket : errandsDone.under? ["partials", "ticket"] = none :=
    honly.released _ ⟨_, List.mem_singleton_self _, rfl⟩
  cases hticket

end

end Bot

end Dialogue
