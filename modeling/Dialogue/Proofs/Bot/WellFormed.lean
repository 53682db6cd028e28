import Dialogue.Proofs.Bot.Confirmation
import Dialogue.Proofs.Shape

/-!
# Conversations that go on

A turn can fail, but no turn leaves a conversation with which every later turn fails, if payloads and actions change
only what they are meant to change (`Bot.Contained`):

* `Bot.shaped_of_responds`, `Bot.keeps_shaped`: everything in a turn keeps the shapes;
* `Bot.exists_update_of_resolution`: the commands of a response succeed;
* `Bot.goes_on`: between turns a conversation is well formed, and in each turn the commands that are not up to the
  payloads and actions succeed.
-/

namespace Dialogue

open Slots Snapshot

/-! ### What payloads and actions change -/

/-- a path that payloads and actions may change: one below the objects, the answer, the active goal, or what is to be
said -/
def Changeable (p : ScopedPath) : Prop :=
  p.BelowObjects ∨ p ∈ [answerValue, intentName, actionSpoken]

/-- a command that changes nothing else, or makes another goal active -/
def Command.Contained : Command → Prop
  | .set target _ => Changeable target
  | .remove target => Changeable target
  | .switchGoal scope _ => scope = .utterance
  | .completeGoal => True

/-- a bot with the built-in stages, whose payloads and actions change nothing else, and whose goals ask for objects -/
structure Bot.Contained (b : Bot) : Prop where
  builtIn : b.BuiltIn
  payloads : ∀ {w : Workflow}, b.workflow = .ok w → ∀ {input : String} {u : Utterance}, w.Reads (.parse input) u →
    ∀ {payload : String} {cs : List Command}, b.dictionary.lookup u = .ok (some payload) →
      Command.parseAll payload = .ok cs → ∀ c ∈ cs, c.Contained
  actions : ∀ {a : Action}, b.HasAction a → ∀ {runs : Nat} {s : Snapshot} {cs : List Command},
    a.act runs b.goals s = .ok cs → ∀ c ∈ cs, c.Contained
  constraints : ∀ {g : Goal}, b.HasGoal g → ∀ c ∈ g.constraints, c.slot.BelowObjects

section Paths

variable {p : ScopedPath} {ss : List Segment} (hscope : p.scope = .utterance)
  (hsegments : p.path.segments = ⟨.map, "objects"⟩ :: ss)

include hscope hsegments

theorem place_of_segments : p.place = (.utterance, "objects" :: ss.map Segment.key) := by
  rw [ScopedPath.place, Path.keys, hscope, hsegments]
  rfl

/-- a put at the objects or below them goes elsewhere or through them -/
theorem tamePut_of_segments : TamePut p := by
  have hplace := place_of_segments hscope hsegments
  have elsewhere {scope : Scope} {k : String} {ks : List String} (hk : "objects" ≠ k) :
      p.place.Apart (scope, k :: ks) := by
    rw [hplace]
    exact Place.apart_of_head_ne hk _ _ _ _
  refine ⟨⟨by rw [hscope]; decide, fun e he => ?_⟩, elsewhere (by decide)⟩
  simp only [shapes, List.mem_cons, List.not_mem_nil, or_false] at he
  obtain rfl | rfl | rfl | rfl | rfl | rfl | rfl := he
  · cases ss with
    | nil => exact .inr (.inr ⟨hplace, by simp [Path.Plain, Path.inner, hsegments], by simp [Path.leaf, hsegments]⟩)
    | cons t ts =>
      refine .inr (.inl ⟨hscope, rfl, ?_, ?_⟩) <;>
        simp [Path.inner, hsegments, objects, ScopedPath.place, Path.keys]
  all_goals exact .inl (elsewhere (by decide))

theorem apart_of_segments {q : Place} (hq : ∀ k ∈ q.2.head?, k ≠ "objects") (hne : q.2 ≠ []) : p.place.Apart q := by
  rw [place_of_segments hscope hsegments]
  obtain ⟨scope, ks⟩ := q
  cases ks with
  | nil => exact absurd rfl hne
  | cons k ks => exact Place.apart_of_head_ne (Ne.symm (hq k rfl)) _ _ _ _

end Paths

theorem Changeable.tamePut {p : ScopedPath} (hp : Changeable p) : TamePut p := by
  obtain ⟨hscope, s, ss, hsegments⟩ | hp := hp
  · exact tamePut_of_segments hscope hsegments
  · simp only [List.mem_cons, List.not_mem_nil, or_false] at hp
    obtain rfl | rfl | rfl := hp <;> decide

theorem Changeable.tameRemoval {p : ScopedPath} (hp : Changeable p) : TameRemoval p :=
  .inl hp.tamePut.2

theorem Changeable.writable {p : ScopedPath} (hp : Changeable p) : Writable p := by
  obtain ⟨hscope, s, ss, hsegments⟩ | hp := hp
  · have hapart {q : Place} := apart_of_segments (q := q) hscope hsegments
    exact ⟨hapart (by decide) (by decide), hapart (by decide) (by decide), hapart (by decide) (by decide),
      .inl (hapart (by decide) (by decide))⟩
  · simp only [List.mem_cons, List.not_mem_nil, or_false] at hp
    obtain rfl | rfl | rfl := hp <;> decide

theorem Changeable.removable {p : ScopedPath} (hp : Changeable p) : Removable p := by
  obtain ⟨hscope, s, ss, hsegments⟩ | hp := hp
  · have hapart {q : Place} := apart_of_segments (q := q) hscope hsegments
    exact ⟨.inl (hapart (by decide) (by decide)), .inl (hapart (by decide) (by decide))⟩
  · simp only [List.mem_cons, List.not_mem_nil, or_false] at hp
    obtain rfl | rfl | rfl := hp <;> decide

theorem Command.Contained.tame {c : Command} (hc : c.Contained) : c.Tame := by
  cases c with
  | set target value => exact Changeable.tamePut hc
  | remove target => exact Changeable.tameRemoval hc
  | switchGoal scope goal => exact hc
  | completeGoal => exact hc

theorem Command.Contained.discreet {c : Command} (hc : c.Contained) : c.Discreet := by
  cases c with
  | set target value =>
    refine ⟨?_, by rintro p ⟨⟩⟩
    rintro p rfl
    exact Changeable.writable hc
  | remove target =>
    refine ⟨by rintro p ⟨⟩, ?_⟩
    rintro p rfl
    exact Changeable.removable hc
  | switchGoal scope goal =>
    obtain rfl : scope = .utterance := hc
    exact Bot.discreet_switchGoal goal
  | completeGoal => exact Bot.discreet_completeGoal

namespace Bot

variable {b : Bot} {s s' : Snapshot} {g : Goal} {r : Response}

theorem Contained.discreet (hb : b.Contained) : b.Discreet where
  builtIn := hb.builtIn
  payloads hw _ _ hu _ _ hlookup hparse c hc := (hb.payloads hw hu hlookup hparse c hc).discreet
  actions ha _ _ _ hact c hc := (hb.actions ha hact c hc).discreet
  constraints := hb.constraints

/-! ### Responses -/

theorem applies_removePrompt : Applies (.remove prompt) :=
  applies_remove (.inl (by decide)) (by decide) rfl

theorem applies_putPrompt {p : ScopedPath} {v w : Node}
    (hp : p ∈ [promptQuestion, promptSlot, promptBoolean, promptIntent])
    (hw : Node.coerce p.path.leaf.sigil v = .ok w) : Applies (.put p v) := by
  simp only [List.mem_cons, List.not_mem_nil, or_false] at hp
  obtain rfl | rfl | rfl | rfl := hp <;> exact applies_put (by decide) (k := "prompt") (by decide) rfl rfl hw

theorem applies_putValidated (x : Bool) : Applies (.put intentValidated (.bool x)) :=
  applies_put (w := .bool x) (by decide) (k := "intent") (by decide) rfl rfl rfl

/-- the commands of a response succeed and keep the shapes, but a completion needs the index of the last goal -/
theorem applies_of_resolution (h : b.Resolution g s r) {c : Command} (hc : c ∈ r.commands) :
    Applies c ∨ c = .completeGoal := by
  cases h with
  | asks v score hv =>
    simp only [Goal.ask, List.mem_cons, List.not_mem_nil, or_false] at hc
    obtain rfl | rfl | rfl | rfl | rfl := hc
    · exact .inl applies_removePrompt
    · exact .inl (applies_putPrompt (w := .str v.prompt) (by decide) rfl)
    · exact .inl (applies_putPrompt (w := .str v.slot.text) (by decide) rfl)
    · exact .inl (applies_putPrompt (w := .str g.name) (by decide) rfl)
    · exact .inl (applies_putValidated false)
  | succeeds summary actions _ _ =>
    simp only [List.mem_cons, List.not_mem_nil, or_false] at hc
    obtain rfl | rfl := hc
    · exact .inl applies_removePrompt
    · exact .inl (applies_putValidated true)
  | asksToConfirm summary _ =>
    simp only [Goal.askToConfirm, List.mem_cons, List.not_mem_nil, or_false] at hc
    obtain rfl | rfl | rfl | rfl | rfl | rfl := hc
    · exact .inl applies_removePrompt
    · exact .inl (applies_putPrompt (w := .str confirmationQuestion) (by decide) rfl)
    · exact .inl (applies_putPrompt (w := .str intentConfirmed.text) (by decide) rfl)
    · exact .inl (applies_putPrompt (w := .bool true) (by decide) rfl)
    · exact .inl (applies_putPrompt (w := .str g.name) (by decide) rfl)
    · exact .inl (applies_putValidated false)
  | denies next _ _ =>
    simp only [List.mem_cons, List.not_mem_nil, or_false] at hc
    obtain rfl | rfl := hc
    · exact .inl (applies_switchGoal next.name)
    · exact .inl (applies_putValidated false)
  | completes actions _ _ _ =>
    simp only [List.mem_cons, List.not_mem_nil, or_false] at hc
    obtain rfl | rfl | rfl := hc
    · exact .inr rfl
    · exact .inl (applies_putValidated true)
    · exact .inl applies_removePrompt

theorem tame_of_resolution (h : b.Resolution g s r) {c : Command} (hc : c ∈ r.commands) : c.Tame := by
  obtain happlies | rfl := applies_of_resolution h hc
  · exact happlies.tame
  · trivial

/-- a history that is no longer than an index can say -/
def Indexed (s : Snapshot) : Prop :=
  ∀ items, s.under? previousIntents.place = some (.list items) → items.length ≤ Number.maxWord

theorem Indexed.length_le {m : GoalStack} (hword : Indexed s) (hm : s.Shows m) :
    m.history.length ≤ Number.maxWord := by
  rcases hm.history with hlist | ⟨-, hempty⟩
  · have hitems := hword _ hlist
    rwa [List.length_map] at hitems
  · rw [hempty]
    exact Nat.zero_le _

theorem exists_completeGoal (hs : s.Shaped) (hword : Indexed s) : ∃ s', Command.completeGoal.run s = .ok s' := by
  obtain ⟨m, hm⟩ := hs.keepsGoals.exists_shows
  obtain ⟨s', hrun, -⟩ := hm.exists_complete (hword.length_le hm)
  exact ⟨s', hrun⟩

/-- **The commands of a response succeed.** -/
theorem exists_update_of_resolution (hs : s.Shaped) (h : b.Resolution g s r) (hword : Indexed s) :
    ∃ s', s.update r.commands = .ok s' := by
  have happlies {c : Command} (hc : c ∈ r.commands) (hne : c ≠ .completeGoal) : Applies c :=
    (applies_of_resolution h hc).resolve_right hne
  cases h with
  | completes actions _ _ _ =>
    obtain ⟨s₁, hrun⟩ := exists_completeGoal hs hword
    have h₁ : s₁.Shaped := hs.run (c := .completeGoal) trivial hrun
    obtain ⟨s', hupdate⟩ := h₁.exists_update fun c hc => happlies (List.mem_cons_of_mem _ hc) (by
      rintro rfl
      simp [Command.put] at hc)
    exact ⟨s', update_cons_eq_ok.2 ⟨s₁, hrun, hupdate⟩⟩
  | _ =>
    refine hs.exists_update fun c hc => happlies hc ?_
    rintro rfl
    simp [Goal.ask, Goal.askToConfirm, Command.put] at hc

/-! ### The steps of a turn -/

theorem shaped_start {user conv : Store} (hconv : conv.WellFormed) : Shaped ⟨user, conv, .empty⟩ where
  utterance := rfl
  conversation := hconv.rooted
  kinds e he := by
    simp only [shapes, List.mem_cons, List.not_mem_nil, or_false] at he
    obtain rfl | rfl | rfl | rfl | rfl | rfl | rfl := he
    · exact nofun
    · exact nofun
    · exact nofun
    · exact hconv.partials
    · exact hconv.intent
    · exact hconv.name
    · exact hconv.prompt
  history := hconv.history

theorem exists_copy_of_shaped (hs : s.Shaped) (target source : ScopedPath) (ht : target.path.inner = [])
    (hsource : source.path.inner = []) (hscope : target.scope ≠ .user) (hscope' : source.scope ≠ .user)
    (htarget : s.Fits target.place .map) (hfrom : s.Fits source.place .map) (hleaf : target.path.leaf.sigil = .map)
    (hleaf' : source.path.leaf.sigil = .map) : ∃ s', (Command.copy target source).run s = .ok s' :=
  exists_copy (reaches_of_rootedAt (hs.rootedAt hscope) ht) (reaches_of_rootedAt (hs.rootedAt hscope') hsource) htarget
    hfrom hleaf hleaf'

theorem shaped_copyIntent (hs : s.Shaped) (hnone : s.under? intent.place = none)
    (h : (Command.copy intent carriedIntent).run s = .ok s') : s'.Shaped := by
  obtain ⟨value, -, hput⟩ := Command.put_of_run_copy h
  have hothers : ∀ e ∈ shapes, e ≠ (intentName.place, .str) → intent.Respects e.1 e.2 := by decide
  refine ⟨⟨rootedAt_put hput hs.utterance, rootedAt_put hput hs.conversation, fun e he => ?_⟩, ?_⟩
  · by_cases hname : e = (intentName.place, .str)
    · subst hname
      have hcopy := under?_below_copy hs.utterance hs.conversation (by decide) (by decide) rfl hnone h "name" []
      intro w hw
      exact hs.fits (q := carriedIntentName.place) (by decide) w (hcopy.symm.trans hw)
    · exact fits_of_respects hs.utterance (hs.kinds e he) (hothers e he hname) hput
  · rw [under?_put_of_apart hput (by decide)]
    exact hs.history

/-- **A turn can begin.** -/
theorem exists_seeding {conv : Store} (hconv : conv.WellFormed) (user : Store) :
    ∃ s₀, (Snapshot.mk user conv .empty).update seeding = .ok s₀ ∧ s₀.Shaped := by
  have h : Shaped ⟨user, conv, .empty⟩ := shaped_start hconv
  obtain ⟨s₁, h₁⟩ := exists_copy_of_shaped h objects partials rfl rfl (by decide) (by decide)
    (h.fits (by decide)) (h.fits (by decide)) rfl rfl
  have hs₁ : s₁.Shaped := h.copy (by decide) h₁
  obtain ⟨s₂, h₂⟩ := exists_copy_of_shaped hs₁ intent carriedIntent rfl rfl (by decide)
    (by decide) (hs₁.fits (by decide)) (hs₁.fits (by decide)) rfl rfl
  have hs₂ : s₂.Shaped := shaped_copyIntent hs₁ (under?_copy_of_apart h₁ (by decide)) h₂
  have hnone : s₂.under? answeredPrompt.place = none :=
    (under?_copy_of_apart h₂ (by decide)).trans (under?_copy_of_apart h₁ (by decide))
  obtain ⟨s₃, h₃⟩ := exists_copy_of_shaped hs₂ answeredPrompt prompt rfl rfl (by decide)
    (by decide) (Node.Fits.of_none hnone _) (hs₂.fits (by decide)) rfl rfl
  have hs₃ : s₃.Shaped := hs₂.copy (by decide) h₃
  exact ⟨s₃, update_cons_eq_ok.2 ⟨s₁, h₁, update_cons_eq_ok.2 ⟨s₂, h₂, update_cons_eq_ok.2 ⟨s₃, h₃, rfl⟩⟩⟩, hs₃⟩

theorem shaped_of_responds {user conv : Store} {s₀ s₁ s₂ : Snapshot} {w : Workflow} {input : String} {u : Utterance}
    (hb : b.Contained) (hconv : b.Pending conv) (hseeded : (Snapshot.mk user conv .empty).update seeding = .ok s₀)
    (hs₀ : s₀.Shaped) (hw : b.workflow = .ok w) (hu : w.Reads (.parse input) u)
    (h : b.Responds s₀ u s₁ g s₂ r) : s₂.Shaped := by
  obtain ⟨payload, cs, hlookup, hparse, hupdate⟩ := h.payload
  have hcs := hb.payloads hw hu hlookup hparse
  have hs₁ : s₁.Shaped := hs₀.update (fun c hc => (hcs c hc).tame) hupdate
  have htaken : TakenUp conv s₁ := takenUp_edits (takenUp_of_seeded (seeded_of_update hconv.rooted hseeded))
    (edits_of_discreet (fun c hc => (hcs c hc).discreet) hupdate)
  obtain rfl | ⟨p, value, hput, ⟨hscope, ss, hsegments⟩ | ⟨rfl, -⟩⟩ :=
    target_of_takeAnswer hconv hs₁.utterance htaken h.answered
  · exact hs₁
  · exact hs₁.edits (.of_put (tamePut_of_segments hscope hsegments) hput)
  · exact hs₁.edits (.of_put (by decide) hput)

/-- **Each step of a turn's actions keeps the shapes.** -/
theorem keeps_shaped (hb : b.Contained) : b.Keeps Shaped where
  builtIn := hb.builtIn
  act ha hs h := by
    obtain ⟨s₁, runs, cs, hremove, hact, hupdate⟩ := Action.update_of_run h
    have hs₁ : s₁.Shaped := hs.edits (.of_remove (.inl (by decide)) hremove)
    exact hs₁.update (fun c hc => (hb.actions ha hact c hc).tame) hupdate
  resolve _ hs hr h := hs.update (fun _ hc => tame_of_resolution hr hc) h
  release hs h := by
    refine hs.edits ((edits_releaseObjects h).mono (fun p hp => hp.elim) fun p hp => ?_)
    obtain ⟨ks, hp⟩ := hp
    rw [TameRemoval, hp]
    exact .inl (Place.apart_of_head_ne (by decide) _ _ _ _)
  speak hs h := hs.edits (.of_put (by decide) h)

/-- **A turn can end.** -/
theorem exists_carrying (hs : s.Shaped) :
    ∃ goal s', s.get intentName = .ok goal ∧ s.update (carrying goal) = .ok s' ∧ s'.Shaped := by
  obtain ⟨name, hname⟩ := exists_map_str (hs.fits (q := intentName.place) (by decide))
  have hget : s.get intentName = .ok (name.map .str) := by
    rw [← hname]
    exact get_eq (hs.reaches (k := "intent") (by decide) rfl (by decide)) (hs.fits (by decide))
  obtain ⟨s₁, h₁⟩ := exists_copy_of_shaped hs partials objects rfl rfl (by decide) (by decide)
    (hs.fits (by decide)) (hs.fits (by decide)) rfl rfl
  have hs₁ : s₁.Shaped := hs.copy (by decide) h₁
  have happlies : ∀ c ∈ ((name.map Node.str).map (Command.put carriedIntentName)).toList, Applies c := by
    intro c hc
    obtain ⟨v, hv, rfl⟩ := Option.map_eq_some_iff.1 (Option.mem_toList.1 hc)
    obtain ⟨x, -, rfl⟩ := Option.map_eq_some_iff.1 hv
    exact applies_put (w := .str x) (by decide) (k := "intent") (by decide) rfl rfl rfl
  obtain ⟨s', hupdate⟩ := hs₁.exists_update happlies
  exact ⟨_, s', hget, update_cons_eq_ok.2 ⟨s₁, h₁, hupdate⟩, hs₁.update (fun c hc => (happlies c hc).tame) hupdate⟩

/-! ### Whole turns -/

theorem shaped_of_respond {user conv : Store} {s₀ : Snapshot} {w : Workflow} {input : String} (hb : b.Contained)
    (hconv : b.Pending conv) (hseeded : (Snapshot.mk user conv .empty).update seeding = .ok s₀) (hs₀ : s₀.Shaped)
    (hw : b.workflow = .ok w) (h : b.respond w (.parse input) s₀ = .ok r) :
    r.snapshot.Shaped ∧ (∀ c ∈ r.commands, c.Tame) ∧ (∀ a ∈ r.actions, b.HasAction a) ∧
      (Indexed r.snapshot → ∃ s₁, r.snapshot.update r.commands = .ok s₁) := by
  rcases responds_of_respond (hb.builtIn w hw) h with rfl | ⟨u, hu, s₁, g, s₂, hresponds⟩
  · exact ⟨hs₀, nofun, nofun, fun _ => ⟨s₀, rfl⟩⟩
  · have hs₂ := shaped_of_responds hb hconv hseeded hs₀ hw hu hresponds
    have hres := resolution_of_resolve hresponds.resolved
    rw [hres.snapshot_eq]
    exact ⟨hs₂, fun c hc => tame_of_resolution hres hc, fun a ha => hres.hasAction ha,
      exists_update_of_resolution hs₂ hres⟩

theorem wellFormed_of_answerWithin {n : Nat} {input : String} {user conv : Store} {t t' : Tally} {turn : Turn}
    (hb : b.Contained) (hpending : b.Pending conv) (hconv : conv.WellFormed)
    (h : Yields (b.answerWithin n input user conv) t turn t') : turn.conversation.WellFormed := by
  obtain ⟨s₀, w, r, s₁, s₂, goal, s₃, hseeded, hw, hr, hs₁, hran, hgoal, hs₃, -, hturn⟩ := steps_of_answerWithin h
  obtain ⟨s₀', hseeded', hs₀⟩ := exists_seeding hconv user
  rw [hseeded] at hseeded'
  cases hseeded'
  obtain ⟨hshaped, htame, hactions, -⟩ := shaped_of_respond hb hpending hseeded hs₀ hw hr
  have h₁ : s₁.Shaped := hshaped.update htame hs₁
  have h₂ : s₂.Shaped := Keeps.of_ran ((keeps_shaped hb).of_process · · ·) hactions h₁ hran
  obtain ⟨goal', s₃', hgoal', hs₃', h₃⟩ := exists_carrying h₂
  rw [hgoal] at hgoal'
  cases hgoal'
  rw [hs₃] at hs₃'
  cases hs₃'
  rw [hturn]
  exact h₃.wellFormed

/-- every conversation is well formed between turns: by induction on the turns -/
theorem wellFormed_of_conversation {conv : Store} (hb : b.Contained) (h : b.Conversation conv) : conv.WellFormed := by
  induction h with
  | start => exact Store.wellFormed_empty
  | turn h hturn ih => exact wellFormed_of_answerWithin hb (pending_of_conversation hb.discreet h) ih hturn

/-- **Every conversation goes on.**  Between turns it is well formed.  In the next turn, whatever the input and the
user, it is taken up, the commands of the response succeed, and after the actions it is kept.  A response can complete
a goal, and so names the last interrupted goal by its index, a number of 64 bits. -/
theorem goes_on {conv : Store} (hb : b.Contained) (h : b.Conversation conv) :
    conv.WellFormed ∧ ∀ (n : Nat) (input : String) (user : Store),
      ∃ s₀, (Snapshot.mk user conv .empty).update seeding = .ok s₀ ∧
        ∀ w r, b.workflow = .ok w → b.respond w (.parse input) s₀ = .ok r → Indexed r.snapshot →
          ∃ s₁, r.snapshot.update r.commands = .ok s₁ ∧
            ∀ t said s₂ t', Yields (b.processAll n r.actions r.spoken s₁) t (said, s₂) t' →
              ∃ goal s₃, s₂.get intentName = .ok goal ∧ s₂.update (carrying goal) = .ok s₃ ∧
                s₃.conversation.WellFormed := by
  have hconv := wellFormed_of_conversation hb h
  refine ⟨hconv, fun n input user => ?_⟩
  obtain ⟨s₀, hseeded, hs₀⟩ := exists_seeding hconv user
  refine ⟨s₀, hseeded, fun w r hw hr hword => ?_⟩
  obtain ⟨hshaped, htame, hactions, hsucceeds⟩ :=
    shaped_of_respond hb (pending_of_conversation hb.discreet h) hseeded hs₀ hw hr
  obtain ⟨s₁, hs₁⟩ := hsucceeds hword
  refine ⟨s₁, hs₁, fun t said s₂ t' hran => ?_⟩
  have h₂ : s₂.Shaped :=
    Keeps.of_ran ((keeps_shaped hb).of_process · · ·) hactions (hshaped.update htame hs₁) (ran_of_foldlM hran)
  obtain ⟨goal, s₃, hgoal, hs₃, h₃⟩ := exists_carrying h₂
  exact ⟨goal, s₃, hgoal, hs₃, h₃.wellFormed⟩

theorem contained_relay : relay.Contained where
  builtIn := builtIn_of_basic rfl
  payloads _ _ _ _ _ _ hlookup hparse k hk := by
    obtain rfl | rfl | rfl := cases_of_relay_payload hlookup hparse k hk
    · rfl
    · exact .inr (by decide)
    · exact .inr (by decide)
  actions ha _ _ _ hact k hk := by
    rw [eq_of_relay_action ha hact, List.mem_singleton] at hk
    rw [hk]
    exact .inr (by decide)
  constraints hg c hc := by
    rw [constraints_of_relay hg] at hc
    cases hc

/-- the user has said no, and says yes: the goal that took over is completed, and the first one taken up again -/
theorem goes_on_relay :
    relay.Contained ∧ relay.Conversation relayDenied ∧ relayDenied.WellFormed ∧
      relay.respond (.basic "default") (.parse "yes") (relayTurn [("name", .str "second")] relayQuestion) =
        .ok relayAgreed ∧
      Indexed relayAgreed.snapshot ∧ ∃ s₁, relayAgreed.snapshot.update relayAgreed.commands = .ok s₁ := by
  obtain ⟨hconv, hturn⟩ := goes_on contained_relay conversation_relayDenied
  obtain ⟨s₃, hopens⟩ := opens_relayAgreed
  obtain ⟨w, hw, -, -, hr⟩ := hopens.best
  obtain ⟨s₀, hseeded, hresponse⟩ := hturn nestingLimit "yes" .empty
  rw [hopens.seeded] at hseeded
  cases hseeded
  have hword : Indexed relayAgreed.snapshot := by
    intro items hitems
    cases hitems
    decide
  obtain ⟨s₁, hs₁, -⟩ := hresponse w relayAgreed hw hr hword
  cases hw
  exact ⟨contained_relay, conversation_relayDenied, hconv, hr, hword, s₁, hs₁⟩

end Bot

end Dialogue
