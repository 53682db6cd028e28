import Dialogue.Bot.Script
import Dialogue.Proofs.Bot.Carry
import Dialogue.Proofs.Bot.Run
import Dialogue.Proofs.Dictionary
import Dialogue.Proofs.Path.Objects
import Dialogue.Proofs.Prompt

/-!
# Agreement

A goal can ask the user to agree before its actions run.  What is known of the user's agreement is spread over the
pending prompt of the conversation and two slots of the utterance; `Bot.Pending` and `Bot.Held` say how these hang
together between turns and in a turn, if payloads and actions leave them alone (`Bot.Discreet`).

So actions that need the user's agreement run only in a turn that began with a pending question for it, and that was
answered with yes.  Whose question it was is not looked at: a turn runs only the actions that the user has agreed to
exactly if each goal whose actions run is the one that asked.
-/

namespace Dialogue

open Slots Snapshot

/-! ### What payloads and actions leave alone -/

/-- where the commands of a payload or an action may write: the agreement, the pending prompt and what a turn takes up
of them are left alone, but for the answer -/
def Writable (p : ScopedPath) : Prop :=
  p.place.Apart intentConfirmed.place ∧ p.place.Apart (.conversation, ["intent", "confirmed"]) ∧
    p.place.Apart prompt.place ∧ (p.place.Apart answeredPrompt.place ∨ p.place = answerValue.place)

/-- what the commands of a payload or an action may remove: no part of a prompt but the answer -/
def Removable (p : ScopedPath) : Prop :=
  (p.place.Apart prompt.place ∨ p.place = prompt.place) ∧
    (p.place.Apart answeredPrompt.place ∨ p.place = answeredPrompt.place ∨ p.place = answerValue.place)

instance (p : ScopedPath) : Decidable (Writable p) := by
  unfold Writable
  infer_instance

instance (p : ScopedPath) : Decidable (Removable p) := by
  unfold Removable
  infer_instance

/-- a command that leaves agreement alone -/
def Command.Discreet (c : Command) : Prop :=
  (∀ p, c.Writes p → Writable p) ∧ ∀ p, c.Removes p → Removable p

/-- a bot with the built-in stages, whose payloads and actions leave agreement alone, and whose goals ask for objects -/
structure Bot.Discreet (b : Bot) : Prop where
  builtIn : b.BuiltIn
  payloads : ∀ {w : Workflow}, b.workflow = .ok w → ∀ {input : String} {u : Utterance}, w.Reads (.parse input) u →
    ∀ {payload : String} {cs : List Command}, b.dictionary.lookup u = .ok (some payload) →
      Command.parseAll payload = .ok cs → ∀ c ∈ cs, c.Discreet
  actions : ∀ {a : Action}, b.HasAction a → ∀ {runs : Nat} {s : Snapshot} {cs : List Command},
    a.act runs b.goals s = .ok cs → ∀ c ∈ cs, c.Discreet
  constraints : ∀ {g : Goal}, b.HasGoal g → ∀ c ∈ g.constraints, c.slot.BelowObjects

theorem Snapshot.edits_of_discreet {cs : List Command} {s s' : Snapshot} (hcs : ∀ c ∈ cs, c.Discreet)
    (h : s.update cs = .ok s') : s.Edits Writable Removable s' :=
  edits_update (fun c hc => (hcs c hc).1) (fun c hc => (hcs c hc).2) h

namespace Bot

variable {b : Bot}

/-! ### Between turns and in a turn -/

/-- what a conversation holds between two turns: it does not keep the user's agreement, and if it asks for it, a goal
that needs it has asked a question of yes or no -/
structure Pending (b : Bot) (conv : Store) : Prop where
  rooted : conv.root.sigil = .map
  unconfirmed : conv.under? ["intent", "confirmed"] = none
  asked : ∀ v, conv.under? ["prompt", "slot"] = some v →
    (∃ p : ScopedPath, p.BelowObjects ∧ v = .str p.text) ∨
      (v = .str intentConfirmed.text ∧ conv.under? ["prompt", "boolean"] = some (.bool true) ∧
        ∃ g, b.HasGoal g ∧ g.confirmOnValid = true ∧ conv.under? ["prompt", "intent"] = some (.str g.name))

/-- what a snapshot holds in a turn: the user's agreement is a reason for `agreed` -/
structure Held (b : Bot) (agreed : Prop) (s : Snapshot) : Prop where
  rooted : s.RootedAt .utterance
  confirmed : s.under? intentConfirmed.place = some (.bool true) → agreed
  pending : b.Pending s.conversation

theorem Held.mono {p q : Prop} {s : Snapshot} (h : b.Held p s) (hpq : p → q) : b.Held q s :=
  ⟨h.rooted, fun hs => hpq (h.confirmed hs), h.pending⟩

theorem Pending.of_under?_eq {s s' : Snapshot} (h : b.Pending s.conversation) (hroot : s'.RootedAt .conversation)
    (hconfirmed : s'.under? (.conversation, ["intent", "confirmed"]) = none)
    (hprompt : ∀ k, s'.under? (.conversation, ["prompt", k]) = s.under? (.conversation, ["prompt", k])) :
    b.Pending s'.conversation := by
  refine ⟨hroot, hconfirmed, fun v hv => ?_⟩
  have hslot := hprompt "slot"
  have hboolean := hprompt "boolean"
  have hintent := hprompt "intent"
  change s'.conversation.under? _ = s.conversation.under? _ at hslot hboolean hintent
  rw [hboolean, hintent]
  exact h.asked v (hslot.symm.trans hv)

theorem Pending.of_none {s : Snapshot} (hroot : s.RootedAt .conversation)
    (hconfirmed : s.under? (.conversation, ["intent", "confirmed"]) = none)
    (hslot : s.under? (.conversation, ["prompt", "slot"]) = none) : b.Pending s.conversation := by
  refine ⟨hroot, hconfirmed, fun v hv => ?_⟩
  rw [show s.conversation.under? ["prompt", "slot"] = none from hslot] at hv
  cases hv

theorem held_put {agreed : Prop} {s s' : Snapshot} {p : ScopedPath} {value : Option Node} (hs : b.Held agreed s)
    (hp : Writable p) (h : s.put p value = .ok s') : b.Held agreed s' := by
  obtain ⟨hconfirmed, hkept, hprompt, -⟩ := hp
  refine ⟨rootedAt_put h hs.rooted, fun hs' => ?_, ?_⟩
  · rw [under?_put_of_apart h hconfirmed] at hs'
    exact hs.confirmed hs'
  · refine hs.pending.of_under?_eq (rootedAt_put h hs.pending.rooted) ?_ fun k => ?_
    · rw [under?_put_of_apart h hkept]
      exact hs.pending.unconfirmed
    · exact under?_put_of_apart h fun hscope => (hprompt hscope).append_right [k]

theorem held_remove {agreed : Prop} {s s' : Snapshot} {p : ScopedPath} (hs : b.Held agreed s) (hp : Removable p)
    (h : s.remove p = .ok s') : b.Held agreed s' := by
  refine ⟨rootedAt_remove h hs.rooted, fun hs' => ?_, ?_⟩
  · -- a removal leaves no truth value that was not there
    obtain ⟨u, hu, rfl | ⟨-, hcontainer⟩⟩ := under?_of_under?_remove h hs'
    · exact hs.confirmed hu
    · cases hcontainer
  have hroot : s'.RootedAt .conversation := rootedAt_remove h hs.pending.rooted
  have hunconfirmed : s'.under? (.conversation, ["intent", "confirmed"]) = none := by
    cases hv : s'.under? (.conversation, ["intent", "confirmed"]) with
    | none => rfl
    | some v =>
      obtain ⟨u, hu, -⟩ := under?_of_under?_remove h hv
      have hwas : s.under? (.conversation, ["intent", "confirmed"]) = none := hs.pending.unconfirmed
      rw [hwas] at hu
      cases hu
  rcases hp.1 with hapart | hprompt
  · exact hs.pending.of_under?_eq hroot hunconfirmed fun k =>
      under?_remove_of_apart h fun hscope => (hapart hscope).append_right [k]
  · exact .of_none hroot hunconfirmed (under?_remove_of_place h hprompt (by decide))

theorem held_edits {agreed : Prop} {s s' : Snapshot} (hs : b.Held agreed s) (h : s.Edits Writable Removable s') :
    b.Held agreed s' := by
  induction h with
  | refl => exact hs
  | put _ hp hput ih => exact held_put ih hp hput
  | remove _ hp hremove ih => exact held_remove ih hp hremove

/-! ### Responses keep the agreement -/

/-- the paths at which a question is put -/
def AskedAt (p : ScopedPath) : Prop :=
  p = promptQuestion ∨ p = promptSlot ∨ p = promptBoolean ∨ p = promptIntent ∨ p = intentValidated

theorem apart_confirmed_of_askedAt {p : ScopedPath} (hp : AskedAt p) : p.place.Apart intentConfirmed.place := by
  rcases hp with rfl | rfl | rfl | rfl | rfl <;> decide

theorem apart_kept_of_askedAt {p : ScopedPath} (hp : AskedAt p) :
    p.place.Apart (.conversation, ["intent", "confirmed"]) := by
  rcases hp with rfl | rfl | rfl | rfl | rfl <;> decide

theorem held_of_asked {agreed : Prop} {s s' : Snapshot} (hs : b.Held agreed s) (h : s.Edits AskedAt (· = prompt) s')
    (hasked : ∀ v, s'.conversation.under? ["prompt", "slot"] = some v →
      (∃ p : ScopedPath, p.BelowObjects ∧ v = .str p.text) ∨
        (v = .str intentConfirmed.text ∧ s'.conversation.under? ["prompt", "boolean"] = some (.bool true) ∧
          ∃ g, b.HasGoal g ∧ g.confirmOnValid = true ∧
            s'.conversation.under? ["prompt", "intent"] = some (.str g.name))) : b.Held agreed s' := by
  have hconv : s.RootedAt .conversation := hs.pending.rooted
  refine ⟨h.rootedAt hs.rooted, fun hs' => ?_, ⟨h.rootedAt hconv, ?_, hasked⟩⟩
  · rw [h.under?_of_apart (fun p => apart_confirmed_of_askedAt) (by rintro p rfl; decide)] at hs'
    exact hs.confirmed hs'
  · exact (h.under?_of_apart (fun p => apart_kept_of_askedAt) (by rintro p rfl; decide)).trans hs.pending.unconfirmed

/-- the pending prompt is removed, and the parts of another one are put in its place -/
theorem edits_of_asking {cs : List Command} {s s' : Snapshot}
    (hcs : ∀ c ∈ cs, c = .remove prompt ∨ ∃ p v, AskedAt p ∧ c = .put p v) (h : s.update cs = .ok s') :
    s.Edits AskedAt (· = prompt) s' := by
  refine edits_update (fun c hc p hp => ?_) (fun c hc p hp => ?_) h
  · rcases hcs c hc with rfl | ⟨q, v, hq, rfl⟩
    · exact hp.elim
    · exact hp ▸ hq
  · rcases hcs c hc with rfl | ⟨q, v, -, rfl⟩
    · exact hp
    · exact hp.elim

theorem held_of_asks {agreed : Prop} {s s' : Snapshot} {g : Goal} {v : Violation} {score : Score} (hs : b.Held agreed s)
    (hv : v.slot.BelowObjects) (h : s.update (g.ask v s score).commands = .ok s') : b.Held agreed s' := by
  have hconv : s.RootedAt .conversation := hs.pending.rooted
  have hedits : s.Edits AskedAt (· = prompt) s' := by
    refine edits_of_asking (fun c hc => ?_) h
    simp only [Goal.ask, List.mem_cons, List.not_mem_nil, or_false] at hc
    rcases hc with rfl | rfl | rfl | rfl | rfl
    · exact .inl rfl
    all_goals exact .inr ⟨_, _, by simp [AskedAt], rfl⟩
  have hslot : s'.under? promptSlot.place = some (.str v.slot.text) :=
    under?_of_update_put [_, _] hconv (by decide) rfl rfl h
      ⟨Command.avoids_put (by decide), Command.avoids_put (by decide)⟩
  exact held_of_asked hs hedits fun w hw => .inl ⟨v.slot, hv, Option.some.inj (hw.symm.trans hslot)⟩

theorem held_of_asksToConfirm {agreed : Prop} {s s' : Snapshot} {g : Goal} {summary : String} (hs : b.Held agreed s)
    (hg : b.HasGoal g) (hconfirm : g.confirmOnValid = true)
    (h : s.update (g.askToConfirm summary s).commands = .ok s') : b.Held agreed s' := by
  have hconv : s.RootedAt .conversation := hs.pending.rooted
  have hedits : s.Edits AskedAt (· = prompt) s' := by
    refine edits_of_asking (fun c hc => ?_) h
    simp only [Goal.askToConfirm, List.mem_cons, List.not_mem_nil, or_false] at hc
    rcases hc with rfl | rfl | rfl | rfl | rfl | rfl
    · exact .inl rfl
    all_goals exact .inr ⟨_, _, by simp [AskedAt], rfl⟩
  have hslot : s'.under? promptSlot.place = some (.str intentConfirmed.text) :=
    under?_of_update_put [_, _] hconv (by decide) rfl rfl h
      ⟨Command.avoids_put (by decide), Command.avoids_put (by decide), Command.avoids_put (by decide)⟩
  have hboolean : s'.under? promptBoolean.place = some (.bool true) :=
    under?_of_update_put [_, _, _] hconv (by decide) rfl rfl h
      ⟨Command.avoids_put (by decide), Command.avoids_put (by decide)⟩
  have hintent : s'.under? promptIntent.place = some (.str g.name) :=
    under?_of_update_put [_, _, _, _] hconv (by decide) rfl rfl h (Command.avoids_put (by decide))
  exact held_of_asked hs hedits fun w hw =>
    .inr ⟨Option.some.inj (hw.symm.trans hslot), hboolean, g, hg, hconfirm, hintent⟩

theorem discreet_remove {p : ScopedPath} (hp : Removable p) : (Command.remove p).Discreet := by
  refine ⟨fun q hq => hq.elim, ?_⟩
  rintro q rfl
  exact hp

theorem discreet_put {p : ScopedPath} {v : Node} (hp : Writable p) : (Command.put p v).Discreet := by
  refine ⟨?_, fun q hq => hq.elim⟩
  rintro q rfl
  exact hp

theorem discreet_switchGoal (name : String) : (Command.switchGoal .utterance name).Discreet := by
  constructor
  · rintro q (rfl | rfl | rfl) <;> decide
  · rintro q rfl
    decide

theorem discreet_completeGoal : Command.completeGoal.Discreet := by
  constructor
  · rintro q (rfl | rfl) <;> decide
  · rintro q (rfl | ⟨n, rfl⟩)
    · decide
    · exact ⟨.inl (Place.apart_of_head_ne (by decide) _ _ _ _), .inl (Place.apart_of_head_ne (by decide) _ _ _ _)⟩

theorem held_of_resolution {agreed : Prop} {s s' : Snapshot} {g : Goal} {r : Response} (hb : b.Discreet)
    (hg : b.HasGoal g) (hs : b.Held agreed s) (hr : b.Resolution g s r) (h : s.update r.commands = .ok s') :
    b.Held agreed s' := by
  cases hr with
  | asks v score hv =>
    obtain ⟨c, hc, hslot⟩ := hv
    exact held_of_asks hs (hslot ▸ hb.constraints hg c hc) h
  | asksToConfirm summary hconfirm => exact held_of_asksToConfirm hs hg hconfirm h
  | succeeds summary actions _ _ =>
    refine held_edits hs (edits_of_discreet (fun c hc => ?_) h)
    simp only [List.mem_cons, List.not_mem_nil, or_false] at hc
    obtain rfl | rfl := hc
    · exact discreet_remove (by decide)
    · exact discreet_put (by decide)
  | denies next _ _ =>
    refine held_edits hs (edits_of_discreet (fun c hc => ?_) h)
    simp only [List.mem_cons, List.not_mem_nil, or_false] at hc
    obtain rfl | rfl := hc
    · exact discreet_switchGoal _
    · exact discreet_put (by decide)
  | completes actions _ _ _ =>
    refine held_edits hs (edits_of_discreet (fun c hc => ?_) h)
    simp only [List.mem_cons, List.not_mem_nil, or_false] at hc
    obtain rfl | rfl | rfl := hc
    · exact discreet_completeGoal
    · exact discreet_put (by decide)
    · exact discreet_remove (by decide)

theorem removable_of_objectAt {p : ScopedPath} {ks : List String} (hp : p.place = objectAt ks) : Removable p := by
  rw [Removable, hp]
  exact ⟨.inl (Place.apart_of_head_ne (by decide) _ _ _ _), .inl (Place.apart_of_head_ne (by decide) _ _ _ _)⟩

/-- **Each step of a turn's actions leaves the agreement as it was.** -/
theorem keeps_held (hb : b.Discreet) (agreed : Prop) : b.Keeps (b.Held agreed) where
  builtIn := hb.builtIn
  act ha hs h := by
    obtain ⟨s₁, runs, cs, hremove, hact, hupdate⟩ := Action.update_of_run h
    have h₁ := held_remove hs (by decide) hremove
    exact held_edits h₁ (edits_of_discreet (hb.actions ha hact) hupdate)
  resolve hg hs hr h := held_of_resolution hb hg hs hr h
  release hs h :=
    held_edits hs ((edits_releaseObjects h).mono (fun p hp => hp.elim) fun p ⟨ks, hp⟩ => removable_of_objectAt hp)
  speak hs h := held_put hs (by decide) h

/-! ### Taking the answer -/

/-- what a turn knows of the pending prompt of its conversation: all of it, unless it has been removed -/
def TakenUp (conv : Store) (s : Snapshot) : Prop :=
  s.under? answerSlot.place = none ∨
    (s.under? answerSlot.place = conv.under? ["prompt", "slot"] ∧
      s.under? answerBoolean.place = conv.under? ["prompt", "boolean"])

theorem takenUp_of_eq {conv : Store} {s s' : Snapshot} (h : TakenUp conv s)
    (hslot : s'.under? answerSlot.place = s.under? answerSlot.place)
    (hboolean : s'.under? answerBoolean.place = s.under? answerBoolean.place) : TakenUp conv s' := by
  unfold TakenUp
  rw [hslot, hboolean]
  exact h

theorem takenUp_edits {conv : Store} {s s' : Snapshot} (hs : TakenUp conv s) (h : s.Edits Writable Removable s') :
    TakenUp conv s' := by
  induction h with
  | refl => exact hs
  | put _ hp hput ih =>
    obtain ⟨-, -, -, hapart | hvalue⟩ := hp
    · exact takenUp_of_eq ih (under?_put_of_apart hput fun hscope => (hapart hscope).append_right ["slot"])
        (under?_put_of_apart hput fun hscope => (hapart hscope).append_right ["boolean"])
    · exact takenUp_of_eq ih (under?_put_of_apart hput (by rw [hvalue]; decide))
        (under?_put_of_apart hput (by rw [hvalue]; decide))
  | remove _ hp hremove ih =>
    obtain ⟨-, hapart | hprompt | hvalue⟩ := hp
    · exact takenUp_of_eq ih (under?_remove_of_apart hremove fun hscope => (hapart hscope).append_right ["slot"])
        (under?_remove_of_apart hremove fun hscope => (hapart hscope).append_right ["boolean"])
    · exact .inl (under?_remove_of_place hremove hprompt (by decide))
    · exact takenUp_of_eq ih (under?_remove_of_apart hremove (by rw [hvalue]; decide))
        (under?_remove_of_apart hremove (by rw [hvalue]; decide))

/-- the conversation asks the user to agree, and the answer is yes -/
def Agreed (conv : Store) (s : Snapshot) : Prop :=
  conv.under? ["prompt", "slot"] = some (.str intentConfirmed.text) ∧
    ∃ answer, s.textAt answerValue = .ok (some answer) ∧ yesOrNo? answer = some true

/-- an answer goes below the objects, or it is the user's agreement and answers the question for it -/
theorem target_of_takeAnswer {conv : Store} {s s' : Snapshot} (hconv : b.Pending conv) (hs : s.RootedAt .utterance)
    (htaken : TakenUp conv s) (h : s.takeAnswer = .ok s') :
    s' = s ∨ ∃ p value, s.put p (some value) = .ok s' ∧
      ((p.scope = .utterance ∧ ∃ ss, p.path.segments = ⟨.map, "objects"⟩ :: ss) ∨
        (p = intentConfirmed ∧ conv.under? ["prompt", "slot"] = some (.str intentConfirmed.text) ∧
          ∃ answer x, s.textAt answerValue = .ok (some answer) ∧ yesOrNo? answer = some x ∧ value = .bool x)) := by
  obtain rfl | ⟨answer, target, value, p, ⟨hanswer, htarget, hvalue, hp⟩, hput⟩ := steps_of_takeAnswer h
  · exact .inl rfl
  refine .inr ⟨p, value, hput, ?_⟩
  obtain ⟨v, hv, rfl⟩ := Option.map_eq_some_iff.1 (under?_of_textAt hs (by decide) htarget)
  obtain ⟨hslot, hboolean⟩ : conv.under? ["prompt", "slot"] = some v ∧
      s.under? answerBoolean.place = conv.under? ["prompt", "boolean"] := by
    rcases htaken with hnone | ⟨hslot, hboolean⟩
    · rw [hnone] at hv
      cases hv
    · exact ⟨hslot.symm.trans hv, hboolean⟩
  rcases hconv.asked v hslot with ⟨q, hq, rfl⟩ | ⟨rfl, htrue, -⟩
  · exact .inl (ScopedPath.keys_of_parse_text hq hp)
  · have hparse : ScopedPath.parse intentConfirmed.text = .ok intentConfirmed := by rfl
    rw [Node.text, hparse] at hp
    cases hp
    obtain ⟨x, hyes, rfl⟩ := yesOrNo?_of_answerNode? hs (hboolean.trans htrue) hvalue
    exact .inr ⟨rfl, hslot, answer, x, hanswer, hyes, rfl⟩

/-- the user's agreement comes from an answer to the pending question -/
theorem held_of_takeAnswer {conv : Store} {s s' : Snapshot} (hconv : b.Pending conv) (hs : b.Held False s)
    (htaken : TakenUp conv s) (h : s.takeAnswer = .ok s') : b.Held (Agreed conv s) s' := by
  obtain rfl | ⟨p, value, hput, hgoes⟩ := target_of_takeAnswer hconv hs.rooted htaken h
  · exact hs.mono False.elim
  rcases hgoes with ⟨hscope, ss, hsegments⟩ | ⟨rfl, hslot, answer, x, hanswer, hyes, rfl⟩
  · -- the answer is for an object
    have hplace : p.place = (.utterance, "objects" :: ss.map Segment.key) := by
      rw [ScopedPath.place, Path.keys, hscope, hsegments]
      rfl
    have hwritable : Writable p := by
      rw [Writable, hplace]
      exact ⟨Place.apart_of_head_ne (by decide) _ _ _ _, Place.apart_of_head_ne (by decide) _ _ _ _,
        Place.apart_of_head_ne (by decide) _ _ _ _, .inl (Place.apart_of_head_ne (by decide) _ _ _ _)⟩
    exact (held_put hs hwritable hput).mono False.elim
  · -- the answer is the user's agreement
    have hnow := under?_put_scalar hs.rooted (by decide) rfl rfl hput
    have hsame : s'.conversation = s.conversation := store_of_put (show Scope.conversation ≠ _ by decide) hput
    refine ⟨rootedAt_put hput hs.rooted, fun hs' => ?_, hsame ▸ hs.pending⟩
    rw [hnow] at hs'
    cases hs'
    exact ⟨hslot, answer, hanswer, hyes⟩

/-! ### Whole turns -/

theorem held_of_seeded {conv : Store} {s : Snapshot} (hconv : b.Pending conv) (hs : s.Seeded conv) :
    b.Held False s := by
  refine ⟨hs.rooted, fun hconfirmed => ?_, hs.conversation ▸ hconv⟩
  have hnone := (hs.intent "confirmed" []).trans hconv.unconfirmed
  rw [show s.under? intentConfirmed.place = none from hnone] at hconfirmed
  cases hconfirmed

theorem takenUp_of_seeded {conv : Store} {s : Snapshot} (hs : s.Seeded conv) : TakenUp conv s :=
  .inr ⟨hs.prompt "slot" [], hs.prompt "boolean" []⟩

/-- a goal is resolved with the user's agreement only if the conversation asked for it -/
theorem held_of_responds {conv : Store} {s₀ s₁ s₂ : Snapshot} {w : Workflow} {input : String} {u : Utterance} {g : Goal}
    {r : Response} (hb : b.Discreet) (hconv : b.Pending conv) (hs₀ : s₀.Seeded conv) (hw : b.workflow = .ok w)
    (hu : w.Reads (.parse input) u) (h : b.Responds s₀ u s₁ g s₂ r) : b.Held (Agreed conv s₁) s₂ := by
  obtain ⟨payload, cs, hlookup, hparse, hupdate⟩ := h.payload
  have hedits := edits_of_discreet (hb.payloads hw hu hlookup hparse) hupdate
  exact held_of_takeAnswer hconv (held_edits (held_of_seeded hconv hs₀) hedits)
    (takenUp_edits (takenUp_of_seeded hs₀) hedits) h.answered

/-- the stores between turns, from an empty conversation on; the user is any user at each turn -/
inductive Conversation (b : Bot) : Store → Prop
  | start : Conversation b .empty
  | turn {conv user : Store} {input : String} {t t' : Tally} {turn : Turn} (h : Conversation b conv)
      (hturn : Yields (b.answer input user conv) t turn t') : Conversation b turn.conversation

theorem pending_of_carrying {s s' : Snapshot} {goal : Option Node} (hs : b.Held True s)
    (h : s.update (carrying goal) = .ok s') : b.Pending s'.conversation := by
  have hedits := edits_carrying h
  have hconv : s.RootedAt .conversation := hs.pending.rooted
  refine hs.pending.of_under?_eq (hedits.rootedAt hconv) ?_ fun k => ?_
  · refine (hedits.under?_of_apart ?_ fun p hp => hp.elim).trans hs.pending.unconfirmed
    rintro p (rfl | rfl) <;> decide
  · refine hedits.under?_of_apart ?_ fun p hp => hp.elim
    rintro p (rfl | rfl)
    · exact Place.apart_of_head_ne (by decide) _ _ _ _
    · exact Place.apart_of_head_ne (by decide) _ _ _ _

/-- a turn leaves a conversation as it should be between turns -/
theorem pending_of_answerWithin {n : Nat} {input : String} {user conv : Store} {t t' : Tally} {turn : Turn}
    (hb : b.Discreet) (hconv : b.Pending conv) (h : Yields (b.answerWithin n input user conv) t turn t') :
    b.Pending turn.conversation := by
  obtain ⟨s₀, w, r, s₁, s₂, goal, s₃, hs₀, hw, hr, hs₁, hran, -, hs₃, -, hturn⟩ := steps_of_answerWithin h
  have hseeded := seeded_of_update hconv.rooted hs₀
  have hkeeps := keeps_held hb True
  have held₁ : b.Held True s₁ ∧ ∀ a ∈ r.actions, b.HasAction a := by
    rcases responds_of_respond (hb.builtIn w hw) hr with rfl | ⟨u, hu, s₁', g, s₂', hresponds⟩
    · cases hs₁
      exact ⟨(held_of_seeded hconv hseeded).mono False.elim, fun a ha => by cases ha⟩
    · obtain ⟨name, -, hg⟩ := hresponds.active
      have held := (held_of_responds hb hconv hseeded hw hu hresponds).mono fun _ => trivial
      have hres := resolution_of_resolve hresponds.resolved
      exact ⟨hkeeps.of_resolution ⟨name, hg⟩ held hres hs₁, fun a ha => hres.hasAction ha⟩
  have held₂ : b.Held True s₂ := Keeps.of_ran (hkeeps.of_process · · ·) held₁.2 held₁.1 hran
  rw [hturn]
  exact pending_of_carrying held₂ hs₃

/-- **Every conversation is as it should be between turns**: by induction on the turns. -/
theorem pending_of_conversation {conv : Store} (hb : b.Discreet) (h : b.Conversation conv) : b.Pending conv := by
  induction h with
  | start => exact ⟨rfl, rfl, fun v hv => by cases hv⟩
  | turn _ hturn ih => exact pending_of_answerWithin hb ih hturn

/-! ### Whose question it was -/

/-- in a turn whose payload leads to the snapshot `s₁`, the actions of a goal run, be it the goal that the utterance
is about or one that an action makes active -/
inductive Pursues (b : Bot) (n : Nat) (input : String) (user conv : Store) (t : Tally) (s₁ : Snapshot) : Goal → Prop
  | answered {s₀ s₂ s₃ : Snapshot} {u : Utterance} {g : Goal} {r : Response}
      (h : b.Opens input user conv s₀ u s₁ g s₂ r s₃) (hr : r.actions ≠ []) : Pursues b n input user conv t s₁ g
  | reopened {s₀ s₂ s₃ v v' v'' : Snapshot} {u : Utterance} {g g' : Goal} {r r' : Response} {m : Nat} {a : Action}
      {w w' : Tally} (h : b.Opens input user conv s₀ u s₁ g s₂ r s₃) (hstarts : b.Starts n r.actions s₃ t m a v w)
      (hreopens : b.Reopens a v w g' v' w' r') (hcarried : v'.update r'.commands = .ok v'') (hr : r'.actions ≠ []) :
    Pursues b n input user conv t s₁ g'

/-- a turn began with a pending question of a goal, whether the user agrees, and the answer is yes -/
structure AskedAndAgreed (conv : Store) (s₁ : Snapshot) (g : Goal) : Prop where
  slot : conv.read promptSlot.path = .ok (some (.str intentConfirmed.text))
  intent : conv.read promptIntent.path = .ok (some (.str g.name))
  yes : ∃ answer, s₁.textAt answerValue = .ok (some answer) ∧ yesOrNo? answer = some true

variable {n : Nat} {input : String} {user conv : Store} {t : Tally} {s₁ : Snapshot} {g : Goal}

theorem agreed_of_pursues (hb : b.Discreet) (hconv : b.Pending conv) (h : b.Pursues n input user conv t s₁ g)
    (hg : g.confirmOnValid = true) : Agreed conv s₁ := by
  have opened {s₀ s₂ s₃ : Snapshot} {u : Utterance} {g : Goal} {r : Response}
      (h : b.Opens input user conv s₀ u s₁ g s₂ r s₃) : b.Held (Agreed conv s₁) s₂ := by
    obtain ⟨w, hw, -, hu, -⟩ := h.best
    exact held_of_responds hb hconv (seeded_of_update hconv.rooted h.seeded) hw hu h.responds
  have confirmed {s : Snapshot} {r : Response} (hs : b.Held (Agreed conv s₁) s) (hres : b.Resolution g s r)
      (hr : r.actions ≠ []) : Agreed conv s₁ :=
    hs.confirmed (under?_get hs.rooted (by decide) (hres.agreed hg hr).1)
  cases h with
  | answered h hr => exact confirmed (opened h) (resolution_of_resolve h.responds.resolved) hr
  | reopened h hstarts hreopens _ hr =>
    have hkeeps := keeps_held hb (Agreed conv s₁)
    have hres := resolution_of_resolve h.responds.resolved
    obtain ⟨name, -, hname⟩ := h.responds.active
    have held := hkeeps.resolve ⟨name, hname⟩ (opened h) hres h.carried
    obtain ⟨ha, hv⟩ := hkeeps.of_starts (fun a ha => hres.hasAction ha) held hstarts
    exact confirmed (hkeeps.act ha hv hreopens.ran) (resolution_of_resolveAnew hb.builtIn hreopens.resolved) hr

/-- the actions of a goal that asks the user to agree run only if some such goal asked and the user agreed -/
theorem exists_askedAndAgreed (hb : b.Discreet) (hconv : b.Conversation conv)
    (h : b.Pursues n input user conv t s₁ g) (hg : g.confirmOnValid = true) :
    ∃ asker, b.HasGoal asker ∧ asker.confirmOnValid = true ∧ AskedAndAgreed conv s₁ asker := by
  have hpending := pending_of_conversation hb hconv
  obtain ⟨hslot, hyes⟩ := agreed_of_pursues hb hpending h hg
  rcases hpending.asked _ hslot with ⟨p, hp, htext⟩ | ⟨-, -, asker, hasker, hconfirm, hintent⟩
  · -- no object has the path of the agreement
    injection htext with htext
    exact absurd htext.symm (ScopedPath.text_ne_intentConfirmed hp)
  · exact ⟨asker, hasker, hconfirm, Store.read_of_under? (by decide) hslot rfl,
      Store.read_of_under? (by decide) hintent rfl, hyes⟩

/-- a goal that asks the user to agree, and gives way to `relaySecond` otherwise -/
def relayFirst : Goal where
  name := "first"
  successActions := ["act"]
  confirmOnValid := true
  denyGoal := some "second"

def relaySecond : Goal where
  name := "second"
  successActions := ["act"]
  confirmOnValid := true

def relay : Bot where
  name := "relay"
  dictionary := ((Dictionary.empty.insert ["start"] "utt:/intent.name -> first").insert ["yes"]
    "utt:/prompt.value -> yes").insert ["no"] "utt:/prompt.value -> no"
  workflows := [.basic "default"]
  processors := []
  actions := [("act", .script "act" "utt:/action.spoken -> done")]
  goals := [("first", relayFirst), ("second", relaySecond)]

def relayQuestion : List (String × Node) :=
  [("boolean", .bool true), ("intent", .str "first"), ("question", .str "Is that okay?"),
    ("slot", .str "utt:/intent?confirmed")]

def relayAsked : Store :=
  ⟨.map [("intent", .map [("name", .str "first")]), ("partials", .map []), ("prompt", .map relayQuestion)]⟩

def relayDenied : Store :=
  ⟨.map [("intent", .map [("name", .str "second")]), ("partials", .map []),
    ("previousIntents", .list [.str "first"]), ("prompt", .map relayQuestion)]⟩

def relayTurn (intent prompt : List (String × Node)) : Snapshot :=
  ⟨.empty, relayDenied, ⟨.map [("intent", .map intent), ("objects", .map []), ("prompt", .map prompt)]⟩⟩

/-- what is said to the bot makes the first goal active, or answers yes or no -/
theorem cases_of_relay_payload {u : Utterance} {payload : String} {cs : List Command}
    (hlookup : relay.dictionary.lookup u = .ok (some payload)) (hparse : Command.parseAll payload = .ok cs) :
    ∀ k ∈ cs, k = .switchGoal .utterance "first" ∨ k = .put answerValue (.str "yes") ∨
      k = .put answerValue (.str "no") := by
  obtain ⟨m, -, hfill⟩ := Dictionary.fill_of_lookup hlookup
  -- no template has a marker, so that what matches is not used
  have of_template {template : String} {k : Command} (hfill' : m.captures.fill template = .ok template)
      (hparse' : Command.parseAll template = .ok [k]) (h : relay.dictionary.payload? m.pattern = some template) :
      cs = [k] := by
    rw [h, Option.getD_some, hfill'] at hfill
    cases hfill
    rw [hparse'] at hparse
    cases hparse
    rfl
  cases h : relay.dictionary.payload? m.pattern with
  | none =>
    rw [h, Option.getD_none] at hfill
    have hempty : m.captures.fill "" = .ok "" := by rfl
    rw [hempty] at hfill
    cases hfill
    have hnothing : Command.parseAll "" = .ok [] := by rfl
    rw [hnothing] at hparse
    cases hparse
    exact nofun
  | some template =>
    rcases Dictionary.payload?_insert_cases h with rfl | h'
    · rw [of_template (k := .put answerValue (.str "no")) (by rfl) (by rfl) h]
      simp
    · rcases Dictionary.payload?_insert_cases h' with rfl | h'
      · rw [of_template (k := .put answerValue (.str "yes")) (by rfl) (by rfl) h]
        simp
      · rcases Dictionary.payload?_insert_cases h' with rfl | h'
        · rw [of_template (k := .switchGoal .utterance "first") (by rfl) (by rfl) h]
          simp
        · rw [Dictionary.payload?_empty] at h'
          cases h'

theorem eq_of_relay_action {a : Action} (ha : relay.HasAction a) {runs : Nat} {s : Snapshot} {cs : List Command}
    (hact : a.act runs relay.goals s = .ok cs) : cs = [.put actionSpoken (.str "done")] := by
  obtain ⟨name, hname⟩ := ha
  have hmem := mem_of_action hname
  rw [show relay.actions = [("act", .script "act" "utt:/action.spoken -> done")] from rfl, List.mem_singleton] at hmem
  cases hmem
  cases hact
  rfl

theorem constraints_of_relay {g : Goal} (hg : relay.HasGoal g) : g.constraints = [] := by
  obtain ⟨name, hname⟩ := hg
  have hmem := mem_of_goal hname
  simp only [relay, List.mem_cons, Prod.mk.injEq, List.not_mem_nil, or_false] at hmem
  rcases hmem with ⟨-, rfl⟩ | ⟨-, rfl⟩ <;> rfl

theorem discreet_relay : relay.Discreet where
  builtIn := builtIn_of_basic rfl
  payloads _ _ _ _ _ _ hlookup hparse k hk := by
    obtain rfl | rfl | rfl := cases_of_relay_payload hlookup hparse k hk
    · exact discreet_switchGoal "first"
    · exact discreet_put (by decide)
    · exact discreet_put (by decide)
  actions ha _ _ _ hact k hk := by
    rw [eq_of_relay_action ha hact, List.mem_singleton] at hk
    rw [hk]
    exact discreet_put (by decide)
  constraints hg c hc := by
    rw [constraints_of_relay hg] at hc
    cases hc

/-- the question of the first goal stays when the second one takes over -/
theorem conversation_relayDenied : relay.Conversation relayDenied := by
  have hasked : Yields (relay.answer "start" .empty .empty) [] ⟨"\nIs that okay?", .empty, relayAsked⟩ [] := by rfl
  have hdenied : Yields (relay.answer "no" .empty relayAsked) [] ⟨"", .empty, relayDenied⟩ [] := by rfl
  exact .turn (.turn .start hasked) hdenied

def relayAgreed : Response where
  spoken := ""
  snapshot := relayTurn [("confirmed", .bool true), ("name", .str "second")] (relayQuestion ++ [("value", .str "yes")])
  score := .one
  commands := [.completeGoal, .put intentValidated (.bool true), .remove prompt]
  actions := [.script "act" "utt:/action.spoken -> done"]

theorem opens_relayAgreed : ∃ s₃, relay.Opens "yes" .empty relayDenied
    (relayTurn [("name", .str "second")] relayQuestion) (.parse "yes")
    (relayTurn [("name", .str "second")] (relayQuestion ++ [("value", .str "yes")])) relaySecond relayAgreed.snapshot
    relayAgreed s₃ :=
  ⟨_, by rfl, ⟨_, by rfl, Workflow.builtIn_basic _ _, ⟨_, by rfl, List.mem_singleton_self _⟩, by rfl⟩,
    ⟨⟨"utt:/prompt.value -> yes", _, by rfl, by rfl, by rfl⟩, ⟨"second", by rfl, by rfl⟩, by rfl, by rfl⟩, by rfl⟩

/-- the next yes runs the second goal, which has not asked -/
theorem pursues_relaySecond : relay.Pursues nestingLimit "yes" .empty relayDenied []
    (relayTurn [("name", .str "second")] (relayQuestion ++ [("value", .str "yes")])) relaySecond := by
  obtain ⟨s₃, hopens⟩ := opens_relayAgreed
  exact .answered hopens (List.cons_ne_nil _ _)

/-- **What runs is what the user has agreed to exactly if it is what asked.**  In each turn of a conversation, a goal
whose actions need the user's agreement runs them only if some such goal had asked for it and the answer is yes; it is
the goal that runs that had asked exactly if the prompt names it. -/
theorem askedAndAgreed_iff (hb : b.Discreet) (hconv : b.Conversation conv) :
    (∀ s₁ g, b.Pursues n input user conv t s₁ g → g.confirmOnValid = true →
      ∃ asker, b.HasGoal asker ∧ asker.confirmOnValid = true ∧ AskedAndAgreed conv s₁ asker) ∧
    ((∀ s₁ g, b.Pursues n input user conv t s₁ g → g.confirmOnValid = true → AskedAndAgreed conv s₁ g) ↔
      ∀ s₁ g, b.Pursues n input user conv t s₁ g → g.confirmOnValid = true →
        conv.read promptIntent.path = .ok (some (.str g.name))) := by
  refine ⟨fun s₁ g h hg => exists_askedAndAgreed hb hconv h hg, fun hall s₁ g h hg => (hall s₁ g h hg).intent,
    fun hall s₁ g h hg => ?_⟩
  obtain ⟨asker, -, -, hasked⟩ := exists_askedAndAgreed hb hconv h hg
  exact ⟨hasked.slot, hall s₁ g h hg, hasked.yes⟩

/-- the second goal of `relay` runs, and the first one had asked -/
theorem exists_asker_of_relaySecond :
    relay.Discreet ∧ relay.Conversation relayDenied ∧ ∃ s₁, relay.Pursues nestingLimit "yes" .empty relayDenied [] s₁
      relaySecond ∧ ∃ asker, relay.HasGoal asker ∧ asker.confirmOnValid = true ∧ AskedAndAgreed relayDenied s₁ asker :=
  ⟨discreet_relay, conversation_relayDenied, _, pursues_relaySecond,
    (askedAndAgreed_iff discreet_relay conversation_relayDenied).1 _ _ pursues_relaySecond rfl⟩

/-- not every goal that runs had asked -/
theorem not_askedAndAgreed_relaySecond :
    ¬ ∀ (b : Bot) (n : Nat) (input : String) (user conv : Store) (t : Tally) (s₁ : Snapshot) (g : Goal), b.Discreet →
      b.Conversation conv → b.Pursues n input user conv t s₁ g → g.confirmOnValid = true →
        AskedAndAgreed conv s₁ g := by
  intro h
  have hasked := (h relay nestingLimit "yes" .empty relayDenied [] _ relaySecond discreet_relay
    conversation_relayDenied pursues_relaySecond rfl).intent
  have hread : relayDenied.read promptIntent.path = .ok (some (.str "first")) := by rfl
  rw [hread] at hasked
  injection hasked with hasked
  injection hasked with hasked
  injection hasked with hasked
  exact absurd hasked (by decide)

end Bot

end Dialogue
