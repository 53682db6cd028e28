import Mathlib.Logic.Equiv.Basic
import Dialogue.Proofs.Bot.Handover
import Dialogue.Proofs.Bot.Steady
import Dialogue.Proofs.Server.Calls

/-!
# Users apart

The calls that are about the conversations of one user get what they would get if there were no others.  A run of a
server is compared with the shorter run of these calls: the two servers match at every moment (`Server.Matches`).  The
source of ids need not give the same ids in the shorter run; so its ids are renamed, in any way that keeps them apart.

* `Matches.step` — a call that remains gives the same in both runs, and one that is left out does no harm;
* `Server.users_apart` — the same for all calls, and what each turn that went well was the answer to.
-/

namespace Dialogue

/-- a call with other ids of conversations -/
def Call.renamed (σ : String → String) : Call → Call
  | .start user bot new => .start user bot (σ new)
  | .speak input user id bot new => .speak input user (id.map σ) bot (σ new)

/-- what a call gives in two runs: the same, but for the ids of conversations -/
inductive Given.Alike (σ : String → String) : Given → Given → Prop
  | answered (said : Option String) (id : String) : Given.Alike σ (.ok (said, id)) (.ok (said, σ id))
  | failed (h : Halt) : Given.Alike σ (.error h) (.error h)
  | lost (id : String) : Given.Alike σ (.error (.failed (.unknownConversation id)))
      (.error (.failed (.unknownConversation (σ id))))

/-- whose conversation a call is about: the one that it begins, or the one that it names, if there is such a one -/
def Call.owner? (s : Server) : Call → Option String
  | .start user _ _ => some user
  | .speak _ user none _ _ => some user
  | .speak _ _ (some id) _ _ => (Entries.get? id s.conversations).map Conversation.user

/-- a call that is not about the conversation of another user -/
def Call.Remains (c : Call) (u : String) (s : Server) : Prop :=
  ∀ o ∈ c.owner? s, o = u

instance (c : Call) (u : String) (s : Server) : Decidable (c.Remains u s) := by
  unfold Call.Remains
  infer_instance

namespace Server

/-- the calls that are not about conversations of users other than `u`, each with what it gives -/
def remaining (s : Server) (u : String) : List Call → List (Call × Given)
  | [] => []
  | c :: cs =>
    if c.Remains u s then (c, (s.call c).1) :: (s.call c).2.remaining u cs else (s.call c).2.remaining u cs

/-- a server in the whole run and one in the shorter run: they have the same bots, the same store of `u` and the same
conversations of `u`, by their ids; the second one has no others than the first one -/
structure Matches (u : String) (σ : String → String) (s s' : Server) : Prop where
  bots : s'.bots = s.bots
  user : s'.userStore u = s.userStore u
  own : ∀ id c, Entries.get? id s.conversations = some c → c.user = u →
    Entries.get? (σ id) s'.conversations = some c
  back : ∀ id c', Entries.get? id s'.conversations = some c' →
    ∃ i c, σ i = id ∧ Entries.get? i s.conversations = some c ∧ c.user = c'.user ∧ (c.user = u → c = c')

variable {u : String} {σ : String → String} {s s' : Server} {id i name bot input user new : String}
  {c : Conversation} {b : Bot} {turn : Turn}

theorem bot_eq (h : Matches u σ s s') (name : String) : s'.bot name = s.bot name := by
  rw [bot, bot, h.bots]

namespace Matches

/-- an id that no conversation has in the whole run is that of no conversation in the shorter run either -/
theorem notFound (h : Matches u σ s s') (hσ : Function.Injective σ) (hc : Entries.get? id s.conversations = none) :
    Entries.get? (σ id) s'.conversations = none := by
  by_contra hfound
  obtain ⟨c', hc'⟩ := Option.ne_none_iff_exists'.1 hfound
  obtain ⟨i, c, hi, hget, -⟩ := h.back _ c' hc'
  rw [hσ hi, hc] at hget
  cases hget

/-! ### Tallies, turns and new conversations -/

theorem counted (h : Matches u σ s s') (name name' : String) (t t' : Tally) :
    Matches u σ (s.counted name t) (s'.counted name' t') :=
  { h with }

theorem counted_left (h : Matches u σ s s') (name : String) (t : Tally) : Matches u σ (s.counted name t) s' :=
  { h with }

/-- a turn in the same conversation of the user in both runs -/
theorem settled_own (h : Matches u σ s s') (hσ : Function.Injective σ) (hu : c.user = u) (id : String) (turn : Turn) :
    Matches u σ (s.settled id c turn) (s'.settled (σ id) c turn) := by
  refine ⟨h.bots, ?_, ?_, ?_⟩
  · rw [userStore_settled, userStore_settled, if_pos hu, if_pos hu]
  · intro i d hd hdu
    by_cases hid : i = id
    · subst hid
      rw [conversation_settled] at hd ⊢
      exact hd
    · rw [conversation_settled_of_ne hid] at hd
      rw [conversation_settled_of_ne (hσ.ne hid)]
      exact h.own i d hd hdu
  · intro i d' hd'
    by_cases hid : i = σ id
    · subst hid
      rw [conversation_settled] at hd'
      cases hd'
      exact ⟨id, _, rfl, conversation_settled s id c turn, rfl, fun _ => rfl⟩
    · rw [conversation_settled_of_ne hid] at hd'
      obtain ⟨j, d, rfl, hd, hrest⟩ := h.back i d' hd'
      refine ⟨j, d, rfl, ?_, hrest⟩
      rw [conversation_settled_of_ne fun he => hid (congrArg σ he), hd]

/-- a turn in the conversation of another user -/
theorem settled_other (h : Matches u σ s s') (hc : Entries.get? id s.conversations = some c) (hu : c.user ≠ u)
    (turn : Turn) : Matches u σ (s.settled id c turn) s' := by
  refine ⟨h.bots, ?_, ?_, ?_⟩
  · rw [userStore_settled, if_neg hu, h.user]
  · intro i d hd hdu
    by_cases hid : i = id
    · subst hid
      rw [conversation_settled] at hd
      cases hd
      exact absurd hdu hu
    · rw [conversation_settled_of_ne hid] at hd
      exact h.own i d hd hdu
  · intro i d' hd'
    obtain ⟨j, d, hj, hd, huser, hsame⟩ := h.back i d' hd'
    by_cases hid : j = id
    · subst hid
      rw [hc] at hd
      cases hd
      exact ⟨j, _, hj, conversation_settled s j c turn, huser, fun he => absurd he hu⟩
    · exact ⟨j, d, hj, (conversation_settled_of_ne hid s c turn).trans hd, huser, hsame⟩

theorem begun_own (h : Matches u σ s s') (hσ : Function.Injective σ) (bot new : String) :
    Matches u σ (s.begun u bot new) (s'.begun u bot (σ new)) := by
  refine ⟨h.bots, ?_, ?_, ?_⟩
  · rw [userStore_begun, userStore_begun, h.user]
  · intro i d hd hdu
    by_cases hid : i = new
    · subst hid
      rw [conversation_begun] at hd ⊢
      exact hd
    · rw [conversation_begun_of_ne hid] at hd
      rw [conversation_begun_of_ne (hσ.ne hid)]
      exact h.own i d hd hdu
  · intro i d' hd'
    by_cases hid : i = σ new
    · subst hid
      rw [conversation_begun] at hd'
      cases hd'
      exact ⟨new, _, rfl, conversation_begun s u bot new, rfl, fun _ => rfl⟩
    · rw [conversation_begun_of_ne hid] at hd'
      obtain ⟨j, d, rfl, hd, hrest⟩ := h.back i d' hd'
      refine ⟨j, d, rfl, ?_, hrest⟩
      rw [conversation_begun_of_ne fun he => hid (congrArg σ he), hd]

/-- a conversation of another user begins; its id is new, so it takes the place of no other -/
theorem begun_other (h : Matches u σ s s') (hnew : s.Fresh new) (huser : user ≠ u) (bot : String) :
    Matches u σ (s.begun user bot new) s' := by
  have hne {i : String} {d : Conversation} (hd : Entries.get? i s.conversations = some d) : i ≠ new := by
    rintro rfl
    rw [hnew] at hd
    cases hd
  refine ⟨h.bots, ?_, ?_, ?_⟩
  · rw [userStore_begun, h.user]
  · intro i d hd hdu
    by_cases hid : i = new
    · rw [hid, conversation_begun] at hd
      cases hd
      exact absurd hdu huser
    · rw [conversation_begun_of_ne hid] at hd
      exact h.own i d hd hdu
  · intro i d' hd'
    obtain ⟨j, d, hj, hd, hrest⟩ := h.back i d' hd'
    exact ⟨j, d, hj, (conversation_begun_of_ne (hne hd) s user bot).trans hd, hrest⟩

/-! ### Answers -/

/-- an answer in a conversation of the user is the same in both runs, because no action counts its runs -/
theorem answerIn_own (h : Matches u σ s s') (hσ : Function.Injective σ) (hu : c.user = u) (hb : b.Steady)
    (id name input : String) :
    (s'.answerIn (σ id) c name b input).1 =
        (s.answerIn id c name b input).1.map (fun r => ⟨r.text, σ r.conversation⟩) ∧
      Matches u σ (s.answerIn id c name b input).2 (s'.answerIn (σ id) c name b input).2 := by
  have hresult : ((b.answer input (s.userStore c.user) c.store).run.run (s.tally name)).1 =
      ((b.answer input (s'.userStore c.user) c.store).run.run (s'.tally name)).1 := by
    rw [hu, h.user]
    exact hb.answer input (s.userStore u) c.store _ _
  rcases answerIn_cases s id c name b input with ⟨e, t, he, heq⟩ | ⟨turn, t, hturn, heq⟩
  · rcases answerIn_cases s' (σ id) c name b input with ⟨e', t', he', heq'⟩ | ⟨turn', t', hturn', -⟩
    · rw [he, he'] at hresult
      cases hresult
      rw [heq, heq']
      exact ⟨rfl, h.counted name name t t'⟩
    · rw [he, hturn'] at hresult
      cases hresult
  · rcases answerIn_cases s' (σ id) c name b input with ⟨e', t', he', -⟩ | ⟨turn', t', hturn', heq'⟩
    · rw [hturn, he'] at hresult
      cases hresult
    · rw [hturn, hturn'] at hresult
      cases hresult
      rw [heq, heq']
      exact ⟨rfl, (h.counted name name t t').settled_own hσ hu id turn⟩

theorem answerIn_other (h : Matches u σ s s') (hc : Entries.get? id s.conversations = some c) (hu : c.user ≠ u)
    (name : String) (b : Bot) (input : String) : Matches u σ (s.answerIn id c name b input).2 s' := by
  rcases answerIn_cases s id c name b input with ⟨e, t, -, heq⟩ | ⟨turn, t, -, heq⟩
  · rw [heq]
    exact h.counted_left name t
  · rw [heq]
    exact (h.counted_left name t).settled_other hc hu turn

/-! ### Calls -/

theorem call_speak (s : Server) (input user : String) (id? : Option String) (bot new : String) :
    s.call (.speak input user id? bot new) =
      ((s.speak input user id? bot new).1.map fun r => (some r.text, r.conversation),
        (s.speak input user id? bot new).2) :=
  rfl

theorem alike_map (g : Except Halt Reply) :
    Given.Alike σ (g.map fun r => (some r.text, r.conversation))
      ((g.map fun r => Reply.mk r.text (σ r.conversation)).map fun r => (some r.text, r.conversation)) := by
  cases g with
  | error h => exact .failed h
  | ok r => exact .answered (some r.text) r.conversation

/-! One lemma for each way to call; `step` has them together. -/

theorem step_start (h : Matches u σ s s') (hσ : Function.Injective σ) (bot new : String) :
    Given.Alike σ (s.call (.start u bot new)).1 (s'.call (.start u bot (σ new))).1 ∧
      Matches u σ (s.call (.start u bot new)).2 (s'.call (.start u bot (σ new))).2 := by
  rw [call, call]
  cases hbot : s.bot bot with
  | error e =>
    rw [start_error hbot, start_error ((bot_eq h bot).trans hbot)]
    exact ⟨.failed _, h⟩
  | ok b =>
    rw [start_eq hbot, start_eq ((bot_eq h bot).trans hbot)]
    exact ⟨.answered none new, h.begun_own hσ bot new⟩

/-- the first words of the user begin a conversation, unless the bot is unknown -/
theorem step_new (h : Matches u σ s s') (hσ : Function.Injective σ)
    (hb : ∀ name b, s.bot name = .ok b → b.Steady) (input bot new : String) :
    Given.Alike σ (s.call (.speak input u none bot new)).1 (s'.call (.speak input u none bot (σ new))).1 ∧
      Matches u σ (s.call (.speak input u none bot new)).2 (s'.call (.speak input u none bot (σ new))).2 := by
  rw [call_speak, call_speak]
  cases hbot : s.bot bot with
  | error e =>
    rw [speak_new_unknown hbot, speak_new_unknown ((bot_eq h bot).trans hbot)]
    exact ⟨.failed _, h⟩
  | ok b =>
    have hanswer := (h.begun_own hσ bot new).answerIn_own (c := ⟨bot, u, .empty⟩) hσ rfl (hb bot b hbot) new bot input
    rw [speak_new hbot, speak_new ((bot_eq h bot).trans hbot), hanswer.1]
    exact ⟨alike_map _, hanswer.2⟩

/-- what is said in a conversation of the user, or in none that there is -/
theorem step_old (h : Matches u σ s s') (hσ : Function.Injective σ)
    (hb : ∀ name b, s.bot name = .ok b → b.Steady)
    (hu : ∀ c, Entries.get? id s.conversations = some c → c.user = u) (input user bot new : String) :
    Given.Alike σ (s.call (.speak input user (some id) bot new)).1
        (s'.call (.speak input user (some (σ id)) bot (σ new))).1 ∧
      Matches u σ (s.call (.speak input user (some id) bot new)).2
        (s'.call (.speak input user (some (σ id)) bot (σ new))).2 := by
  rw [call_speak, call_speak]
  cases hc : Entries.get? id s.conversations with
  | none =>
    rw [speak_lost hc, speak_lost (h.notFound hσ hc)]
    exact ⟨.lost id, h⟩
  | some c =>
    have hc' := h.own id c hc (hu c hc)
    cases hbot : s.bot bot with
    | error e =>
      rw [speak_old_unknown hc hbot, speak_old_unknown hc' ((bot_eq h bot).trans hbot)]
      exact ⟨.failed _, h⟩
    | ok b =>
      have hanswer := h.answerIn_own hσ (hu c hc) (hb bot b hbot) id bot input
      rw [speak_old hc hbot, speak_old hc' ((bot_eq h bot).trans hbot), hanswer.1]
      exact ⟨alike_map _, hanswer.2⟩

/-- a call that remains gives the same in both runs -/
theorem step (h : Matches u σ s s') (hσ : Function.Injective σ) (hb : ∀ name b, s.bot name = .ok b → b.Steady)
    {c : Call} (hc : c.Remains u s) :
    Given.Alike σ (s.call c).1 (s'.call (c.renamed σ)).1 ∧ Matches u σ (s.call c).2 (s'.call (c.renamed σ)).2 := by
  cases c with
  | start user bot new =>
    obtain rfl : user = u := hc user rfl
    exact h.step_start hσ bot new
  | speak input user id? bot new =>
    cases id? with
    | none =>
      obtain rfl : user = u := hc user rfl
      exact h.step_new hσ hb input bot new
    | some id => exact h.step_old hσ hb (fun c hid => hc c.user (by simp [Call.owner?, hid])) input user bot new

/-- a call that is left out does no harm -/
theorem skip (h : Matches u σ s s') {c : Call} (hnew : ∀ id ∈ c.drawn?, s.Fresh id) (hc : ¬ c.Remains u s) :
    Matches u σ (s.call c).2 s' := by
  simp only [Call.Remains, not_forall] at hc
  obtain ⟨o, ho, hou⟩ := hc
  cases c with
  | start user bot new =>
    obtain rfl : user = o := Option.some.inj ho
    rw [call]
    cases hbot : s.bot bot with
    | error e =>
      rw [start_error hbot]
      exact h
    | ok b =>
      rw [start_eq hbot]
      exact h.begun_other (hnew new rfl) hou bot
  | speak input user id? bot new =>
    rw [call_speak]
    rcases s.speak_cases input user id? bot new with
      ⟨e, he⟩ | ⟨s₁, id, c, b, ⟨rfl, rfl⟩ | ⟨rfl, rfl, rfl, hu⟩, hc, -, heq⟩
    · rw [he]
      exact h
    · -- the owner of the conversation that is named is another user
      obtain rfl : c.user = o := by simpa [Call.owner?, hc] using ho
      rw [heq]
      exact h.answerIn_other hc hou bot b input
    · obtain rfl : user = o := Option.some.inj ho
      rw [heq]
      exact (h.begun_other (hnew id rfl) hou bot).answerIn_other hc (hu ▸ hou) bot b input

theorem refl (hσ : ∀ id c, Entries.get? id s.conversations = some c → σ id = id) (u : String) : Matches u σ s s where
  bots := rfl
  user := rfl
  own id c hc _ := by rw [hσ id c hc, hc]
  back id c hc := ⟨id, c, hσ id c hc, hc, rfl, fun _ => rfl⟩

theorem run {cs : List Call} (h : Matches u σ s s') (hs : s.FreshIds cs) (hσ : Function.Injective σ)
    (hb : ∀ name b, s.bot name = .ok b → b.Steady) :
    List.Forall₂ (Given.Alike σ) ((s.remaining u cs).map Prod.snd)
        (s'.callAll ((s.remaining u cs).map fun r => r.1.renamed σ)).1 ∧
      Matches u σ (s.callAll cs).2 (s'.callAll ((s.remaining u cs).map fun r => r.1.renamed σ)).2 := by
  induction cs generalizing s s' with
  | nil => exact ⟨.nil, h⟩
  | cons c cs ih =>
    have hbots : ∀ name b, (s.call c).2.bot name = .ok b → b.Steady := by
      intro name b hbot
      rw [bot, (stores_of_call hs.head).bots] at hbot
      exact hb name b hbot
    rw [remaining]
    by_cases hc : c.Remains u s
    · obtain ⟨halike, hmatches⟩ := h.step hσ hb hc
      obtain ⟨hrest, hend⟩ := ih hmatches hs.tail hbots
      rw [if_pos hc]
      exact ⟨.cons halike hrest, hend⟩
    · rw [if_neg hc]
      exact ih (h.skip hs.head hc) hs.tail hbots

end Matches

/-! ### Whole runs -/

/-- two servers have the same store of a user and the same conversations of the user, but for their ids -/
structure Agrees (u : String) (σ : String → String) (s s' : Server) : Prop where
  user : s'.userStore u = s.userStore u
  there : ∀ id c, c.user = u → s.conversation id = .ok c → s'.conversation (σ id) = .ok c
  back : ∀ id c, c.user = u → s'.conversation id = .ok c → ∃ i, σ i = id ∧ s.conversation i = .ok c

theorem conversation_eq_ok : s.conversation id = .ok c ↔ Entries.get? id s.conversations = some c := by
  rw [conversation]
  cases Entries.get? id s.conversations <;> simp

theorem Matches.agrees (h : Matches u σ s s') : Agrees u σ s s' where
  user := h.user
  there id c hu hc := conversation_eq_ok.2 (h.own id c (conversation_eq_ok.1 hc) hu)
  back id c hu hc := by
    obtain ⟨i, d, hi, hd, huser, hsame⟩ := h.back id c (conversation_eq_ok.1 hc)
    obtain rfl := hsame (huser.trans hu)
    exact ⟨i, hi, conversation_eq_ok.2 hd⟩

/-- **Users do not interfere.**  If no action counts its runs and the ids of new conversations are new, the calls that
are about no conversation of another user give the same without all the others, and leave the same store of the user and
the same conversations, whichever ids these get in the shorter run.  And each turn that went well is the answer of its
bot to the stores that the last such turns have left: of the owner, in whichever conversation that was, and of the
conversation. -/
theorem users_apart {cs : List Call} (hs : s.FreshIds cs) (hb : ∀ name b, s.bot name = .ok b → b.Steady) (u : String)
    (hσ : Function.Injective σ) (hthere : ∀ id c, s.conversation id = .ok c → σ id = id) :
    List.Forall₂ (Given.Alike σ) ((s.remaining u cs).map Prod.snd)
        (s.callAll ((s.remaining u cs).map fun r => r.1.renamed σ)).1 ∧
      Agrees u σ (s.callAll cs).2 (s.callAll ((s.remaining u cs).map fun r => r.1.renamed σ)).2 ∧
      ∀ before c after, cs = before ++ c :: after → ∀ text id,
        ((s.callAll before).2.call c).1 = .ok (some text, id) →
          ∃ a b, (s.callAll before).2.answered? c = some a ∧ a.id = id ∧ a.turn.reply = text ∧
            s.bot a.bot = .ok b ∧
            ∀ t, ∃ t', Yields (b.answer a.input (lastUser (s.userStore a.owner) a.owner (s.answered before))
              (lastConversation (s.conversationStore id) id (s.answered before))) t a.turn t' := by
  have hstart : Matches u σ s s := .refl (fun id c hc => hthere id c (conversation_eq_ok.2 hc)) u
  obtain ⟨hgiven, hmatches⟩ := hstart.run hs hσ hb
  refine ⟨hgiven, hmatches.agrees, fun before c after hcs text id hcall => ?_⟩
  subst hcs
  obtain ⟨a, ha, rfl, hreply⟩ := exists_answered hcall
  obtain ⟨hbots, huser, hconversation⟩ := stores_of_callAll hs.before
  obtain ⟨b, t₀, t₁, hbot, hturn⟩ := (stores_of_call hs.after.head).answers a ha
  rw [bot, hbots] at hbot
  rw [huser, hconversation] at hturn
  exact ⟨a, b, ha, rfl, hreply, hbot, fun t => ((hb _ b hbot).answer a.input _ _).yields hturn t⟩

def tidyCalls : List Call :=
  [.speak "drop" "bo" none "tidy" "01J8", .speak "drop" "ana" none "tidy" "01J9",
    .speak "hello" "bo" (some "01J9") "tidy" "01JA", .speak "hello" "ana" (some "01J8") "tidy" "01JB"]

def tidyCallsOfAna : List Call :=
  [.speak "drop" "ana" none "tidy" "01J7", .speak "hello" "bo" (some "01J7") "tidy" "01JA"]

/-- the two calls give the same without the others; the second one is the answer to what the first one has left -/
theorem users_apart_tidy :
    (ofBots [Bot.tidy]).FreshIds tidyCalls ∧ (∀ name b, (ofBots [Bot.tidy]).bot name = .ok b → b.Steady) ∧
      (((ofBots [Bot.tidy]).remaining "ana" tidyCalls).map fun r => r.1.renamed (Equiv.swap "01J7" "01J9")) =
        tidyCallsOfAna ∧
      List.Forall₂ (Given.Alike (Equiv.swap "01J7" "01J9"))
        (((ofBots [Bot.tidy]).remaining "ana" tidyCalls).map Prod.snd)
        ((ofBots [Bot.tidy]).callAll tidyCallsOfAna).1 ∧
      ∃ a, ((ofBots [Bot.tidy]).callAll (tidyCalls.take 2)).2.answered?
          (.speak "hello" "bo" (some "01J9") "tidy" "01JA") = some a ∧ a.turn.reply = notUnderstood ∧
        ∀ t, ∃ t', Yields (Bot.tidy.answer "hello" .empty (Bot.tidyAfter [])) t a.turn t' := by
  have hbot : ∀ name b, (ofBots [Bot.tidy]).bot name = .ok b → b = Bot.tidy := by
    intro name b h
    have hget : Entries.get? name [("tidy", Bot.tidy)] = some b := by
      rw [bot] at h
      split at h
      · next hb =>
        cases h
        exact hb
      · cases h
    exact congrArg Prod.snd (List.mem_singleton.1 (Entries.mem_of_get? hget))
  have hsteady : ∀ name b, (ofBots [Bot.tidy]).bot name = .ok b → b.Steady := by
    intro name b h
    obtain rfl := hbot name b h
    refine Bot.steady_of_builtIn (Bot.builtIn_of_basic rfl) fun a ha => ?_
    obtain ⟨action, haction⟩ := ha
    exact absurd (Bot.mem_of_action haction) List.not_mem_nil
  have hfresh : (ofBots [Bot.tidy]).FreshIds tidyCalls := ⟨by decide, fun _ _ => rfl⟩
  have hthere : ∀ id c, (ofBots [Bot.tidy]).conversation id = .ok c → Equiv.swap "01J7" "01J9" id = id := by
    intro id c hc
    cases hc
  obtain ⟨hgiven, -, hturns⟩ := users_apart hfresh hsteady "ana" (Equiv.swap "01J7" "01J9").injective hthere
  have hcalls : (((ofBots [Bot.tidy]).remaining "ana" tidyCalls).map fun r =>
      r.1.renamed (Equiv.swap "01J7" "01J9")) = tidyCallsOfAna := by rfl
  rw [hcalls] at hgiven
  obtain ⟨a, b, ha, -, hreply, hb, hturn⟩ :=
    hturns (tidyCalls.take 2) (.speak "hello" "bo" (some "01J9") "tidy" "01JA") (tidyCalls.drop 3) (by rfl)
      notUnderstood "01J9" (by rfl)
  refine ⟨hfresh, hsteady, hcalls, hgiven, a, ha, hreply, ?_⟩
  have hanswered : ((ofBots [Bot.tidy]).callAll (tidyCalls.take 2)).2.answered?
      (.speak "hello" "bo" (some "01J9") "tidy" "01JA") =
      some ⟨"01J9", "ana", "tidy", "hello", ⟨notUnderstood, .empty, Bot.tidyAfter []⟩⟩ := by rfl
  have huser : lastUser ((ofBots [Bot.tidy]).userStore "ana") "ana" ((ofBots [Bot.tidy]).answered (tidyCalls.take 2)) =
      .empty := by rfl
  have hconversation : lastConversation ((ofBots [Bot.tidy]).conversationStore "01J9") "01J9"
      ((ofBots [Bot.tidy]).answered (tidyCalls.take 2)) = Bot.tidyAfter [] := by rfl
  rw [hanswered] at ha
  cases ha
  obtain rfl := hbot _ _ hb
  rw [huser, hconversation] at hturn
  exact hturn

end Server

end Dialogue
