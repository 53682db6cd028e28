import Dialogue.Demo.Tickets
import Dialogue.Bot.Script
import Dialogue.Proofs.Server.Calls

/-!
# What a failure leaves

Something is said and there is no answer: the conversation or the bot is not there, or the turn fails on its way, after
some of its actions perhaps.  The stores stay as they were, and so do the conversations, unless one began with what was
said; that one stays, and holds nothing.

* `Server.cases_of_speak_error`: the server after a failure, in each case;
* `Server.same_of_speak_error`: which conversations and stores are there after it.
-/

namespace Dialogue.Server

variable {s s' : Server} {input user bot new name id : String} {id? : Option String} {b : Bot} {c : Conversation}
  {h : Halt} {t : Tally}

/-- whether two servers have the same conversations, and the same stores of users and conversations -/
structure Same (s s' : Server) : Prop where
  conversation : ∀ id, s'.conversation id = s.conversation id
  user : ∀ o, s'.userStore o = s.userStore o

theorem Same.refl (s : Server) : s.Same s :=
  ⟨fun _ => rfl, fun _ => rfl⟩

theorem same_counted (s : Server) (name : String) (t : Tally) : s.Same (s.counted name t) :=
  ⟨fun _ => rfl, fun _ => rfl⟩

theorem tally_counted_of_ne {other : String} (hne : other ≠ name) (s : Server) (t : Tally) :
    (s.counted name t).tally other = s.tally other := by
  unfold tally counted
  rw [Entries.get?_insert_of_ne hne]

/-- whether something that is said begins a conversation: it is said in none, to a bot that is there -/
def Begins (s : Server) (id? : Option String) (bot : String) : Prop :=
  id? = none ∧ ∃ b, s.bot bot = .ok b

theorem Fresh.conversation_eq (hnew : s.Fresh new) : s.conversation new = .error (.unknownConversation new) := by
  rw [conversation, hnew]

theorem not_same_begun (hnew : s.Fresh new) (user bot : String) (t : Tally) :
    ¬ s.Same ((s.begun user bot new).counted bot t) := by
  intro hsame
  have hbegun : ((s.begun user bot new).counted bot t).conversation new = .ok ⟨bot, user, .empty⟩ :=
    conversation_eq (conversation_begun s user bot new)
  rw [hsame.conversation, hnew.conversation_eq] at hbegun
  cases hbegun

theorem conversation_begun_of_ok (hnew : s.Fresh new) (hc : s.conversation id = .ok c) (user bot : String)
    (t : Tally) : ((s.begun user bot new).counted bot t).conversation id = .ok c := by
  have hne : id ≠ new := by
    rintro rfl
    rw [hnew.conversation_eq] at hc
    cases hc
  rw [← hc]
  unfold conversation
  rw [show ((s.begun user bot new).counted bot t).conversations = (s.begun user bot new).conversations from rfl,
    conversation_begun_of_ne hne]

/-- a turn without an answer is only counted -/
theorem eq_counted_of_answerIn (he : (s.answerIn id c name b input).1 = .error h) :
    ∃ t, (s.answerIn id c name b input).2 = s.counted name t := by
  rcases answerIn_cases s id c name b input with ⟨_, t, -, heq⟩ | ⟨turn, t, -, heq⟩
  · exact ⟨t, by rw [heq]⟩
  · rw [heq] at he
    cases he

/-- **The server after a failure.**  A conversation may have begun; other than that at most the runs of the actions of
the bot are counted. -/
theorem cases_of_speak_error (he : (s.speak input user id? bot new).1 = .error h) :
    (s.Begins id? bot ∧ ∃ t, (s.speak input user id? bot new).2 = (s.begun user bot new).counted bot t) ∨
      (¬ s.Begins id? bot ∧
        ((s.speak input user id? bot new).2 = s ∨ ∃ t, (s.speak input user id? bot new).2 = s.counted bot t)) := by
  -- an unknown bot or conversation is found out before anything is done
  cases hb : s.bot bot with
  | error e =>
    refine .inr ⟨?_, .inl ?_⟩
    · rintro ⟨-, b, hok⟩
      rw [hb] at hok
      cases hok
    · cases id? with
      | none => rw [speak_new_unknown hb]
      | some id =>
        cases hc : Entries.get? id s.conversations with
        | none => rw [speak_lost hc]
        | some c => rw [speak_old_unknown hc hb]
  | ok b =>
    cases id? with
    | none =>
      rw [speak_new hb] at he ⊢
      exact .inl ⟨⟨rfl, b, hb⟩, eq_counted_of_answerIn he⟩
    | some id =>
      refine .inr ⟨?_, ?_⟩
      · rintro ⟨hnone, -⟩
        cases hnone
      · cases hc : Entries.get? id s.conversations with
        | none => exact .inl (by rw [speak_lost hc])
        | some c =>
          rw [speak_old hc hb] at he ⊢
          exact .inr (eq_counted_of_answerIn he)

/-- **A failure leaves the stores as they were.**  It leaves the conversations as they were, too, if and only if what
was said did not begin one; that one stays then, with an id that no conversation had, belongs to this user and this bot
and holds nothing.  The bots are the same, and so are the runs of the actions of the other bots. -/
theorem same_of_speak_error (hnew : s.Begins id? bot → s.Fresh new)
    (he : (s.speak input user id? bot new).1 = .error h) :
    (∀ o, (s.speak input user id? bot new).2.userStore o = s.userStore o) ∧
      (∀ id c, s.conversation id = .ok c → (s.speak input user id? bot new).2.conversation id = .ok c) ∧
      (s.Same (s.speak input user id? bot new).2 ↔ ¬ s.Begins id? bot) ∧
      (s.Begins id? bot → s.conversation new = .error (.unknownConversation new) ∧
        (s.setConversation new ⟨bot, user, .empty⟩).Same (s.speak input user id? bot new).2) ∧
      (s.speak input user id? bot new).2.bots = s.bots ∧
      ∀ other, other ≠ bot → (s.speak input user id? bot new).2.tally other = s.tally other := by
  rcases cases_of_speak_error he with ⟨hbegins, t, ht⟩ | ⟨hnot, hend⟩
  · have huser (o : String) : ((s.begun user bot new).counted bot t).userStore o = s.userStore o :=
      userStore_begun s user bot new o
    rw [ht]
    refine ⟨huser, fun id c hc => conversation_begun_of_ok (hnew hbegins) hc user bot t, ?_, fun _ => ?_, rfl,
      fun other hne => ?_⟩
    · exact iff_of_false (not_same_begun (hnew hbegins) user bot t) (not_not_intro hbegins)
    · exact ⟨(hnew hbegins).conversation_eq, fun _ => rfl, huser⟩
    · exact tally_counted_of_ne hne (s.begun user bot new) t
  · have hrest : s.Same (s.speak input user id? bot new).2 ∧ (s.speak input user id? bot new).2.bots = s.bots ∧
        ∀ other, other ≠ bot → (s.speak input user id? bot new).2.tally other = s.tally other := by
      rcases hend with heq | ⟨t, heq⟩
      · rw [heq]
        exact ⟨.refl s, rfl, fun _ _ => rfl⟩
      · rw [heq]
        exact ⟨same_counted s bot t, rfl, fun other hne => tally_counted_of_ne hne s t⟩
    obtain ⟨hsame, hbots, htallies⟩ := hrest
    refine ⟨hsame.user, fun id c hc => ?_, iff_of_true hsame hnot, fun hbegins => absurd hbegins hnot, hbots, htallies⟩
    rw [hsame.conversation, hc]

/-- a bot that files tickets, and fails after it has done so for an order -/
def clerk : Bot where
  name := "clerk"
  dictionary := Dictionary.empty.insert ["order"] "utt:/intent.name -> order"
  workflows := [.basic "default"]
  processors := []
  actions := [("file", Demo.createTicket "file"), ("spoil", .script "spoil" "utt:/intent/name.x -> y")]
  goals := [("order", { name := "order", successActions := ["file", "spoil"] })]

def atClerk : Server :=
  (ofBots [clerk]).begun "ana" "clerk" "01J8"

/-- an order in the conversation that is there fails after the ticket was filed, and nothing but the filing is left; an
order in no conversation leaves one more -/
theorem same_of_speak_error_atClerk :
    (∃ e, (atClerk.speak "order" "ana" (some "01J8") "clerk" "01J9").1 = .error (.failed e)) ∧
      (atClerk.speak "order" "ana" (some "01J8") "clerk" "01J9").2.tally "clerk" = [("file", 1), ("spoil", 1)] ∧
      atClerk.Same (atClerk.speak "order" "ana" (some "01J8") "clerk" "01J9").2 ∧
      atClerk.Fresh "01J9" ∧ (∃ e, (atClerk.speak "order" "bo" none "clerk" "01J9").1 = .error (.failed e)) ∧
      (atClerk.setConversation "01J9" ⟨"clerk", "bo", .empty⟩).Same
        (atClerk.speak "order" "bo" none "clerk" "01J9").2 := by
  have hfresh : atClerk.Fresh "01J9" := by rfl
  have herror : ∃ e, (atClerk.speak "order" "ana" (some "01J8") "clerk" "01J9").1 = .error (.failed e) := ⟨_, by rfl⟩
  have hlate : ∃ e, (atClerk.speak "order" "bo" none "clerk" "01J9").1 = .error (.failed e) := ⟨_, by rfl⟩
  obtain ⟨e, he⟩ := herror
  obtain ⟨e', he'⟩ := hlate
  refine ⟨⟨e, he⟩, by rfl, (same_of_speak_error (fun _ => hfresh) he).2.2.1.2 ?_, hfresh, ⟨e', he'⟩,
    ((same_of_speak_error (fun _ => hfresh) he').2.2.2.1 ⟨rfl, clerk, by rfl⟩).2⟩
  rintro ⟨hnone, -⟩
  cases hnone

/-- an order in no conversation fails, too, and leaves an empty one, of which nobody is told the id -/
theorem not_same_clerk :
    ∃ e, ((ofBots [clerk]).speak "order" "ana" none "clerk" "01J8").1 = .error (.failed e) ∧
      ((ofBots [clerk]).speak "order" "ana" none "clerk" "01J8").2.tally "clerk" = [("file", 1), ("spoil", 1)] ∧
      ((ofBots [clerk]).speak "order" "ana" none "clerk" "01J8").2.conversations =
        [("01J8", ⟨"clerk", "ana", .empty⟩)] ∧
      ¬ (ofBots [clerk]).Same ((ofBots [clerk]).speak "order" "ana" none "clerk" "01J8").2 := by
  refine ⟨_, by rfl, by rfl, by rfl, fun hsame => ?_⟩
  have hid := hsame.conversation "01J8"
  have hnew : ((ofBots [clerk]).speak "order" "ana" none "clerk" "01J8").2.conversation "01J8" =
      .ok ⟨"clerk", "ana", .empty⟩ := by
    rfl
  rw [hnew] at hid
  cases hid

end Dialogue.Server
