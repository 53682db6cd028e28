import Dialogue.Proofs.Bot.Run
import Dialogue.Proofs.Entries
import Dialogue.Server

/-!
# Calls of a server

A server is called for one thing after the other: a conversation is begun, or something is said in one.  What a call
does to the stores is said once, by `Server.stores_of_call`: nothing, unless it ends with a turn that went well, which
puts the stores of that turn in the place of those of the user and the conversation.  From it follows what a whole run
leaves (`Server.stores_of_callAll`).

Of the source of ids nothing is assumed but that the ids it gives are new (`Server.FreshIds`).
-/

namespace Dialogue

/-- what a server is called for: to begin a conversation, or to answer in one; `new` is the id that the source of ids
gives then -/
inductive Call where
  | start (user bot new : String)
  | speak (input user : String) (id : Option String) (bot new : String)

/-- the id that a call draws from the source of ids: that of the conversation which it is to begin -/
def Call.drawn? : Call → Option String
  | .start _ _ new => some new
  | .speak _ _ none _ new => some new
  | .speak _ _ (some _) _ _ => none

/-- what a call gives: what is said, if anything, and the conversation -/
abbrev Given := Except Halt (Option String × String)

/-- a turn that went well, and whose it was -/
structure Answered where
  id : String
  owner : String
  bot : String
  input : String
  turn : Turn

namespace Server

/-- what a call gives, and the server after it -/
def call (s : Server) : Call → Given × Server
  | .start user bot new =>
    match s.start user bot new with
    | .error e => (.error (.failed e), s)
    | .ok (id, s) => (.ok (none, id), s)
  | .speak input user id bot new =>
    match s.speak input user id bot new with
    | (result, s) => (result.map fun r => (some r.text, r.conversation), s)

/-- what calls give, one after the other, and the server after them -/
def callAll (s : Server) : List Call → List Given × Server
  | [] => ([], s)
  | c :: cs => ((s.call c).1 :: ((s.call c).2.callAll cs).1, ((s.call c).2.callAll cs).2)

/-- the store of a conversation, which is empty before the conversation begins -/
def conversationStore (s : Server) (id : String) : Store :=
  ((Entries.get? id s.conversations).map Conversation.store).getD .empty

/-- the turn of what was said, if it went well: the reply, and the stores that are there after it -/
def noted (bot input : String) : Except Halt Reply × Server → Option Answered
  | (.error _, _) => none
  | (.ok r, s) =>
    (Entries.get? r.conversation s.conversations).map fun c =>
      ⟨r.conversation, c.user, bot, input, ⟨r.text, s.userStore c.user, c.store⟩⟩

/-- the turn of a call, if it went well -/
def answered? (s : Server) : Call → Option Answered
  | .start _ _ _ => none
  | .speak input user id bot new => noted bot input (s.speak input user id bot new)

/-- the turns of calls that went well, in order -/
def answered (s : Server) : List Call → List Answered
  | [] => []
  | c :: cs => (s.answered? c).toList ++ (s.call c).2.answered cs

/-- the store of a user after turns, which was `d` before them -/
def lastUser (d : Store) (user : String) (turns : List Answered) : Store :=
  turns.foldl (fun d a => if a.owner = user then a.turn.user else d) d

/-- the store of a conversation after turns, which was `d` before them -/
def lastConversation (d : Store) (id : String) (turns : List Answered) : Store :=
  turns.foldl (fun d a => if a.id = id then a.turn.conversation else d) d

/-! ### New ids -/

/-- no conversation of the server has the id -/
def Fresh (s : Server) (id : String) : Prop :=
  Entries.get? id s.conversations = none

/-- the source of ids gives the calls new ones: each of them once, and none that a conversation has already -/
structure FreshIds (s : Server) (cs : List Call) : Prop where
  nodup : (cs.filterMap Call.drawn?).Nodup
  fresh : ∀ id ∈ cs.filterMap Call.drawn?, s.Fresh id

/-! ### What a call does -/

section

variable {s : Server} {user bot new id name input : String} {b : Bot} {c : Conversation} {turn : Turn} {h : Halt}
  {t : Tally}

/-- the server with one more conversation -/
def begun (s : Server) (user bot new : String) : Server :=
  (s.setUser user (s.userStore user)).setConversation new ⟨bot, user, .empty⟩

/-- the server with the stores that a turn leaves -/
def settled (s : Server) (id : String) (c : Conversation) (turn : Turn) : Server :=
  (s.setUser c.user turn.user).setConversation id { c with store := turn.conversation }

def counted (s : Server) (name : String) (t : Tally) : Server :=
  { s with tallies := Entries.insert name t s.tallies }

def tally (s : Server) (name : String) : Tally :=
  (Entries.get? name s.tallies).getD []

theorem start_eq (hb : s.bot bot = .ok b) (user new : String) :
    s.start user bot new = .ok (new, s.begun user bot new) := by
  rw [start, hb]
  rfl

theorem start_error {e : DialogueError} (hb : s.bot bot = .error e) (user new : String) :
    s.start user bot new = .error e := by
  rw [start, hb]
  rfl

theorem conversation_eq (hc : Entries.get? id s.conversations = some c) : s.conversation id = .ok c := by
  rw [conversation, hc]

theorem conversation_settled (s : Server) (id : String) (c : Conversation) (turn : Turn) :
    Entries.get? id (s.settled id c turn).conversations = some { c with store := turn.conversation } :=
  Entries.get?_insert_self _ _ _

theorem conversation_settled_of_ne {i : String} (hi : i ≠ id) (s : Server) (c : Conversation) (turn : Turn) :
    Entries.get? i (s.settled id c turn).conversations = Entries.get? i s.conversations :=
  Entries.get?_insert_of_ne hi _ _

theorem conversation_begun_of_ne (hid : id ≠ new) (s : Server) (user bot : String) :
    Entries.get? id (s.begun user bot new).conversations = Entries.get? id s.conversations :=
  Entries.get?_insert_of_ne hid _ _

theorem userStore_setUser (s : Server) (user : String) (store : Store) (o : String) :
    (s.setUser user store).userStore o = if user = o then store else s.userStore o := by
  rw [userStore, setUser]
  by_cases ho : user = o
  · subst ho
    rw [Entries.get?_insert_self, if_pos rfl]
    rfl
  · rw [Entries.get?_insert_of_ne (Ne.symm ho), if_neg ho]
    rfl

theorem userStore_settled (s : Server) (id : String) (c : Conversation) (turn : Turn) (o : String) :
    (s.settled id c turn).userStore o = if c.user = o then turn.user else s.userStore o :=
  userStore_setUser s c.user turn.user o

theorem conversationStore_settled (s : Server) (id : String) (c : Conversation) (turn : Turn) (i : String) :
    (s.settled id c turn).conversationStore i = if id = i then turn.conversation else s.conversationStore i := by
  rw [conversationStore]
  by_cases hi : id = i
  · subst hi
    rw [conversation_settled, if_pos rfl]
    rfl
  · rw [conversation_settled_of_ne (Ne.symm hi), if_neg hi]
    rfl

/-- a user who begins a conversation keeps their store, or gets an empty one -/
theorem userStore_begun (s : Server) (user bot new o : String) :
    (s.begun user bot new).userStore o = s.userStore o := by
  refine (userStore_setUser s user (s.userStore user) o).trans ?_
  split
  · next ho => rw [ho]
  · rfl

theorem conversation_begun (s : Server) (user bot new : String) :
    Entries.get? new (s.begun user bot new).conversations = some ⟨bot, user, .empty⟩ :=
  Entries.get?_insert_self _ _ _

/-- what is said in no conversation is said in a new one -/
theorem speak_new (hb : s.bot bot = .ok b) (input user new : String) :
    s.speak input user none bot new = (s.begun user bot new).answerIn new ⟨bot, user, .empty⟩ bot b input := by
  rw [speak, start_eq hb]
  dsimp only
  rw [conversation_eq (conversation_begun s user bot new)]
  dsimp only
  rw [show (s.begun user bot new).bot bot = .ok b from hb]

theorem speak_old (hc : Entries.get? id s.conversations = some c) (hb : s.bot bot = .ok b) (input user new : String) :
    s.speak input user (some id) bot new = s.answerIn id c bot b input := by
  rw [speak, conversation_eq hc, hb]

theorem speak_new_unknown {e : DialogueError} (hb : s.bot bot = .error e) (input user new : String) :
    s.speak input user none bot new = (.error (.failed e), s) := by
  rw [speak, start_error hb]

theorem speak_old_unknown {e : DialogueError} (hc : Entries.get? id s.conversations = some c)
    (hb : s.bot bot = .error e) (input user new : String) :
    s.speak input user (some id) bot new = (.error (.failed e), s) := by
  rw [speak, conversation_eq hc, hb]

theorem speak_lost (hc : Entries.get? id s.conversations = none) (input user bot new : String) :
    s.speak input user (some id) bot new = (.error (.failed (.unknownConversation id)), s) := by
  rw [speak, conversation, hc]

/-- what is said fails at once, or is answered in a conversation: the one that it names, or one that has just begun -/
theorem speak_cases (s : Server) (input user : String) (id? : Option String) (bot new : String) :
    (∃ e, s.speak input user id? bot new = (.error (.failed e), s)) ∨
      ∃ s₁ id c b, (id? = some id ∧ s₁ = s ∨
          id? = none ∧ id = new ∧ s₁ = s.begun user bot new ∧ c.user = user) ∧
        Entries.get? id s₁.conversations = some c ∧ s₁.bot bot = .ok b ∧
        s.speak input user id? bot new = s₁.answerIn id c bot b input := by
  cases id? with
  | none =>
    cases hb : s.bot bot with
    | error e => exact .inl ⟨e, speak_new_unknown hb input user new⟩
    | ok b =>
      exact .inr ⟨_, _, _, b, .inr ⟨rfl, rfl, rfl, rfl⟩, conversation_begun s user bot new, hb,
        speak_new hb input user new⟩
  | some id =>
    cases hc : Entries.get? id s.conversations with
    | none => exact .inl ⟨_, speak_lost hc input user bot new⟩
    | some c =>
      cases hb : s.bot bot with
      | error e => exact .inl ⟨e, speak_old_unknown hc hb input user new⟩
      | ok b => exact .inr ⟨s, id, c, b, .inl ⟨rfl, rfl⟩, hc, hb, speak_old hc hb input user new⟩

/-- a turn without an answer leaves the stores; another one puts its own in their place -/
theorem answerIn_cases (s : Server) (id : String) (c : Conversation) (name : String) (b : Bot) (input : String) :
    (∃ h t, (b.answer input (s.userStore c.user) c.store).run.run (s.tally name) = (.error h, t) ∧
        s.answerIn id c name b input = (.error h, s.counted name t)) ∨
      ∃ turn t, Yields (b.answer input (s.userStore c.user) c.store) (s.tally name) turn t ∧
        s.answerIn id c name b input = (.ok ⟨turn.reply, id⟩, (s.counted name t).settled id c turn) := by
  rw [answerIn, ← tally]
  unfold Yields
  cases (b.answer input (s.userStore c.user) c.store).run.run (s.tally name) with
  | mk result t =>
    cases result with
    | error h => exact .inl ⟨h, t, rfl, rfl⟩
    | ok turn => exact .inr ⟨turn, t, rfl, rfl⟩

theorem found_of_answerIn {r : Reply} (hr : (s.answerIn id c name b input).1 = .ok r) :
    (Entries.get? r.conversation (s.answerIn id c name b input).2.conversations).isSome = true := by
  rcases answerIn_cases s id c name b input with ⟨h, t, -, heq⟩ | ⟨turn, t, -, heq⟩
  · rw [heq] at hr
    cases hr
  · rw [heq] at hr ⊢
    cases hr
    rw [conversation_settled]
    rfl

theorem found_of_speak {id? : Option String} {r : Reply} (hr : (s.speak input user id? bot new).1 = .ok r) :
    (Entries.get? r.conversation (s.speak input user id? bot new).2.conversations).isSome = true := by
  rcases s.speak_cases input user id? bot new with ⟨e, he⟩ | ⟨s₁, id, c, b, -, -, -, heq⟩
  · rw [he] at hr
    cases hr
  · rw [heq] at hr ⊢
    exact found_of_answerIn hr

theorem noted_of_ok {p : Except Halt Reply × Server} {r : Reply} (hr : p.1 = .ok r)
    (hc : Entries.get? r.conversation p.2.conversations = some c) :
    noted bot input p =
      some ⟨r.conversation, c.user, bot, input, ⟨r.text, p.2.userStore c.user, c.store⟩⟩ := by
  obtain ⟨result, s⟩ := p
  cases hr
  rw [noted, hc]
  rfl

/-- every reply is that of a turn that went well -/
theorem exists_answered {call : Call} {text : String} (h : (s.call call).1 = .ok (some text, id)) :
    ∃ a, s.answered? call = some a ∧ a.id = id ∧ a.turn.reply = text := by
  cases call with
  | start user bot new =>
    rw [Server.call] at h
    cases hb : s.bot bot with
    | error e =>
      rw [start_error hb] at h
      cases h
    | ok b =>
      rw [start_eq hb] at h
      cases h
  | speak input user id? bot new =>
    obtain ⟨r, hr, he⟩ := map_eq_ok.1 h
    cases he
    obtain ⟨c, hc⟩ := Option.isSome_iff_exists.1 (found_of_speak hr)
    exact ⟨_, noted_of_ok hr hc, rfl, rfl⟩

/-! ### The stores after a call -/

/-- what a call leaves of the stores: those of its turn, if that went well -/
structure Leaves (s : Server) (turn : Option Answered) (s' : Server) : Prop where
  bots : s'.bots = s.bots
  user : ∀ o, s'.userStore o = lastUser (s.userStore o) o turn.toList
  conversation : ∀ id, s'.conversationStore id = lastConversation (s.conversationStore id) id turn.toList
  answers : ∀ a, turn = some a → ∃ b t t', s.bot a.bot = .ok b ∧
    Yields (b.answer a.input (s.userStore a.owner) (s.conversationStore a.id)) t a.turn t'

theorem Leaves.refl (s : Server) : s.Leaves none s where
  bots := rfl
  user _ := rfl
  conversation _ := rfl
  answers a ha := by cases ha

theorem conversationStore_begun (hnew : s.Fresh new) (user bot id : String) :
    (s.begun user bot new).conversationStore id = s.conversationStore id := by
  rw [conversationStore, conversationStore]
  by_cases hid : id = new
  · subst hid
    rw [conversation_begun, hnew]
    rfl
  · rw [conversation_begun_of_ne hid]

theorem leaves_begun (hnew : s.Fresh new) (user bot : String) : s.Leaves none (s.begun user bot new) where
  bots := rfl
  user := userStore_begun s user bot new
  conversation := conversationStore_begun hnew user bot
  answers a ha := by cases ha

theorem leaves_answerIn (hc : Entries.get? id s.conversations = some c) (hb : s.bot name = .ok b) (input : String) :
    s.Leaves (noted name input (s.answerIn id c name b input)) (s.answerIn id c name b input).2 := by
  rcases answerIn_cases s id c name b input with ⟨h, t, -, heq⟩ | ⟨turn, t, hturn, heq⟩
  · rw [heq]
    exact ⟨rfl, fun _ => rfl, fun _ => rfl, fun a ha => by cases ha⟩
  · have hnoted : noted name input (s.answerIn id c name b input) = some ⟨id, c.user, name, input, turn⟩ := by
      rw [heq, noted, conversation_settled, Option.map_some, userStore_settled, if_pos rfl]
    have hstore : s.conversationStore id = c.store := by rw [conversationStore, hc]; rfl
    rw [hnoted, heq]
    refine ⟨rfl, userStore_settled _ id c turn, conversationStore_settled _ id c turn, ?_⟩
    rintro a ⟨⟩
    exact ⟨b, s.tally name, t, hb, hstore ▸ hturn⟩

/-- a turn in a conversation that has only just begun -/
theorem Leaves.trans {s₁ s₂ : Server} {turn : Option Answered} (h : s.Leaves none s₁) (h' : s₁.Leaves turn s₂) :
    s.Leaves turn s₂ where
  bots := h'.bots.trans h.bots
  user o := by
    rw [h'.user, h.user]
    rfl
  conversation id := by
    rw [h'.conversation, h.conversation]
    rfl
  answers a ha := by
    obtain ⟨b, t, t', hb, hturn⟩ := h'.answers a ha
    rw [h.user, h.conversation] at hturn
    rw [bot, h.bots] at hb
    exact ⟨b, t, t', hb, hturn⟩

theorem leaves_speak {id? : Option String} (hnew : id? = none → s.Fresh new) (input user bot : String) :
    s.Leaves (noted bot input (s.speak input user id? bot new)) (s.speak input user id? bot new).2 := by
  rcases s.speak_cases input user id? bot new with
    ⟨e, he⟩ | ⟨s₁, id, c, b, ⟨-, rfl⟩ | ⟨hnone, -, rfl, -⟩, hc, hb, heq⟩
  · rw [he]
    exact .refl s
  · rw [heq]
    exact leaves_answerIn hc hb input
  · rw [heq]
    exact (leaves_begun (hnew hnone) user bot).trans (leaves_answerIn hc hb input)

/-- **What a call does to the stores**: nothing, unless its turn goes well; that is then the answer of a bot to the
stores that were there, and its stores take their place. -/
theorem stores_of_call {c : Call} (hnew : ∀ id ∈ c.drawn?, s.Fresh id) : s.Leaves (s.answered? c) (s.call c).2 := by
  cases c with
  | start user bot new =>
    rw [call]
    cases hb : s.bot bot with
    | error e =>
      rw [start_error hb]
      exact .refl s
    | ok b =>
      rw [start_eq hb]
      exact leaves_begun (hnew new rfl) user bot
  | speak input user id? bot new =>
    refine leaves_speak ?_ input user bot
    rintro rfl
    exact hnew new rfl

/-! ### New ids in a run -/

theorem fresh_begun (hid : s.Fresh id) (hne : id ≠ new) (user bot : String) : (s.begun user bot new).Fresh id :=
  (conversation_begun_of_ne hne s user bot).trans hid

theorem fresh_answerIn {i : String} (hi : s.Fresh i) (hc : Entries.get? id s.conversations = some c) (name : String)
    (b : Bot) (input : String) : (s.answerIn id c name b input).2.Fresh i := by
  have hne : i ≠ id := by
    rintro rfl
    rw [Fresh, hc] at hi
    cases hi
  rcases answerIn_cases s id c name b input with ⟨h, t, -, heq⟩ | ⟨turn, t, -, heq⟩
  · rw [heq]
    exact hi
  · rw [heq]
    exact (conversation_settled_of_ne hne (s.counted name t) c turn).trans hi

/-- an id stays new until a call draws it -/
theorem fresh_call {call : Call} (hid : s.Fresh id) (hne : id ∉ call.drawn?) : (s.call call).2.Fresh id := by
  cases call with
  | start user bot new =>
    rw [Server.call]
    cases hb : s.bot bot with
    | error e =>
      rw [start_error hb]
      exact hid
    | ok b =>
      rw [start_eq hb]
      exact fresh_begun hid (fun he => hne (he ▸ rfl)) user bot
  | speak input user id? bot new =>
    show (s.speak input user id? bot new).2.Fresh id
    rcases s.speak_cases input user id? bot new with
      ⟨e, he⟩ | ⟨s₁, i, c, b, ⟨rfl, rfl⟩ | ⟨rfl, rfl, rfl, -⟩, hc, -, heq⟩
    · rw [he]
      exact hid
    · rw [heq]
      exact fresh_answerIn hid hc bot b input
    · rw [heq]
      exact fresh_answerIn (fresh_begun hid (fun he => hne (he ▸ rfl)) user bot) hc bot b input

theorem FreshIds.head {call : Call} {calls : List Call} (hs : s.FreshIds (call :: calls)) :
    ∀ id ∈ call.drawn?, s.Fresh id :=
  fun id hid => hs.fresh id (List.mem_filterMap.2 ⟨call, List.mem_cons_self, hid⟩)

theorem FreshIds.tail {call : Call} {calls : List Call} (hs : s.FreshIds (call :: calls)) :
    (s.call call).2.FreshIds calls := by
  obtain ⟨hnodup, hfresh⟩ := hs
  cases hdrawn : call.drawn? with
  | none =>
    rw [List.filterMap_cons_none hdrawn] at hnodup hfresh
    exact ⟨hnodup, fun id hid => fresh_call (hfresh id hid) (by simp [hdrawn])⟩
  | some new =>
    rw [List.filterMap_cons_some hdrawn] at hnodup hfresh
    obtain ⟨hnew, hnodup⟩ := List.nodup_cons.1 hnodup
    refine ⟨hnodup, fun id hid => fresh_call (hfresh id (List.mem_cons_of_mem _ hid)) ?_⟩
    rw [hdrawn]
    rintro ⟨⟩
    exact hnew hid

theorem FreshIds.before {before after : List Call} (hs : s.FreshIds (before ++ after)) : s.FreshIds before := by
  obtain ⟨hnodup, hfresh⟩ := hs
  rw [List.filterMap_append] at hnodup hfresh
  exact ⟨(List.nodup_append.1 hnodup).1, fun id hid => hfresh id (List.mem_append_left _ hid)⟩

theorem FreshIds.after {before after : List Call} (hs : s.FreshIds (before ++ after)) :
    (s.callAll before).2.FreshIds after := by
  induction before generalizing s with
  | nil => exact hs
  | cons call calls ih => exact ih hs.tail

/-- **What calls leave of the stores**: those of the last turns that went well. -/
theorem stores_of_callAll {cs : List Call} (hs : s.FreshIds cs) :
    (s.callAll cs).2.bots = s.bots ∧
      (∀ o, (s.callAll cs).2.userStore o = lastUser (s.userStore o) o (s.answered cs)) ∧
      ∀ id, (s.callAll cs).2.conversationStore id = lastConversation (s.conversationStore id) id (s.answered cs) := by
  induction cs generalizing s with
  | nil => exact ⟨rfl, fun _ => rfl, fun _ => rfl⟩
  | cons c cs ih =>
    have h := stores_of_call hs.head
    obtain ⟨hbots, huser, hconversation⟩ := ih hs.tail
    refine ⟨hbots.trans h.bots, fun o => ?_, fun id => ?_⟩
    · rw [callAll, huser, h.user, answered, lastUser, lastUser, lastUser, List.foldl_append]
    · rw [callAll, hconversation, h.conversation, answered, lastConversation, lastConversation, lastConversation,
        List.foldl_append]

end

end Server

end Dialogue
