import Mathlib.Logic.Function.Basic
import Dialogue.Proofs.Bot.Handover
import Dialogue.Proofs.Bot.Prompted
import Dialogue.Proofs.Bot.Seen
import Dialogue.Proofs.Path.Grammar
import Dialogue.Proofs.Shape
import Dialogue.Proofs.Store.Beside

/-!
# Answers to what was asked

A goal asks for the slot of its first violation.  The question is kept in the conversation, as text, and the answer
comes in the next turn, in another snapshot.  It goes to the slot that was asked about, whatever was asked before
(`Bot.lands_of_resolve`).

* `Goal.violations_eq_lacking` — the violations of a goal depend on what its slots hold;
* `Bot.exists_update_ask` — a question can always be asked, and forgets the one before it;
* `Bot.Replies` — how the turn after a question begins;
* `Snapshot.takeAnswer_eq_put` — a text that is waited for is put where it is waited for.
-/

namespace Dialogue

open Slots Snapshot

/-! ### Slots for texts -/

/-- a slot for a text among the objects, inside nothing but maps -/
structure ScopedPath.HoldsText (p : ScopedPath) : Prop where
  below : p.BelowObjects
  plain : p.path.Plain
  leaf : p.path.leaf.sigil = .str

namespace ScopedPath.HoldsText

variable {p q : ScopedPath}

theorem segments_eq (h : p.HoldsText) :
    p.path.segments = (p.path.inner.map Segment.key).map (Segment.mk .map) ++ [⟨.str, p.path.leaf.key⟩] := by
  rw [← p.path.inner_append_leaf, ← h.leaf, List.map_map]
  congr 1
  calc p.path.inner = p.path.inner.map id := (List.map_id _).symm
    _ = p.path.inner.map (Segment.mk .map ∘ Segment.key) := List.map_congr_left fun u hu => by
      rw [Function.comp_apply, ← h.plain u hu]
      rfl

/-- slots with the same keys are the same -/
theorem eq_of_keys (hp : p.HoldsText) (hq : q.HoldsText) (h : p.path.keys = q.path.keys) : p = q := by
  rw [Path.keys_eq, Path.keys_eq] at h
  obtain ⟨hinner, hleaf⟩ := List.append_inj' h rfl
  have hsegments : p.path.segments = q.path.segments := by
    rw [hp.segments_eq, hq.segments_eq, hinner, (List.cons.inj hleaf).1]
  have hscope : p.scope = q.scope := hp.below.1.trans hq.below.1.symm
  obtain ⟨scope, ⟨segments, hfault⟩⟩ := p
  obtain ⟨scope', ⟨segments', hfault'⟩⟩ := q
  cases hsegments
  cases hscope
  rfl

end ScopedPath.HoldsText

/-! ### What a goal lacks -/

namespace Goal

variable {g : Goal} {s : Snapshot} {look : ScopedPath → Option Node}

/-- the violations of a goal when its slots hold what `look` says -/
def lacking (g : Goal) (look : ScopedPath → Option Node) : List Violation :=
  g.constraints.filterMap fun c => c.violation? (look c.slot)

theorem violations_eq_lacking (h : ∀ c ∈ g.constraints, s.get c.slot = .ok (look c.slot)) :
    g.violations s = .ok (g.lacking look) := by
  have hchecks : g.constraints.mapM (·.check s) = .ok (g.constraints.map fun c => c.violation? (look c.slot)) := by
    rw [mapM_eq_ok, List.forall₂_map_right_iff, List.forall₂_same]
    intro c hc
    rw [Constraint.check, h c hc]
    rfl
  rw [violations, hchecks, lacking]
  exact congrArg Except.ok (List.filterMap_map ..)

/-- the slots of a goal that has been checked can be read -/
theorem exists_get_of_violations {vs : List Violation} (h : g.violations s = .ok vs) :
    ∃ look : ScopedPath → Option Node, ∀ c ∈ g.constraints, s.get c.slot = .ok (look c.slot) := by
  obtain ⟨os, hos, -⟩ := bind_eq_ok.1 h
  refine ⟨fun p => ((s.get p).toOption).join, fun c hc => ?_⟩
  obtain ⟨o, -, hcheck⟩ := exists_of_mapM hos hc
  obtain ⟨value, hvalue, -⟩ := bind_eq_ok.1 hcheck
  simp only [hvalue]
  rfl

end Goal

namespace Snapshot

variable {s s' : Snapshot} {p : ScopedPath} {answer : String}

/-! ### Taking a text -/

/-- a text that is waited for is put where it is waited for -/
theorem takeAnswer_eq_put (hs : s.RootedAt .utterance) (hfits : s.Fits answeredPrompt.place .map)
    (hvalue : s.under? answerValue.place = some (.str answer)) (hslot : s.under? answerSlot.place = some (.str p.text))
    (hboolean : s.under? answerBoolean.place = none) (hp : ScopedPath.parse p.text = .ok p) :
    s.takeAnswer = s.put p (some (.str answer)) := by
  have hreaches : s.Reaches answerBoolean := reaches_of_fits hs hfits rfl
  have hget : s.get answerValue = .ok (some (.str answer)) := Store.read_of_under? (by decide) hvalue rfl
  have hget' : s.get answerSlot = .ok (some (.str p.text)) := Store.read_of_under? (by decide) hslot rfl
  have hflag : s.get answerBoolean = .ok none := by
    rw [get_eq hreaches (fun w hw => ?_), hboolean]
    rw [hboolean] at hw
    cases hw
  have hanswer : s.textAt answerValue = .ok (some answer) := by
    rw [textAt, hget]
    rfl
  have htarget : s.textAt answerSlot = .ok (some p.text) := by
    rw [textAt, hget']
    rfl
  have hnode : s.answerNode? answer = .ok (some (.str answer)) := by
    rw [answerNode?, flag, hflag]
    rfl
  rw [takeAnswer, hanswer]
  simp only [bind, Except.bind, htarget, hnode, hp]

end Snapshot

namespace Bot

variable {b : Bot} {g : Goal} {r : Response} {s s' s₁ : Snapshot} {v : Violation} {vs : List Violation}
  {score : Score} {answer : String} {es : List (String × Node)}

/-! ### A question and the turn after it -/

/-- a question can be asked if the active goal can be noted -/
theorem exists_update_ask (hutt : s.RootedAt .utterance) (hconv : s.RootedAt .conversation)
    (hintent : s.Fits intent.place .map) (g : Goal) (v : Violation) (score : Score) :
    ∃ s', s.update (g.ask v s score).commands = .ok s' := by
  obtain ⟨s', hupdate, -⟩ := exists_update_asking hutt hconv hintent g v score
  exact ⟨s', hupdate⟩

/-- a conversation waits for a text at a slot, and not for yes or no -/
structure AwaitsText (conv : Store) (p : ScopedPath) : Prop where
  slot : conv.under? ["prompt", "slot"] = some (.str p.text)
  text : conv.under? ["prompt", "boolean"] = none

/-- whatever was waited for before a question, after it the text of its slot is -/
theorem awaitsText_of_ask (hconv : s.RootedAt .conversation) (h : s.update (g.ask v s score).commands = .ok s₁) :
    AwaitsText s₁.conversation v.slot where
  slot := by
    refine under?_of_update_put (p := promptSlot) [.remove prompt, .put promptQuestion (.str v.prompt)] hconv
      (by decide) rfl rfl h ?_
    exact ⟨Command.avoids_put (by decide), Command.avoids_put (by decide)⟩
  text := by
    obtain ⟨a, ha, h⟩ := update_cons_eq_ok.1 h
    have hgone : a.under? promptBoolean.place = none :=
      under?_remove_of_place (Command.remove_of_run ha) (by rfl) (List.prefix_append ["prompt"] ["boolean"])
    refine (under?_of_update_of_avoids (q := promptBoolean.place) (fun c hc => ?_) h).trans hgone
    simp only [List.mem_cons, List.not_mem_nil, or_false] at hc
    rcases hc with rfl | rfl | rfl | rfl <;> exact Command.avoids_put (by decide)

/-- the turn after one that ends with `s`: the objects and the goal are kept, the next turn takes them up, and all that
its payload says is the answer -/
def Replies (s : Snapshot) (answer : String) (s' : Snapshot) : Prop :=
  ∃ goal s₁ user s₂, s.get intentName = .ok goal ∧ s.update (carrying goal) = .ok s₁ ∧
    (Snapshot.mk user s₁.conversation .empty).update seeding = .ok s₂ ∧
    s₂.update [.put answerValue (.str answer)] = .ok s'

/-- an answer in the next turn is put where it is waited for, among the objects that were there -/
theorem Replies.takeAnswer_eq {p : ScopedPath} {o : Node} (hobjects : s.under? objects.place = some o)
    (hawaits : AwaitsText s.conversation p) (hp : ScopedPath.parse p.text = .ok p) (h : Replies s answer s') :
    s'.RootedAt .utterance ∧ s'.under? objects.place = s.under? objects.place ∧
      s'.takeAnswer = s'.put p (some (.str answer)) := by
  obtain ⟨goal, s₁, user, s₂, -, hcarry, hseed, hpayload⟩ := h
  have hpartials : s₁.conversation.under? ["partials"] = some o := by
    have hkept := under?_partials_of_update hcarry
    rw [hobjects] at hkept
    exact hkept
  have hprompt (k : String) : s₁.conversation.under? ["prompt", k] = s.conversation.under? ["prompt", k] := by
    refine (edits_carrying hcarry).under?_of_apart (q := (.conversation, ["prompt", k])) (fun p hp => ?_)
      fun p hp => hp.elim
    rcases hp with rfl | rfl <;> exact Place.apart_of_head_ne (by decide) _ _ _ _
  have hseeded := seeded_of_update (sigil_root_of_seeding hseed) hseed
  have hobjects' := under?_objects_of_seeding hseed
  rw [hpartials, Option.getD_some] at hobjects'
  obtain ⟨s₃, hput, hnil⟩ := update_cons_eq_ok.1 hpayload
  cases hnil
  have hput := Command.put_of_run hput
  have hutt' : s'.RootedAt .utterance := rootedAt_put hput hseeded.rooted
  have hslot : s'.under? answerSlot.place = some (.str p.text) := by
    rw [under?_put_of_apart hput (by decide)]
    exact (hseeded.prompt "slot" []).trans ((hprompt "slot").trans hawaits.slot)
  have hboolean : s'.under? answerBoolean.place = none := by
    rw [under?_put_of_apart hput (by decide)]
    exact (hseeded.prompt "boolean" []).trans ((hprompt "boolean").trans hawaits.text)
  have hvalue : s'.under? answerValue.place = some (.str answer) :=
    under?_put_scalar hseeded.rooted (by decide) rfl rfl hput
  have hfits : s'.Fits answeredPrompt.place .map :=
    fits_put (p := answerValue) [⟨.map, "prompt"⟩] hseeded.rooted (List.append_nil _).symm (by simp) hput
  refine ⟨hutt', ?_, takeAnswer_eq_put hutt' hfits hvalue hslot hboolean hp⟩
  rw [under?_put_of_apart hput (by decide), hobjects', hobjects]

/-! ### Where the answer goes -/

/-- a text is put into a slot that can be read, and what that does to the other slots for texts -/
theorem exists_put_text {p : ScopedPath} {o : Option Node} (hp : p.HoldsText) (hs : s.RootedAt .utterance)
    (hfound : s.get p = .ok o) (answer : String) :
    ∃ s', s.put p (some (.str answer)) = .ok s' ∧ s'.get p = .ok (some (.str answer)) ∧
      ∀ q : ScopedPath, q.HoldsText → q.path.keys ≠ p.path.keys →
        (s'.get q = s.get q ↔ Apart p.path.keys q.path.keys ∨ s.get q ≠ .ok none) := by
  have hscalar : p.path.leaf.sigil.isScalar = true := by
    rw [hp.leaf]
    rfl
  have hcoerce : Node.coerce p.path.leaf.sigil (.str answer) = .ok (.str answer) := by
    rw [hp.leaf]
    rfl
  have hroot : s.RootedAt p.scope := hp.below.1 ▸ hs
  have hreaches : s.Reaches p := ⟨hp.plain, (Store.open_of_read hroot hp.plain hfound).1⟩
  obtain ⟨s', hput, hunder⟩ := exists_put_scalar hreaches hscalar hcoerce
  refine ⟨s', hput, Store.read_of_under? hp.plain hunder hp.leaf.symm, fun q hq hne => ?_⟩
  obtain ⟨store, hwrite, rfl⟩ := put_eq_ok.1 hput
  have hscope : q.scope = p.scope := hq.below.1.trans hp.below.1.symm
  rw [Snapshot.get, Snapshot.get, hscope, store_withStore_self]
  exact Store.read_write_eq_iff hroot hp.plain hp.leaf hq.plain hq.leaf hfound hwrite (Ne.symm hne)

/-- what an answer for a slot changes: the slot holds it; another slot for a text is as before, unless it was empty and
one of the two lies inside the other; and the goal lacks what it lacked, with the answer in the slot -/
structure Lands (g : Goal) (p : ScopedPath) (answer : String) (s s' : Snapshot) : Prop where
  held : s'.get p = .ok (some (.str answer))
  others : ∀ q : ScopedPath, q.HoldsText → q.path.keys ≠ p.path.keys →
    (s'.get q = s.get q ↔ Apart p.path.keys q.path.keys ∨ s.get q ≠ .ok none)
  lacks : ∃ look : ScopedPath → Option Node, (∀ c ∈ g.constraints, s.get c.slot = .ok (look c.slot)) ∧
    g.violations s = .ok (g.lacking look) ∧
      g.violations s' = .ok (g.lacking (Function.update look p (some (.str answer))))

theorem rootedAt_of_under? {scope : Scope} {k : String} {ks : List String} {w : Node}
    (h : s.under? (scope, k :: ks) = some w) : s.RootedAt scope :=
  Node.sigil_of_under?_cons h

/-- **An answer goes where it was asked for.**  A goal whose slots are for texts, none of them inside another, asks for
the slot of its first violation, whatever was waited for before.  If the next turn says an answer, the slot holds it;
of the other slots for texts only those change that were empty and lie around that slot or inside it, and what the goal
lacks is what it lacked, with the answer in the slot. -/
theorem lands_of_resolve (hslots : ∀ c ∈ g.constraints, c.slot.HoldsText ∧ c.slot.path.Obtained)
    (hkeys : ∀ c ∈ g.constraints, ∀ d ∈ g.constraints, c.slot.path.keys <+: d.slot.path.keys →
      c.slot.path.keys = d.slot.path.keys)
    (hconv : s.RootedAt .conversation) (hobjects : s.under? objects.place = some (.map es))
    (hintent : s.Fits intent.place .map) (hviolations : g.violations s = .ok (v :: vs))
    (h : b.resolve g s = .ok r) (answer : String) :
    ∃ s₁, r.snapshot.update r.commands = .ok s₁ ∧
      ∀ s₂, Replies s₁ answer s₂ → ∃ s₃, s₂.takeAnswer = .ok s₃ ∧ Lands g v.slot answer s s₃ := by
  have hutt : s.RootedAt .utterance := rootedAt_of_under? hobjects
  obtain ⟨c, hc, hslot⟩ := slot_of_mem_violations hviolations List.mem_cons_self
  rw [← hslot]
  obtain ⟨score, rfl⟩ : ∃ score, r = g.ask v s score := by
    rw [Repertoire.resolve, hviolations] at h
    exact ⟨_, (Except.ok.inj h).symm⟩
  have hresolution := resolution_of_resolve h
  obtain ⟨s₁, hs₁⟩ := exists_update_ask hutt hconv hintent g v score
  refine ⟨s₁, hs₁, fun s₂ hreplies => ?_⟩
  have hobjects₁ : s₁.under? objects.place = s.under? objects.place :=
    (hresolution.edits hs₁).under?_of_apart (q := objectAt []) (fun _ => apart_of_ownWrites)
      fun _ => apart_of_ownRemoves
  obtain ⟨hheld, hobtained⟩ := hslots c hc
  obtain ⟨hutt₂, hobjects₂, htake⟩ := hreplies.takeAnswer_eq (p := c.slot) (hobjects₁.trans hobjects)
    (hslot ▸ awaitsText_of_ask hconv hs₁) (hobtained.legible c.slot.scope).parse_text
  -- the turns between the question and the answer change no object
  have hget (q : ScopedPath) (hq : q.HoldsText) : s₂.get q = s.get q :=
    get_of_objects hq.below hutt hutt₂ (hobjects₂.trans hobjects₁)
  obtain ⟨look, hlook⟩ := Goal.exists_get_of_violations hviolations
  have hfound : s₂.get c.slot = .ok (look c.slot) := (hget c.slot hheld).trans (hlook c hc)
  obtain ⟨s₃, hput, hgot, hothers⟩ := exists_put_text hheld hutt₂ hfound answer
  refine ⟨s₃, htake.trans hput, hgot, fun q hq hne => ?_, look, hlook, Goal.violations_eq_lacking hlook,
    Goal.violations_eq_lacking fun d hd => ?_⟩
  · rw [← hget q hq]
    exact hothers q hq hne
  · by_cases hsame : d.slot = c.slot
    · rw [hsame, Function.update_self, hgot]
    · have hne : d.slot.path.keys ≠ c.slot.path.keys := fun hk => hsame ((hslots d hd).1.eq_of_keys hheld hk)
      have hapart : Apart c.slot.path.keys d.slot.path.keys :=
        ⟨fun hk => hne (hkeys c hc d hd hk).symm, fun hk => hne (hkeys d hd c hc hk)⟩
      rw [Function.update_of_ne hsame, (hothers d.slot (hslots d hd).1 hne).2 (.inl hapart),
        hget d.slot (hslots d hd).1]
      exact hlook d hd

def ticketSlot : ScopedPath :=
  ⟨.utterance, ⟨[⟨.map, "objects"⟩, ⟨.str, "ticket"⟩], by decide⟩⟩

def errand : Goal where
  name := "errand"
  constraints := [⟨titleSlot, "What?", none, .notNull⟩]
  successTemplate := ["<utt:/objects.ticket>"]

def noTitle : Violation :=
  ⟨titleSlot, "What?", none⟩

def errander : Bot where
  name := "errander"
  dictionary := (Dictionary.empty.insert ["say"] "utt:/intent.name -> errand").insert ["hello"]
    "utt:/prompt.value -> hello"
  workflows := [.basic "default"]
  processors := []
  actions := []
  goals := [("errand", errand)]

/-- the goal is active, and a question for yes or no has been left over -/
def errandBegun : Snapshot :=
  ⟨.empty, ⟨.map [("prompt", .map [("boolean", .bool true), ("slot", .str "utt:/intent?confirmed")])]⟩,
    ⟨.map [("intent", .map [("name", .str "errand")]), ("objects", .map []),
      ("prompt", .map [("boolean", .bool true), ("slot", .str "utt:/intent?confirmed")])]⟩⟩

def titlePrompt : List (String × Node) :=
  [("intent", .str "errand"), ("question", .str "What?"), ("slot", .str "utt:/objects/ticket.title")]

def errandAsked : Snapshot :=
  ⟨.empty, ⟨.map [("prompt", .map titlePrompt)]⟩,
    ⟨.map [("intent", .map [("name", .str "errand"), ("validated", .bool false)]), ("objects", .map []),
      ("prompt", .map [("boolean", .bool true), ("slot", .str "utt:/intent?confirmed")])]⟩⟩

def errandReplied (objects : List (String × Node)) : Snapshot :=
  ⟨.empty, ⟨.map [("intent", .map [("name", .str "errand")]), ("partials", .map []), ("prompt", .map titlePrompt)]⟩,
    ⟨.map [("intent", .map [("name", .str "errand")]), ("objects", .map objects),
      ("prompt", .map (titlePrompt ++ [("value", .str "hello")]))]⟩⟩

theorem resolve_errand : errander.resolve errand errandBegun = .ok (errand.ask noTitle errandBegun (.of 0 1)) := by
  rfl

theorem update_errand : errandBegun.update (errand.ask noTitle errandBegun (.of 0 1)).commands = .ok errandAsked := by
  rfl

theorem replies_errand : Replies errandAsked "hello" (errandReplied []) :=
  ⟨some (.str "errand"), _, .empty, _, by rfl, by rfl, by rfl, by rfl⟩

theorem holdsText_titleSlot : titleSlot.HoldsText :=
  ⟨⟨rfl, _, _, rfl⟩, by decide, rfl⟩

theorem holdsText_ticketSlot : ticketSlot.HoldsText :=
  ⟨⟨rfl, _, _, rfl⟩, by decide, rfl⟩

theorem slots_errand : ∀ c ∈ errand.constraints, c.slot.HoldsText ∧ c.slot.path.Obtained := by
  intro c hc
  obtain rfl := List.mem_singleton.1 hc
  exact ⟨holdsText_titleSlot, .parse (t := "/objects/ticket.title") (by rfl)⟩

theorem keys_errand : ∀ c ∈ errand.constraints, ∀ d ∈ errand.constraints,
    c.slot.path.keys <+: d.slot.path.keys → c.slot.path.keys = d.slot.path.keys := by
  intro c hc d hd _
  rw [List.mem_singleton.1 hc, List.mem_singleton.1 hd]

theorem violations_errand : errand.violations errandBegun = .ok [noTitle] := by
  rfl

theorem fits_intent_errand : errandBegun.Fits intent.place .map := fun w hw => by
  cases hw
  rfl

/-- the title is taken for the question for it, and not for the one left over -/
theorem lands_of_resolve_errand :
    errander.resolve errand errandBegun = .ok (errand.ask noTitle errandBegun (.of 0 1)) ∧
      errandBegun.update (errand.ask noTitle errandBegun (.of 0 1)).commands = .ok errandAsked ∧
      Replies errandAsked "hello" (errandReplied []) ∧
      ∃ s, (errandReplied []).takeAnswer = .ok s ∧ Lands errand titleSlot "hello" errandBegun s := by
  refine ⟨resolve_errand, update_errand, replies_errand, ?_⟩
  have hconv : errandBegun.RootedAt .conversation := rfl
  have hobjects : errandBegun.under? objects.place = some (.map []) := rfl
  obtain ⟨s₁, hs₁, h⟩ := lands_of_resolve slots_errand keys_errand hconv hobjects fits_intent_errand violations_errand
    resolve_errand "hello"
  obtain rfl : errandAsked = s₁ := Except.ok.inj (update_errand.symm.trans hs₁)
  exact h _ replies_errand

/-- the map of the title takes a place where a text could have been: what was empty there cannot be read any more -/
theorem not_unchanged_errand :
    ¬ ∀ (b : Bot) (g : Goal) (s s₁ s₂ s₃ : Snapshot) (r : Response) (v : Violation) (vs : List Violation)
        (es es' : List (String × Node)) (answer : String),
      (∀ c ∈ g.constraints, c.slot.HoldsText ∧ c.slot.path.Obtained) →
      (∀ c ∈ g.constraints, ∀ d ∈ g.constraints, c.slot.path.keys <+: d.slot.path.keys →
        c.slot.path.keys = d.slot.path.keys) →
      s.RootedAt .utterance → s.RootedAt .conversation → s.under? objects.place = some (.map es) →
      s.under? intent.place = some (.map es') → s.Fits prompt.place .map → s.Fits partials.place .map →
      g.violations s = .ok (v :: vs) → b.resolve g s = .ok r → r.snapshot.update r.commands = .ok s₁ →
      Replies s₁ answer s₂ → (∃ s', s₂.put v.slot (some (.str answer)) = .ok s') → s₂.takeAnswer = .ok s₃ →
      ∀ q : ScopedPath, q.HoldsText → q.path.keys ≠ v.slot.path.keys → s₃.get q = s.get q := by
  intro h
  have hput : (errandReplied []).put titleSlot (some (.str "hello")) =
      .ok (errandReplied [("ticket", .map [("title", .str "hello")])]) := by rfl
  have htake : (errandReplied []).takeAnswer = .ok (errandReplied [("ticket", .map [("title", .str "hello")])]) := by
    rfl
  have hsame := h errander errand errandBegun errandAsked (errandReplied []) _ _ noTitle [] _ _ "hello" slots_errand
    keys_errand rfl rfl (by rfl) (by rfl) (fun w hw => by cases hw; rfl) (fun w hw => by cases hw) violations_errand
    resolve_errand update_errand replies_errand ⟨_, hput⟩ htake ticketSlot holdsText_ticketSlot (by decide)
  have hbefore : errandBegun.get ticketSlot = .ok none := by rfl
  rw [hbefore] at hsame
  cases hsame

end Bot

end Dialogue
