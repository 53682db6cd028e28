import Dialogue.Proofs.Bot.Handover
import Dialogue.Proofs.Store.Guarded
import Dialogue.Proofs.Store.Open
import Dialogue.Proofs.Store.Ordered

/-!
# Turns without an answer

A turn in which no reading of the input gives a response still takes up what the conversation keeps, and keeps it
again.  The two come to nothing: the stores are as they were, but for an empty map of objects that is made if the
conversation has none (`Snapshot.stores_of_carrying`).  So a second such turn changes nothing at all
(`Bot.stays_of_unanswered`).
-/

namespace Dialogue

open Slots Snapshot

namespace Store

/-- a conversation with a map of objects, which is empty if there was none -/
def withPartials (conv : Store) : Store :=
  if (conv.raw? "partials").isSome then conv else ⟨conv.root.setChild (.key "partials") (.map [])⟩

variable {conv : Store}

theorem raw?_eq (s : Store) (key : String) : s.raw? key = s.under? [key] := by
  rw [raw?, under?, Node.under?_singleton]
  cases s.root <;> rfl

theorem withPartials_of_some {v : Node} (h : conv.under? ["partials"] = some v) : conv.withPartials = conv := by
  have hraw : (conv.raw? "partials").isSome = true := by
    rw [raw?_eq, h]
    rfl
  exact if_pos hraw

theorem withPartials_of_none (h : conv.under? ["partials"] = none) :
    conv.withPartials = ⟨conv.root.setChild (.key "partials") (.map [])⟩ := by
  have hraw : ¬ (conv.raw? "partials").isSome = true := by
    rw [raw?_eq, h]
    exact Bool.false_ne_true
  exact if_neg hraw

theorem ordered_withPartials (h : conv.root.Ordered) : conv.withPartials.root.Ordered := by
  unfold withPartials
  split
  · exact h
  · exact Node.ordered_setChild h (Node.ordered_fresh .map) _

theorem withPartials_withPartials (conv : Store) : conv.withPartials.withPartials = conv.withPartials := by
  cases h : conv.under? ["partials"] with
  | some v => rw [withPartials_of_some h, withPartials_of_some h]
  | none =>
    rw [withPartials_of_none h]
    by_cases hroot : conv.root.sigil = .map
    · refine withPartials_of_some (v := .map []) ?_
      rw [under?, Node.under?_singleton, Node.child?_setChild_self hroot]
    · -- no key can be put where there is no map
      have hsame (v : Node) (hv : v.sigil ≠ .map) : v.setChild (.key "partials") (.map []) = v := by
        cases v with
        | map es => exact absurd rfl hv
        | _ => rfl
      rw [hsame _ hroot]
      exact (withPartials_of_none h).trans (by rw [hsame _ hroot])

theorem write_partials_of_none {conv' : Store} (hroot : conv.root.sigil = .map)
    (hnone : conv.under? ["partials"] = none) (h : conv.write partials.path (some (.map [])) = .ok conv') :
    conv' = conv.withPartials := by
  have hwrite : Node.writeLeaf partials.path (some (.map [])) conv.root = .ok conv'.root := write_eq_ok h
  obtain ⟨slot, new, hslot, hnew, hroot'⟩ := Node.writeLeaf_eq_ok.1 hwrite
  obtain rfl := Node.eq_key_of_slot? hroot hslot
  -- an empty map is stored as it is
  cases hnew
  rw [withPartials_of_none hnone]
  cases conv'
  cases hroot'
  rfl

end Store

namespace Snapshot

variable {s s' : Snapshot} {p : ScopedPath} {value : Option Node} {user conv : Store}

/-- the end of a turn puts the objects back that its beginning has taken up -/
theorem partials_of_copy (hconv : conv.root.Ordered)
    (hseeding : (Snapshot.mk user conv .empty).update Bot.seeding = .ok s)
    (h : (Command.copy partials objects).run s = .ok s') : s' = { s with conversation := conv.withPartials } := by
  have hroot := sigil_root_of_seeding hseeding
  have hs : s.Seeded conv := seeded_of_update hroot hseeding
  obtain ⟨value, hget, hput⟩ := Command.put_of_run_copy h
  have hvalue : value = some ((conv.under? ["partials"]).getD (.map [])) :=
    (under?_get hs.rooted (by decide) hget).symm.trans (under?_objects_of_seeding hseeding)
  obtain ⟨store, hwrite, rfl⟩ := put_eq_ok.1 hput
  rw [show s.store partials.scope = conv from hs.conversation, hvalue] at hwrite
  have hstore : store = conv.withPartials := by
    cases hpartials : conv.under? ["partials"] with
    | some v =>
      rw [hpartials, Option.getD_some] at hwrite
      rw [Store.withPartials_of_some hpartials]
      exact Store.write_eq_self (p := partials.path) hconv hpartials
        (fun new hnew => Node.leafValue_map_some rfl hnew) hwrite
    | none =>
      rw [hpartials, Option.getD_none] at hwrite
      exact Store.write_partials_of_none hroot hpartials hwrite
  rw [hstore]
  rfl

/-- **What the end of a turn makes of its beginning**: nothing, but an empty map of objects. -/
theorem stores_of_carrying {goal : Option Node} (hconv : conv.root.Ordered)
    (hseeding : (Snapshot.mk user conv .empty).update Bot.seeding = .ok s) (hgoal : s.get intentName = .ok goal)
    (h : s.update (Bot.carrying goal) = .ok s') : s'.user = user ∧ s'.conversation = conv.withPartials := by
  have hs : s.Seeded conv := seeded_of_update (sigil_root_of_seeding hseeding) hseeding
  obtain ⟨s₁, hcopy, h⟩ := bind_eq_ok.1 h
  have hs₁ := partials_of_copy hconv hseeding hcopy
  have huser : s₁.user = user := by
    rw [hs₁]
    exact store_of_seeding hseeding (show Scope.user ≠ .utterance by decide)
  have hconversation : s₁.conversation = conv.withPartials := by rw [hs₁]
  cases goal with
  | none =>
    cases h
    exact ⟨huser, hconversation⟩
  | some g =>
    obtain ⟨s₂, hname, h⟩ := bind_eq_ok.1 h
    cases h
    have hput := Command.put_of_run hname
    -- the name of the goal is the one that the conversation has
    have hfound : conv.withPartials.under? carriedIntentName.path.keys = some g := by
      have hkept : s₁.under? carriedIntentName.place = s.under? carriedIntentName.place :=
        under?_copy_of_apart hcopy (by decide)
      have htaken : s.under? intentName.place = some g := under?_get hs.rooted (by decide) hgoal
      have hconv : s.under? carriedIntentName.place = conv.under? ["intent", "name"] := by
        rw [under?, show s.store carriedIntentName.place.1 = conv from hs.conversation]
        rfl
      rw [← hconversation]
      exact hkept.trans (hconv.trans ((hs.intent "name" []).symm.trans htaken))
    obtain ⟨store, hwrite, rfl⟩ := put_eq_ok.1 hput
    rw [show s₁.store carriedIntentName.scope = conv.withPartials from hconversation] at hwrite
    have hleaf : ∀ new, Node.leafValue carriedIntentName.path (some g) (some g) = .ok new → new = some g := by
      intro new hnew
      have hg : g.sigil = .str := Store.sigil_of_read hgoal
      rw [Node.leafValue_of_isScalar rfl] at hnew
      cases g with
      | str x =>
        cases hnew
        rfl
      | _ => cases hg
    rw [Store.write_eq_self (Store.ordered_withPartials hconv) hfound hleaf hwrite]
    exact ⟨huser, rfl⟩

end Snapshot

namespace Bot

variable {b : Bot} {n : Nat} {input : String} {user conv : Store} {t t' : Tally} {turn : Turn} {s : Snapshot}

/-- no reading of an input gives a response -/
def Unanswered (b : Bot) (input : String) (user conv : Store) : Prop :=
  ∀ (s : Snapshot) (w : Workflow), (Snapshot.mk user conv .empty).update seeding = .ok s → b.workflow = .ok w →
    ∀ v, w.Reads (.parse input) v → ∀ r, b.candidate w s v ≠ .ok (some r)

/-- the response to nothing has no commands and no actions, so a turn without an answer is its beginning and its end -/
theorem eq_of_unanswered (hconv : conv.root.Ordered) (hu : b.Unanswered input user conv)
    (h : Yields (b.answerWithin n input user conv) t turn t') : turn = ⟨notUnderstood, user, conv.withPartials⟩ := by
  simp only [answerWithin, yields_bind, yields_liftDialogue, yields_liftState, yields_pure] at h
  obtain ⟨s₀, _, ⟨hseeding, rfl⟩, w, _, ⟨hw, rfl⟩, r, _, ⟨hr, rfl⟩, s₁, _, ⟨hs₁, rfl⟩, ⟨said, s₂⟩, _, hran, goal, _,
    ⟨hgoal, rfl⟩, s₃, _, ⟨hs₃, rfl⟩, rfl, rfl⟩ := h
  obtain rfl : r = .ofNothing s₀ := by
    rcases candidate_of_respond hr with rfl | ⟨v, hv, hcandidate⟩
    · rfl
    · exact absurd hcandidate (hu s₀ w hseeding hw v hv r)
  cases hs₁
  rw [processAll, show (Response.ofNothing s₀).actions = [] from rfl, List.foldlM_nil, yields_pure] at hran
  obtain ⟨hsaid, rfl⟩ := hran
  cases hsaid
  obtain ⟨huser, hconversation⟩ := stores_of_carrying hconv hseeding hgoal hs₃
  rw [huser, hconversation]
  rfl

/-- turns of bots with inputs, one after the other, none of which is answered, and the stores after each of them -/
inductive Unheard : Store → Store → List (Bot × String) → List (Store × Store) → Prop
  | nil {user conv : Store} : Unheard user conv [] []
  | cons {b : Bot} {input : String} {user conv : Store} {t t' : Tally} {turn : Turn} {turns : List (Bot × String)}
      {stores : List (Store × Store)} (hu : b.Unanswered input user conv)
      (h : Yields (b.answer input user conv) t turn t') (hrest : Unheard turn.user turn.conversation turns stores) :
    Unheard user conv ((b, input) :: turns) ((turn.user, turn.conversation) :: stores)

theorem Unheard.eq {turns : List (Bot × String)} {stores : List (Store × Store)} (hconv : conv.root.Ordered)
    (h : Unheard user conv turns stores) : ∀ p ∈ stores, p = (user, conv.withPartials) := by
  induction h with
  | nil => exact fun p hp => absurd hp List.not_mem_nil
  | @cons b input user conv t t' turn turns stores hu hturn hrest ih =>
    obtain rfl := eq_of_unanswered hconv hu hturn
    have hlater := ih (Store.ordered_withPartials hconv)
    rw [Store.withPartials_withPartials] at hlater
    exact List.forall_mem_cons.2 ⟨rfl, hlater⟩

/-- **A turn that is not understood leaves the stores as they were**, but for an empty map of objects that is made if
the conversation has none; the turns after it that are not understood either change nothing. -/
theorem stays_of_unanswered (hconv : conv.root.Ordered) :
    (∀ (b : Bot) (input : String) (t t' : Tally) (turn : Turn), b.Unanswered input user conv →
      Yields (b.answer input user conv) t turn t' →
        turn.reply = notUnderstood ∧ turn.user = user ∧ turn.conversation = conv.withPartials) ∧
      ∀ (turns : List (Bot × String)) (stores : List (Store × Store)), Unheard user conv turns stores →
        ∀ p ∈ stores, p = (user, conv.withPartials) := by
  constructor
  · intro b input t t' turn hu h
    obtain rfl := eq_of_unanswered hconv hu h
    exact ⟨rfl, rfl, rfl⟩
  · intro turns stores h
    exact h.eq hconv

def tidyNamed : Store :=
  ⟨.map [("intent", .map [("name", .str "tidy")])]⟩

/-- two turns with a word that is no pattern -/
theorem stays_of_unanswered_tidy :
    tidyNamed.root.Ordered ∧ tidy.Unanswered "hello" .empty tidyNamed ∧ tidyAfter [] = tidyNamed.withPartials ∧
      Unheard .empty tidyNamed [(tidy, "hello"), (tidy, "hello")]
        [(.empty, tidyAfter []), (.empty, tidyAfter [])] ∧
      ∀ p ∈ [(Store.empty, tidyAfter []), (Store.empty, tidyAfter [])], p = (Store.empty, tidyNamed.withPartials) := by
  have hordered : tidyNamed.root.Ordered := by
    refine .map (by simp [Entries.Sorted, Entries.keys]) ?_
    simp only [List.mem_singleton, forall_eq]
    refine .map (by simp [Entries.Sorted, Entries.keys]) ?_
    simp only [List.mem_singleton, forall_eq]
    exact .str "tidy"
  have hlookup : tidy.dictionary.lookup (.parse "hello") = .ok none := by rfl
  have hu (user conv : Store) : tidy.Unanswered "hello" user conv := by
    rintro s w _ hw v ⟨readings, hreadings, hv⟩ r
    cases hw
    cases hreadings
    obtain rfl := List.mem_singleton.1 hv
    rw [candidate, hlookup]
    intro h
    cases h
  have hturn : Yields (tidy.answer "hello" .empty tidyNamed) [] ⟨notUnderstood, .empty, tidyAfter []⟩ [] := by rfl
  have hagain : Yields (tidy.answer "hello" .empty (tidyAfter [])) [] ⟨notUnderstood, .empty, tidyAfter []⟩ [] := by rfl
  have hrun : Unheard .empty tidyNamed [(tidy, "hello"), (tidy, "hello")]
      [(.empty, tidyAfter []), (.empty, tidyAfter [])] :=
    .cons (hu _ _) hturn (.cons (hu _ _) hagain .nil)
  have hfirst := (stays_of_unanswered hordered).1 tidy "hello" [] [] ⟨notUnderstood, .empty, tidyAfter []⟩
    (hu .empty tidyNamed) hturn
  exact ⟨hordered, hu _ _, hfirst.2.2, hrun, (stays_of_unanswered hordered).2 _ _ hrun⟩

end Bot

end Dialogue
