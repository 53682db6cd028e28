import Dialogue.Bot.Script
import Dialogue.Proofs.Bot.Carry
import Dialogue.Proofs.Bot.Release

/-!
# Objects from turn to turn

The last snapshot of a turn has objects; the conversation keeps them, and the next turn begins with them
(`Bot.handsOver_iff`).  A turn that has lost all its objects at once, and their map with them, has none to hand over:
then the conversation keeps those that it had, and they come back.

* `Bot.answerWithin_eq` — a turn is what leads to the last snapshot, and then the keeping of its objects;
* `Bot.under?_partials_of_answerWithin` — the objects that a turn leaves to the conversation;
* `Bot.SparesObjects.hasObjects` — the map of objects is lost only through a payload or an action that takes it away.
-/

namespace Dialogue

open Slots Snapshot

/-! ### What a turn leaves -/

namespace Snapshot

variable {s s' : Snapshot} {user conv : Store}

/-- the objects of a snapshot, which are an empty map if there are none -/
def allObjects (s : Snapshot) : Node :=
  (s.under? objects.place).getD (.map [])

/-- **A turn leaves its objects to the conversation**; if there are none, those that are there stay. -/
theorem under?_partials_of_update {goal : Option Node} (h : s.update (Bot.carrying goal) = .ok s') :
    s'.under? partials.place = some ((s.under? objects.place).getD ((s.under? partials.place).getD (.map []))) := by
  obtain ⟨hutt, hconv⟩ := rootedAt_of_carrying h
  obtain ⟨s₁, h₁, h⟩ := bind_eq_ok.1 h
  have hname : ∀ c ∈ (goal.map (Command.put carriedIntentName)).toList, c.Avoids partials.place := by
    intro c hc
    obtain ⟨v, -, rfl⟩ := Option.map_eq_some_iff.1 (Option.mem_toList.1 hc)
    exact Command.avoids_put (by decide)
  rw [under?_of_update_of_avoids hname h]
  rcases under?_copy hconv hutt (by decide) (by decide) rfl h₁ with ⟨v, hsource, htarget⟩ | ⟨hsource, htarget⟩
  · rw [htarget, hsource, Option.getD_some]
  · rw [htarget, hsource, Option.getD_none]

end Snapshot

namespace Bot

variable {b : Bot} {n : Nat} {input reply : String} {user conv : Store} {t t' : Tally} {turn : Turn} {s s' : Snapshot}

/-- a turn up to its end: what is said, and the last snapshot -/
def closing (n : Nat) (b : Bot) (input : String) (user conversation : Store) : Run (String × Snapshot) := do
  let s ← (Snapshot.mk user conversation .empty).update seeding
  let workflow ← b.workflow
  let response ← b.respond workflow (Utterance.parse input) s
  let s ← response.snapshot.update response.commands
  b.processAll n response.actions response.spoken s

/-- a turn ends with the keeping of its objects and its goal -/
theorem answerWithin_eq (n : Nat) (b : Bot) (input : String) (user conv : Store) :
    b.answerWithin n input user conv = (do
      let (reply, s) ← closing n b input user conv
      let s ← s.update (carrying (← s.get intentName))
      return ⟨reply, s.user, s.conversation⟩) := by
  simp only [answerWithin, closing, bind_assoc]

/-- the last snapshot of a turn -/
def Closing (b : Bot) (n : Nat) (input : String) (user conv : Store) (t : Tally) (s : Snapshot) (t' : Tally) : Prop :=
  ∃ reply, Yields (closing n b input user conv) t (reply, s) t'

/-- a turn ends with one snapshot -/
theorem Closing.unique {s₁ s₂ : Snapshot} {u : Tally} (h : b.Closing n input user conv t s₁ t')
    (h' : b.Closing n input user conv t s₂ u) : s₁ = s₂ := by
  obtain ⟨reply, h⟩ := h
  obtain ⟨reply', h'⟩ := h'
  exact congrArg Prod.snd (h.unique h').1

theorem steps_of_closing (h : b.Closing n input user conv t s t') :
    ∃ s₀ w r s₁, (Snapshot.mk user conv .empty).update seeding = .ok s₀ ∧ b.workflow = .ok w ∧
      b.respond w (.parse input) s₀ = .ok r ∧ r.snapshot.update r.commands = .ok s₁ ∧ b.Ran n r.actions s₁ t s t' := by
  obtain ⟨reply, h⟩ := h
  simp only [closing, processAll, yields_bind, yields_liftDialogue, yields_liftState] at h
  obtain ⟨s₀, _, ⟨hs₀, rfl⟩, w, _, ⟨hw, rfl⟩, r, _, ⟨hr, rfl⟩, s₁, _, ⟨hs₁, rfl⟩, hran⟩ := h
  exact ⟨s₀, w, r, s₁, hs₀, hw, hr, hs₁, ran_of_foldlM hran⟩

theorem closing_of_answerWithin (h : Yields (b.answerWithin n input user conv) t turn t') :
    ∃ s, b.Closing n input user conv t s t' ∧ ∃ goal s', s.update (carrying goal) = .ok s' ∧
      turn.conversation = s'.conversation := by
  rw [answerWithin_eq] at h
  simp only [yields_bind, yields_liftState, yields_pure] at h
  obtain ⟨⟨reply, s⟩, _, hclosing, goal, _, ⟨-, rfl⟩, s', _, ⟨hs', rfl⟩, rfl, rfl⟩ := h
  exact ⟨s, ⟨reply, hclosing⟩, goal, s', hs', rfl⟩

/-- **What every step of a turn keeps holds at its end.** -/
theorem Closing.of_keeps {J : Snapshot → Prop} (hJ : b.Keeps J)
    (hpayload : ∀ {w u payload cs σ σ'}, b.workflow = .ok w → w.Reads (.parse input) u →
      b.dictionary.lookup u = .ok (some payload) → Command.parseAll payload = .ok cs → J σ → σ.update cs = .ok σ' →
      J σ')
    (hanswer : ∀ {σ σ'}, J σ → σ.takeAnswer = .ok σ' → J σ')
    (hseeded : ∀ {σ}, (Snapshot.mk user conv .empty).update seeding = .ok σ → J σ)
    (h : b.Closing n input user conv t s t') : J s := by
  obtain ⟨s₀, w, r, s₁, hs₀, hw, hr, hs₁, hran⟩ := steps_of_closing h
  have h₀ : J s₀ := hseeded hs₀
  obtain rfl | ⟨u, hu, s₂, g, s₃, hresponds⟩ := responds_of_respond (hJ.builtIn w hw) hr
  · -- nothing was understood, and nothing happens
    cases hs₁
    cases hran
    exact h₀
  · obtain ⟨payload, cs, hlookup, hparse, hs₂⟩ := hresponds.payload
    obtain ⟨name, -, hg⟩ := hresponds.active
    have h₂ : J s₂ := hpayload hw hu hlookup hparse h₀ hs₂
    have h₃ : J s₃ := hanswer h₂ hresponds.answered
    have hres := resolution_of_resolve hresponds.resolved
    have h₁ : J s₁ := hJ.of_resolution ⟨name, hg⟩ h₃ hres hs₁
    exact Keeps.of_ran hJ.of_process (fun a ha => hres.hasAction ha) h₁ hran

/-- **What a turn leaves to the conversation.** -/
theorem under?_partials_of_answerWithin (h : Yields (b.answerWithin n input user conv) t turn t') :
    ∃ s, b.Closing n input user conv t s t' ∧ turn.conversation.under? ["partials"] =
      some ((s.under? objects.place).getD ((s.under? partials.place).getD (.map []))) := by
  obtain ⟨s, hclosing, goal, s', hs', hconv⟩ := closing_of_answerWithin h
  refine ⟨s, hclosing, ?_⟩
  rw [hconv]
  exact under?_partials_of_update hs'

end Bot

/-! ### The map of objects -/

/-- a command neither writes the map of objects as a whole nor takes it away -/
def Command.SparesObjects (c : Command) : Prop :=
  ∀ p, c.Writes p ∨ c.Removes p → p.place ≠ objects.place

namespace Snapshot

variable {s s' : Snapshot}

/-- objects are there, if only an empty map -/
def HasObjects (s : Snapshot) : Prop :=
  s.RootedAt .utterance ∧ (s.under? objects.place).isSome

/-- a path that leads to the map of objects or to its root leads to the map -/
theorem place_eq_objects {p : ScopedPath} (h : p.scope = objects.place.1 ∧ p.path.keys <+: objects.place.2) :
    p.place = objects.place := by
  obtain ⟨hscope, hprefix⟩ := h
  have hkeys : p.path.keys = ["objects"] := by
    obtain ⟨k, ks, hkeys⟩ := List.exists_cons_of_ne_nil (keys_ne_nil p.path)
    rw [hkeys] at hprefix ⊢
    obtain ⟨rfl, hks⟩ := List.cons_prefix_cons.1 hprefix
    rw [List.prefix_nil.1 hks]
  rw [ScopedPath.place, hscope, hkeys]
  rfl

theorem HasObjects.of_edits {W R : ScopedPath → Prop} (hs : s.HasObjects) (hW : ∀ p, W p → p.place ≠ objects.place)
    (hR : ∀ p, R p → p.place ≠ objects.place) (h : s.Edits W R s') : s'.HasObjects :=
  ⟨h.rootedAt hs.1, h.isSome_under? (fun p hp hprefix => hW p hp (place_eq_objects hprefix))
    (fun p hp hprefix => hR p hp (place_eq_objects hprefix)) hs.2⟩

theorem HasObjects.of_update {cs : List Command} (hs : s.HasObjects) (hcs : ∀ c ∈ cs, c.SparesObjects)
    (h : s.update cs = .ok s') : s'.HasObjects := by
  have hedits : s.Edits (fun p => p.place ≠ objects.place) (fun p => p.place ≠ objects.place) s' :=
    edits_update (fun c hc p hp => hcs c hc p (.inl hp)) (fun c hc p hp => hcs c hc p (.inr hp)) h
  exact hs.of_edits (fun _ hp => hp) (fun _ hp => hp) hedits

/-- an answer leaves the objects, or is in their place -/
theorem HasObjects.of_put {p : ScopedPath} {v : Node} (hs : s.HasObjects) (h : s.put p (some v) = .ok s') :
    s'.HasObjects := by
  refine ⟨rootedAt_put h hs.1, ?_⟩
  by_cases hp : p.place = objects.place
  · have hscope : p.scope = .utterance := congrArg Prod.fst hp
    have hkeys : p.path.inner.map Segment.key ++ [p.path.leaf.key] = [] ++ ["objects"] := by
      rw [← Path.keys_eq]
      exact congrArg Prod.snd hp
    have hplain : p.path.Plain := by
      have hinner := List.map_eq_nil_iff.1 (List.append_inj_left' hkeys rfl)
      intro seg hseg
      rw [hinner] at hseg
      cases hseg
    have hroot : s.RootedAt p.scope := by
      rw [hscope]
      exact hs.1
    obtain ⟨new, hleaf, hnew⟩ := under?_put hroot hplain h
    rw [← hp, hnew]
    exact Node.isSome_of_leafValue hleaf
  · exact isSome_under?_put h (fun hprefix => hp (place_eq_objects hprefix)) hs.2

end Snapshot

namespace Bot

variable {b : Bot} {n : Nat} {input : String} {user conv : Store} {t t' : Tally} {turn : Turn} {s s' : Snapshot}

/-- what is done about an input, with the built-in stages, takes no map of objects away -/
structure SparesObjects (b : Bot) (input : String) : Prop where
  builtIn : b.BuiltIn
  payloads : ∀ {w : Workflow}, b.workflow = .ok w → ∀ {u : Utterance}, w.Reads (.parse input) u →
    ∀ {payload : String} {cs : List Command}, b.dictionary.lookup u = .ok (some payload) →
      Command.parseAll payload = .ok cs → ∀ c ∈ cs, c.SparesObjects
  actions : ∀ {a : Action}, b.HasAction a → ∀ {runs : Nat} {s : Snapshot} {cs : List Command},
    a.act runs b.goals s = .ok cs → ∀ c ∈ cs, c.SparesObjects

/-- neither responses nor releases take the map of objects away -/
theorem SparesObjects.keeps (hb : b.SparesObjects input) : b.Keeps HasObjects where
  builtIn := hb.builtIn
  act ha hs h := by
    obtain ⟨s₁, runs, cs, hremove, hcs, hupdate⟩ := Action.update_of_run h
    have hspoken : s₁.HasObjects :=
      ⟨rootedAt_remove hremove hs.1, isSome_under?_remove hremove (by decide) hs.2⟩
    exact hspoken.of_update (hb.actions ha hcs) hupdate
  resolve _ hs hr h := by
    refine hs.of_edits (fun p hp hplace => ?_) (fun p hp hplace => ?_) (hr.edits h)
    · have hapart : p.place.Apart (objectAt []) := apart_of_ownWrites hp
      rw [hplace] at hapart
      exact (hapart rfl).1 List.prefix_rfl
    · have hapart : p.place.Apart (objectAt []) := apart_of_ownRemoves hp
      rw [hplace] at hapart
      exact (hapart rfl).1 List.prefix_rfl
  release hs h := by
    rcases steps_of_release h with ⟨rfl, -⟩ | ⟨g, -, h⟩
    · exact hs
    · have hedits := edits_of_release (W := fun _ => False) (R := fun p => p.place ≠ objects.place)
        (fun slot _ p hp hplace => ?_) h
      · exact hs.of_edits (fun _ hp => hp.elim) (fun _ hp => hp) hedits
      · rw [place_of_join hp] at hplace
        exact keys_ne_nil slot (List.cons.inj (congrArg Prod.snd hplace)).2
  speak hs h := ⟨rootedAt_put h hs.1, isSome_under?_put h (by decide) hs.2⟩

/-- **The map of objects is lost only through a payload or an action.** -/
theorem SparesObjects.hasObjects (hb : b.SparesObjects input) (h : b.Closing n input user conv t s t') :
    s.HasObjects := by
  refine h.of_keeps hb.keeps
    (fun hw hu hlookup hparse hs hupdate => hs.of_update (hb.payloads hw hu hlookup hparse) hupdate)
    (fun hs htake => ?_) fun hseeding => ⟨rootedAt_of_update hseeding rfl, ?_⟩
  · obtain rfl | ⟨_, _, _, _, -, hput⟩ := steps_of_takeAnswer htake
    · exact hs
    · exact hs.of_put hput
  · rw [under?_objects_of_seeding hseeding]
    rfl

/-- the conversation keeps exactly the objects of a snapshot, and a turn begins with them -/
structure HandsOver (s : Snapshot) (conv : Store) : Prop where
  kept : conv.under? ["partials"] = some s.allObjects
  takenUp : ∀ {user : Store} {s' : Snapshot}, (Snapshot.mk user conv .empty).update seeding = .ok s' →
    s'.under? objects.place = some s.allObjects

theorem handsOver_of_kept (h : conv.under? ["partials"] = some s.allObjects) : HandsOver s conv := by
  refine ⟨h, fun hseeding => ?_⟩
  rw [under?_objects_of_seeding hseeding, h, Option.getD_some]

/-- **Whether a turn hands its objects over.**  It does exactly if its last snapshot has a map of objects, or if the
conversation has kept none before; so it always does if payloads and actions leave the map as a whole alone, whichever
of its objects they take away. -/
theorem handsOver_iff (h : Yields (b.answerWithin n input user conv) t turn t') :
    ∃ s, b.Closing n input user conv t s t' ∧
      (HandsOver s turn.conversation ↔
        (s.under? objects.place).isSome ∨ (s.under? partials.place).getD (.map []) = .map []) ∧
      (b.SparesObjects input → HandsOver s turn.conversation) := by
  obtain ⟨s, hclosing, hpartials⟩ := under?_partials_of_answerWithin h
  have hiff : HandsOver s turn.conversation ↔
      (s.under? objects.place).isSome ∨ (s.under? partials.place).getD (.map []) = .map [] := by
    cases hobjects : s.under? objects.place with
    | some v =>
      rw [hobjects, Option.getD_some] at hpartials
      refine iff_of_true (handsOver_of_kept ?_) (.inl rfl)
      rw [hpartials, allObjects, hobjects, Option.getD_some]
    | none =>
      rw [hobjects, Option.getD_none] at hpartials
      have hall : s.allObjects = .map [] := by rw [allObjects, hobjects, Option.getD_none]
      constructor
      · intro hhands
        have hkept := hhands.kept
        rw [hpartials, hall, Option.some_inj] at hkept
        exact .inr hkept
      · rintro (hsome | hempty)
        · cases hsome
        · refine handsOver_of_kept ?_
          rw [hpartials, hall, hempty]
  exact ⟨s, hclosing, hiff, fun hb => hiff.2 (.inl (hb.hasObjects hclosing).2)⟩

/-- a bot that forgets an object, or all of them at once -/
def tidy : Bot where
  name := "tidy"
  dictionary := (Dictionary.empty.insert ["forget"] "utt:/intent.name -> tidy; -! utt:/objects").insert ["drop"]
    "utt:/intent.name -> tidy; -! utt:/objects.title"
  workflows := [.basic "default"]
  processors := []
  actions := []
  goals := [("tidy", { name := "tidy" })]

def tidyBefore : Store :=
  ⟨.map [("partials", .map [("title", .str "hello")])]⟩

def tidyAfter (kept : List (String × Node)) : Store :=
  ⟨.map [("intent", .map [("name", .str "tidy")]), ("partials", .map kept)]⟩

def tidyLast (utterance : List (String × Node)) : Snapshot :=
  ⟨.empty, tidyBefore,
    ⟨.map ([("intent", .map [("name", .str "tidy"), ("validated", .bool true)])] ++ utterance)⟩⟩

/-- an object that is taken away on its own does not come back -/
theorem handsOver_tidy :
    Yields (tidy.answer "drop" .empty tidyBefore) [] ⟨"", .empty, tidyAfter []⟩ [] ∧
      ∃ s, tidy.Closing nestingLimit "drop" .empty tidyBefore [] s [] ∧ tidy.SparesObjects "drop" ∧
        HandsOver s (tidyAfter []) := by
  have hturn : Yields (tidy.answer "drop" .empty tidyBefore) [] ⟨"", .empty, tidyAfter []⟩ [] := by rfl
  have hspares : tidy.SparesObjects "drop" := by
    refine ⟨builtIn_of_basic rfl, fun hw _ ⟨us, hus, hu⟩ _ _ hlookup hparse => ?_,
      fun ⟨name, hname⟩ => nomatch mem_of_action hname⟩
    cases hw
    cases hus
    obtain rfl := List.mem_singleton.1 hu
    have hdrop : tidy.dictionary.lookup (.parse "drop") =
        .ok (some "utt:/intent.name -> tidy; -! utt:/objects.title") := by rfl
    rw [hdrop] at hlookup
    cases hlookup
    have htitle : Command.parseAll "utt:/intent.name -> tidy; -! utt:/objects.title" =
        .ok [.switchGoal .utterance "tidy",
          .remove ⟨.utterance, ⟨[⟨.map, "objects"⟩, ⟨.str, "title"⟩], by decide⟩⟩] := by rfl
    rw [htitle] at hparse
    cases hparse
    intro c hc p hp
    simp only [List.mem_cons, List.not_mem_nil, or_false] at hc
    rcases hc with rfl | rfl
    · rcases hp with (rfl | rfl | rfl) | rfl <;> decide
    · rcases hp with hp | rfl
      · exact hp.elim
      · decide
  obtain ⟨s, hclosing, -, hhands⟩ := handsOver_iff hturn
  exact ⟨hturn, s, hclosing, hspares, hhands hspares⟩

/-- objects that are taken away all at once come back -/
theorem not_handsOver_tidy :
    ¬ ∀ (b : Bot) (n : Nat) (input : String) (user conv : Store) (t t' : Tally) (turn : Turn) (s : Snapshot),
        Yields (b.answerWithin n input user conv) t turn t' → b.Closing n input user conv t s t' →
          HandsOver s turn.conversation := by
  intro h
  have hhands := h tidy nestingLimit "forget" .empty tidyBefore [] [] ⟨"", .empty, tidyAfter [("title", .str "hello")]⟩
    (tidyLast [("prompt", .map [])]) (by rfl) ⟨"", by rfl⟩
  have hkept : some (Node.map [("title", .str "hello")]) = some (.map []) := hhands.kept
  cases hkept

end Bot

end Dialogue
