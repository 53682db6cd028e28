import Dialogue.Bot.Answer
import Dialogue.Proofs.Edits

/-!
# What a turn takes up and what it keeps

A turn begins with copies of what the conversation keeps (`Snapshot.under?_objects_of_seeding`,
`Snapshot.seeded_of_update`), and ends with a copy of the objects for the turn after it
(`Snapshot.under?_partials_of_carrying`).
-/

namespace Dialogue

open Slots

namespace Snapshot

variable {s s' : Snapshot} {target source : ScopedPath}

theorem store_of_put {p : ScopedPath} {value : Option Node} {scope : Scope} (hscope : scope ≠ p.scope)
    (h : s.put p value = .ok s') : s'.store scope = s.store scope := by
  obtain ⟨store, -, rfl⟩ := put_eq_ok.1 h
  exact store_withStore_of_ne hscope store

theorem store_of_copy {scope : Scope} (hscope : scope ≠ target.scope)
    (h : (Command.copy target source).run s = .ok s') : s'.store scope = s.store scope := by
  obtain ⟨value, -, hput⟩ := Command.put_of_run_copy h
  exact store_of_put hscope hput

/-- a map is copied; for a missing one, what is there stays, or becomes an empty map -/
theorem under?_copy (ht : s.RootedAt target.scope) (hs : s.RootedAt source.scope) (htplain : target.path.Plain)
    (hsplain : source.path.Plain) (hleaf : target.path.leaf.sigil = .map)
    (h : (Command.copy target source).run s = .ok s') :
    (∃ v, s.under? source.place = some v ∧ s'.under? target.place = some v) ∨
      (s.under? source.place = none ∧ s'.under? target.place = some ((s.under? target.place).getD (.map []))) := by
  obtain ⟨value, hget, hput⟩ := Command.put_of_run_copy h
  have hfound : s.under? source.place = value := under?_get hs hsplain hget
  obtain ⟨new, hleafValue, hnew⟩ := under?_put ht htplain hput
  rw [hfound, hnew]
  cases value with
  | some v => exact .inl ⟨v, rfl, Node.leafValue_map_some hleaf hleafValue⟩
  | none =>
    have hstays := (Node.leafValue_none_of_not_isScalar (by rw [hleaf]; rfl) hleafValue).2
    rw [hleaf] at hstays
    exact .inr ⟨rfl, hstays⟩

/-- what was in a copied map is in the copy, if nothing was there before -/
theorem under?_below_copy (ht : s.RootedAt target.scope) (hs : s.RootedAt source.scope) (htplain : target.path.Plain)
    (hsplain : source.path.Plain) (hleaf : target.path.leaf.sigil = .map) (hnone : s.under? target.place = none)
    (h : (Command.copy target source).run s = .ok s') (k : String) (ks : List String) :
    s'.under? (target.scope, target.path.keys ++ k :: ks) = s.under? (source.scope, source.path.keys ++ k :: ks) := by
  rw [under?_append, under?_append, ← ScopedPath.place, ← ScopedPath.place]
  rcases under?_copy ht hs htplain hsplain hleaf h with ⟨v, hsource, htarget⟩ | ⟨hsource, htarget⟩
  · rw [hsource, htarget]
  · rw [hsource, htarget, hnone]
    rfl

theorem under?_copy_of_apart {q : Place} (h : (Command.copy target source).run s = .ok s') (hq : target.place.Apart q) :
    s'.under? q = s.under? q := by
  obtain ⟨value, -, hput⟩ := Command.put_of_run_copy h
  exact under?_put_of_apart hput hq

/-! ### Taking up -/

section Seeding

variable {user conv : Store} (h : (Snapshot.mk user conv .empty).update Bot.seeding = .ok s)

include h

theorem copies_of_seeding :
    ∃ s₁ s₂, (Command.copy objects partials).run ⟨user, conv, .empty⟩ = .ok s₁ ∧
      (Command.copy intent carriedIntent).run s₁ = .ok s₂ ∧ (Command.copy answeredPrompt prompt).run s₂ = .ok s := by
  obtain ⟨s₁, h₁, h⟩ := update_cons_eq_ok.1 h
  obtain ⟨s₂, h₂, h⟩ := update_cons_eq_ok.1 h
  obtain ⟨s₃, h₃, h⟩ := update_cons_eq_ok.1 h
  cases h
  exact ⟨s₁, s₂, h₁, h₂, h₃⟩

/-- the copies go to the utterance, and the other stores stay -/
theorem store_of_seeding {scope : Scope} (hscope : scope ≠ .utterance) :
    s.store scope = (Snapshot.mk user conv .empty).store scope := by
  obtain ⟨s₁, s₂, h₁, h₂, h₃⟩ := copies_of_seeding h
  rw [store_of_copy hscope h₃, store_of_copy hscope h₂, store_of_copy hscope h₁]

theorem sigil_root_of_seeding : conv.root.sigil = .map := by
  obtain ⟨s₁, -, h₁, -⟩ := copies_of_seeding h
  obtain ⟨value, hget, -⟩ := Command.put_of_run_copy h₁
  exact Store.sigil_root_of_read rfl rfl hget

/-- **A turn begins with the objects that the conversation keeps.** -/
theorem under?_objects_of_seeding :
    s.under? objects.place = some ((conv.under? ["partials"]).getD (.map [])) := by
  obtain ⟨s₁, s₂, h₁, h₂, h₃⟩ := copies_of_seeding h
  rw [under?_copy_of_apart h₃ (by decide), under?_copy_of_apart h₂ (by decide)]
  have hutt : (Snapshot.mk user conv .empty).RootedAt .utterance := rfl
  have hconv : (Snapshot.mk user conv .empty).RootedAt .conversation := sigil_root_of_seeding h
  have hnone : (Snapshot.mk user conv .empty).under? objects.place = none := rfl
  have hpartials : (Snapshot.mk user conv .empty).under? partials.place = conv.under? ["partials"] := rfl
  rcases under?_copy hutt hconv (by decide) (by decide) rfl h₁ with ⟨v, hsource, htarget⟩ | ⟨hsource, htarget⟩
  · rw [htarget, ← hpartials, hsource, Option.getD_some]
  · rw [htarget, hnone, ← hpartials, hsource]

end Seeding

/-- a snapshot at the beginning of a turn, with the conversation `conv` taken up -/
structure Seeded (s : Snapshot) (conv : Store) : Prop where
  conversation : s.conversation = conv
  rooted : s.RootedAt .utterance
  hasObjects : ∃ v, s.under? objects.place = some v
  objects : ∀ k ks, s.under? (.utterance, "objects" :: k :: ks) = conv.under? ("partials" :: k :: ks)
  intent : ∀ k ks, s.under? (.utterance, "intent" :: k :: ks) = conv.under? ("intent" :: k :: ks)
  prompt : ∀ k ks, s.under? (.utterance, "prompt" :: k :: ks) = conv.under? ("prompt" :: k :: ks)

/-- **A turn takes up what the conversation keeps.** -/
theorem seeded_of_update {user conv : Store} (hconv : conv.root.sigil = .map)
    (h : (Snapshot.mk user conv .empty).update Bot.seeding = .ok s) : s.Seeded conv := by
  obtain ⟨s₁, s₂, h₁, h₂, h₃⟩ := copies_of_seeding h
  -- the conversation stays, so every copy finds it as it was
  have conv₁ : s₁.conversation = conv := store_of_copy (show Scope.conversation ≠ objects.scope by decide) h₁
  have conv₂ : s₂.conversation = conv :=
    (store_of_copy (show Scope.conversation ≠ intent.scope by decide) h₂).trans conv₁
  have conv₃ : s.conversation = conv := store_of_seeding h (show Scope.conversation ≠ .utterance by decide)
  have rooted₀ : RootedAt ⟨user, conv, .empty⟩ .conversation := hconv
  have rooted₁ : s₁.RootedAt .conversation := by
    rw [← conv₁] at hconv
    exact hconv
  have rooted₂ : s₂.RootedAt .conversation := by
    rw [← conv₂] at hconv
    exact hconv
  have utt₀ : RootedAt ⟨user, conv, .empty⟩ .utterance := rfl
  have utt₁ : s₁.RootedAt .utterance := (Command.edits_run h₁).rootedAt utt₀
  have utt₂ : s₂.RootedAt .utterance := (Command.edits_run h₂).rootedAt utt₁
  have none₁ : s₁.under? intent.place = none := under?_copy_of_apart h₁ (by decide)
  have none₂ : s₂.under? answeredPrompt.place = none :=
    (under?_copy_of_apart h₂ (by decide)).trans (under?_copy_of_apart h₁ (by decide))
  refine ⟨conv₃, (Command.edits_run h₃).rootedAt utt₂, ⟨_, under?_objects_of_seeding h⟩, fun k ks => ?_, fun k ks => ?_,
    fun k ks => ?_⟩
  · have hcopy := under?_below_copy utt₀ rooted₀ (by decide) (by decide) rfl rfl h₁ k ks
    have later₂ :=
      under?_copy_of_apart h₂ (Place.apart_of_head_ne (l := "objects") (by decide) _ .utterance _ (k :: ks))
    have later₃ :=
      under?_copy_of_apart h₃ (Place.apart_of_head_ne (l := "objects") (by decide) _ .utterance _ (k :: ks))
    exact later₃.trans (later₂.trans hcopy)
  · have hcopy := under?_below_copy utt₁ rooted₁ (by decide) (by decide) rfl none₁ h₂ k ks
    have later₃ := under?_copy_of_apart h₃ (Place.apart_of_head_ne (l := "intent") (by decide) _ .utterance _ (k :: ks))
    rw [← conv₁]
    exact later₃.trans hcopy
  · rw [← conv₂]
    exact under?_below_copy utt₂ rooted₂ (by decide) (by decide) rfl none₂ h₃ k ks

/-! ### Keeping -/

/-- the paths at which the end of a turn writes -/
def Carried (p : ScopedPath) : Prop :=
  p = partials ∨ p = carriedIntentName

theorem edits_carrying {goal : Option Node} (h : s.update (Bot.carrying goal) = .ok s') :
    s.Edits Carried (fun _ => False) s' := by
  refine edits_update (fun c hc p hp => ?_) (fun c hc p hp => ?_) h
  all_goals
    rw [Bot.carrying, List.mem_cons] at hc
    rcases hc with rfl | hc
  · exact .inl hp
  · obtain ⟨v, -, rfl⟩ := Option.map_eq_some_iff.1 (Option.mem_toList.1 hc)
    exact .inr hp
  · exact hp
  · obtain ⟨v, -, rfl⟩ := Option.map_eq_some_iff.1 (Option.mem_toList.1 hc)
    exact hp

/-- what the end of a turn keeps at the keys of an object: a turn without any objects keeps those from before -/
def kept? (s : Snapshot) (ks : List String) : Option Node :=
  match s.under? objects.place with
  | some v => v.under? ks
  | none => s.under? (.conversation, "partials" :: ks)

theorem kept?_of_objects {v : Node} (hv : s.under? objects.place = some v) (ks : List String) :
    s.kept? ks = s.under? (.utterance, "objects" :: ks) := by
  have hparts := under?_append s .utterance ["objects"] ks
  rw [show s.under? (.utterance, ["objects"]) = some v from hv] at hparts
  rw [kept?, hv]
  exact hparts.symm

theorem kept?_of_none (hnone : s.under? objects.place = none) (ks : List String) :
    s.kept? ks = s.under? (.conversation, "partials" :: ks) := by
  rw [kept?, hnone]

/-- the end of a turn reads the utterance and writes the conversation, so that their roots are maps -/
theorem rootedAt_of_carrying {goal : Option Node} (h : s.update (Bot.carrying goal) = .ok s') :
    s.RootedAt .utterance ∧ s.RootedAt .conversation := by
  obtain ⟨s₁, h₁, -⟩ := update_cons_eq_ok.1 h
  obtain ⟨value, hget, hput⟩ := Command.put_of_run_copy h₁
  obtain ⟨store, hwrite, -⟩ := put_eq_ok.1 hput
  exact ⟨Store.sigil_root_of_read rfl rfl hget, Store.sigil_root_of_write rfl rfl hwrite⟩

/-- **A turn keeps its objects** for the turn after it. -/
theorem under?_partials_of_carrying {goal : Option Node} (h : s.update (Bot.carrying goal) = .ok s') (k : String)
    (ks : List String) : s'.under? (.conversation, "partials" :: k :: ks) = s.kept? (k :: ks) := by
  obtain ⟨hutt, hconv⟩ := rootedAt_of_carrying h
  obtain ⟨s₁, h₁, h⟩ := bind_eq_ok.1 h
  have hlater :
      s'.under? (.conversation, "partials" :: k :: ks) = s₁.under? (.conversation, "partials" :: k :: ks) := by
    refine Edits.under?_of_apart (W := (· = carriedIntentName)) (R := fun _ => False) ?_ ?_ ?_
    · refine edits_update (fun c hc p hp => ?_) (fun c hc p hp => ?_) h
      all_goals
        obtain ⟨v, -, rfl⟩ := Option.map_eq_some_iff.1 (Option.mem_toList.1 hc)
        exact hp
    · rintro p rfl
      exact fun _ => Apart.of_head_ne (by decide) _ _
    · rintro p ⟨⟩
  have hparts := under?_append s₁ .conversation ["partials"] (k :: ks)
  have hparts₀ := under?_append s .conversation ["partials"] (k :: ks)
  rw [hlater]
  rcases under?_copy hconv hutt (by decide) (by decide) rfl h₁ with ⟨v, hsource, htarget⟩ | ⟨hsource, htarget⟩
  · rw [kept?, hsource]
    rw [show s₁.under? (.conversation, ["partials"]) = some v from htarget] at hparts
    exact hparts
  · -- what was kept before stays, or there was nothing
    rw [show s₁.under? (.conversation, ["partials"]) = _ from htarget] at hparts
    rw [kept?_of_none hsource]
    refine hparts.trans (Eq.trans ?_ hparts₀.symm)
    rw [show s.under? partials.place = s.under? (.conversation, ["partials"]) from rfl]
    cases s.under? (.conversation, ["partials"]) with
    | some v => rfl
    | none => rfl

end Snapshot

end Dialogue
