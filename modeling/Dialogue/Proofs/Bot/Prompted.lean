import Dialogue.Bot.Resolve
import Dialogue.Proofs.Shape

/-!
# Prompts that take the place of others

A response that asks for something removes what was asked before and writes the parts of its prompt one by one, into
a map that the first of them makes.

* `Snapshot.exists_put_entry` — a scalar is put into a map at the top, of which all other entries are as before;
* `Snapshot.exists_update_prompt` — so whatever was asked before, afterwards the prompt is what was written.
-/

namespace Dialogue

open Slots

/-! ### The entries of a map -/

namespace Snapshot

variable {s s' : Snapshot} {p : ScopedPath} {scope : Scope} {k : String} {v w : Node} {es : List (String × Node)}
  {ps : List (ScopedPath × Node)}

/-- what is under a key at the top is a map of entries, and no entries if nothing is there -/
def MapAt (s : Snapshot) (scope : Scope) (k : String) (es : List (String × Node)) : Prop :=
  (s.under? (scope, [k])).getD (.map []) = .map es

theorem MapAt.fits (h : s.MapAt scope k es) : s.Fits (scope, [k]) .map := by
  intro u hu
  rw [MapAt, hu, Option.getD_some] at h
  rw [h]
  rfl

theorem exists_put_entry (hs : s.RootedAt p.scope) (hes : s.MapAt p.scope k es) (hinner : p.path.inner = [⟨.map, k⟩])
    (hscalar : p.path.leaf.sigil.isScalar = true) (hw : Node.coerce p.path.leaf.sigil v = .ok w) :
    ∃ s', s.put p (some v) = .ok s' ∧ s'.MapAt p.scope k (Entries.insert p.path.leaf.key w es) := by
  obtain ⟨s', hput, -⟩ := exists_put_scalar (reaches_of_fits hs hes.fits hinner) hscalar hw
  refine ⟨s', hput, ?_⟩
  obtain ⟨store, hwrite, rfl⟩ := put_eq_ok.1 hput
  have halong := Store.write_eq_ok hwrite
  rw [hinner] at halong
  obtain ⟨slot, child, hslot, -, hleaf, hroot⟩ := Node.along_cons halong
  obtain rfl : .key k = slot := by
    have hkey := Node.slot_of_map hs p.path ⟨.map, k⟩
    rw [Node.slot_eq_ok, hslot, Option.some_inj] at hkey
    exact hkey.symm
  -- the write goes into the map that is there, or into an empty one
  have henter : (s.store p.scope).root.enter ⟨.map, k⟩ = .map es := by
    rw [Node.enter, Node.behind?, hslot, Option.bind_some, ← Node.under?_singleton]
    exact hes
  rw [henter] at hleaf
  obtain ⟨slot, hslot', hleaf⟩ := bind_eq_ok.1 hleaf
  cases hslot'
  obtain ⟨new, hnew, hleaf⟩ := bind_eq_ok.1 hleaf
  rw [Node.leafValue_of_isScalar hscalar, map_eq_ok] at hnew
  obtain ⟨w', hw', rfl⟩ := hnew
  rw [hw] at hw'
  cases hw'
  cases hleaf
  rw [MapAt, under?, store_withStore_self, Store.under?, hroot, Node.under?_setChild_self hs]
  rfl

/-- a path and a scalar of its kind, for an entry of the map under a key at the top -/
def EntryOf (scope : Scope) (k : String) (e : ScopedPath × Node) : Prop :=
  e.1.scope = scope ∧ e.1.path.inner = [⟨.map, k⟩] ∧ e.1.path.leaf.sigil.isScalar = true ∧
    Node.coerce e.1.path.leaf.sigil e.2 = .ok e.2

/-- entries with others put into them one after the other -/
def inserted (ps : List (ScopedPath × Node)) (es : List (String × Node)) : List (String × Node) :=
  ps.foldl (fun es e => Entries.insert e.1.path.leaf.key e.2 es) es

/-- scalars are put into a map at the top one after the other -/
theorem exists_update_entries (hs : s.RootedAt scope) (hes : s.MapAt scope k es) (hps : ∀ e ∈ ps, EntryOf scope k e) :
    ∃ s', s.update (ps.map fun e => .put e.1 e.2) = .ok s' ∧ s'.MapAt scope k (inserted ps es) ∧
      s.Edits (·.scope = scope) (fun _ => False) s' := by
  induction ps generalizing s es with
  | nil => exact ⟨s, rfl, hes, .refl⟩
  | cons e ps ih =>
    rw [List.forall_mem_cons] at hps
    obtain ⟨⟨rfl, hinner, hscalar, hvalue⟩, hps⟩ := hps
    obtain ⟨s₁, hput, hes₁⟩ := exists_put_entry hs hes hinner hscalar hvalue
    obtain ⟨s', hupdate, hes', hedits⟩ := ih (rootedAt_put hput hs) hes₁ hps
    refine ⟨s', update_cons_eq_ok.2 ⟨s₁, run_put hput, hupdate⟩, hes', ?_⟩
    have hfirst : s.Edits (·.scope = e.1.scope) (fun _ => False) s₁ := .of_put rfl hput
    exact hfirst.trans hedits

/-! ### Prompts and validity -/

/-- whether the goal is valid can be noted -/
theorem exists_run_validated (hs : s.RootedAt .utterance) (hintent : s.Fits intent.place .map) (x : Bool) :
    ∃ s', (Command.put intentValidated (.bool x)).run s = .ok s' ∧
      s'.under? intentValidated.place = some (.bool x) ∧ s.Edits (· = intentValidated) (fun _ => False) s' := by
  obtain ⟨s', hput, hunder⟩ := exists_put_scalar (p := intentValidated) (v := .bool x) (w := .bool x)
    (reaches_of_fits hs hintent rfl) rfl rfl
  exact ⟨s', run_put hput, hunder, .of_put rfl hput⟩

/-- **A prompt takes the place of the one before it**, and it is noted whether the goal is valid. -/
theorem exists_update_prompt (hutt : s.RootedAt .utterance) (hconv : s.RootedAt .conversation)
    (hintent : s.Fits intent.place .map) (hps : ∀ e ∈ ps, EntryOf .conversation "prompt" e) (x : Bool) :
    ∃ s', s.update (.remove prompt :: ((ps.map fun e => .put e.1 e.2) ++ [.put intentValidated (.bool x)])) = .ok s' ∧
      s'.under? intentValidated.place = some (.bool x) ∧ s'.MapAt .conversation "prompt" (inserted ps []) := by
  obtain ⟨s₁, hremove, hnone⟩ := exists_remove (reaches_of_rootedAt (p := prompt) hconv rfl)
  have hempty : s₁.MapAt .conversation "prompt" [] := by
    have hunder : s₁.under? (.conversation, ["prompt"]) = none := hnone
    rw [MapAt, hunder]
    rfl
  obtain ⟨s₂, hupdate, hes, hedits⟩ := exists_update_entries (rootedAt_remove hremove hconv) hempty hps
  have hsame : s₂.under? intent.place = s.under? intent.place := by
    rw [hedits.under?_of_apart (fun p hp hscope => ?_) (fun p hp => hp.elim),
      under?_remove_of_apart hremove (by decide)]
    have hother : p.place.1 = .conversation := hp
    rw [hother] at hscope
    cases hscope
  obtain ⟨s₃, hrun, hvalidated, hnoted⟩ := exists_run_validated (hedits.rootedAt (rootedAt_remove hremove hutt))
    (hintent.of_eq hsame) x
  refine ⟨s₃, ?_, hvalidated, ?_⟩
  · refine update_cons_eq_ok.2 ⟨s₁, run_remove hremove, update_append_eq_ok.2 ⟨s₂, hupdate, ?_⟩⟩
    exact update_cons_eq_ok.2 ⟨s₃, hrun, rfl⟩
  · have hstays : s₃.under? (.conversation, ["prompt"]) = s₂.under? (.conversation, ["prompt"]) := by
      refine hnoted.under?_of_apart (fun p hp => ?_) fun p hp => hp.elim
      rw [hp]
      decide
    rw [MapAt, hstays]
    exact hes

end Snapshot

namespace Bot

open Snapshot

variable {s : Snapshot}

/-- what is written of a prompt for the slot of a violation -/
def asking (g : Goal) (v : Violation) : List (ScopedPath × Node) :=
  [(promptQuestion, .str v.prompt), (promptSlot, .str v.slot.text), (promptIntent, .str g.name)]

/-- what is written of a prompt for the user's agreement -/
def askingToConfirm (g : Goal) : List (ScopedPath × Node) :=
  [(promptQuestion, .str confirmationQuestion), (promptSlot, .str intentConfirmed.text), (promptBoolean, .bool true),
    (promptIntent, .str g.name)]

theorem entryOf_asking (g : Goal) (v : Violation) : ∀ e ∈ asking g v, EntryOf .conversation "prompt" e := by
  intro e he
  simp only [asking, List.mem_cons, List.not_mem_nil, or_false] at he
  rcases he with rfl | rfl | rfl <;> exact ⟨rfl, rfl, rfl, rfl⟩

theorem entryOf_askingToConfirm (g : Goal) : ∀ e ∈ askingToConfirm g, EntryOf .conversation "prompt" e := by
  intro e he
  simp only [askingToConfirm, List.mem_cons, List.not_mem_nil, or_false] at he
  rcases he with rfl | rfl | rfl | rfl <;> exact ⟨rfl, rfl, rfl, rfl⟩

/-- **A goal can always ask for a slot**, and then the prompt is its question, the slot and its name. -/
theorem exists_update_asking (hutt : s.RootedAt .utterance) (hconv : s.RootedAt .conversation)
    (hintent : s.Fits intent.place .map) (g : Goal) (v : Violation) (score : Score) :
    ∃ s', s.update (g.ask v s score).commands = .ok s' ∧ s'.under? intentValidated.place = some (.bool false) ∧
      s'.under? prompt.place =
        some (.map [("intent", .str g.name), ("question", .str v.prompt), ("slot", .str v.slot.text)]) := by
  obtain ⟨s', hupdate, hvalidated, hprompt⟩ :=
    exists_update_prompt hutt hconv hintent (entryOf_asking g v) false
  refine ⟨s', hupdate, hvalidated, ?_⟩
  have hentries : inserted (asking g v) [] =
      [("intent", .str g.name), ("question", .str v.prompt), ("slot", .str v.slot.text)] := by
    have hquestion : promptQuestion.path.leaf.key = "question" := rfl
    have hslot : promptSlot.path.leaf.key = "slot" := rfl
    have hname : promptIntent.path.leaf.key = "intent" := rfl
    have hbehind : ¬ "question" < "intent" := by decide
    have hother : ¬ "question" = "intent" := by decide
    simp only [inserted, asking, List.foldl_cons, List.foldl_nil, Entries.insert, hquestion, hslot, hname]
    rw [if_pos (by decide), Entries.insert, if_neg hbehind, if_neg hother]
  rw [MapAt, hentries] at hprompt
  have hplace : prompt.place = (.conversation, ["prompt"]) := rfl
  rw [hplace]
  cases hunder : s'.under? (.conversation, ["prompt"]) with
  | none =>
    rw [hunder] at hprompt
    cases hprompt
  | some o =>
    rw [hunder, Option.getD_some] at hprompt
    rw [hprompt]

end Bot

end Dialogue
