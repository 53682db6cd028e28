import Dialogue.Proofs.Command.Written
import Dialogue.Proofs.History
import Dialogue.Proofs.Store.Beside
import Dialogue.Proofs.Store.Guarded

/-!
# Switches in every scope

A switch names the goal of one of the three scopes, and pushes the goal that it interrupts.  Which goal that is, it
looks up in the utterance, whatever the scope.

* `Command.exists_active_of_pre`, `Command.get_of_apply`, `Command.grows_of_post`: the note that is taken, the name
  that is written, and the goal that is pushed;
* `Command.parse_switch`: a text that sets the name of a goal writes a switch;
* `Snapshot.remembers_iff`: the switches that push the goal that they replace.
-/

namespace Dialogue

open Slots

namespace Snapshot

/-- the history of goals grows by a goal, or stays if there is none; no history is an empty one -/
def Grows (s s' : Snapshot) : Option String → Prop
  | none => s'.get previousIntents = s.get previousIntents
  | some goal => ∃ goals,
      (s.get previousIntents = .ok (some (.list goals)) ∨ s.get previousIntents = .ok none ∧ goals = []) ∧
        s'.get previousIntents = .ok (some (.list (goals ++ [.str goal])))

/-- whether a switch in a scope remembers the goal that it replaces there: the other goal is active, and the history
has grown by the one that was, if it was another -/
structure Remembers (s s' : Snapshot) (scope : Scope) (goal : String) : Prop where
  active : s'.get (intentNameIn scope) = .ok (some (.str goal))
  history : ∀ held : Option String, s.get (intentNameIn scope) = .ok (held.map .str) →
    s.Grows s' (held.filter (· ≠ goal))

variable {s s₁ s₂ s' : Snapshot} {name : Option String}

theorem Grows.of_get_eq (h : s₁.Grows s' name) (hs : s₁.get previousIntents = s.get previousIntents) :
    s.Grows s' name := by
  cases name with
  | none => exact h.trans hs
  | some goal =>
    unfold Grows at h ⊢
    rwa [← hs]

theorem Grows.unique {name' : Option String} (h : s.Grows s' name) (h' : s.Grows s' name') : name = name' := by
  have differ {name : String} {goals : List Node} (hgoals : s.get previousIntents = .ok (some (.list goals)) ∨
      s.get previousIntents = .ok none ∧ goals = []) :
      s.get previousIntents ≠ .ok (some (.list (goals ++ [.str name]))) := by
    intro hsame
    rcases hgoals with hlist | ⟨hnone, rfl⟩
    · rw [hlist] at hsame
      simp at hsame
    · rw [hnone] at hsame
      cases hsame
  cases name with
  | none =>
    cases name' with
    | none => rfl
    | some goal' =>
      obtain ⟨goals, hgoals, hnew⟩ := h'
      exact absurd (h.symm.trans hnew) (differ hgoals)
  | some goal =>
    obtain ⟨goals, hgoals, hnew⟩ := h
    cases name' with
    | none => exact absurd (h'.symm.trans hnew) (differ hgoals)
    | some goal' =>
      obtain ⟨goals', -, hnew'⟩ := h'
      rw [hnew, Except.ok.injEq, Option.some_inj, Node.list.injEq] at hnew'
      have hlast := (List.append_inj' hnew' rfl).2
      rw [List.singleton_inj, Node.str.injEq] at hlast
      rw [hlast]

/-- what is read as a string is one -/
theorem exists_name_of_get {p : ScopedPath} {o : Option Node} (hp : p.path.leaf.sigil = .str) (h : s.get p = .ok o) :
    ∃ name : Option String, o = name.map .str := by
  refine exists_map_str ?_
  rintro v rfl
  rw [Store.sigil_of_read h, hp]

/-- a slot holds one name -/
theorem name_eq_of_get {p : ScopedPath} {name' : Option String} (h : s.get p = .ok (name.map .str))
    (h' : s.get p = .ok (name'.map .str)) : name = name' :=
  Option.map_injective Shows.str_injective (Except.ok.inj (h.symm.trans h'))

theorem plain_intentNameIn (scope : Scope) : (intentNameIn scope).path.Plain := by
  change intentNamePath.Plain
  decide

theorem apart_intentNameIn (scope : Scope) : (intentNameIn scope).place.Apart previousIntent.place ∧
    (intentNameIn scope).place.Apart previousIntents.place := by
  cases scope <;> decide

/-- what is put into a scope as the name of its goal is read there -/
theorem get_intentNameIn_of_put {scope : Scope} {goal : String}
    (h : s.put (intentNameIn scope) (some (.str goal)) = .ok s') :
    s'.get (intentNameIn scope) = .ok (some (.str goal)) := by
  have hp : (intentNameIn scope).path.Plain := plain_intentNameIn scope
  have hroot : s.RootedAt scope := rootedAt_of_put rfl rfl h
  exact get_of_under? hp (under?_put_scalar hroot hp rfl rfl h) rfl

/-- **A push**: the history was a list or none, and has one goal more. -/
theorem grows_of_put {goal : String} (h : s.put previousIntents (some (.str goal)) = .ok s') :
    s.Grows s' (some goal) := by
  have hp : previousIntents.path.Plain := by decide
  have hroot : s.RootedAt .conversation := rootedAt_of_put rfl rfl h
  obtain ⟨new, hnew, hunder⟩ := under?_put hroot hp h
  obtain ⟨hold, rfl⟩ := Node.leafValue_list_some rfl hnew
  have hget : s.get previousIntents = .ok (s.under? previousIntents.place) :=
    get_eq (reaches_of_rootedAt hroot rfl) hold
  cases hunder' : s.under? previousIntents.place with
  | none =>
    rw [hunder'] at hget hunder
    exact ⟨[], .inr ⟨hget, rfl⟩, get_of_under? hp hunder rfl⟩
  | some old =>
    rw [hunder'] at hget hunder
    have hlist : old.sigil = .list := hold old hunder'
    cases old with
    | list goals => exact ⟨goals, .inl hget, get_of_under? hp hunder rfl⟩
    | _ => cases hlist

end Snapshot

namespace Command

open Snapshot

variable {s s' : Snapshot} {scope : Scope} {goal : String}

/-- **The note**: before a switch the goal of the utterance is noted, if it is another one, and the rest stays. -/
theorem exists_active_of_pre (h : (Command.switchGoal scope goal).pre s = .ok s') :
    ∃ active : Option String, s.get intentName = .ok (active.map .str) ∧
      s'.get previousIntent = .ok ((active.filter (· ≠ goal)).map .str) ∧
      s'.get previousIntents = s.get previousIntents := by
  obtain ⟨s₁, hremove, h⟩ := bind_eq_ok.1 h
  obtain ⟨o, hget, h⟩ := bind_eq_ok.1 h
  have hroot : s.RootedAt .utterance := rootedAt_of_remove rfl rfl hremove
  have hroot₁ : s₁.RootedAt .utterance := rootedAt_remove hremove hroot
  obtain ⟨active, rfl⟩ := exists_name_of_get rfl hget
  have hhistory : s₁.get previousIntents = s.get previousIntents :=
    get_remove_of_apart hroot (by decide) (by decide) hremove (by decide)
  have hnone : s₁.get previousIntent = .ok none := by
    have hunder : s₁.under? previousIntent.place = none := under?_remove_of_prefix hremove List.prefix_rfl
    rw [← hunder]
    exact get_eq (reaches_of_rootedAt hroot₁ rfl) fun w hw => by cases hunder.symm.trans hw
  refine ⟨active, ?_, ?_⟩
  · rw [← hget]
    exact (get_remove_of_apart hroot (by decide) (by decide) hremove (by decide)).symm
  · cases active with
    | none =>
      cases h
      exact ⟨hnone, hhistory⟩
    | some name =>
      simp only [Option.map_some] at h
      split at h
      · next hne =>
        rw [Option.filter_some, if_pos (by simpa using hne)]
        have hput := under?_put_scalar hroot₁ (by decide) rfl rfl h
        refine ⟨get_of_under? (by decide) hput rfl, ?_⟩
        rw [← hhistory]
        exact get_put_of_apart hroot₁ (by decide) (by decide) h (by decide)
      · next heq =>
        cases h
        rw [Option.filter_some, if_neg (by simpa using heq)]
        exact ⟨hnone, hhistory⟩

/-- **The name**: a switch makes its goal the one of its scope, and neither the note nor the history is changed. -/
theorem get_of_apply (h : (Command.switchGoal scope goal).apply s = .ok s') :
    s'.get (intentNameIn scope) = .ok (some (.str goal)) ∧ s'.get previousIntent = s.get previousIntent ∧
      s'.get previousIntents = s.get previousIntents := by
  have hput : s.put (intentNameIn scope) (some (.str goal)) = .ok s' := h
  have hroot : s.RootedAt scope := rootedAt_of_put rfl rfl hput
  have hp : (intentNameIn scope).path.Plain := plain_intentNameIn scope
  refine ⟨get_intentNameIn_of_put hput, ?_, ?_⟩
  · exact get_put_of_apart hroot hp (by decide) hput (apart_intentNameIn scope).1
  · exact get_put_of_apart hroot hp (by decide) hput (apart_intentNameIn scope).2

/-- **The push**: after a switch the goal that was noted is pushed, and the name stays. -/
theorem grows_of_post {name : Option String} (hnote : s.get previousIntent = .ok (name.map .str))
    (h : (Command.switchGoal scope goal).post s = .ok s') :
    s.Grows s' name ∧ s'.get (intentNameIn scope) = s.get (intentNameIn scope) := by
  obtain ⟨o, hget, h⟩ := bind_eq_ok.1 h
  cases hnote.symm.trans hget
  cases name with
  | none =>
    cases h
    exact ⟨rfl, rfl⟩
  | some old =>
    obtain ⟨s₁, hpush, hforget⟩ := bind_eq_ok.1 h
    have hp : (intentNameIn scope).path.Plain := plain_intentNameIn scope
    have hconv : s.RootedAt .conversation := rootedAt_of_put rfl rfl hpush
    have hutt : s₁.RootedAt .utterance := rootedAt_of_remove rfl rfl hforget
    constructor
    · obtain ⟨goals, hgoals, hnew⟩ := grows_of_put hpush
      refine ⟨goals, hgoals, ?_⟩
      rw [← hnew]
      exact get_remove_of_apart hutt (by decide) (by decide) hforget (by decide)
    · rw [get_remove_of_apart hutt (by decide) hp hforget (apart_intentNameIn scope).1.symm]
      exact get_put_of_apart hconv (by decide) hp hpush (apart_intentNameIn scope).2.symm

/-- **What a switch does**: its goal is active in its scope, and the history grows by the goal of the utterance, if
that was another one. -/
theorem exists_active_of_run (h : (Command.switchGoal scope goal).run s = .ok s') :
    ∃ active : Option String, s.get intentName = .ok (active.map .str) ∧
      s'.get (intentNameIn scope) = .ok (some (.str goal)) ∧ s.Grows s' (active.filter (· ≠ goal)) := by
  obtain ⟨s₁, hpre, h⟩ := bind_eq_ok.1 h
  obtain ⟨s₂, happly, hpost⟩ := bind_eq_ok.1 h
  obtain ⟨active, hactive, hnote, hhistory⟩ := exists_active_of_pre hpre
  obtain ⟨hname, hnote₂, hhistory₂⟩ := get_of_apply happly
  obtain ⟨hgrows, hname'⟩ := grows_of_post (hnote₂.trans hnote) hpost
  exact ⟨active, hactive, hname'.trans hname, hgrows.of_get_eq (hhistory₂.trans hhistory)⟩

theorem parse_switch {text : String} {left right : List Char} {v : Node}
    (hset : Text.dropStart? ['-', '!'] (Text.trim text.toList) = none)
    (hcut : Text.cutAt ['-', '>'] (Text.trim text.toList) = some (left, right))
    (hleft : ScopedPath.parse (String.ofList left) = .ok (intentNameIn scope))
    (hright : SlotValue.parse (Text.trim right) = .ok (.literal v)) :
    ∃ goal, v = .str goal ∧ Command.parse text = .ok (.switchGoal scope goal) := by
  rcases SlotValue.parse_cases hright with ⟨_, _, -, -, hv⟩ | ⟨_, -, hv⟩ | hv
  · cases hv
  · cases hv
  · cases hv
    refine ⟨String.ofList (Text.trim right), rfl, ?_⟩
    simp only [Command.parse, hset, hcut, hleft, hright, bind, Except.bind]
    rfl

end Command

namespace Snapshot

variable {s s' : Snapshot} {scope : Scope} {goal : String}

/-- **A switch remembers the goal of the utterance.**  It makes its goal the active one of its scope and pushes the
goal of the utterance if that is another one; so it remembers the goal that it replaces if and only if in its scope
there was the same to be pushed, as it always is in the utterance. -/
theorem remembers_iff (scope : Scope) (goal : String) :
    (∀ s s', update s [.switchGoal scope goal] = .ok s' →
      ∃ active : Option String, s.get intentName = .ok (active.map .str) ∧
        s'.get (intentNameIn scope) = .ok (some (.str goal)) ∧ s.Grows s' (active.filter (· ≠ goal)) ∧
        (s.Remembers s' scope goal ↔
          ∀ held : Option String, s.get (intentNameIn scope) = .ok (held.map .str) →
            held.filter (· ≠ goal) = active.filter (· ≠ goal)) ∧
        (scope = .utterance → s.Remembers s' scope goal)) ∧
      ∀ text left right v, Text.dropStart? ['-', '!'] (Text.trim text.toList) = none →
        Text.cutAt ['-', '>'] (Text.trim text.toList) = some (left, right) →
        ScopedPath.parse (String.ofList left) = .ok (intentNameIn scope) →
        SlotValue.parse (Text.trim right) = .ok (.literal v) →
        ∃ name, v = .str name ∧ Command.parse text = .ok (.switchGoal scope name) := by
  refine ⟨fun s s' h => ?_, fun text left right v => Command.parse_switch⟩
  obtain ⟨s₁, hrun, hend⟩ := update_cons_eq_ok.1 h
  cases hend
  obtain ⟨active, hactive, hname, hgrows⟩ := Command.exists_active_of_run hrun
  have hiff : s.Remembers s' scope goal ↔
      ∀ held : Option String, s.get (intentNameIn scope) = .ok (held.map .str) →
        held.filter (· ≠ goal) = active.filter (· ≠ goal) := by
    constructor
    · intro hremembers held hheld
      exact (hremembers.history held hheld).unique hgrows
    · intro hsame
      refine ⟨hname, fun held hheld => ?_⟩
      rw [hsame held hheld]
      exact hgrows
  refine ⟨active, hactive, hname, hgrows, hiff, ?_⟩
  rintro rfl
  refine hiff.2 fun held hheld => ?_
  rw [name_eq_of_get hheld hactive]

def resumed : Snapshot :=
  ⟨.empty, .ofMap [("intent", .map [("name", .str "book")]), ("previousIntents", .list [.str "greet"])],
    .ofMap [("intent", .map [("name", .str "book")])]⟩

/-- in the conversation paying takes the place of the booking, which is pushed -/
theorem remembers_iff_resumed :
    (∃ s', resumed.update [.switchGoal .conversation "pay"] = .ok s' ∧ resumed.Remembers s' .conversation "pay") ∧
      ∃ name, Node.str "pay" = .str name ∧
        Command.parse "conv:/intent.name -> pay" = .ok (.switchGoal .conversation name) := by
  have hupdate : resumed.update [.switchGoal .conversation "pay"] =
      .ok ⟨.empty, .ofMap [("intent", .map [("name", .str "pay")]),
          ("previousIntents", .list [.str "greet", .str "book"])],
        .ofMap [("intent", .map [("name", .str "book")])]⟩ := by
    rfl
  refine ⟨⟨_, hupdate, ?_⟩, ?_⟩
  · obtain ⟨active, hactive, -, -, hiff, -⟩ := (remembers_iff .conversation "pay").1 _ _ hupdate
    refine hiff.2 fun held hheld => ?_
    have hactive' : some "book" = active := name_eq_of_get (by rfl) hactive
    have hheld' : some "book" = held := name_eq_of_get (by rfl) hheld
    rw [← hactive', ← hheld']
  · exact (remembers_iff .conversation "pay").2 "conv:/intent.name -> pay" "conv:/intent.name ".toList " pay".toList
      (.str "pay") (by rfl) (by rfl) (by rfl) (by rfl)

def booking : Snapshot :=
  ⟨.empty, .ofMap [("intent", .map [("name", .str "book")])], .empty⟩

/-- in the conversation paying takes the place of the booking, which is not pushed -/
theorem not_remembers_booking :
    ∃ s', booking.update [.switchGoal .conversation "pay"] = .ok s' ∧
      booking.get (intentNameIn .conversation) = .ok (some (.str "book")) ∧
      s'.get previousIntents = .ok none ∧ ¬ booking.Remembers s' .conversation "pay" := by
  refine ⟨⟨.empty, .ofMap [("intent", .map [("name", .str "pay")])], .empty⟩, by rfl, by rfl, by rfl, ?_⟩
  intro hremembers
  obtain ⟨goals, -, hnew⟩ := hremembers.history (some "book") (by rfl)
  cases hnew

end Snapshot

end Dialogue
