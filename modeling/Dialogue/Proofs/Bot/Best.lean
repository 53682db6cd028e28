import Mathlib.Algebra.Order.Field.Basic
import Mathlib.Algebra.Order.Field.Rat
import Mathlib.Data.List.MinMax
import Dialogue.Proofs.Bot.Gate

/-!
# The best reading

Each reading of an utterance comes to something on its own: an error, nothing, or a response.  A turn fails with the
first error that is a fault of the bot and not of its reading.  Otherwise the answer is the first response that no
other response exceeds (`Bot.best_of_respond`).

* `Bot.share_of_resolve` — the score of a response is the share of the constraints that hold;
* `Bot.bestOf_eq` — the loop over the readings, with what each of them comes to;
* `Bot.argmax_eq_some_iff_append` — the maximum that it keeps is the first;
* `Bot.respond_eq` — what an utterance comes to, in one equation.
-/

namespace Dialogue

/-! ### Shares -/

def Score.share (s : Score) : ℚ :=
  s.held / s.total

/-- the share of the constraints of a goal that hold, which is a whole if there are none -/
def Goal.share (g : Goal) (s : Snapshot) : ℚ :=
  if g.constraints.length = 0 then 1 else (g.constraints.countP fun c => c.holds s) / g.constraints.length

theorem Score.exceeds_iff {s t : Score} : s.exceeds t = true ↔ t.share < s.share := by
  have hs : (0 : ℚ) < s.total := by exact_mod_cast s.positive
  have ht : (0 : ℚ) < t.total := by exact_mod_cast t.positive
  unfold exceeds share
  rw [div_lt_div_iff₀ ht hs, decide_eq_true_eq]
  norm_cast

/-! ### Faults of a reading -/

/-- the errors that are a fault of one reading: those of the stores and the dictionary, and goals that are not there -/
inductive DialogueError.OfReading : DialogueError → Prop
  | state (e : StateError) : OfReading (.state e)
  | malformedRow (row : MalformedRow) : OfReading (.malformedRow row)
  | emptyMarker (m : Marker) : OfReading (.emptyMarker m)
  | unknownGoal (name : String) : OfReading (.unknownGoal name)

theorem DialogueError.dropsReading_iff {e : DialogueError} : e.dropsReading = true ↔ e.OfReading := by
  constructor
  · intro h
    cases e with
    | state e => exact .state e
    | malformedRow row => exact .malformedRow row
    | emptyMarker m => exact .emptyMarker m
    | unknownGoal name => exact .unknownGoal name
    | _ => cases h
  · intro h
    cases h <;> rfl

namespace Bot

variable {b : Bot} {w : Workflow} {g : Goal} {s : Snapshot} {r : Response} {u v : Utterance} {us : List Utterance}
  {rs : List Response} {best : Option Response} {e : DialogueError}

/-- **The score of a response is the share of the constraints that hold.** -/
theorem share_of_resolve (h : b.resolve g s = .ok r) : r.score.share = g.share s := by
  obtain ⟨vs, hvs, h⟩ := bind_eq_ok.1 h
  rw [liftState_eq_ok] at hvs
  have hcount := Goal.countP_add_length_violations hvs
  cases vs with
  | nil =>
    have hone : r.score = .one := score_of_succeed h
    rw [List.length_nil, Nat.add_zero] at hcount
    rw [hone]
    unfold Goal.share
    rw [hcount]
    split
    · simp [Score.share, Score.one]
    · next hne =>
      have hne' : (g.constraints.length : ℚ) ≠ 0 := by exact_mod_cast hne
      rw [div_self hne']
      simp [Score.share, Score.one]
  | cons v vs =>
    cases h
    rw [List.length_cons] at hcount
    have hne : g.constraints.length ≠ 0 := by omega
    have hheld : g.constraints.length - (v :: vs).length = g.constraints.countP fun c => c.holds s := by
      rw [List.length_cons]
      omega
    unfold Goal.share Goal.ask Score.of Score.share
    rw [dif_neg hne, if_neg hne, hheld]

/-! ### The first maximum -/

/-- what is maximal on a list, and the first such item, is found between smaller items and those that are not greater -/
theorem argmax_eq_some_iff_append {α : Type} {f : α → ℚ} {xs : List α} {m : α} :
    xs.argmax f = some m ↔
      ∃ before after, xs = before ++ m :: after ∧ (∀ x ∈ before, f x < f m) ∧ ∀ x ∈ after, f x ≤ f m := by
  classical
  rw [List.argmax_eq_some_iff]
  constructor
  · rintro ⟨hm, hmax, hfirst⟩
    obtain ⟨before, after, rfl, hbefore⟩ := List.eq_append_cons_of_mem hm
    refine ⟨before, after, rfl, fun x hx => ?_, fun x hx => hmax x (by simp [hx])⟩
    -- an item before it that is not smaller would come first
    by_contra hx'
    have hle := hfirst x (by simp [hx]) (not_lt.1 hx')
    rw [List.idxOf_append_of_notMem hbefore, List.idxOf_append_of_mem hx] at hle
    have hlt := List.idxOf_lt_length_of_mem hx
    omega
  · rintro ⟨before, after, rfl, hbefore, hafter⟩
    have hm : m ∉ before := fun hm => (hbefore m hm).false
    refine ⟨by simp, fun x hx => ?_, fun x _ hx => ?_⟩
    · rcases List.mem_append.1 hx with hx | hx
      · exact (hbefore x hx).le
      · rcases List.mem_cons.1 hx with rfl | hx
        · exact le_rfl
        · exact hafter x hx
    · have hx' : x ∉ before := fun hx' => (hbefore x hx').not_ge hx
      rw [List.idxOf_append_of_notMem hm, List.idxOf_append_of_notMem hx', List.idxOf_cons_self]
      omega

/-- the loop over some responses keeps the first maximum -/
theorem foldl_better_eq (rs : List Response) : rs.foldl better none = rs.argmax fun r => r.score.share := by
  induction rs using List.reverseRecOn with
  | nil => rfl
  | append_singleton rs r ih =>
    rw [List.foldl_concat, List.argmax_concat, ih]
    cases rs.argmax fun r => r.score.share with
    | none => rfl
    | some old => simp only [better, Score.exceeds_iff]

/-! ### What the readings come to -/

/-- the error of a reading that is no fault of the reading -/
def fatal? (b : Bot) (w : Workflow) (s : Snapshot) (u : Utterance) : Option DialogueError :=
  match b.candidate w s u with
  | .ok _ => none
  | .error e => if e.dropsReading then none else some e

def response? (b : Bot) (w : Workflow) (s : Snapshot) (u : Utterance) : Option Response :=
  match b.candidate w s u with
  | .ok r => r
  | .error _ => none

theorem fatal?_eq_some_iff : b.fatal? w s u = some e ↔ b.candidate w s u = .error e ∧ ¬ e.OfReading := by
  unfold fatal?
  cases b.candidate w s u with
  | ok r => simp
  | error e' =>
    dsimp only
    rw [Except.error.injEq]
    by_cases hfault : e'.OfReading
    · rw [if_pos (DialogueError.dropsReading_iff.2 hfault)]
      constructor
      · intro h
        cases h
      · rintro ⟨rfl, h⟩
        exact absurd hfault h
    · rw [if_neg (mt DialogueError.dropsReading_iff.1 hfault), Option.some_inj]
      constructor
      · rintro rfl
        exact ⟨rfl, hfault⟩
      · rintro ⟨rfl, -⟩
        rfl

theorem fatal?_eq_none_iff : b.fatal? w s u = none ↔ ∀ e, b.candidate w s u = .error e → e.OfReading := by
  rw [Option.eq_none_iff_forall_ne_some]
  simp only [ne_eq, fatal?_eq_some_iff, not_and, not_not]

theorem response?_eq_some_iff : b.response? w s u = some r ↔ b.candidate w s u = .ok (some r) := by
  unfold response?
  cases b.candidate w s u with
  | ok r' => simp
  | error e => simp

theorem response?_eq_none_iff : b.response? w s u = none ↔ ∀ r, b.candidate w s u ≠ .ok (some r) := by
  rw [Option.eq_none_iff_forall_ne_some]
  simp only [ne_eq, response?_eq_some_iff]

def responses (b : Bot) (w : Workflow) (s : Snapshot) (us : List Utterance) : List Response :=
  us.filterMap (b.response? w s)

/-- **The loop over the readings**, with what each of them comes to on its own. -/
theorem bestOf_eq (b : Bot) (w : Workflow) (s : Snapshot) (us : List Utterance) (best : Option Response) :
    b.bestOf w s us best =
      match us.findSome? (b.fatal? w s) with
      | some e => .error e
      | none => .ok ((b.responses w s us).foldl better best) := by
  induction us generalizing best with
  | nil => rfl
  | cons u us ih =>
    unfold bestOf responses
    cases hu : b.candidate w s u with
    | ok o =>
      have hfatal : b.fatal? w s u = none := by
        unfold fatal?
        rw [hu]
      have hresponse : b.response? w s u = o := by
        unfold response?
        rw [hu]
      cases o with
      | none => simp only [ih, List.findSome?_cons, List.filterMap_cons, hfatal, hresponse, responses]
      | some r =>
        simp only [ih, List.findSome?_cons, List.filterMap_cons, hfatal, hresponse, responses, List.foldl_cons]
    | error e =>
      -- a reading at fault drops out, and any other error ends the loop
      have hresponse : b.response? w s u = none := by
        unfold response?
        rw [hu]
      by_cases hdrops : e.dropsReading = true
      · have hfatal : b.fatal? w s u = none := by
          unfold fatal?
          rw [hu]
          simp only [hdrops, if_true]
        simp only [ih, List.findSome?_cons, List.filterMap_cons, hfatal, hresponse, hdrops, if_true, responses]
      · have hfatal : b.fatal? w s u = some e := by
          unfold fatal?
          rw [hu]
          simp only [hdrops, if_false, Bool.false_eq_true]
        simp only [List.findSome?_cons, hfatal, hdrops, if_false, Bool.false_eq_true]

/-- **What an utterance comes to**: the first error that is no fault of a reading, or the first maximum of the
responses, or that nothing was understood. -/
theorem respond_eq (b : Bot) (w : Workflow) (u : Utterance) (s : Snapshot) :
    b.respond w u s = (do
      let us ← w.readings u
      match us.findSome? (b.fatal? w s) with
      | some e => .error e
      | none => .ok (((b.responses w s us).argmax fun r => r.score.share).getD (.ofNothing s))) := by
  refine bind_congr fun us => ?_
  rw [bestOf_eq, foldl_better_eq]
  cases us.findSome? (b.fatal? w s) <;> rfl

/-! ### The best reading -/

/-- a reading has an error that is no fault of the reading, and it is the first such reading -/
def Stops (b : Bot) (w : Workflow) (s : Snapshot) (us : List Utterance) (e : DialogueError) : Prop :=
  ∃ before u after, us = before ++ u :: after ∧ (b.candidate w s u = .error e ∧ ¬ e.OfReading) ∧
    ∀ v ∈ before, ∀ e', b.candidate w s v = .error e' → e'.OfReading

/-- a reading has a response that exceeds those of the readings before it, and that no response of the readings behind
it exceeds -/
def Wins (b : Bot) (w : Workflow) (s : Snapshot) (us : List Utterance) (r : Response) : Prop :=
  ∃ before u after, us = before ++ u :: after ∧ b.candidate w s u = .ok (some r) ∧
    (∀ v ∈ before, ∀ r', b.candidate w s v = .ok (some r') → r'.score.share < r.score.share) ∧
    ∀ v ∈ after, ∀ r', b.candidate w s v = .ok (some r') → r'.score.share ≤ r.score.share

theorem stops_iff : b.Stops w s us e ↔ us.findSome? (b.fatal? w s) = some e := by
  unfold Stops
  rw [List.findSome?_eq_some_iff]
  simp only [fatal?_eq_some_iff, fatal?_eq_none_iff]

theorem mem_responses_iff : r ∈ b.responses w s us ↔ ∃ v ∈ us, b.candidate w s v = .ok (some r) := by
  unfold responses
  simp only [List.mem_filterMap, response?_eq_some_iff]

theorem wins_iff : b.Wins w s us r ↔ ((b.responses w s us).argmax fun r => r.score.share) = some r := by
  rw [argmax_eq_some_iff_append]
  constructor
  · rintro ⟨before, u, after, rfl, hu, hbefore, hafter⟩
    refine ⟨b.responses w s before, b.responses w s after, ?_, ?_, ?_⟩
    · unfold responses
      rw [List.filterMap_append, List.filterMap_cons_some (response?_eq_some_iff.2 hu)]
    · intro r' hr'
      obtain ⟨v, hv, hcandidate⟩ := mem_responses_iff.1 hr'
      exact hbefore v hv r' hcandidate
    · intro r' hr'
      obtain ⟨v, hv, hcandidate⟩ := mem_responses_iff.1 hr'
      exact hafter v hv r' hcandidate
  · rintro ⟨rs, rs', hresponses, hbefore, hafter⟩
    -- the reading of the response is behind those of the responses before it, and others that have none
    obtain ⟨us₁, us₂, rfl, rfl, hrest⟩ := List.filterMap_eq_append_iff.1 hresponses
    obtain ⟨us₃, u, after, rfl, hnone, hu, rfl⟩ := List.filterMap_eq_cons_iff.1 hrest
    refine ⟨us₁ ++ us₃, u, after, by rw [List.append_assoc], response?_eq_some_iff.1 hu, ?_, ?_⟩
    · intro v hv r' hr'
      rcases List.mem_append.1 hv with hv | hv
      · exact hbefore r' (mem_responses_iff.2 ⟨v, hv, hr'⟩)
      · exact absurd hr' (response?_eq_none_iff.1 (hnone v hv) r')
    · intro v hv r' hr'
      exact hafter r' (mem_responses_iff.2 ⟨v, hv, hr'⟩)

theorem silent_iff :
    (∀ v ∈ us, ∀ r, b.candidate w s v ≠ .ok (some r)) ↔ ((b.responses w s us).argmax fun r => r.score.share) = none := by
  rw [List.argmax_eq_none]
  unfold responses
  rw [List.filterMap_eq_nil_iff]
  simp only [response?_eq_none_iff]

/-- **The best reading wins, and only faults of the bot fail a turn.**  What each reading comes to is found from the
same snapshot.  An utterance that can be read fails with the first error that is no fault of its reading.  Otherwise the
response is the first one that no other exceeds, or, if there is none, that nothing was understood, with the snapshot as
it was.  With the built-in stages, responses are compared by the share of the constraints of their goal that hold. -/
theorem best_of_respond (b : Bot) (w : Workflow) (u : Utterance) (s : Snapshot) :
    (∀ e, b.respond w u s = .error e ↔
        w.readings u = .error e ∨ ∃ us, w.readings u = .ok us ∧ b.Stops w s us e) ∧
      (∀ r, b.respond w u s = .ok r ↔ ∃ us, w.readings u = .ok us ∧ (∀ e, ¬ b.Stops w s us e) ∧
        (b.Wins w s us r ∨ (∀ v ∈ us, ∀ r', b.candidate w s v ≠ .ok (some r')) ∧ r = .ofNothing s)) ∧
      (w.BuiltIn → ∀ v r, b.candidate w s v = .ok (some r) →
        ∃ s₁ g s₂, b.Responds s v s₁ g s₂ r ∧ r.score.share = g.share s₂) := by
  have hshare (hw : w.BuiltIn) (v : Utterance) (r : Response) (hv : b.candidate w s v = .ok (some r)) :
      ∃ s₁ g s₂, b.Responds s v s₁ g s₂ r ∧ r.score.share = g.share s₂ := by
    obtain ⟨s₁, g, s₂, hresponds⟩ := responds_of_candidate hw hv
    exact ⟨s₁, g, s₂, hresponds, share_of_resolve hresponds.resolved⟩
  cases hus : w.readings u with
  | error e' =>
    have hrespond : b.respond w u s = .error e' := by
      rw [respond_eq, hus]
      rfl
    rw [hrespond]
    refine ⟨fun e => ?_, fun r => ?_, hshare⟩
    · simp
    · simp
  | ok us =>
    have hrespond : b.respond w u s =
        match us.findSome? (b.fatal? w s) with
        | some e => .error e
        | none => .ok (((b.responses w s us).argmax fun r => r.score.share).getD (.ofNothing s)) := by
      rw [respond_eq, hus]
      rfl
    rw [hrespond]
    simp only [Except.ok.injEq, exists_eq_left', reduceCtorEq, false_or, stops_iff, wins_iff, silent_iff]
    refine ⟨fun e => ?_, fun r => ?_, hshare⟩
    · cases us.findSome? (b.fatal? w s) with
      | none => simp
      | some e' => simp
    · cases us.findSome? (b.fatal? w s) with
      | some e' => simp
      | none =>
        cases (b.responses w s us).argmax fun r => r.score.share with
        | none => simp [eq_comm]
        | some r' => simp

def booking : Goal where
  name := "booking"
  constraints := [⟨titleSlot, "What?", none, .notNull⟩]

def payment : Goal where
  name := "payment"
  successActions := ["charge"]

/-- reads an utterance with and without its cities -/
def citywise : Workflow :=
  .basic "default" [⟨"city", .ofTerms "rome"⟩]

/-- a bot that knows phrases with a city, for a goal that asks for a title and one with an action that is not there; the
goal of the same phrases without the city is not there -/
def booker : Bot where
  name := "booker"
  dictionary := (((Dictionary.empty.insert ["book", "rome"] "utt:/intent.name -> ghost").insert ["book", "city_MKR"]
    "utt:/intent.name -> booking").insert ["pay", "rome"] "utt:/intent.name -> ghost").insert ["pay", "city_MKR"]
    "utt:/intent.name -> payment"
  actions := []
  goals := [("booking", booking), ("payment", payment)]
  workflows := [citywise]
  processors := []

def toCity (verb : String) : Utterance :=
  ⟨[.literal verb, .entity "city" "rome"], verb ++ " rome"⟩

def bookingAsked : Response :=
  booking.ask noTitle ⟨.empty, .empty, ⟨.map [("intent", .map [("name", .str "booking")])]⟩⟩ (.of 0 1)

/-- the readings without the city name a goal that the bot does not have, and are dropped; those with the city answer,
and fail for want of an action -/
theorem best_of_respond_booker :
    booker.workflow = .ok citywise ∧ citywise.BuiltIn ∧
      booker.candidate citywise .empty (.parse "book rome") = .error (.unknownGoal "ghost") ∧
      booker.candidate citywise .empty (toCity "book") = .ok (some bookingAsked) ∧
      citywise.readings (.parse "book rome") = .ok [.parse "book rome", toCity "book"] ∧
      booker.respond citywise (.parse "book rome") .empty = .ok bookingAsked ∧
      booker.Wins citywise .empty [.parse "book rome", toCity "book"] bookingAsked ∧
      (∃ s₁ g s₂, booker.Responds .empty (toCity "book") s₁ g s₂ bookingAsked ∧
        bookingAsked.score.share = g.share s₂) ∧
      booker.candidate citywise .empty (.parse "pay rome") = .error (.unknownGoal "ghost") ∧
      citywise.readings (.parse "pay rome") = .ok [.parse "pay rome", toCity "pay"] ∧
      booker.respond citywise (.parse "pay rome") .empty = .error (.unknownAction "charge") ∧
      booker.Stops citywise .empty [.parse "pay rome", toCity "pay"] (.unknownAction "charge") := by
  have hbuiltIn : citywise.BuiltIn := Workflow.builtIn_basic _ _
  have hfirst : booker.candidate citywise .empty (.parse "book rome") = .error (.unknownGoal "ghost") := by rfl
  have hsecond : booker.candidate citywise .empty (toCity "book") = .ok (some bookingAsked) := by rfl
  have hreadings : citywise.readings (.parse "book rome") = .ok [.parse "book rome", toCity "book"] := by rfl
  have hresponse : booker.respond citywise (.parse "book rome") .empty = .ok bookingAsked := by rfl
  have hpaying : citywise.readings (.parse "pay rome") = .ok [.parse "pay rome", toCity "pay"] := by rfl
  have hfails : booker.respond citywise (.parse "pay rome") .empty = .error (.unknownAction "charge") := by rfl
  obtain ⟨-, hok, hshare⟩ := best_of_respond booker citywise (.parse "book rome") .empty
  obtain ⟨herror, -⟩ := best_of_respond booker citywise (.parse "pay rome") .empty
  have hwins : booker.Wins citywise .empty [.parse "book rome", toCity "book"] bookingAsked := by
    obtain ⟨us, hus, -, hbest⟩ := (hok bookingAsked).1 hresponse
    rw [hreadings] at hus
    cases hus
    rcases hbest with hwins | ⟨hsilent, -⟩
    · exact hwins
    · exact absurd hsecond (hsilent _ (by simp) bookingAsked)
  have hstops : booker.Stops citywise .empty [.parse "pay rome", toCity "pay"] (.unknownAction "charge") := by
    rcases (herror (.unknownAction "charge")).1 hfails with hus | ⟨us, hus, hstops⟩
    · rw [hpaying] at hus
      cases hus
    · rw [hpaying] at hus
      cases hus
      exact hstops
  exact ⟨rfl, hbuiltIn, hfirst, hsecond, hreadings, hresponse, hwins, hshare hbuiltIn _ bookingAsked hsecond, by rfl,
    hpaying, hfails, hstops⟩

end Bot

end Dialogue
