import Mathlib.Data.List.Induction
import Dialogue.Proofs.Dictionary
import Dialogue.Proofs.Match.Cut

/-!
# The greedy cut

Of all ways to cut tokens into words and wildcards, a match takes the one in which every wildcard begins as far right
and ends as far left as it can.

* `Forced d P before miss after` — why a wildcard behind the words `P` takes the words `before`, `miss` and `after`;
* `Stepwise d bs`, `Greedy d bs` — blocks that the rules allow;
* `Greedy.eq` — there is one greedy cut of the tokens at most;
* `Match.find?_greedy` — every match is the greedy cut, and a greedy cut that spells a pattern is found.
-/

namespace Dialogue

/-- a condition on each block and the blocks before it -/
def Each (Q : List Block → Block → Prop) (bs : List Block) : Prop :=
  ∀ init b rest, bs = init ++ b :: rest → Q init b

/-- Why a wildcard behind the pattern words `P` takes these words.  The words `before` still go on with the pattern
and `miss` does not, so there is a wildcard; further to the right none can begin, and none of the words `after` goes
on behind it. -/
structure Forced (d : Dictionary) (P before : List String) (miss : String) (after : List String) : Prop where
  goes : d.continues (P ++ before) = true
  misses : d.continues (P ++ before ++ [miss]) = false
  slides : ∀ us, us ≠ [] → us <+: before → d.continues (P ++ us ++ [wildcard]) = false
  stops : ∀ w ∈ after, d.continues (P ++ [wildcard, w]) = false

namespace Block

/-- the word of a block goes on with those before it -/
def Continues (d : Dictionary) (init : List Block) (b : Block) : Prop :=
  d.continues (init.map word ++ [b.word]) = true

/-- a wildcard begins and ends where it has to -/
def IsForced (d : Dictionary) (init : List Block) (b : Block) : Prop :=
  ∀ ws, b = wild ws → ∃ before miss after, ws = before ++ miss :: after ∧ Forced d (init.map word) before miss after

/-- a wildcard that directly follows another begins with a word that goes on behind that one -/
def Resumes (d : Dictionary) (init : List Block) (b : Block) : Prop :=
  ∀ init' us w ws, init = init' ++ [wild us] → b = wild (w :: ws) → d.continues (init.map word ++ [w]) = true

end Block

/-- blocks each of which goes on with the pattern, and with wildcards that begin and end where they have to -/
structure Stepwise (d : Dictionary) (bs : List Block) : Prop where
  continues : Each (Block.Continues d) bs
  forced : Each (Block.IsForced d) bs

/-- blocks in which, besides, a wildcard gives way to another only where a word goes on -/
structure Greedy (d : Dictionary) (bs : List Block) : Prop extends Stepwise d bs where
  resumes : Each (Block.Resumes d) bs

variable {d : Dictionary} {P before after : List String} {miss w : String} {init bs bs' r : List Block} {b : Block}

/-- a wildcard of one word, with which the pattern does not go on -/
theorem Forced.single (hgoes : d.continues P = true) (hmisses : d.continues (P ++ [miss]) = false) :
    Forced d P [] miss [] := by
  refine ⟨by rwa [List.append_nil], by rwa [List.append_nil], ?_, ?_⟩
  · intro us hne hus
    exact absurd (List.prefix_nil.1 hus) hne
  · intro w hw
    cases hw

/-! ### Block by block -/

theorem each_nil (Q : List Block → Block → Prop) : Each Q [] := by
  intro init b rest h
  cases init <;> cases h

theorem each_concat_iff {Q : List Block → Block → Prop} : Each Q (bs ++ [b]) ↔ Each Q bs ∧ Q bs b := by
  constructor
  · intro h
    refine ⟨?_, h bs b [] rfl⟩
    rintro init c rest rfl
    exact h init c (rest ++ [b]) (by simp)
  · rintro ⟨hbs, hb⟩ init c rest h
    rcases List.eq_nil_or_concat rest with rfl | ⟨rest, b', rfl⟩
    · obtain ⟨hinit, hlast⟩ := List.append_inj' h rfl
      rw [← hinit, ← List.head_eq_of_cons_eq hlast]
      exact hb
    · have h' : bs ++ [b] = (init ++ c :: rest) ++ [b'] := by simpa using h
      exact hbs init c rest (List.append_inj' h' rfl).1

theorem Each.left {Q : List Block → Block → Prop} (h : Each Q (bs ++ r)) : Each Q bs := by
  rintro init b rest rfl
  exact h init b (rest ++ r) (by simp)

theorem greedy_concat_iff : Greedy d (bs ++ [b]) ↔
    Greedy d bs ∧ b.Continues d bs ∧ b.IsForced d bs ∧ b.Resumes d bs := by
  constructor
  · intro h
    exact ⟨⟨⟨(each_concat_iff.1 h.continues).1, (each_concat_iff.1 h.forced).1⟩, (each_concat_iff.1 h.resumes).1⟩,
      (each_concat_iff.1 h.continues).2, (each_concat_iff.1 h.forced).2, (each_concat_iff.1 h.resumes).2⟩
  · rintro ⟨h, hcontinues, hforced, hresumes⟩
    exact ⟨⟨each_concat_iff.2 ⟨h.continues, hcontinues⟩, each_concat_iff.2 ⟨h.forced, hforced⟩⟩,
      each_concat_iff.2 ⟨h.resumes, hresumes⟩⟩

namespace Greedy

theorem nil (d : Dictionary) : Greedy d [] :=
  ⟨⟨each_nil _, each_nil _⟩, each_nil _⟩

theorem left (h : Greedy d (bs ++ r)) : Greedy d bs :=
  ⟨⟨h.continues.left, h.forced.left⟩, h.resumes.left⟩

theorem continues_words (h : Greedy d bs) : d.continues (bs.map Block.word) = true := by
  induction bs using List.reverseRecOn with
  | nil => rfl
  | append_singleton init b _ =>
    rw [List.map_append]
    exact h.continues init b [] rfl

theorem token (h : Greedy d bs) {t : Token} (ht : d.continues (bs.map Block.word ++ [t.spelling]) = true) :
    Greedy d (bs ++ [.token t]) := by
  refine greedy_concat_iff.2 ⟨h, ht, ?_, ?_⟩
  · rintro ws ⟨⟩
  · rintro init us w ws - ⟨⟩

theorem wild (h : Greedy d bs) (hwild : d.continues (bs.map Block.word ++ [wildcard]) = true)
    (hforced : Forced d (bs.map Block.word) before miss after)
    (hresumes : (∃ init us, bs = init ++ [.wild us]) → before ≠ []) :
    Greedy d (bs ++ [.wild (before ++ miss :: after)]) := by
  refine greedy_concat_iff.2 ⟨h, hwild, ?_, ?_⟩
  · rintro ws ⟨⟩
    exact ⟨before, miss, after, rfl, hforced⟩
  · intro init us w ws hbs hb
    cases before with
    | nil => exact absurd rfl (hresumes ⟨init, us, hbs⟩)
    | cons v before =>
      cases hb
      refine Dictionary.continues_of_append before ?_
      rw [List.append_assoc]
      exact hforced.goes

end Greedy

/-! ### One cut at most -/

@[simp] theorem Block.flatMap_tokens_token (t : Token) (r : List Block) :
    (Block.token t :: r).flatMap Block.tokens = t :: r.flatMap Block.tokens := rfl

@[simp] theorem Block.flatMap_tokens_wild (ws : List String) (r : List Block) :
    (Block.wild ws :: r).flatMap Block.tokens = ws.map .literal ++ r.flatMap Block.tokens := rfl

/-- where no wildcard can begin, the next block is a token that goes on -/
theorem exists_token_of_slides (hcontinues : Each (Block.Continues d) (init ++ b :: r))
    (hslides : ∀ us, us <+: before → d.continues (init.map Block.word ++ us ++ [wildcard]) = false) :
    ∃ t : Token, b = .token t ∧ d.continues (init.map Block.word ++ [t.spelling]) = true := by
  have hb := hcontinues init b r rfl
  have hnil := hslides [] List.nil_prefix
  rw [List.append_nil] at hnil
  cases b with
  | token t => exact ⟨t, rfl, hb⟩
  | wild ws => exact absurd hb (Bool.eq_false_iff.1 hnil)

/-- a word that cannot go on, and before which no wildcard can begin, is not reached -/
theorem not_reached {ts : List Token} (hcontinues : Each (Block.Continues d) (init ++ r))
    (htokens : r.flatMap Block.tokens = (before ++ [miss]).map .literal ++ ts)
    (hmisses : d.continues (init.map Block.word ++ before ++ [miss]) = false)
    (hslides : ∀ us, us <+: before → d.continues (init.map Block.word ++ us ++ [wildcard]) = false) : False := by
  induction before generalizing init r with
  | nil =>
    cases r with
    | nil => simp at htokens
    | cons b r =>
      obtain ⟨t, rfl, ht⟩ := exists_token_of_slides hcontinues hslides
      simp only [Block.flatMap_tokens_token, List.nil_append, List.map_cons, List.map_nil, List.cons_append,
        List.cons.injEq] at htokens
      obtain ⟨rfl, -⟩ := htokens
      rw [List.append_nil] at hmisses
      exact Bool.eq_false_iff.1 hmisses ht
  | cons v before ih =>
    cases r with
    | nil => simp at htokens
    | cons b r =>
      obtain ⟨t, rfl, ht⟩ := exists_token_of_slides hcontinues hslides
      simp only [Block.flatMap_tokens_token, List.map_append, List.map_cons, List.cons_append,
        List.cons.injEq] at htokens
      obtain ⟨rfl, htokens⟩ := htokens
      -- the word is a block of its own, and the search goes on behind it
      have hbehind : Each (Block.Continues d) ((init ++ [.token (.literal v)]) ++ r) := by rwa [List.append_assoc]
      refine ih hbehind (by simpa using htokens) ?_ ?_
      · simpa [Block.word, Token.spelling] using hmisses
      · intro us hus
        simpa [Block.word, Token.spelling] using hslides (v :: us) (List.cons_prefix_cons.2 ⟨rfl, hus⟩)

/-- where a wildcard has to begin, a word is not taken as it is -/
theorem not_token_of_forced {t : Token} {ts : List Token}
    (hcontinues : Each (Block.Continues d) (init ++ .token t :: r))
    (hforced : Forced d (init.map Block.word) before miss after)
    (htokens : (Block.token t :: r).flatMap Block.tokens = (before ++ miss :: after).map .literal ++ ts) : False := by
  have hword := hcontinues init (.token t) r rfl
  cases before with
  | nil =>
    simp only [Block.flatMap_tokens_token, List.nil_append, List.map_cons, List.cons_append,
      List.cons.injEq] at htokens
    obtain ⟨rfl, -⟩ := htokens
    have hmisses := hforced.misses
    rw [List.append_nil] at hmisses
    exact Bool.eq_false_iff.1 hmisses hword
  | cons v before =>
    simp only [Block.flatMap_tokens_token, List.map_append, List.map_cons, List.cons_append,
      List.cons.injEq] at htokens
    obtain ⟨rfl, htokens⟩ := htokens
    have hbehind : Each (Block.Continues d) ((init ++ [.token (.literal v)]) ++ r) := by rwa [List.append_assoc]
    have htokens : r.flatMap Block.tokens = (before ++ [miss]).map .literal ++ (after.map .literal ++ ts) := by
      simpa using htokens
    refine not_reached hbehind htokens ?_ ?_
    · simpa [Block.word, Token.spelling] using hforced.misses
    · intro us hus
      simpa [Block.word, Token.spelling] using
        hforced.slides (v :: us) (List.cons_ne_nil v us) (List.cons_prefix_cons.2 ⟨rfl, hus⟩)

/-- the words of a wildcard that has to begin where it does do not all go on -/
theorem continues_eq_false_of_forced (h : Forced d P before miss after) :
    d.continues (P ++ (before ++ miss :: after)) = false := by
  rw [Bool.eq_false_iff]
  intro hall
  refine Bool.eq_false_iff.1 h.misses (Dictionary.continues_of_append after ?_)
  simpa using hall

/-- If the words of a wildcard that has to begin where it does are more than some that do not all go on, the first one
more is among those at which it did not end. -/
theorem mem_after_of_longer {us extra : List String} (hforced : Forced d P before miss after)
    (hshort : d.continues (P ++ us) = false) (h : us ++ w :: extra = before ++ miss :: after) : w ∈ after := by
  have hlong (vs : List String) : before ≠ us ++ vs := by
    rintro rfl
    refine Bool.eq_false_iff.1 hshort (Dictionary.continues_of_append vs ?_)
    rw [List.append_assoc]
    exact hforced.goes
  rcases List.append_eq_append_iff.1 h with ⟨vs, hvs, -⟩ | ⟨vs, hus, hvs⟩
  · exact absurd hvs (hlong vs)
  · cases vs with
    | nil => exact absurd (by simpa using hus.symm) (hlong [])
    | cons v vs =>
      rw [List.cons_append, List.cons_eq_cons] at hvs
      rw [hvs.2]
      exact List.mem_append_right vs List.mem_cons_self

namespace Greedy

theorem exists_forced {ws : List String} (h : Greedy d (init ++ .wild ws :: r)) :
    ∃ before miss after, ws = before ++ miss :: after ∧ Forced d (init.map Block.word) before miss after :=
  h.forced init (.wild ws) r rfl ws rfl

theorem continues_behind_wild {us : List String} {ts : List Token} (h : Greedy d (init ++ .wild us :: r))
    (htokens : r.flatMap Block.tokens = .literal w :: ts) :
    d.continues (init.map Block.word ++ [wildcard, w]) = true := by
  have hinit : init.map Block.word ++ [wildcard, w] = (init ++ [Block.wild us]).map Block.word ++ [w] := by
    simp [Block.word]
  rw [hinit]
  cases r with
  | nil => cases htokens
  | cons b r =>
    rw [← List.singleton_append, ← List.append_assoc] at h
    -- the next word is a block of its own, or the first word of a wildcard, which first went on as it was
    cases b with
    | token t =>
      simp only [Block.flatMap_tokens_token, List.cons.injEq] at htokens
      obtain ⟨rfl, -⟩ := htokens
      exact h.continues _ _ r rfl
    | wild vs =>
      cases vs with
      | nil =>
        obtain ⟨before, miss, after, hnil, -⟩ := h.exists_forced
        cases before <;> cases hnil
      | cons v vs =>
        simp only [Block.flatMap_tokens_wild, List.map_cons, List.cons_append, List.cons.injEq,
          Token.literal.injEq] at htokens
        obtain ⟨rfl, -⟩ := htokens
        exact h.resumes _ _ r rfl init us v vs rfl rfl

/-- a wildcard does not end before a word that another one takes in its place -/
theorem not_longer {us extra : List String} {ts : List Token} {r' : List Block} (h : Greedy d (init ++ .wild us :: r))
    (h' : Greedy d (init ++ .wild (us ++ w :: extra) :: r')) (htokens : r.flatMap Block.tokens = .literal w :: ts) :
    False := by
  obtain ⟨before', miss', after', hus, hforced'⟩ := h.exists_forced
  obtain ⟨before, miss, after, hws, hforced⟩ := h'.exists_forced
  have hshort : d.continues (init.map Block.word ++ us) = false := by
    rw [hus]
    exact continues_eq_false_of_forced hforced'
  have hstops := hforced.stops w (mem_after_of_longer hforced hshort hws)
  exact Bool.eq_false_iff.1 hstops (h.continues_behind_wild htokens)

/-- of two wildcards in one place neither takes fewer words -/
theorem eq_of_map_append {us ws : List String} {r' : List Block} {ts : List Token}
    (h : Greedy d (init ++ .wild us :: r)) (h' : Greedy d (init ++ .wild ws :: r'))
    (hws : ws.map Token.literal = us.map .literal ++ ts) (hr : r.flatMap Block.tokens = ts ++ r'.flatMap Block.tokens) :
    us = ws := by
  obtain ⟨us', extra, rfl, hus', rfl⟩ := List.map_eq_append_iff.1 hws
  obtain rfl : us' = us := Token.literal_injective.list_map hus'
  cases extra with
  | nil => rw [List.append_nil]
  | cons w extra => exact (h.not_longer h' (by simpa using hr)).elim

/-- two greedy cuts of the same tokens that are the same up to a block go on with the same block -/
theorem head_eq {b' : Block} {r' : List Block} (h : Greedy d (init ++ b :: r)) (h' : Greedy d (init ++ b' :: r'))
    (htokens : (b :: r).flatMap Block.tokens = (b' :: r').flatMap Block.tokens) : b = b' := by
  cases b with
  | token t =>
    cases b' with
    | token t' =>
      simp only [Block.flatMap_tokens_token, List.cons.injEq] at htokens
      rw [htokens.1]
    | wild ws =>
      obtain ⟨before, miss, after, rfl, hforced⟩ := h'.exists_forced
      exact (not_token_of_forced h.continues hforced htokens).elim
  | wild us =>
    cases b' with
    | token t' =>
      obtain ⟨before, miss, after, rfl, hforced⟩ := h.exists_forced
      exact (not_token_of_forced h'.continues hforced htokens.symm).elim
    | wild ws =>
      simp only [Block.flatMap_tokens_wild] at htokens
      rcases List.append_eq_append_iff.1 htokens with ⟨ts, hws, hr⟩ | ⟨ts, hus, hr⟩
      · rw [h.eq_of_map_append h' hws hr]
      · rw [h'.eq_of_map_append h hus hr]

theorem tokens_ne_nil (h : Greedy d (init ++ b :: r)) : (b :: r).flatMap Block.tokens ≠ [] := by
  cases b with
  | token t => exact List.cons_ne_nil _ _
  | wild ws =>
    obtain ⟨before, miss, after, rfl, -⟩ := h.exists_forced
    rw [Block.flatMap_tokens_wild]
    simp

theorem eq_of_append {r' : List Block} (h : Greedy d (init ++ r)) (h' : Greedy d (init ++ r'))
    (htokens : r.flatMap Block.tokens = r'.flatMap Block.tokens) : r = r' := by
  induction r generalizing init r' with
  | nil =>
    cases r' with
    | nil => rfl
    | cons b' r' => exact absurd htokens.symm h'.tokens_ne_nil
  | cons b r ih =>
    cases r' with
    | nil => exact absurd htokens h.tokens_ne_nil
    | cons b' r' =>
      obtain rfl := h.head_eq h' htokens
      rw [← List.singleton_append, ← List.append_assoc] at h h'
      rw [ih h h' (List.append_cancel_left htokens)]

/-- **Tokens have one greedy cut at most.** -/
theorem eq (h : Greedy d bs) (h' : Greedy d bs') (htokens : bs.flatMap Block.tokens = bs'.flatMap Block.tokens) :
    bs = bs' := by
  have hnil : Greedy d ([] ++ bs) := h
  exact hnil.eq_of_append h' htokens

end Greedy

/-! ### A match is greedy -/

namespace Progress

variable {p q : Progress} {ts : List Token}

/-- how far the matching has come after some tokens: they are cut greedily, and a wildcard that is the last block is
open -/
structure Chooses (d : Dictionary) (p : Progress) (ts : List Token) (bs : List Block) : Prop
    extends Reads p ts bs where
  greedy : Greedy d bs
  opened : ∀ init ws, bs = init ++ [.wild ws] → p.wild ≠ none

/-- how many words stay when a wildcard opens: it can begin behind them and nowhere further to the right -/
theorem stay?_eq_some {n k : Nat} (h : p.stay? d n = some k) :
    d.continues (p.pattern.take k ++ [wildcard]) = true ∧
      ∀ l, k < l → l ≤ n → d.continues (p.pattern.take l ++ [wildcard]) = false := by
  induction n with
  | zero =>
    simp only [stay?, Option.ite_none_right_eq_some, Option.some.injEq] at h
    obtain ⟨hgo, rfl⟩ := h
    exact ⟨hgo, fun l hl hl' => absurd hl (by omega)⟩
  | succ n ih =>
    unfold stay? at h
    split at h
    · next hgo =>
      cases h
      exact ⟨hgo, fun l hl hl' => absurd hl (by omega)⟩
    · next hno =>
      split at h
      · cases h
      · obtain ⟨hgo, hrest⟩ := ih h
        refine ⟨hgo, ?_⟩
        intro l hl hl'
        rcases Nat.lt_or_eq_of_le hl' with hlt | rfl
        · exact hrest l hl (by omega)
        · exact Bool.eq_false_iff.2 hno

/-- where a wildcard opens it has to begin: the words that it takes back went on until the new one -/
theorem forced_of_stay? {n : Nat} (hgoes : d.continues p.pattern = true)
    (hno : d.continues (p.pattern ++ [w]) = false) (hn : p.stay? d p.pattern.length = some n) :
    Forced d (p.pattern.take n) (p.pattern.drop n) w [] := by
  obtain ⟨-, hright⟩ := stay?_eq_some hn
  refine ⟨by rwa [List.take_append_drop], by rwa [List.take_append_drop], ?_, by simp⟩
  rintro us hus ⟨vs, hvs⟩
  have hlength : us.length + vs.length = p.pattern.length - n := by
    rw [← List.length_append, hvs, List.length_drop]
  have hpos : 0 < us.length := List.length_pos_iff.2 hus
  have htake : p.pattern.take (n + us.length) = p.pattern.take n ++ us := by
    rw [List.take_add, ← hvs, List.take_left]
  rw [← htake]
  exact hright _ (by omega) (by omega)

theorem chooses_start (d : Dictionary) : Chooses d start [] [] :=
  ⟨reads_start, .nil d, by simp⟩

namespace Chooses

theorem literal (hp : p.Chooses d ts bs) (hgo : d.continues (p.pattern ++ [w]) = true) :
    Chooses d { p with pattern := p.pattern ++ [w], wild := none, captures := p.closed } (ts ++ [.literal w])
      (bs ++ [.token (.literal w)]) where
  toReads := hp.toReads.literal w
  greedy := hp.greedy.token (by rwa [hp.cut.words_eq])
  opened := by
    intro init ws h
    cases List.head_eq_of_cons_eq (List.append_inj' h rfl).2

theorem growWildcard {words : List String} (hp : p.Chooses d ts (init ++ [.wild words])) (hwild : p.wild = some words)
    (hno : d.continues (p.pattern ++ [w]) = false) :
    Chooses d { p with wild := some (words ++ [w]) } (ts ++ [.literal w]) (init ++ [.wild (words ++ [w])]) where
  toReads := hp.toReads.growWildcard hwild w
  greedy := by
    obtain ⟨hinit, hgo, -, hresumes⟩ := greedy_concat_iff.1 hp.greedy
    obtain ⟨before, miss, after, rfl, hforced⟩ := hp.greedy.exists_forced (r := [])
    have hword : p.pattern = init.map Block.word ++ [wildcard] := by
      rw [← hp.cut.words_eq, List.map_append]
      rfl
    rw [List.append_assoc, List.cons_append]
    refine hinit.wild hgo ⟨hforced.goes, hforced.misses, hforced.slides, ?_⟩ ?_
    · intro v hv
      rcases List.mem_append.1 hv with hv | hv
      · exact hforced.stops v hv
      · rw [List.mem_singleton.1 hv]
        simpa [hword] using hno
    · rintro ⟨init', us, hus⟩ rfl
      -- the word at which the wildcard began goes on behind the one before it, so it is no miss
      have hgoes := hresumes init' us miss after hus rfl
      have hmisses := hforced.misses
      rw [List.append_nil] at hmisses
      exact Bool.eq_false_iff.1 hmisses hgoes
  opened := by
    intro _ _ _ h
    cases h

theorem openWildcard {n : Nat} (hp : p.Chooses d ts bs) (hwild : p.wild = none)
    (hno : d.continues (p.pattern ++ [w]) = false) (hn : p.stay? d p.pattern.length = some n) :
    Chooses d { p with
        pattern := p.pattern.take n ++ [wildcard]
        pinned := n + 1
        wild := some (p.pattern.drop n ++ [w]) }
      (ts ++ [.literal w]) (bs.take n ++ [.wild (p.pattern.drop n ++ [w])]) where
  toReads := by
    have hbounds := stay?_bounds hp.pinned_le hn
    exact hp.toReads.openWildcard hwild hbounds.1 hbounds.2 w
  greedy := by
    have htake : (bs.take n).map Block.word = p.pattern.take n := by rw [List.map_take, hp.cut.words_eq]
    have hgreedy : Greedy d (bs.take n) := by
      refine Greedy.left (r := bs.drop n) ?_
      rw [List.take_append_drop]
      exact hp.greedy
    have hgoes : d.continues p.pattern = true := by
      rw [← hp.cut.words_eq]
      exact hp.greedy.continues_words
    refine hgreedy.wild ?_ ?_ ?_
    · rw [htake]
      exact (stay?_eq_some hn).1
    · rw [htake]
      exact forced_of_stay? hgoes hno hn
    · rintro ⟨init, us, hus⟩ hnil
      -- if no word was taken back, the last block is the wildcard, which would be open
      have hall : bs.take n = bs := by
        rw [List.drop_eq_nil_iff] at hnil
        rw [List.take_of_length_le (by rw [hp.cut.length_eq]; exact hnil)]
      rw [hall] at hus
      exact hp.opened init us hus hwild
  opened := by
    intro _ _ _ h
    cases h

theorem entity {tag value : String} (hp : p.Chooses d ts bs)
    (hgo : d.continues (p.pattern ++ [(Token.entity tag value).spelling]) = true) :
    Chooses d ⟨p.pattern ++ [(Token.entity tag value).spelling],
        (p.pattern ++ [(Token.entity tag value).spelling]).length, none, p.closed.addEntity tag value⟩
      (ts ++ [.entity tag value]) (bs ++ [.token (.entity tag value)]) where
  toReads := hp.toReads.entity tag value
  greedy := hp.greedy.token (by rwa [hp.cut.words_eq])
  opened := by
    intro init ws h
    cases List.head_eq_of_cons_eq (List.append_inj' h rfl).2

theorem step {t : Token} (hp : p.Chooses d ts bs) (h : p.step? d t = some q) :
    ∃ bs, q.Chooses d (ts ++ [t]) bs := by
  cases t with
  | literal w =>
    rcases step?_literal h with ⟨hgo, rfl⟩ | ⟨hno, ⟨words, hwild, rfl⟩ | ⟨hwild, n, hn, rfl⟩⟩
    · exact ⟨_, hp.literal hgo⟩
    · obtain ⟨init, rfl⟩ := hp.wild words hwild
      exact ⟨_, hp.growWildcard hwild hno⟩
    · exact ⟨_, hp.openWildcard hwild hno hn⟩
  | entity tag value =>
    simp only [step?, Option.ite_none_right_eq_some, Option.some.injEq] at h
    obtain ⟨hgo, rfl⟩ := h
    exact ⟨_, hp.entity hgo⟩

theorem foldlM {us : List Token} (hp : p.Chooses d ts bs) (h : us.foldlM (step? d) p = some q) :
    ∃ bs, q.Chooses d (ts ++ us) bs :=
  foldlM_blocks step hp h

end Chooses

/-! ### A greedy cut is found -/

/-- how far the matching has come once blocks have been read -/
structure Stands (p : Progress) (bs : List Block) : Prop where
  words_eq : p.pattern = bs.map Block.word
  pinned_le : p.pinned ≤ bs.length
  wild : ∀ words, p.wild = some words → ∃ init us, bs = init ++ [.wild us]

theorem foldlM_words {us : List String} (hgo : d.continues (p.pattern ++ us) = true)
    (hwild : us = [] → p.wild = none) :
    ∃ q, (us.map Token.literal).foldlM (step? d) p = some q ∧ q.pattern = p.pattern ++ us ∧ q.pinned = p.pinned ∧
      q.wild = none := by
  induction us generalizing p with
  | nil => exact ⟨p, rfl, (List.append_nil _).symm, rfl, hwild rfl⟩
  | cons u us ih =>
    have hu : d.continues (p.pattern ++ [u]) = true := by
      refine Dictionary.continues_of_append us ?_
      rwa [List.append_assoc]
    have hstep : p.step? d (.literal u) =
        some { p with pattern := p.pattern ++ [u], wild := none, captures := p.closed } := by
      rw [step?, if_pos hu]
    obtain ⟨q, hq, hpattern, hpinned, hnone⟩ :=
      ih (p := { p with pattern := p.pattern ++ [u], wild := none, captures := p.closed })
        (by rwa [List.append_assoc]) (fun _ => rfl)
    refine ⟨q, ?_, by simpa using hpattern, hpinned, hnone⟩
    rw [List.map_cons, List.foldlM_cons, hstep]
    exact hq

theorem foldlM_grow {ws us : List String} (hwild : p.wild = some ws)
    (hno : ∀ w ∈ us, d.continues (p.pattern ++ [w]) = false) :
    (us.map Token.literal).foldlM (step? d) p = some { p with wild := some (ws ++ us) } := by
  induction us generalizing p ws with
  | nil => rw [List.append_nil, ← hwild]; rfl
  | cons u us ih =>
    rw [List.forall_mem_cons] at hno
    have hstep : p.step? d (.literal u) = some { p with wild := some (ws ++ [u]) } := by
      rw [step?, if_neg (Bool.eq_false_iff.1 hno.1), hwild]
    rw [List.map_cons, List.foldlM_cons, hstep]
    refine (ih (p := { p with wild := some (ws ++ [u]) }) rfl hno.2).trans ?_
    rw [List.append_assoc]
    rfl

/-- a wildcard opens as far right as one can begin -/
theorem stay?_of_slides {n k : Nat} (hle : k ≤ n) (hpin : p.pinned ≤ k)
    (hgo : d.continues (p.pattern.take k ++ [wildcard]) = true)
    (hno : ∀ l, k < l → l ≤ n → d.continues (p.pattern.take l ++ [wildcard]) = false) : p.stay? d n = some k := by
  induction n with
  | zero =>
    obtain rfl := Nat.le_zero.1 hle
    rw [stay?]
    exact if_pos hgo
  | succ n ih =>
    rw [stay?]
    rcases Nat.lt_or_eq_of_le hle with hlt | rfl
    · rw [if_neg (Bool.eq_false_iff.1 (hno _ hlt (Nat.le_refl _))), if_neg (by omega)]
      exact ih (by omega) fun l hl hl' => hno l hl (by omega)
    · exact if_pos hgo

namespace Stands

theorem length_eq (hp : p.Stands bs) : p.pattern.length = bs.length := by
  rw [hp.words_eq, List.length_map]

theorem exists_token {t : Token} (hp : p.Stands bs) (hgo : d.continues (bs.map Block.word ++ [t.spelling]) = true) :
    ∃ q, p.step? d t = some q ∧ q.Stands (bs ++ [.token t]) := by
  rw [← hp.words_eq] at hgo
  have hword : p.pattern ++ [t.spelling] = (bs ++ [Block.token t]).map Block.word := by
    rw [List.map_append, hp.words_eq]
    rfl
  cases t with
  | literal w =>
    refine ⟨_, if_pos hgo, hword, ?_, by simp⟩
    rw [List.length_append]
    exact Nat.le_add_right_of_le hp.pinned_le
  | entity tag value =>
    refine ⟨_, if_pos hgo, hword, ?_, by simp⟩
    have hlength := congrArg List.length hword
    rw [List.length_map] at hlength
    exact Nat.le_of_eq hlength

/-- a wildcard opens at the word that does not go on -/
theorem openWildcard? (hp : p.Stands bs) (hgo : d.continues (bs.map Block.word ++ [wildcard]) = true)
    (hforced : Forced d (bs.map Block.word) before miss after) (hpattern : q.pattern = p.pattern ++ before)
    (hpinned : q.pinned = p.pinned) :
    q.openWildcard? d miss = some { q with
      pattern := p.pattern ++ [wildcard]
      pinned := bs.length + 1
      wild := some (before ++ [miss]) } := by
  have htake : q.pattern.take bs.length = p.pattern := by rw [hpattern, List.take_left' hp.length_eq]
  have hdrop : q.pattern.drop bs.length = before := by rw [hpattern, List.drop_left' hp.length_eq]
  have hstay : q.stay? d q.pattern.length = some bs.length := by
    refine stay?_of_slides ?_ ?_ ?_ ?_
    · rw [hpattern, List.length_append, hp.length_eq]
      exact Nat.le_add_right _ _
    · rw [hpinned]
      exact hp.pinned_le
    · rw [htake, hp.words_eq]
      exact hgo
    · intro l hl hl'
      rw [hpattern, List.length_append, hp.length_eq] at hl'
      have htake : q.pattern.take l = bs.map Block.word ++ before.take (l - bs.length) := by
        rw [hpattern, List.take_append, List.take_of_length_le (by rw [hp.length_eq]; omega), hp.length_eq, hp.words_eq]
      rw [htake]
      refine hforced.slides _ ?_ (List.take_prefix _ _)
      rw [← List.length_pos_iff, List.length_take]
      omega
  rw [Progress.openWildcard?, hstay, Option.map_some, htake, hdrop]

/-- a wildcard is read that begins and ends where it has to -/
theorem exists_wild {ws : List String} (hp : p.Stands bs) (h : Greedy d (bs ++ [.wild ws])) :
    ∃ q, (ws.map Token.literal).foldlM (step? d) p = some q ∧ q.Stands (bs ++ [.wild ws]) := by
  obtain ⟨-, hgo, -, hresumes⟩ := greedy_concat_iff.1 h
  obtain ⟨before, miss, after, rfl, hforced⟩ := h.exists_forced (r := [])
  have hwild : before = [] → p.wild = none := by
    rintro rfl
    by_contra hopen
    obtain ⟨words, hwords⟩ := Option.ne_none_iff_exists'.1 hopen
    obtain ⟨init, us, hus⟩ := hp.wild words hwords
    have hmisses := hforced.misses
    rw [List.append_nil] at hmisses
    exact Bool.eq_false_iff.1 hmisses (hresumes init us miss after hus rfl)
  have hgoes : d.continues (p.pattern ++ before) = true := by
    rw [hp.words_eq]
    exact hforced.goes
  -- the words before the miss go on, the wildcard opens at the miss, and takes the words after it
  obtain ⟨q, hq, hpattern, hpinned, hnone⟩ := foldlM_words hgoes hwild
  have hmiss : q.step? d (.literal miss) = some { q with
      pattern := p.pattern ++ [wildcard]
      pinned := bs.length + 1
      wild := some (before ++ [miss]) } := by
    rw [step?, hpattern, hp.words_eq, if_neg (Bool.eq_false_iff.1 hforced.misses), hnone, ← hp.words_eq]
    exact hp.openWildcard? hgo hforced hpattern hpinned
  have hstops : ∀ w ∈ after, d.continues (p.pattern ++ [wildcard] ++ [w]) = false := by
    intro w hw
    rw [hp.words_eq, List.append_assoc]
    exact hforced.stops w hw
  have hgrow := foldlM_grow (p := ⟨p.pattern ++ [wildcard], bs.length + 1, some (before ++ [miss]), q.captures⟩) rfl
    hstops
  have hfold : ((before ++ miss :: after).map Token.literal).foldlM (step? d) p =
      some ⟨p.pattern ++ [wildcard], bs.length + 1, some (before ++ [miss] ++ after), q.captures⟩ := by
    rw [List.map_append, List.map_cons, List.foldlM_append, hq]
    show (Token.literal miss :: after.map Token.literal).foldlM (step? d) q = _
    rw [List.foldlM_cons, hmiss]
    exact hgrow
  refine ⟨_, hfold, ?_, ?_, ?_⟩
  · rw [List.map_append, hp.words_eq]
    rfl
  · have hlength : (bs ++ [Block.wild (before ++ miss :: after)]).length = bs.length + 1 := List.length_append
    exact Nat.le_of_eq hlength.symm
  · intro words _
    exact ⟨bs, _, rfl⟩

end Stands

theorem exists_foldlM (h : Greedy d bs) :
    ∃ p, (bs.flatMap Block.tokens).foldlM (step? d) start = some p ∧ p.Stands bs := by
  induction bs using List.reverseRecOn with
  | nil => exact ⟨start, rfl, rfl, Nat.le_refl _, by simp [start]⟩
  | append_singleton init b ih =>
    obtain ⟨p, hp, hstands⟩ := ih h.left
    have hblock : ∃ q, b.tokens.foldlM (step? d) p = some q ∧ q.Stands (init ++ [b]) := by
      cases b with
      | token t =>
        obtain ⟨q, hq, hstands⟩ := hstands.exists_token (greedy_concat_iff.1 h).2.1
        refine ⟨q, ?_, hstands⟩
        rw [Block.tokens, List.foldlM_cons, hq]
        rfl
      | wild ws => exact hstands.exists_wild h
    obtain ⟨q, hq, hstands⟩ := hblock
    refine ⟨q, ?_, hstands⟩
    rw [List.flatMap_append, List.foldlM_append, hp, List.flatMap_singleton]
    exact hq

end Progress

namespace Match

variable {ts : List Token} {m : Match}

theorem exists_greedy (h : find? d ts = some m) : ∃ bs, Cut ts m.pattern m.captures bs ∧ Greedy d bs := by
  obtain ⟨p, hp, h⟩ := Option.bind_eq_some_iff.1 h
  obtain ⟨bs, hbs⟩ := (Progress.chooses_start d).foldlM hp
  rw [Progress.finish?, Option.ite_none_right_eq_some] at h
  obtain ⟨-, h⟩ := h
  cases h
  exact ⟨bs, hbs.cut, hbs.greedy⟩

/-- a greedy cut that spells a pattern is found -/
theorem exists_find? (h : Greedy d bs) (hcomplete : d.isComplete (bs.map Block.word) = true) :
    ∃ m, find? d (bs.flatMap Block.tokens) = some m ∧ Cut (bs.flatMap Block.tokens) m.pattern m.captures bs := by
  obtain ⟨p, hp, hstands⟩ := Progress.exists_foldlM h
  have hfind : find? d (bs.flatMap Block.tokens) = some ⟨p.pattern, p.closed⟩ := by
    rw [find?, hp, Option.bind_some, Progress.finish?, hstands.words_eq, if_pos hcomplete]
  refine ⟨_, hfind, ?_⟩
  obtain ⟨bs', hcut, hgreedy⟩ := exists_greedy hfind
  obtain rfl := h.eq hgreedy hcut.tokens_eq.symm
  exact hcut

/-- the tokens of a pattern are a greedy cut of themselves -/
theorem greedy_tokens (h : d.continues (ts.map Token.spelling) = true) : Greedy d (ts.map Block.token) := by
  induction ts using List.reverseRecOn with
  | nil => exact .nil d
  | append_singleton ts t ih =>
    rw [List.map_append] at h ⊢
    refine (ih (Dictionary.continues_of_append _ h)).token ?_
    rw [List.map_map]
    exact h

/-- **The greedy rule.**  Every match is a greedy cut of its tokens, tokens have one such cut at most, and if it spells
a pattern it is found; so tokens that are themselves a pattern are matched by it without a wildcard. -/
theorem find?_greedy (d : Dictionary) :
    (∀ ts m, find? d ts = some m → ∃ bs, Cut ts m.pattern m.captures bs ∧ Greedy d bs) ∧
      (∀ bs bs', Greedy d bs → Greedy d bs' → bs.flatMap Block.tokens = bs'.flatMap Block.tokens → bs = bs') ∧
      (∀ bs, Greedy d bs → d.isComplete (bs.map Block.word) = true →
        ∃ m, find? d (bs.flatMap Block.tokens) = some m ∧ Cut (bs.flatMap Block.tokens) m.pattern m.captures bs) ∧
      ∀ ts, d.isComplete (ts.map Token.spelling) = true →
        ∃ m, find? d ts = some m ∧ m.pattern = ts.map Token.spelling ∧ m.captures.wildcards = [] := by
  refine ⟨fun ts m => exists_greedy, fun bs bs' => Greedy.eq, fun bs => exists_find?, ?_⟩
  intro ts hcomplete
  obtain ⟨payload, hpayload⟩ := Option.isSome_iff_exists.1 hcomplete
  have hgoes : d.continues (ts.map Token.spelling) = true := by
    rw [← List.append_nil (ts.map Token.spelling)] at hpayload
    exact Dictionary.continues_of_payload? hpayload
  have hwords : (ts.map Block.token).map Block.word = ts.map Token.spelling := by
    rw [List.map_map]
    rfl
  have htokens : (ts.map Block.token).flatMap Block.tokens = ts := by
    rw [List.flatMap_map]
    exact List.flatMap_singleton' ts
  obtain ⟨m, hm, hcut⟩ := exists_find? (greedy_tokens hgoes) (by rwa [hwords])
  rw [htokens] at hm hcut
  refine ⟨m, hm, by rw [← hcut.words_eq, hwords], ?_⟩
  rw [hcut.wildcards_eq, List.filterMap_eq_nil_iff]
  intro b hb
  obtain ⟨t, -, rfl⟩ := List.mem_map.1 hb
  rfl

/-- two wildcards in a row, of which the second begins with a word that first went on and was taken back -/
theorem find?_greedy_taken_back :
    let d := (Dictionary.empty.insert ["*", "b", "q"] "stay").insert ["*", "*"] "go"
    let bs := [Block.wild ["x"], .wild ["b", "c"]]
    Greedy d bs ∧ find? d [.literal "x", .literal "b", .literal "c"] = some ⟨["*", "*"], ⟨["x", "b c"], []⟩⟩ ∧
      ∃ m, find? d (bs.flatMap Block.tokens) = some m ∧ Cut (bs.flatMap Block.tokens) m.pattern m.captures bs := by
  intro d bs
  have hfirst : Greedy d ([] ++ [.wild ([] ++ "x" :: [])]) := by
    refine (Greedy.nil d).wild (by decide) (.single (by decide) (by decide)) ?_
    rintro ⟨init, us, h⟩
    cases init <;> cases h
  have hgreedy : Greedy d ([.wild ["x"]] ++ [.wild (["b"] ++ "c" :: [])]) := by
    refine Greedy.wild hfirst (by decide) ⟨by decide, by decide, ?_, by decide⟩ ?_
    · intro us hne hus
      rcases List.prefix_cons_iff.1 hus with rfl | ⟨vs, rfl, hvs⟩
      · exact absurd rfl hne
      · rw [List.prefix_nil.1 hvs]
        decide
    · rintro -
      exact List.cons_ne_nil "b" []
  exact ⟨hgreedy, by decide, (find?_greedy d).2.2.1 bs hgreedy (by decide)⟩

def twoWildcards : Dictionary :=
  .insert .empty ["*", "*"] "go"

/-- Without the rule for a wildcard that directly follows another, tokens have several cuts, and a pattern that such
a cut spells need not be found. -/
theorem not_find?_stepwise :
    ¬ ∀ d : Dictionary,
      (∀ ts m, Token.literal wildcard ∉ ts → find? d ts = some m →
          ∃ bs, Cut ts m.pattern m.captures bs ∧ Stepwise d bs) ∧
        (∀ bs bs', Token.literal wildcard ∉ bs.flatMap Block.tokens → Stepwise d bs → Stepwise d bs' →
          bs.flatMap Block.tokens = bs'.flatMap Block.tokens → bs = bs') ∧
        (∀ bs, Token.literal wildcard ∉ bs.flatMap Block.tokens → Stepwise d bs →
          d.isComplete (bs.map Block.word) = true →
            ∃ m, find? d (bs.flatMap Block.tokens) = some m ∧ Cut (bs.flatMap Block.tokens) m.pattern m.captures bs) ∧
        ∀ ts, Token.literal wildcard ∉ ts → d.isComplete (ts.map Token.spelling) = true →
          ∃ m, find? d ts = some m ∧ m.pattern = ts.map Token.spelling ∧ m.captures.wildcards = [] := by
  intro h
  obtain ⟨-, -, hfound, -⟩ := h twoWildcards
  have hfirst : Stepwise twoWildcards ([] ++ [.wild ["x"]]) := by
    refine ⟨each_concat_iff.2 ⟨each_nil _, by rfl⟩, each_concat_iff.2 ⟨each_nil _, ?_⟩⟩
    rintro ws ⟨⟩
    exact ⟨[], "x", [], rfl, .single (by decide) (by decide)⟩
  have hboth : Stepwise twoWildcards ([.wild ["x"]] ++ [.wild ["y"]]) := by
    refine ⟨each_concat_iff.2 ⟨hfirst.continues, by rfl⟩, each_concat_iff.2 ⟨hfirst.forced, ?_⟩⟩
    rintro ws ⟨⟩
    exact ⟨[], "y", [], rfl, .single (by decide) (by decide)⟩
  obtain ⟨m, hm, -⟩ := hfound _ (by decide) hboth (by decide)
  have hnone : find? twoWildcards [.literal "x", .literal "y"] = none := by decide
  cases hm.symm.trans hnone

end Match

end Dialogue
