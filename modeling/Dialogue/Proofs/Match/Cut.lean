import Mathlib.Tactic.Common
import Dialogue.Match.Basic

/-!
# Matches as cuts

A match cuts the tokens into blocks, one for each word of its pattern: a block is one token, or the words that a
wildcard took.

* `Cut ts pattern c bs` — the blocks `bs` are all of the tokens `ts`, spell `pattern` and give the captures `c`;
* `Progress.Reads p ts` — how far the matching has come after the tokens `ts`: a cut, in which all blocks after the
  pinned ones are words (`reads_step` keeps it);
* `find?_cut` — every match is a cut.
-/

namespace Dialogue

/-- the tokens that one pattern word stands for: a token, or the words of a wildcard -/
inductive Block where
  | token (t : Token)
  | wild (words : List String)

namespace Block

def word : Block → String
  | token t => t.spelling
  | wild _ => wildcard

def tokens : Block → List Token
  | token t => [t]
  | wild words => words.map .literal

/-- what a wildcard took -/
def taken? : Block → Option String
  | token _ => none
  | wild words => some (Text.spaced words)

/-- whether a block is a word that is no part of a wildcard -/
def IsWord (b : Block) : Prop := ∃ w, b = token (.literal w)

end Block

/-- the value of an entity with a tag -/
def Token.valueOf? (tag : String) : Token → Option String
  | .literal _ => none
  | .entity t v => if t = tag then some v else none

def Captures.values (c : Captures) (tag : String) : List String :=
  (Entries.get? tag c.entities).getD []

/-- blocks that are all of some tokens in their order, spell a pattern and give captures -/
structure Cut (ts : List Token) (pattern : List String) (c : Captures) (bs : List Block) : Prop where
  words_eq : bs.map Block.word = pattern
  tokens_eq : bs.flatMap Block.tokens = ts
  ne_nil : ∀ words, .wild words ∈ bs → words ≠ []
  wildcards_eq : c.wildcards = bs.filterMap Block.taken?
  values_eq : ∀ tag, c.values tag = ts.filterMap (Token.valueOf? tag)

namespace Captures

@[simp] theorem values_addWildcard (c : Captures) (words : List String) (tag : String) :
    (c.addWildcard words).values tag = c.values tag := rfl

theorem values_addEntity (c : Captures) (tag value t : String) :
    (c.addEntity tag value).values t = c.values t ++ ((Token.entity tag value).valueOf? t).toList := by
  by_cases h : t = tag
  · subst h
    simp [values, addEntity, Token.valueOf?]
  · simp [values, addEntity, Token.valueOf?, Entries.get?_insert_of_ne h, Ne.symm h]

end Captures

namespace Cut

variable {ts : List Token} {pattern : List String} {c : Captures} {bs : List Block}

theorem nil : Cut [] [] .empty [] := ⟨rfl, rfl, by simp, rfl, fun _ => rfl⟩

theorem length_eq (h : Cut ts pattern c bs) : bs.length = pattern.length := by
  rw [← h.words_eq, List.length_map]

/-- a token that stands for itself becomes a block of its own -/
theorem token (h : Cut ts pattern c bs) (t : Token) {c' : Captures} (hwild : c'.wildcards = c.wildcards)
    (hvalues : ∀ tag, c'.values tag = c.values tag ++ (t.valueOf? tag).toList) :
    Cut (ts ++ [t]) (pattern ++ [t.spelling]) c' (bs ++ [.token t]) where
  words_eq := by simp [h.words_eq, Block.word]
  tokens_eq := by simp [h.tokens_eq, Block.tokens]
  ne_nil := by
    intro words hw
    rcases List.mem_append.1 hw with hw | hw
    · exact h.ne_nil words hw
    · simp at hw
  wildcards_eq := by simp [hwild, h.wildcards_eq, Block.taken?]
  values_eq := by
    intro tag
    rw [hvalues tag, h.values_eq tag, List.filterMap_append]
    cases hv : t.valueOf? tag <;> simp [hv]

theorem literal (h : Cut ts pattern c bs) (w : String) :
    Cut (ts ++ [.literal w]) (pattern ++ [w]) c (bs ++ [.token (.literal w)]) :=
  h.token (.literal w) rfl fun _ => (List.append_nil _).symm

theorem entity (h : Cut ts pattern c bs) (tag value : String) :
    Cut (ts ++ [.entity tag value]) (pattern ++ [(Token.entity tag value).spelling]) (c.addEntity tag value)
      (bs ++ [.token (.entity tag value)]) :=
  h.token (.entity tag value) rfl (c.values_addEntity tag value)

theorem tokens_of_isWord (h : ∀ b ∈ bs, b.IsWord) : bs.flatMap Block.tokens = (bs.map Block.word).map .literal := by
  induction bs with
  | nil => rfl
  | cons b bs ih =>
    obtain ⟨w, rfl⟩ := h b List.mem_cons_self
    rw [List.flatMap_cons, ih fun b hb => h b (List.mem_cons_of_mem _ hb)]
    rfl

theorem taken_of_isWord (h : ∀ b ∈ bs, b.IsWord) : bs.filterMap Block.taken? = [] := by
  rw [List.filterMap_eq_nil_iff]
  intro b hb
  obtain ⟨w, rfl⟩ := h b hb
  rfl

/-- a wildcard takes the words after the first `n` blocks and one more -/
theorem openWildcard (h : Cut ts pattern c bs) {n : Nat} (hn : ∀ b ∈ bs.drop n, b.IsWord) (w : String) :
    Cut (ts ++ [.literal w]) (pattern.take n ++ [wildcard]) (c.addWildcard (pattern.drop n ++ [w]))
      (bs.take n ++ [.wild (pattern.drop n ++ [w])]) where
  words_eq := by simp [← h.words_eq, Block.word]
  tokens_eq := by
    have hdrop : (bs.drop n).flatMap Block.tokens = (pattern.drop n).map .literal := by
      rw [tokens_of_isWord hn, ← h.words_eq, List.map_drop]
    calc (bs.take n ++ [Block.wild (pattern.drop n ++ [w])]).flatMap Block.tokens
        = (bs.take n).flatMap Block.tokens ++ ((pattern.drop n).map .literal ++ [.literal w]) := by
          simp [Block.tokens]
      _ = (bs.take n ++ bs.drop n).flatMap Block.tokens ++ [.literal w] := by
          rw [List.flatMap_append, hdrop, List.append_assoc]
      _ = ts ++ [.literal w] := by rw [List.take_append_drop, h.tokens_eq]
  ne_nil := by
    intro words hw
    rcases List.mem_append.1 hw with hw | hw
    · exact h.ne_nil words (List.mem_of_mem_take hw)
    · simp only [List.mem_singleton, Block.wild.injEq] at hw
      simp [hw]
  wildcards_eq := by
    have htake : bs.filterMap Block.taken? = (bs.take n).filterMap Block.taken? := by
      conv_lhs => rw [← List.take_append_drop n bs]
      rw [List.filterMap_append, taken_of_isWord hn, List.append_nil]
    simp [Captures.addWildcard, h.wildcards_eq, htake, Block.taken?]
  values_eq := by
    intro tag
    simp [h.values_eq tag, Token.valueOf?]

/-- an open wildcard takes one more word -/
theorem growWildcard {words : List String} (h : Cut ts pattern (c.addWildcard words) (bs ++ [.wild words]))
    (w : String) :
    Cut (ts ++ [.literal w]) pattern (c.addWildcard (words ++ [w])) (bs ++ [.wild (words ++ [w])]) where
  words_eq := by simpa [Block.word] using h.words_eq
  tokens_eq := by simp [← h.tokens_eq, Block.tokens]
  ne_nil := by
    intro us hu
    rcases List.mem_append.1 hu with hu | hu
    · exact h.ne_nil us (List.mem_append_left _ hu)
    · simp only [List.mem_singleton, Block.wild.injEq] at hu
      simp [hu]
  wildcards_eq := by
    have hold := h.wildcards_eq
    simp only [Captures.addWildcard, List.filterMap_append, List.filterMap_cons, Block.taken?,
      List.filterMap_nil] at hold ⊢
    rw [List.append_inj_left' hold rfl]
  values_eq := by
    intro tag
    have hold := h.values_eq tag
    simp only [Captures.values_addWildcard] at hold ⊢
    simp [hold, Token.valueOf?]

end Cut

/-! ### The matching keeps a cut -/

namespace Progress

/-- how far the matching has come after some tokens: they are cut, the blocks after the pinned ones are words, and
the block of the open wildcard is the last -/
structure Reads (p : Progress) (ts : List Token) (bs : List Block) : Prop where
  cut : Cut ts p.pattern p.closed bs
  isWord : ∀ b ∈ bs.drop p.pinned, b.IsWord
  pinned_le : p.pinned ≤ p.pattern.length
  wild : ∀ words, p.wild = some words → ∃ init, bs = init ++ [.wild words]

theorem reads_start : start.Reads [] [] := ⟨Cut.nil, by simp, Nat.le_refl _, by simp [start]⟩

theorem stay?_bounds {d : Dictionary} {p : Progress} {n r : Nat} (hn : p.pinned ≤ n) (h : p.stay? d n = some r) :
    p.pinned ≤ r ∧ r ≤ n := by
  induction n with
  | zero =>
    simp only [stay?, Option.ite_none_right_eq_some, Option.some.injEq] at h
    omega
  | succ n ih =>
    unfold stay? at h
    split at h
    · cases h
      omega
    · split at h
      · cases h
      · have := ih (by omega) h
        omega

/-- what a word can do: it goes on with the pattern, or the open wildcard takes it, or a wildcard opens -/
theorem step?_literal {d : Dictionary} {p q : Progress} {w : String} (h : p.step? d (.literal w) = some q) :
    (d.continues (p.pattern ++ [w]) = true ∧
        q = { p with pattern := p.pattern ++ [w], wild := none, captures := p.closed }) ∨
      d.continues (p.pattern ++ [w]) = false ∧
        ((∃ words, p.wild = some words ∧ q = { p with wild := some (words ++ [w]) }) ∨
          p.wild = none ∧ ∃ n, p.stay? d p.pattern.length = some n ∧
            q = { p with
              pattern := p.pattern.take n ++ [wildcard]
              pinned := n + 1
              wild := some (p.pattern.drop n ++ [w]) }) := by
  simp only [step?] at h
  split at h
  · next hgo =>
    cases h
    exact .inl ⟨hgo, rfl⟩
  · next hgo =>
    refine .inr ⟨Bool.eq_false_iff.2 hgo, ?_⟩
    split at h
    · next words hwild =>
      cases h
      exact .inl ⟨words, hwild, rfl⟩
    · next hwild =>
      obtain ⟨n, hn, rfl⟩ := Option.map_eq_some_iff.1 h
      exact .inr ⟨hwild, n, hn, rfl⟩

namespace Reads

variable {p : Progress} {ts : List Token} {bs : List Block}

theorem literal (hp : p.Reads ts bs) (w : String) :
    Reads { p with pattern := p.pattern ++ [w], wild := none, captures := p.closed } (ts ++ [.literal w])
      (bs ++ [.token (.literal w)]) where
  cut := hp.cut.literal w
  isWord := by
    intro b hb
    have hle : p.pinned ≤ bs.length := by
      rw [hp.cut.length_eq]
      exact hp.pinned_le
    rw [List.drop_append_of_le_length hle] at hb
    rcases List.mem_append.1 hb with hb | hb
    · exact hp.isWord b hb
    · exact ⟨w, by simpa using hb⟩
  pinned_le := by
    have hpin := hp.pinned_le
    simp only [List.length_append]
    omega
  wild := by simp

theorem growWildcard {init : List Block} {words : List String} (hp : p.Reads ts (init ++ [.wild words]))
    (hwild : p.wild = some words) (w : String) :
    Reads { p with wild := some (words ++ [w]) } (ts ++ [.literal w]) (init ++ [.wild (words ++ [w])]) where
  cut := by
    have hcut := hp.cut
    rw [closed, hwild] at hcut
    exact hcut.growWildcard w
  isWord := by
    intro b hb
    -- the wildcard is pinned, so there is no block behind it
    have : init.length < p.pinned := by
      by_contra hlt
      obtain ⟨_, h⟩ := hp.isWord (.wild words) (by
        rw [List.drop_append_of_le_length (by omega)]
        simp)
      cases h
    have hlength : (init ++ [Block.wild (words ++ [w])]).length ≤ p.pinned := by
      rw [List.length_append, List.length_singleton]
      omega
    rw [List.drop_eq_nil_of_le hlength] at hb
    cases hb
  pinned_le := hp.pinned_le
  wild := by
    rintro _ ⟨⟩
    exact ⟨init, rfl⟩

/-- a wildcard opens for a word and the blocks that do not stay -/
theorem openWildcard (hp : p.Reads ts bs) (hwild : p.wild = none) {n : Nat} (hpin : p.pinned ≤ n)
    (hle : n ≤ p.pattern.length) (w : String) :
    Reads { p with
        pattern := p.pattern.take n ++ [wildcard]
        pinned := n + 1
        wild := some (p.pattern.drop n ++ [w]) }
      (ts ++ [.literal w]) (bs.take n ++ [.wild (p.pattern.drop n ++ [w])]) where
  cut := by
    have hcut := hp.cut
    rw [closed, hwild] at hcut
    exact hcut.openWildcard (fun b hb => hp.isWord b (List.drop_subset_drop_left bs hpin hb)) w
  isWord := by
    intro b hb
    have hlength : (bs.take n ++ [Block.wild (p.pattern.drop n ++ [w])]).length ≤ n + 1 := by
      rw [List.length_append, List.length_take, List.length_singleton]
      omega
    rw [List.drop_eq_nil_of_le hlength] at hb
    cases hb
  pinned_le := by
    show n + 1 ≤ (p.pattern.take n ++ [wildcard]).length
    rw [List.length_append, List.length_take, List.length_singleton]
    omega
  wild := by
    rintro _ ⟨⟩
    exact ⟨bs.take n, rfl⟩

/-- an entity is a block, and no wildcard takes what stands before it -/
theorem entity (hp : p.Reads ts bs) (tag value : String) :
    Reads ⟨p.pattern ++ [(Token.entity tag value).spelling], (p.pattern ++ [(Token.entity tag value).spelling]).length,
        none, p.closed.addEntity tag value⟩
      (ts ++ [.entity tag value]) (bs ++ [.token (.entity tag value)]) where
  cut := hp.cut.entity tag value
  isWord := by
    intro b hb
    rw [List.drop_eq_nil_of_le (by simp [hp.cut.length_eq])] at hb
    cases hb
  pinned_le := Nat.le_refl _
  wild := by simp

end Reads

theorem reads_literal {d : Dictionary} {p q : Progress} {ts : List Token} {bs : List Block} {w : String}
    (hp : p.Reads ts bs) (h : p.step? d (.literal w) = some q) : ∃ bs, q.Reads (ts ++ [.literal w]) bs := by
  rcases step?_literal h with ⟨-, rfl⟩ | ⟨-, ⟨words, hwild, rfl⟩ | ⟨hwild, n, hn, rfl⟩⟩
  · exact ⟨_, hp.literal w⟩
  · obtain ⟨init, rfl⟩ := hp.wild words hwild
    exact ⟨_, hp.growWildcard hwild w⟩
  · have hbounds := stay?_bounds hp.pinned_le hn
    exact ⟨_, hp.openWildcard hwild hbounds.1 hbounds.2 w⟩

theorem reads_entity {d : Dictionary} {p q : Progress} {ts : List Token} {bs : List Block} {tag value : String}
    (hp : p.Reads ts bs) (h : p.step? d (.entity tag value) = some q) :
    ∃ bs, q.Reads (ts ++ [.entity tag value]) bs := by
  simp only [step?, Option.ite_none_right_eq_some, Option.some.injEq] at h
  obtain ⟨-, rfl⟩ := h
  exact ⟨_, hp.entity tag value⟩

theorem reads_step {d : Dictionary} {p q : Progress} {ts : List Token} {bs : List Block} {t : Token}
    (hp : p.Reads ts bs) (h : p.step? d t = some q) : ∃ bs, q.Reads (ts ++ [t]) bs := by
  cases t with
  | literal w => exact reads_literal hp h
  | entity tag value => exact reads_entity hp h

/-- a relation of the progress to the blocks so far that every token keeps is kept by all of them -/
theorem foldlM_blocks {R : Progress → List Token → List Block → Prop} {d : Dictionary}
    (hstep : ∀ {p q ts bs t}, R p ts bs → p.step? d t = some q → ∃ bs, R q (ts ++ [t]) bs) {p q : Progress}
    {ts us : List Token} {bs : List Block} (hp : R p ts bs) (h : us.foldlM (step? d) p = some q) :
    ∃ bs, R q (ts ++ us) bs := by
  induction us generalizing p ts bs with
  | nil =>
    cases h
    exact ⟨bs, by simpa using hp⟩
  | cons u us ih =>
    rw [List.foldlM_cons, Option.bind_eq_bind, Option.bind_eq_some_iff] at h
    obtain ⟨r, hr, h⟩ := h
    obtain ⟨bs, hbs⟩ := hstep hp hr
    simpa using ih hbs h

theorem reads_foldlM {d : Dictionary} {p q : Progress} {ts us : List Token} {bs : List Block} (hp : p.Reads ts bs)
    (h : us.foldlM (step? d) p = some q) : ∃ bs, q.Reads (ts ++ us) bs :=
  foldlM_blocks reads_step hp h

end Progress

/-! ### Wildcards and the pattern -/

theorem Token.spelling_entity_ne (tag value : String) : (Token.entity tag value).spelling ≠ wildcard := by
  intro h
  have := congrArg (fun s => s.toList.getLast?) h
  simp [Token.spelling, wildcard] at this

/-- a token of a cut without the word `*` does not spell `*` -/
theorem Cut.spelling_ne {ts : List Token} {pattern : List String} {c : Captures} {bs : List Block}
    (h : Cut ts pattern c bs) (hts : Token.literal wildcard ∉ ts) {t : Token} (ht : Block.token t ∈ bs) :
    t.spelling ≠ wildcard := by
  have hmem : t ∈ ts := h.tokens_eq ▸ List.mem_flatMap.2 ⟨_, ht, List.mem_singleton_self t⟩
  cases t with
  | literal w =>
    rintro rfl
    exact hts hmem
  | entity tag value => exact Token.spelling_entity_ne tag value

theorem Cut.wild_of_word_eq {ts : List Token} {pattern : List String} {c : Captures} {bs : List Block}
    (h : Cut ts pattern c bs) (hts : Token.literal wildcard ∉ ts) {b : Block} (hb : b ∈ bs)
    (hw : b.word = wildcard) : ∃ words, b = .wild words := by
  cases b with
  | token t => exact absurd hw (h.spelling_ne hts hb)
  | wild words => exact ⟨words, rfl⟩

/-- if the words `*` of a pattern are the wildcards of its blocks, they are as many as what was taken -/
theorem Block.count_wildcard {bs : List Block} (h : ∀ t, Block.token t ∈ bs → t.spelling ≠ wildcard) :
    (bs.map Block.word).count wildcard = (bs.filterMap Block.taken?).length := by
  induction bs with
  | nil => rfl
  | cons b bs ih =>
    have ih := ih fun t ht => h t (List.mem_cons_of_mem _ ht)
    cases b with
    | token t =>
      have htaken : (Block.token t).taken? = none := rfl
      simpa [Block.word, htaken, List.count_cons, h t List.mem_cons_self] using ih
    | wild words => simpa [Block.word, Block.taken?] using ih

namespace Match

/-- **Every match accounts for every token once.**  The pattern of a match is complete, and the tokens are cut into
its words: the wildcards are the blocks of the words `*`. -/
theorem find?_cut {d : Dictionary} {ts : List Token} {m : Match} (hts : Token.literal wildcard ∉ ts)
    (h : find? d ts = some m) :
    d.isComplete m.pattern = true ∧ m.captures.wildcards.length = m.pattern.count wildcard ∧
      ∃ bs, Cut ts m.pattern m.captures bs ∧ ∀ b ∈ bs, b.word = wildcard ↔ ∃ words, b = .wild words := by
  obtain ⟨p, hp, h⟩ := Option.bind_eq_some_iff.1 h
  obtain ⟨bs, hbs⟩ := Progress.reads_foldlM Progress.reads_start hp
  rw [Progress.finish?, Option.ite_none_right_eq_some] at h
  obtain ⟨hcomplete, h⟩ := h
  cases h
  have hcut : Cut ts p.pattern p.closed bs := hbs.cut
  refine ⟨hcomplete, ?_, bs, hcut, fun b hb => ⟨hcut.wild_of_word_eq hts hb, ?_⟩⟩
  · rw [← hcut.words_eq, hcut.wildcards_eq]
    exact (Block.count_wildcard fun t ht => hcut.spelling_ne hts ht).symm
  · rintro ⟨words, rfl⟩
    rfl

/-- a wildcard before an entity and one behind it -/
theorem find?_cut_around_entity :
    let d := Dictionary.empty.insert ["fly", "*", "city_MKR", "*"] "go"
    let ts := [Token.literal "fly", .literal "on", .literal "to", .entity "city" "Rome", .literal "now"]
    let m : Match := ⟨["fly", "*", "city_MKR", "*"], ⟨["on to", "now"], [("city", ["Rome"])]⟩⟩
    find? d ts = some m ∧
      ∃ bs, Cut ts m.pattern m.captures bs ∧ ∀ b ∈ bs, b.word = wildcard ↔ ∃ words, b = .wild words := by
  intro d ts m
  have h : find? d ts = some m := by decide
  exact ⟨h, (find?_cut (by decide) h).2.2⟩

end Match

end Dialogue
