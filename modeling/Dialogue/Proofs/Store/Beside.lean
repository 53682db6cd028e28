import Dialogue.Proofs.Store.Branches
import Dialogue.Proofs.Store.Open

/-!
# What is read beside a text

A text is written through maps where one can be read.  What is read at other keys stays, be it an error, unless there
was nothing to be read and the keys begin those of the text or begin with them:

* `Node.open_of_readFrom` — what can be read lies on an open way;
* `Node.readFrom_along_of_apart` — a change is not seen along keys that go another way;
* `Store.read_of_clash` — a reading that meets a value of another kind fails;
* `Store.read_write_eq_iff` — the readings that a text leaves as they were.
-/

namespace Dialogue

namespace Node

open Store

variable {path q : Path} {s t : Segment} {ss pre rest : List Segment} {v v' : Node} {k : String} {ks ls : List String}
  {kind : Sigil}

theorem Open.mono (h : v.Open ks) (hls : ls <+: ks) : v.Open ls :=
  fun js hjs => h js (hjs.trans hls)

theorem open_cons (hv : v.sigil = .map) (h : ∀ c, v.child? (.key k) = some c → c.Open ks) : v.Open (k :: ks) := by
  intro ls hls w hw
  cases ls with
  | nil => cases hw; exact hv
  | cons l ls =>
    obtain ⟨rfl, htail⟩ := List.cons_prefix_cons.1 hls
    obtain ⟨c, hc, hw⟩ := Option.bind_eq_some_iff.1 hw
    exact h c hc ls htail w hw

/-- what can be read lies on an open way, and is of the kind that the last segment says -/
theorem open_of_readFrom {o : Option Node} (hv : v.sigil = .map) (hss : ∀ u ∈ ss.dropLast, u.sigil = .map)
    (h : readFrom path ss v = .ok o) :
    v.Open (ss.dropLast.map Segment.key) ∧ ∀ u ∈ ss.getLast?, v.Fits (ss.map Segment.key) u.sigil := by
  induction ss generalizing v with
  | nil => exact ⟨open_nil_iff.2 hv, fun u hu => by cases hu⟩
  | cons s ss ih =>
    obtain ⟨slot, hslot, h⟩ := readFrom_cons_eq_ok.1 h
    obtain rfl := eq_key_of_slot? hv hslot
    -- what is behind the segment is of its kind, and is read on
    have hbehind (c : Node) (hc : v.child? (.key s.key) = some c) :
        c.sigil = s.sigil ∧ readFrom path ss c = .ok o := by
      obtain ⟨hnone, -⟩ | ⟨c', hc', hread⟩ := h
      · rw [hc] at hnone
        cases hnone
      · rw [hc] at hc'
        cases hc'
        exact hread
    cases ss with
    | nil =>
      refine ⟨open_nil_iff.2 hv, fun u hu w hw => ?_⟩
      cases hu
      rw [List.map_singleton, under?_singleton] at hw
      exact (hbehind w hw).1
    | cons u us =>
      rw [List.dropLast_cons_cons] at hss
      rw [List.dropLast_cons_cons, List.map_cons, List.getLast?_cons_cons]
      have hbelow (c : Node) (hc : v.child? (.key s.key) = some c) :
          c.Open ((u :: us).dropLast.map Segment.key) ∧
            ∀ x ∈ (u :: us).getLast?, c.Fits ((u :: us).map Segment.key) x.sigil := by
        obtain ⟨hkind, hread⟩ := hbehind c hc
        exact ih (hkind.trans (hss s List.mem_cons_self)) (fun x hx => hss x (List.mem_cons_of_mem _ hx)) hread
      refine ⟨open_cons hv fun c hc => (hbelow c hc).1, fun x hx w hw => ?_⟩
      obtain ⟨c, hc, hw⟩ := Option.bind_eq_some_iff.1 hw
      exact (hbelow c hc).2 x hx w hw

/-! ### Keys that go another way -/

theorem behind?_of_map (hv : v.sigil = .map) (s : Segment) : v.behind? s = v.child? (.key s.key) := by
  rw [behind?, slot?_of_map hv, Option.bind_some]

theorem parts_of_map (hv : v.sigil = .map) (h : s.key ≠ t.key) : v.Parts s t := by
  cases v with
  | map es => exact h
  | _ => cases hv

/-- a change below a key is not seen along keys that begin with it if it is not seen below -/
theorem readFrom_setChild_of_enter {child : Node} {u : Segment} {us : List Segment} (hv : v.sigil = .map)
    (hs : s.sigil = .map) (hk : s.key = t.key) (ht : t.sigil = .map) (hchild : child.sigil = .map)
    (hshape : ∀ c, v.child? (.key s.key) = some c → c.sigil = s.sigil)
    (hread : readFrom q (u :: us) child = readFrom q (u :: us) (v.enter s)) :
    readFrom q (t :: u :: us) (v.setChild (.key s.key) child) = readFrom q (t :: u :: us) v := by
  have hslot : v.slot? s = some (.key s.key) := slot?_of_map hv s
  have hbehind : (v.setChild (.key s.key) child).behind? t = some child := by
    rw [behind?_of_map (by rw [sigil_setChild, hv]), ← hk]
    exact child?_setChild_self hv s.key child
  rw [readFrom_cons hbehind (hchild.trans ht.symm), hread]
  cases hc : v.child? (.key s.key) with
  | none =>
    rw [enter_of_missing hslot hc, hs]
    rw [readFrom_cons_of_none (slot?_of_map hv t) (hk ▸ hc)]
    exact readFrom_cons_of_none (slot?_of_map rfl u) rfl
  | some c =>
    rw [enter_of_child? hslot hc]
    refine (readFrom_cons ?_ ((hshape c hc).trans (hs.trans ht.symm))).symm
    rw [behind?_of_map hv, ← hk, hc]

/-- a change through maps is not seen along keys that go another way; `hlast` says so of the map that is changed
itself -/
theorem readFrom_along_of_apart {f : Node → Except StateError Node} {last : String} {ts : List Segment}
    (hf : ∀ c c', f c = .ok c' → c'.sigil = c.sigil)
    (hlast : ∀ c c', f c = .ok c' → c.sigil = .map → ∀ b bs, last ≠ b.key →
      readFrom q (b :: bs) c' = readFrom q (b :: bs) c)
    (hv : v.sigil = .map) (hss : ∀ u ∈ ss, u.sigil = .map) (hts : ∀ u ∈ ts.dropLast, u.sigil = .map)
    (h : along path f ss v = .ok v') (hapart : Apart (ss.map Segment.key ++ [last]) (ts.map Segment.key)) :
    readFrom q ts v' = readFrom q ts v := by
  induction ss generalizing v v' ts with
  | nil =>
    cases ts with
    | nil => exact absurd hapart (Apart.not_nil_right _)
    | cons t ts => exact hlast v v' h hv t ts fun hk => hapart.1 (List.cons_prefix_cons.2 ⟨hk, List.nil_prefix⟩)
  | cons s ss ih =>
    cases ts with
    | nil => exact absurd hapart (Apart.not_nil_right _)
    | cons t ts =>
      obtain ⟨slot, child, hslot, hshape, halong, rfl⟩ := along_cons h
      obtain rfl := eq_key_of_slot? hv hslot
      by_cases hk : s.key = t.key
      · have hapart : Apart (ss.map Segment.key ++ [last]) (ts.map Segment.key) := Apart.cons_iff.1 hapart hk
        -- the keys go on, so the segment leads to a map
        obtain ⟨u, us, rfl⟩ : ∃ u us, ts = u :: us := by
          cases ts with
          | nil => exact absurd hapart (Apart.not_nil_right _)
          | cons u us => exact ⟨u, us, rfl⟩
        rw [List.dropLast_cons_cons] at hts
        have hs : s.sigil = .map := hss s List.mem_cons_self
        have ht : t.sigil = .map := hts t List.mem_cons_self
        have henter : (v.enter s).sigil = .map := (sigil_enter (by rw [hs]; rfl) hslot hshape).trans hs
        have hchild : child.sigil = .map := (sigil_along hf halong).trans henter
        have hread : readFrom q (u :: us) child = readFrom q (u :: us) (v.enter s) :=
          ih henter (fun x hx => hss x (List.mem_cons_of_mem _ hx)) (fun x hx => hts x (List.mem_cons_of_mem _ hx))
            halong hapart
        exact readFrom_setChild_of_enter hv hs hk ht hchild hshape hread
      · exact readFrom_setChild_of_parts hslot (parts_of_map hv hk) child

/-! ### Values of another kind -/

/-- some segments lead through maps to where there can only be a value of another kind than the segment `t` says -/
structure Clash (v : Node) (pre : List Segment) (t : Segment) (kind : Sigil) : Prop where
  maps : ∀ u ∈ pre, u.sigil = .map
  way : v.Open (pre.map Segment.key)
  fits : v.Fits (pre.map Segment.key ++ [t.key]) kind
  ne : kind ≠ t.sigil

theorem Clash.tail {u : Segment} {c : Node} (h : v.Clash (u :: pre) t kind) (hc : v.child? (.key u.key) = some c) :
    c.Clash pre t kind where
  maps x hx := h.maps x (List.mem_cons_of_mem _ hx)
  way := h.way.tail hc
  fits w hw := h.fits w (by rw [List.map_cons, List.cons_append, under?_cons_of_child? hc, hw])
  ne := h.ne

/-- nothing is found there, or the reading fails -/
theorem readFrom_of_clash (h : v.Clash pre t kind) :
    readFrom q (pre ++ t :: rest) v =
      match under? (pre.map Segment.key ++ [t.key]) v with
      | none => .ok none
      | some _ => .error (.traversal q t (.shape t.sigil kind)) := by
  induction pre generalizing v with
  | nil =>
    rw [List.map_nil, List.nil_append, List.nil_append, readFrom, slot_of_map h.way.sigil_eq q t, under?_singleton]
    cases hc : v.child? (.key t.key) with
    | none => simp [hc, bind, Except.bind, pure, Except.pure]
    | some c =>
      have hsigil : c.sigil = kind := h.fits c (by rw [List.map_nil, List.nil_append, under?_singleton, hc])
      simp [hc, checkShape, hsigil, h.ne, bind, Except.bind]
  | cons u pre ih =>
    have hslot : v.slot? u = some (.key u.key) := slot?_of_map h.way.sigil_eq u
    rw [List.cons_append, List.map_cons, List.cons_append, under?]
    cases hc : v.child? (.key u.key) with
    | none => exact readFrom_cons_of_none hslot hc
    | some c =>
      have hkind : c.sigil = u.sigil := (h.tail hc).way.sigil_eq.trans (h.maps u List.mem_cons_self).symm
      rw [readFrom_cons (behind?_eq_some.2 ⟨_, hslot, hc⟩) hkind, ih (h.tail hc), Option.bind_some]

end Node

/-- of two paths, one of them through maps, of which the one has keys that begin those of the other, the shorter one
ends inside the longer one -/
theorem Path.exists_clash {p q : Path} (hq : q.Plain) (hne : p.keys ≠ q.keys) (h : ¬ Apart p.keys q.keys) :
    ∃ pre t rest, q.segments = pre ++ t :: rest ∧ (∀ u ∈ pre, u.sigil = .map) ∧
      ((pre.map Segment.key ++ [t.key] = p.keys ∧ t.sigil = .map) ∨
        (pre.map Segment.key ++ [t.key] <+: p.inner.map Segment.key ∧ t = q.leaf)) := by
  by_cases hpq : p.keys <+: q.keys
  · rw [q.keys_eq] at hpq hne
    obtain ⟨ks, hks⟩ := (List.prefix_concat_iff.1 hpq).resolve_left hne
    obtain ⟨way, rest, hinner, hway, -⟩ := List.map_eq_append_iff.1 hks.symm
    rcases List.eq_nil_or_concat way with rfl | ⟨pre, t, rfl⟩
    · rw [List.map_nil, p.keys_eq] at hway
      exact absurd hway.symm (by simp)
    · rw [List.concat_eq_append, List.append_assoc, List.singleton_append] at hinner
      refine ⟨pre, t, rest ++ [q.leaf], ?_, fun u hu => hq u (hinner ▸ List.mem_append_left _ hu), .inl ⟨?_, ?_⟩⟩
      · rw [← q.inner_append_leaf, hinner, List.append_assoc, List.cons_append]
      · rw [← hway, List.concat_eq_append, List.map_append, List.map_singleton]
      · exact hq t (hinner ▸ List.mem_append_right _ List.mem_cons_self)
  · have hqp : q.keys <+: p.keys := by
      by_contra hqp
      exact h ⟨hpq, hqp⟩
    rw [p.keys_eq] at hqp hne
    refine ⟨q.inner, q.leaf, [], q.inner_append_leaf.symm, hq, .inr ⟨?_, rfl⟩⟩
    rw [← q.keys_eq]
    exact (List.prefix_concat_iff.1 hqp).resolve_left (Ne.symm hne)

namespace Store

open Node

variable {s s' : Store} {p q : Path} {pre rest : List Segment} {t : Segment} {kind : Sigil} {w : String}
  {o value : Option Node}

theorem read_of_clash (hq : q.segments = pre ++ t :: rest) (h : s.root.Clash pre t kind) :
    s.read q =
      match s.under? (pre.map Segment.key ++ [t.key]) with
      | none => .ok none
      | some _ => .error (.traversal q t (.shape t.sigil kind)) := by
  rw [read, hq]
  exact readFrom_of_clash h

section Plain

variable (hroot : s.root.sigil = .map) (hp : p.Plain)

include hroot hp

theorem open_of_read (h : s.read p = .ok o) : s.Open (p.inner.map Segment.key) ∧ s.Fits p.keys p.leaf.sigil := by
  obtain ⟨hway, hlast⟩ := open_of_readFrom hroot hp h
  refine ⟨hway, hlast p.leaf ?_⟩
  rw [List.getLast?_eq_some_getLast p.segments_ne_nil]
  rfl

theorem open_write (h : s.write p value = .ok s') : s'.Open (p.inner.map Segment.key) := by
  intro ls hls
  obtain ⟨ms, hms⟩ := hls
  obtain ⟨way, rest, hinner, rfl, -⟩ := List.map_eq_append_iff.1 hms.symm
  exact fits_write way hroot hinner (fun u hu => hp u (hinner ▸ List.mem_append_left _ hu)) h

theorem ChangedAt.read_of_apart (hq : q.Plain) (h : ChangedAt p s s') (hapart : Apart p.keys q.keys) :
    s'.read q = s.read q := by
  obtain rfl | ⟨f, halong, hf⟩ := h
  · rfl
  rw [p.keys_eq] at hapart
  refine readFrom_along_of_apart (fun c c' hc => ?_) (fun c c' hc' hc b bs hb => ?_) hroot hp hq halong hapart
  · obtain ⟨slot, new, -, rfl⟩ := hf c c' hc
    exact sigil_setSlot c slot new
  · obtain ⟨slot, new, hslot, rfl⟩ := hf c c' hc'
    cases new with
    | some x => exact readFrom_setChild_of_parts hslot (parts_of_map hc hb) x
    | none => exact readFrom_dropChild_of_parts hc hslot (parts_of_map hc hb)

theorem read_write_of_apart (hq : q.Plain) (h : s.write p value = .ok s') (hapart : Apart p.keys q.keys) :
    s'.read q = s.read q :=
  (changedAt_of_write h).read_of_apart hroot hp hq hapart

theorem read_delete_of_apart (hq : q.Plain) (h : s.delete p = .ok s') (hapart : Apart p.keys q.keys) :
    s'.read q = s.read q :=
  (changedAt_of_delete h).read_of_apart hroot hp hq hapart

end Plain

/-- a text was written where one can be read, and the keys of another reading of a text begin those of the text or begin
with them: at the end of the shorter ones the longer ones need a map and the shorter ones a text, before and after -/
theorem exists_clash (hroot : s.root.sigil = .map) (hp : p.Plain) (hpleaf : p.leaf.sigil = .str) (hq : q.Plain)
    (hqleaf : q.leaf.sigil = .str) (hread : s.read p = .ok o) (h : s.write p (some (.str w)) = .ok s')
    (hne : p.keys ≠ q.keys) (hclash : ¬ Apart p.keys q.keys) :
    ∃ pre t rest kind, q.segments = pre ++ t :: rest ∧ s.root.Clash pre t kind ∧ s'.root.Clash pre t kind ∧
      (s'.under? (pre.map Segment.key ++ [t.key])).isSome := by
  obtain ⟨hway, hfits⟩ := open_of_read hroot hp hread
  have hway' : s'.Open (p.inner.map Segment.key) := open_write hroot hp h
  have hwritten : s'.under? p.keys = some (.str w) := by
    obtain ⟨new, hnew, hunder⟩ := under?_write hroot hp h
    rw [leafValue_of_isScalar (by rw [hpleaf]; rfl), hpleaf] at hnew
    cases hnew
    exact hunder
  obtain ⟨pre, t, rest, hsegments, hmaps, ⟨hends, ht⟩ | ⟨hends, rfl⟩⟩ := Path.exists_clash hq hne hclash
  · have hkeys : pre.map Segment.key = p.inner.map Segment.key := by
      rw [p.keys_eq] at hends
      exact (List.append_inj' hends rfl).1
    have hkind : Sigil.str ≠ t.sigil := by rw [ht]; decide
    refine ⟨pre, t, rest, .str, hsegments, ⟨hmaps, hkeys ▸ hway, ?_, hkind⟩, ⟨hmaps, hkeys ▸ hway', ?_, hkind⟩, ?_⟩
    · rw [hends]
      exact hpleaf ▸ hfits
    · rw [hends]
      exact Fits.of_some hwritten
    · rw [hends, hwritten]
      rfl
  · have hopen : pre.map Segment.key <+: p.inner.map Segment.key := (List.prefix_append _ _).trans hends
    have hkind : Sigil.map ≠ q.leaf.sigil := by rw [hqleaf]; decide
    refine ⟨pre, q.leaf, rest, .map, hsegments, ⟨hmaps, hway.mono hopen, hway _ hends, hkind⟩,
      ⟨hmaps, hway'.mono hopen, hway' _ hends, hkind⟩, ?_⟩
    by_contra hnone
    have hgone : s'.under? p.keys = none := by
      refine under?_of_prefix ?_ (Option.not_isSome_iff_eq_none.1 hnone)
      rw [p.keys_eq]
      exact hends.trans (List.prefix_append _ _)
    rw [hwritten] at hgone
    cases hgone

/-- a text is written where one can be read; another reading of a text changes only where there was nothing to be read
and its keys begin those of the text or begin with them -/
theorem read_write_eq_iff (hroot : s.root.sigil = .map) (hp : p.Plain) (hpleaf : p.leaf.sigil = .str) (hq : q.Plain)
    (hqleaf : q.leaf.sigil = .str) (hread : s.read p = .ok o) (h : s.write p (some (.str w)) = .ok s')
    (hne : p.keys ≠ q.keys) : s'.read q = s.read q ↔ Apart p.keys q.keys ∨ s.read q ≠ .ok none := by
  by_cases hapart : Apart p.keys q.keys
  · exact iff_of_true (read_write_of_apart hroot hp hq h hapart) (.inl hapart)
  obtain ⟨pre, t, rest, kind, hsegments, hclash, hclash', hsome⟩ :=
    exists_clash hroot hp hpleaf hq hqleaf hread h hne hapart
  have hold := read_of_clash hsegments hclash
  have hnew := read_of_clash hsegments hclash'
  obtain ⟨x, hx⟩ := Option.isSome_iff_exists.1 hsome
  rw [hx] at hnew
  cases hunder : s.under? (pre.map Segment.key ++ [t.key]) with
  | none =>
    rw [hunder] at hold
    simp [hold, hnew, hapart]
  | some y =>
    rw [hunder] at hold
    simp [hold, hnew]

end Store

/-! ### Snapshots -/

namespace Snapshot

variable {s s' : Snapshot} {p q : ScopedPath} {value : Option Node} {v : Node} {seg : Segment} {ss : List Segment}

theorem rootedAt_of_put (hp : p.path.segments = seg :: ss) (hindex : seg.index? = none) (h : s.put p value = .ok s') :
    s.RootedAt p.scope := by
  obtain ⟨store, hw, -⟩ := put_eq_ok.1 h
  exact Store.sigil_root_of_write hp hindex hw

theorem rootedAt_of_remove (hp : p.path.segments = seg :: ss) (hindex : seg.index? = none)
    (h : s.remove p = .ok s') : s.RootedAt p.scope := by
  obtain ⟨store, hd, -⟩ := remove_eq_ok.1 h
  exact Store.sigil_root_of_delete hp hindex hd

theorem get_put_of_apart (hs : s.RootedAt p.scope) (hp : p.path.Plain) (hq : q.path.Plain) (h : s.put p value = .ok s')
    (hapart : p.place.Apart q.place) : s'.get q = s.get q := by
  obtain ⟨store, hw, rfl⟩ := put_eq_ok.1 h
  unfold get
  by_cases hscope : q.scope = p.scope
  · rw [hscope, store_withStore_self]
    exact Store.read_write_of_apart hs hp hq hw (hapart hscope.symm)
  · rw [store_withStore_of_ne hscope]

theorem get_remove_of_apart (hs : s.RootedAt p.scope) (hp : p.path.Plain) (hq : q.path.Plain)
    (h : s.remove p = .ok s') (hapart : p.place.Apart q.place) : s'.get q = s.get q := by
  obtain ⟨store, hd, rfl⟩ := remove_eq_ok.1 h
  unfold get
  by_cases hscope : q.scope = p.scope
  · rw [hscope, store_withStore_self]
    exact Store.read_delete_of_apart hs hp hq hd (hapart hscope.symm)
  · rw [store_withStore_of_ne hscope]

theorem get_of_under? (hp : p.path.Plain) (h : s.under? p.place = some v) (hv : v.sigil = p.path.leaf.sigil) :
    s.get p = .ok (some v) :=
  Store.read_of_under? hp h hv

end Snapshot

end Dialogue
