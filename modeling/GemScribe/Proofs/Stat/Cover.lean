import GemScribe.Proofs.Stat.Request
import Mathlib.Data.List.Nodup

/-!
Resolving without repetition covers the observed stats greedily.

A stat asks for its block exactly when it has one and no block rendered before has shown the stat. So no
block is rendered twice, and every described stat is in a rendered block. What this does not give is
that a stat is shown only once: blocks may overlap, and a stat that an earlier block has shown comes back
when a later block, asked for by another stat, names it as well. `ShownTwice` says exactly when.
-/

namespace GemScribe

open Observation

/-- Requests that cover the observed stats greedily, in the order in which the stats are first seen. -/
structure GreedyCover (blocks : List Block) (os : List Observation) (rs : List Request) : Prop where
  order : List.Sublist (rs.map Request.id) (seenIds os)
  described : ∀ r ∈ rs, Block.describing? blocks r.id = some (r.block, r.place)
  values : ∀ r ∈ rs, r.values = valuesFor os r.id
  asks : ∀ earlier id later, seenIds os = earlier ++ id :: later →
    ((∃ r ∈ rs, r.id = id) ↔ (∃ entry, Block.describing? blocks id = some entry) ∧
      ∀ r ∈ rs, r.id ∈ earlier → id ∉ r.block.ids)
  once : (rs.map Request.place).Nodup
  covers : ∀ id ∈ seenIds os, (∃ entry, Block.describing? blocks id = some entry) →
    ∃ r ∈ rs, id ∈ r.block.ids

variable {blocks : List Block} {skip : Bool} {os : List Observation}

/-! ### Blocks and their stats -/

/-- The block that describes a stat stands at its place in the list, and names the stat. -/
theorem Block.describing?_eq_some {id : Text} {block : Block} {place : Nat}
    (h : Block.describing? blocks id = some (block, place)) :
    blocks[place]? = some block ∧ id ∈ block.ids := by
  have hfound := List.find?_some h
  have hmem := List.mem_of_find?_eq_some h
  rw [List.mem_zipIdx_iff_getElem?] at hmem
  rw [Block.describes, Bool.and_eq_true, List.contains_iff_mem] at hfound
  exact ⟨hmem, hfound.2⟩

theorem Block.describing?_eq_none_iff {id : Text} :
    Block.describing? blocks id = none ↔
      ∀ block ∈ blocks, block.templates ≠ [] → id ∉ block.ids := by
  rw [Block.describing?, List.find?_eq_none]
  constructor
  · intro h block hblock htemplates hid
    obtain ⟨place, hplace⟩ := List.mem_iff_getElem?.mp hblock
    refine h (block, place) (List.mem_zipIdx_iff_getElem?.mpr hplace) ?_
    simp [Block.describes, htemplates, hid]
  · intro h entry hentry hdescribes
    have hblock := List.mem_of_getElem? (List.mem_zipIdx_iff_getElem?.mp hentry)
    rw [Block.describes, Bool.and_eq_true, List.contains_iff_mem] at hdescribes
    exact h entry.1 hblock (by simpa using hdescribes.1) hdescribes.2

theorem Block.mem_observedIds {block : Block} {id : Text} :
    id ∈ block.observedIds (Grouped.ofObservations os) ↔ id ∈ block.ids ∧ id ∈ seenIds os := by
  rw [Block.observedIds, List.mem_filter, ← Grouped.values_ne_nil_iff]
  simp

/-! ### Requests by position -/

/-- The requests at a cut: those before it, that of the stat itself, if it asks, and those after it. -/
theorem requests_split (blocks : List Block) (skip : Bool) {earlier later : List Text} {id : Text}
    (h : seenIds os = earlier ++ id :: later) :
    ∃ before own after : List Request,
      requests blocks skip os = before ++ (own ++ after) ∧
      (∀ r ∈ before, r.id ∈ earlier) ∧ (∀ r ∈ after, r.id ∈ later) ∧
      ∀ r, r ∈ own ↔ r.id = id ∧ r.values = valuesFor os id ∧
        Block.describing? blocks id = some (r.block, r.place) ∧
        (skip = true → ∀ q ∈ before, id ∉ q.block.ids) := by
  set grouped := Grouped.ofObservations os
  set entry : Text → Text × List Binary64 := fun i => (i, valuesFor os i)
  set first := turnsFrom blocks skip grouped [] (earlier.map entry)
  have hseen : id ∈ seenIds os := by rw [h]; simp
  have hentries : grouped = earlier.map entry ++ entry id :: later.map entry := by
    rw [← List.map_cons, ← List.map_append, ← h]
    exact Grouped.ofObservations_eq os
  obtain ⟨shown, hcut⟩ := turnsFrom_cut blocks skip grouped (earlier.map entry) (later.map entry)
    id (valuesFor os id)
  set fate := fateOf blocks skip (first.flatMap (Turn.shown grouped)) id with hfate
  refine ⟨first.filterMap Turn.request?, [⟨id, valuesFor os id, fate⟩].filterMap Turn.request?,
    (turnsFrom blocks skip grouped shown (later.map entry)).filterMap Turn.request?, ?_, ?_, ?_, ?_⟩
  · rw [requests, turns, ← List.filterMap_append, ← List.filterMap_append]
    exact congrArg (List.filterMap Turn.request?)
      ((congrArg (turnsFrom blocks skip grouped []) hentries).trans hcut)
  · intro r hr
    obtain ⟨i, hi, heq⟩ := List.mem_map.mp (mem_of_mem_requests hr)
    have hid : i = r.id := congrArg Prod.fst heq
    exact hid ▸ hi
  · intro r hr
    obtain ⟨i, hi, heq⟩ := List.mem_map.mp (mem_of_mem_requests hr)
    have hid : i = r.id := congrArg Prod.fst heq
    exact hid ▸ hi
  · intro r
    have hshown : id ∈ first.flatMap (Turn.shown grouped) ↔
        ∃ q ∈ first.filterMap Turn.request?, id ∈ q.block.ids := by
      rw [mem_flatMap_shown]
      simp only [grouped, Block.mem_observedIds, hseen, and_true]
    simp only [List.mem_filterMap, List.mem_singleton, exists_eq_left, request?_eq_some,
      hfate, fateOf_eq_rendered, hshown, not_exists, not_and]
    constructor
    · rintro ⟨⟨hd, hnew⟩, hid, hvalues⟩
      exact ⟨hid.symm, hvalues.symm, hd, hnew⟩
    · rintro ⟨hid, hvalues, hd, hnew⟩
      exact ⟨⟨hd, hnew⟩, hid.symm, hvalues.symm⟩

/-- When a stat has asked: it has a block, and no block of an earlier stat has shown it. -/
theorem mem_requests_iff {earlier later : List Text} {r : Request}
    (h : seenIds os = earlier ++ r.id :: later) :
    r ∈ requests blocks skip os ↔ r.values = valuesFor os r.id ∧
      Block.describing? blocks r.id = some (r.block, r.place) ∧
      (skip = true → ∀ q ∈ requests blocks skip os, q.id ∈ earlier → r.id ∉ q.block.ids) := by
  obtain ⟨before, own, after, hall, hbefore, hafter, hown⟩ := requests_split blocks skip h
  have hnodup := nodup_seenIds os
  rw [h, List.nodup_append, List.nodup_cons] at hnodup
  obtain ⟨-, ⟨hlater, -⟩, hapart⟩ := hnodup
  have hself : r ∈ requests blocks skip os ↔ r ∈ own := by
    rw [hall, List.mem_append, List.mem_append]
    constructor
    · rintro (hr | hr | hr)
      · exact absurd rfl (hapart _ (hbefore r hr) _ List.mem_cons_self)
      · exact hr
      · exact absurd (hafter r hr) hlater
    · exact fun hr => Or.inr (Or.inl hr)
  have hcut : ∀ q, q ∈ before ↔ q ∈ requests blocks skip os ∧ q.id ∈ earlier := by
    intro q
    rw [hall, List.mem_append, List.mem_append]
    constructor
    · exact fun hq => ⟨Or.inl hq, hbefore q hq⟩
    · rintro ⟨hq | hq | hq, hid⟩
      · exact hq
      · exact absurd ((hown q).mp hq).1 (hapart _ hid _ List.mem_cons_self)
      · exact absurd rfl (hapart _ hid _ (List.mem_cons_of_mem _ (hafter q hq)))
  rw [hself, hown]
  simp only [hcut, true_and, and_imp]

/-- The stats take their turns in the order in which they are first seen. -/
theorem map_id_turns :
    (turns blocks skip (Grouped.ofObservations os)).map Turn.id = seenIds os := by
  rw [← Grouped.keys_ofObservations, turns]
  conv_rhs => rw [← map_turnsFrom blocks skip (Grouped.ofObservations os) []
    (Grouped.ofObservations os), List.map_map]
  rfl

/-- The stats that ask, in the order in which they are first seen. -/
theorem requests_sublist :
    List.Sublist ((requests blocks skip os).map Request.id) (seenIds os) := by
  rw [← map_id_turns]
  exact map_filterMap_request? _

theorem seenIds_of_mem_requests {r : Request} (h : r ∈ requests blocks skip os) :
    r.id ∈ seenIds os :=
  requests_sublist.subset (List.mem_map_of_mem h)

/-- A request is for the block that describes its stat, with the values observed for the stat. -/
theorem describing?_of_mem_requests {r : Request} (h : r ∈ requests blocks skip os) :
    Block.describing? blocks r.id = some (r.block, r.place) ∧ r.values = valuesFor os r.id := by
  obtain ⟨earlier, later, hcut⟩ := List.append_of_mem (seenIds_of_mem_requests h)
  obtain ⟨hvalues, hd, -⟩ := (mem_requests_iff hcut).mp h
  exact ⟨hd, hvalues⟩

theorem values_of_mem_turns {turn : Turn} (h : turn ∈ turns blocks skip (Grouped.ofObservations os)) :
    turn.values = valuesFor os turn.id := by
  have hentry : (turn.id, turn.values) ∈ Grouped.ofObservations os := by
    rw [← map_turnsFrom blocks skip (Grouped.ofObservations os) [] (Grouped.ofObservations os)]
    exact List.mem_map_of_mem h
  rw [Grouped.ofObservations_eq] at hentry
  obtain ⟨id, -, heq⟩ := List.mem_map.mp hentry
  rw [Prod.mk.injEq] at heq
  rw [← heq.2, ← heq.1]

/-- A turn with a block is that of an observed stat, and the block is the one that describes it. -/
theorem describing?_of_mem_turns {turn : Turn} {block : Block} {place : Nat}
    (h : turn ∈ turns blocks skip (Grouped.ofObservations os)) (hfate : turn.fate = .rendered block place) :
    turn.id ∈ seenIds os ∧ Block.describing? blocks turn.id = some (block, place) := by
  have hr : (⟨turn.id, turn.values, block, place⟩ : Request) ∈ requests blocks skip os :=
    List.mem_filterMap.mpr ⟨turn, h, request?_eq_some.mpr ⟨hfate, rfl, rfl⟩⟩
  exact ⟨seenIds_of_mem_requests hr, (describing?_of_mem_requests hr).1⟩

/-- A stat is left out only because a block rendered on an earlier turn has shown it. -/
theorem exists_shown_of_alreadyRendered {turn : Turn} {earlier later : List Turn}
    (h : turns blocks skip (Grouped.ofObservations os) = earlier ++ turn :: later)
    (hfate : turn.fate = .alreadyRendered) :
    skip = true ∧ ∃ other ∈ earlier, ∃ block place,
      other.fate = .rendered block place ∧ turn.id ∈ block.ids := by
  have hshown := (fate_of_cut h).symm.trans hfate
  rw [fateOf_eq_alreadyRendered, List.nil_append, List.mem_flatMap] at hshown
  obtain ⟨hskip, other, hother, hid⟩ := hshown
  obtain ⟨block, place, hrendered, hid⟩ := Turn.mem_shown.mp hid
  exact ⟨hskip, other, hother, block, place, hrendered, (Block.mem_observedIds.mp hid).1⟩

theorem describing?_of_undescribed {turn : Turn}
    (h : turn ∈ turns blocks skip (Grouped.ofObservations os)) (hfate : turn.fate = .undescribed) :
    Block.describing? blocks turn.id = none := by
  obtain ⟨earlier, later, hcut⟩ := List.append_of_mem h
  exact describing?_of_fateOf_eq_undescribed ((fate_of_cut hcut).symm.trans hfate)

theorem eq_of_id_eq {r r' : Request} (h : r ∈ requests blocks skip os)
    (h' : r' ∈ requests blocks skip os) (hid : r.id = r'.id) : r = r' := by
  obtain ⟨hd, hvalues⟩ := describing?_of_mem_requests h
  obtain ⟨hd', hvalues'⟩ := describing?_of_mem_requests h'
  rw [hid, hd', Option.some.injEq, Prod.mk.injEq] at hd
  obtain ⟨id, values, block, place⟩ := r
  obtain ⟨id', values', block', place'⟩ := r'
  simp_all

theorem block_eq_of_place_eq {r r' : Request} (h : r ∈ requests blocks skip os)
    (h' : r' ∈ requests blocks skip os) (hplace : r.place = r'.place) : r.block = r'.block := by
  have hb := (Block.describing?_eq_some (describing?_of_mem_requests h).1).1
  have hb' := (Block.describing?_eq_some (describing?_of_mem_requests h').1).1
  rw [hplace, hb', Option.some.injEq] at hb
  exact hb.symm

/-- Of two different stats one is seen first. -/
theorem exists_cut_of_ne {id id' : Text} (h : id ∈ seenIds os) (h' : id' ∈ seenIds os)
    (hne : id ≠ id') :
    (∃ earlier later, seenIds os = earlier ++ id' :: later ∧ id ∈ earlier) ∨
      ∃ earlier later, seenIds os = earlier ++ id :: later ∧ id' ∈ earlier := by
  obtain ⟨earlier, later, hcut⟩ := List.append_of_mem h'
  rw [hcut, List.mem_append, List.mem_cons] at h
  rcases h with h | h | h
  · exact Or.inl ⟨earlier, later, hcut, h⟩
  · exact absurd h hne
  · obtain ⟨between, last, rfl⟩ := List.append_of_mem h
    exact Or.inr ⟨earlier ++ id' :: between, last, by rw [hcut]; simp, by simp⟩

/-- The later of two requests is for a stat that the block of the earlier one does not have. -/
theorem id_notMem_of_cut {earlier later : List Text} {r r' : Request}
    (h : seenIds os = earlier ++ r'.id :: later) (hr : r ∈ requests blocks true os)
    (hr' : r' ∈ requests blocks true os) (hbefore : r.id ∈ earlier) : r'.id ∉ r.block.ids :=
  ((mem_requests_iff h).mp hr').2.2 rfl r hr hbefore

/-! ### Greedy cover -/

theorem eq_of_place_eq {r r' : Request} (h : r ∈ requests blocks true os)
    (h' : r' ∈ requests blocks true os) (hplace : r.place = r'.place) : r = r' := by
  have hown := (Block.describing?_eq_some (describing?_of_mem_requests h).1).2
  have hown' := (Block.describing?_eq_some (describing?_of_mem_requests h').1).2
  have hblock := block_eq_of_place_eq h h' hplace
  refine eq_of_id_eq h h' ?_
  by_contra hne
  rcases exists_cut_of_ne (seenIds_of_mem_requests h) (seenIds_of_mem_requests h') hne with
    ⟨earlier, later, hcut, hbefore⟩ | ⟨earlier, later, hcut, hbefore⟩
  · exact id_notMem_of_cut hcut h h' hbefore (hblock ▸ hown')
  · exact id_notMem_of_cut hcut h' h hbefore (hblock ▸ hown)

/-- A stat asks exactly when a block describes it and no block rendered before has shown it. -/
theorem exists_request_iff {earlier later : List Text} {id : Text}
    (h : seenIds os = earlier ++ id :: later) :
    (∃ r ∈ requests blocks true os, r.id = id) ↔
      (∃ entry, Block.describing? blocks id = some entry) ∧
        ∀ r ∈ requests blocks true os, r.id ∈ earlier → id ∉ r.block.ids := by
  constructor
  · rintro ⟨r, hr, rfl⟩
    obtain ⟨-, hd, hnew⟩ := (mem_requests_iff h).mp hr
    exact ⟨⟨_, hd⟩, hnew rfl⟩
  · rintro ⟨⟨⟨block, place⟩, hd⟩, hnew⟩
    exact ⟨⟨id, valuesFor os id, block, place⟩,
      (mem_requests_iff h).mpr ⟨rfl, hd, fun _ => hnew⟩, rfl⟩

theorem exists_request_covering {id : Text} (hseen : id ∈ seenIds os)
    (hd : ∃ entry, Block.describing? blocks id = some entry) :
    ∃ r ∈ requests blocks true os, id ∈ r.block.ids := by
  obtain ⟨earlier, later, hcut⟩ := List.append_of_mem hseen
  by_cases hshown : ∃ r ∈ requests blocks true os, r.id ∈ earlier ∧ id ∈ r.block.ids
  · obtain ⟨r, hr, -, hid⟩ := hshown
    exact ⟨r, hr, hid⟩
  · obtain ⟨r, hr, rfl⟩ := (exists_request_iff hcut).mpr
      ⟨hd, fun r hr hbefore hid => hshown ⟨r, hr, hbefore, hid⟩⟩
    exact ⟨r, hr, (Block.describing?_eq_some (describing?_of_mem_requests hr).1).2⟩

/-- Without repetition the requests cover the observed stats greedily, and what is returned is the
segments of the requests, one after another. -/
theorem resolve_covers_greedily (blocks : List Block) (os : List Observation) :
    GreedyCover blocks os (requests blocks true os) ∧
      ∀ lines, (resolve blocks true os).outcome = .ok lines ↔
        ∃ segments, List.Forall₂ (Request.Renders (Grouped.ofObservations os))
          (requests blocks true os) segments ∧ lines = segments.flatten := by
  refine ⟨⟨requests_sublist, ?_, ?_, fun _ _ _ h => exists_request_iff h, ?_, ?_⟩,
    fun lines => resolve_outcome_eq_ok⟩
  · exact fun r hr => (describing?_of_mem_requests hr).1
  · exact fun r hr => (describing?_of_mem_requests hr).2
  · have hids : (requests blocks true os).Nodup :=
      List.Nodup.of_map _ ((nodup_seenIds os).sublist requests_sublist)
    exact hids.map_on fun r hr r' hr' => eq_of_place_eq hr hr'
  · exact fun id hseen hd => exists_request_covering hseen hd

/-! ### Stats that are shown twice -/

/-- An observed stat that stands in two different blocks, both of them rendered without repetition. -/
def ShownTwice (blocks : List Block) (os : List Observation) (id : Text) : Prop :=
  id ∈ seenIds os ∧ ∃ r ∈ requests blocks true os, ∃ r' ∈ requests blocks true os,
    r.place ≠ r'.place ∧ id ∈ r.block.ids ∧ id ∈ r'.block.ids

/-- A stat `asking` brings a stat `id` back that was shown before: no block rendered before its turn has
`asking`, one of them has `id`, and the block that describes `asking` has `id` as well. -/
structure BringsBack (blocks : List Block) (os : List Observation) (id asking : Text)
    (earlier : List Text) : Prop where
  other : asking ≠ id
  shown : ∃ r ∈ requests blocks true os, r.id ∈ earlier ∧ id ∈ r.block.ids
  fresh : ∀ r ∈ requests blocks true os, r.id ∈ earlier → asking ∉ r.block.ids
  partner : ∃ entry, Block.describing? blocks asking = some entry ∧ id ∈ entry.1.ids

theorem bringsBack_of_cut {id : Text} {earlier later : List Text} {r r' : Request}
    (h : seenIds os = earlier ++ r'.id :: later) (hr : r ∈ requests blocks true os)
    (hr' : r' ∈ requests blocks true os) (hbefore : r.id ∈ earlier) (hid : id ∈ r.block.ids)
    (hid' : id ∈ r'.block.ids) : BringsBack blocks os id r'.id earlier where
  other := by
    rintro rfl
    exact id_notMem_of_cut h hr hr' hbefore hid
  shown := ⟨r, hr, hbefore, hid⟩
  fresh := fun _ hq hearlier => id_notMem_of_cut h hq hr' hearlier
  partner := ⟨_, (describing?_of_mem_requests hr').1, hid'⟩

/-- A stat that a rendered block has shown never asks afterwards. It is shown by a second block exactly
when another stat, which no block rendered before has shown, brings it back. -/
theorem shown_again_iff_broughtBack (blocks : List Block) (os : List Observation) (id : Text) :
    (∀ earlier later, seenIds os = earlier ++ id :: later →
      (∃ r ∈ requests blocks true os, r.id ∈ earlier ∧ id ∈ r.block.ids) →
        ∀ r ∈ requests blocks true os, r.id ≠ id) ∧
    (ShownTwice blocks os id ↔ id ∈ seenIds os ∧ ∃ earlier asking later,
      seenIds os = earlier ++ asking :: later ∧ BringsBack blocks os id asking earlier) := by
  refine ⟨?_, ?_, ?_⟩
  · rintro earlier later hcut ⟨q, hq, hbefore, hid⟩ r hr rfl
    exact id_notMem_of_cut hcut hq hr hbefore hid
  · rintro ⟨hseen, r, hr, r', hr', hplace, hid, hid'⟩
    have hne : r.id ≠ r'.id := fun h => hplace (congrArg Request.place (eq_of_id_eq hr hr' h))
    refine ⟨hseen, ?_⟩
    rcases exists_cut_of_ne (seenIds_of_mem_requests hr) (seenIds_of_mem_requests hr') hne with
      ⟨earlier, later, hcut, hbefore⟩ | ⟨earlier, later, hcut, hbefore⟩
    · exact ⟨earlier, r'.id, later, hcut, bringsBack_of_cut hcut hr hr' hbefore hid hid'⟩
    · exact ⟨earlier, r.id, later, hcut, bringsBack_of_cut hcut hr' hr hbefore hid' hid⟩
  · rintro ⟨hseen, earlier, asking, later, hcut, hback⟩
    obtain ⟨r, hr, hbefore, hid⟩ := hback.shown
    obtain ⟨entry, hd, hid'⟩ := hback.partner
    obtain ⟨r', hr', rfl⟩ := (exists_request_iff hcut).mpr ⟨⟨entry, hd⟩, hback.fresh⟩
    have hd' := (describing?_of_mem_requests hr').1
    rw [hd, Option.some.injEq] at hd'
    refine ⟨hseen, r, hr, r', hr', fun hplace => ?_, hid, by rw [hd'] at hid'; exact hid'⟩
    -- one block for both requests would have shown the asking stat before its turn
    have hown := (Block.describing?_eq_some (describing?_of_mem_requests hr').1).2
    exact hback.fresh r hr hbefore (block_eq_of_place_eq hr hr' hplace ▸ hown)

/-- Two blocks that share the stat `y`. -/
def overlappingBlocks : List Block :=
  [⟨"x y".toList, none, ["\x7b0\x7d \x7b1\x7d".toList]⟩,
    ⟨"y z".toList, none, ["\x7b0\x7d \x7b1\x7d".toList]⟩]

def overlappingObservations : List Observation :=
  [⟨"z".toList, .ofInt 1⟩, ⟨"x".toList, .ofInt 2⟩, ⟨"y".toList, .ofInt 3⟩]

/-- With `z` first, the value of `y` is shown by the second block and then by the first. -/
theorem shownTwice_overlapping :
    ShownTwice overlappingBlocks overlappingObservations "y".toList ∧
      (resolve overlappingBlocks true overlappingObservations).outcome =
        .ok ["3 1".toList, "2 3".toList] := by
  refine ⟨?_, rfl⟩
  unfold ShownTwice
  decide +kernel

end GemScribe
