import GemScribe.Proofs.Stat.Cover
import Mathlib.Data.List.Flatten
import Mathlib.Data.List.Perm.Subperm

/-!
What is left out when repetition is skipped.

A stat that asks renders the same segment of lines whether repetition is skipped or not: its block, its
values and the values of its partners are read off the observations alone. So skipping can only leave
whole segments out, and leaves none out where no block with templates has two of the observed stats.
-/

namespace GemScribe

open Observation (seenIds nodup_seenIds)

variable {blocks : List Block} {skip : Bool} {grouped : Grouped} {os : List Observation}

/-! ### Fewer requests -/

/-- Skipping takes the block from a stat that was shown, and changes no other fate. -/
theorem fateOf_skipping (blocks : List Block) (shown : List Text) (id : Text) :
    fateOf blocks true shown id = .alreadyRendered ∨
      ∀ shown', fateOf blocks true shown id = fateOf blocks false shown' id := by
  by_cases h : shown.contains id = true
  · exact Or.inl (if_pos h)
  · exact Or.inr fun _ => if_neg h

/-- The requests that are made when repetition is skipped are made as well when it is not. -/
theorem filterMap_turnsFrom_sublist : ∀ (shown shown' : List Text)
    (entries : List (Text × List Binary64)),
    List.Sublist ((turnsFrom blocks true grouped shown entries).filterMap Turn.request?)
      ((turnsFrom blocks false grouped shown' entries).filterMap Turn.request?)
  | _, _, [] => List.Sublist.slnil
  | shown, shown', (id, values) :: rest => by
      rw [turnsFrom_cons, turnsFrom_cons, List.filterMap_cons, List.filterMap_cons]
      rcases fateOf_skipping blocks shown id with hfate | hfate
      · have hsilent : Turn.request? ⟨id, values, fateOf blocks true shown id⟩ = none := by
          rw [hfate]
          rfl
        rw [hsilent]
        have ih := filterMap_turnsFrom_sublist
          (shown ++ Turn.shown grouped ⟨id, values, fateOf blocks true shown id⟩)
          (shown' ++ Turn.shown grouped ⟨id, values, fateOf blocks false shown' id⟩) rest
        cases Turn.request? ⟨id, values, fateOf blocks false shown' id⟩ with
        | none => exact ih
        | some r => exact ih.cons r
      · rw [hfate shown']
        have ih := filterMap_turnsFrom_sublist
          (shown ++ Turn.shown grouped ⟨id, values, fateOf blocks false shown' id⟩)
          (shown' ++ Turn.shown grouped ⟨id, values, fateOf blocks false shown' id⟩) rest
        cases Turn.request? ⟨id, values, fateOf blocks false shown' id⟩ with
        | none => exact ih
        | some r => exact ih.cons_cons r

theorem requests_skipping_sublist (blocks : List Block) (os : List Observation) :
    List.Sublist (requests blocks true os) (requests blocks false os) :=
  filterMap_turnsFrom_sublist [] [] (Grouped.ofObservations os)

/-- No block with templates has two of the observed stats. -/
def Separate (blocks : List Block) (os : List Observation) : Prop :=
  ∀ block ∈ blocks, block.templates ≠ [] → ∀ id ∈ block.ids, ∀ other ∈ block.ids,
    id ∈ seenIds os → other ∈ seenIds os → id = other

theorem Block.templates_ne_nil_of_describing? {id : Text} {block : Block} {place : Nat}
    (h : Block.describing? blocks id = some (block, place)) : block.templates ≠ [] := by
  have hfound := List.find?_some h
  rw [Block.describes, Bool.and_eq_true] at hfound
  simpa using hfound.1

/-- Where the blocks keep the observed stats apart, every described stat asks. -/
theorem requests_of_separate (h : Separate blocks os) :
    requests blocks true os = requests blocks false os := by
  have hsublist := requests_skipping_sublist blocks os
  have hnodup : (requests blocks false os).Nodup :=
    List.Nodup.of_map _ ((nodup_seenIds os).sublist requests_sublist)
  refine hsublist.eq_of_length_le (hnodup.subperm fun r hr => ?_).length_le
  obtain ⟨earlier, later, hcut⟩ := List.append_of_mem (seenIds_of_mem_requests hr)
  obtain ⟨hvalues, hd, -⟩ := (mem_requests_iff hcut).mp hr
  refine (mem_requests_iff hcut).mpr ⟨hvalues, hd, fun _ q hq hbefore hid => ?_⟩
  -- the block of `q` would have two observed stats, since `q` was made for an earlier one
  obtain ⟨hplace, hown⟩ := Block.describing?_eq_some (describing?_of_mem_requests hq).1
  have htemplates := Block.templates_ne_nil_of_describing? (describing?_of_mem_requests hq).1
  have heq : q.id = r.id := h q.block (List.mem_of_getElem? hplace) htemplates q.id hown r.id hid
    (seenIds_of_mem_requests hq) (seenIds_of_mem_requests hr)
  have hnodup := nodup_seenIds os
  rw [hcut, List.nodup_append] at hnodup
  exact hnodup.2.2 q.id hbefore r.id List.mem_cons_self heq

/-! ### Fewer segments -/

/-- The lines of a resolution in segments, one for each stat that asks. -/
structure Segmented (blocks : List Block) (skip : Bool) (os : List Observation)
    (segments : List (Request × List Text)) : Prop where
  requests : segments.map Prod.fst = requests blocks skip os
  rendered : ∀ s ∈ segments, s.1.Renders (Grouped.ofObservations os) s.2

theorem exists_segmented_iff {lines : List Text} :
    (∃ segments, Segmented blocks skip os segments ∧ lines = segments.flatMap Prod.snd) ↔
      (resolve blocks skip os).outcome = .ok lines := by
  rw [resolve_outcome_eq_ok]
  constructor
  · rintro ⟨segments, hs, rfl⟩
    refine ⟨segments.map Prod.snd, ?_, List.flatMap_def⟩
    rw [← hs.requests, List.forall₂_map_left_iff, List.forall₂_map_right_iff, List.forall₂_same]
    exact hs.rendered
  · rintro ⟨parts, hparts, rfl⟩
    have hlength := hparts.length_eq
    refine ⟨(requests blocks skip os).zip parts,
      ⟨List.map_fst_zip (Nat.le_of_eq hlength), fun _ hs => List.forall₂_zip hparts hs⟩, ?_⟩
    rw [List.flatMap_def, List.map_snd_zip (Nat.le_of_eq hlength.symm)]

/-- Some of the segments are the segments of some of the stats. -/
theorem Segmented.exists_kept {segments : List (Request × List Text)}
    (h : Segmented blocks false os segments) :
    ∃ kept, Segmented blocks true os kept ∧ kept.Sublist segments := by
  have hsublist := requests_skipping_sublist blocks os
  rw [← h.requests, List.sublist_map_iff] at hsublist
  obtain ⟨kept, hkept, hrequests⟩ := hsublist
  exact ⟨kept, ⟨hrequests.symm, fun s hs => h.rendered s (hkept.subset hs)⟩, hkept⟩

/-- Skipping only omits. When the segments of all described stats can be rendered, what is returned with
skipping is some of these segments, each of them whole and in the same order. Where the blocks keep the
observed stats apart, nothing is left out. -/
theorem resolve_skipping_omits_segments (blocks : List Block) (os : List Observation) :
    (∀ all, (resolve blocks false os).outcome = .ok all → ∃ segments kept,
      Segmented blocks false os segments ∧ Segmented blocks true os kept ∧ kept.Sublist segments ∧
        all = segments.flatMap Prod.snd ∧
        (resolve blocks true os).outcome = .ok (kept.flatMap Prod.snd) ∧
        (kept.flatMap Prod.snd).Sublist all) ∧
    (Separate blocks os → ∀ lines,
      (resolve blocks true os).outcome = .ok lines ↔ (resolve blocks false os).outcome = .ok lines) := by
  constructor
  · intro all hall
    obtain ⟨segments, hsegments, rfl⟩ := exists_segmented_iff.mpr hall
    obtain ⟨kept, hkept, hsublist⟩ := hsegments.exists_kept
    exact ⟨segments, kept, hsegments, hkept, hsublist, rfl, exists_segmented_iff.mp ⟨kept, hkept, rfl⟩,
      hsublist.flatMap Prod.snd⟩
  · intro hseparate lines
    rw [resolve_outcome_eq_ok, resolve_outcome_eq_ok, requests_of_separate hseparate]

/-- One block for the two stats `x` and `y`. -/
def pairedBlocks : List Block :=
  [⟨"x y".toList, none, ["\x7b0\x7d \x7b1\x7d".toList]⟩]

/-- A block for each of the stats `x` and `y`. -/
def separateBlocks : List Block :=
  [⟨"x".toList, none, ["\x7b0\x7d".toList]⟩, ⟨"y".toList, none, ["\x7b0\x7d".toList]⟩]

def pairedObservations : List Observation :=
  [⟨"x".toList, .ofInt 1⟩, ⟨"y".toList, .ofInt 2⟩]

/-- Of two stats with one block the second is left out; with a block for each none is. -/
theorem resolve_pairedBlocks :
    (resolve pairedBlocks false pairedObservations).outcome = .ok ["1 2".toList, "1 2".toList] ∧
    (∃ segments kept, Segmented pairedBlocks false pairedObservations segments ∧
      Segmented pairedBlocks true pairedObservations kept ∧ kept.Sublist segments ∧
        ["1 2".toList, "1 2".toList] = segments.flatMap Prod.snd ∧
        (resolve pairedBlocks true pairedObservations).outcome = .ok (kept.flatMap Prod.snd) ∧
        (kept.flatMap Prod.snd).Sublist ["1 2".toList, "1 2".toList]) ∧
    Separate separateBlocks pairedObservations ∧ ∀ lines,
      (resolve separateBlocks true pairedObservations).outcome = .ok lines ↔
        (resolve separateBlocks false pairedObservations).outcome = .ok lines := by
  have hall : (resolve pairedBlocks false pairedObservations).outcome =
      .ok ["1 2".toList, "1 2".toList] := rfl
  have hseparate : Separate separateBlocks pairedObservations := by
    unfold Separate
    decide
  exact ⟨hall, (resolve_skipping_omits_segments _ _).1 _ hall, hseparate,
    (resolve_skipping_omits_segments _ _).2 hseparate⟩

end GemScribe
