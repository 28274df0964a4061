import GemScribe.Proofs.Stat.Account
import Mathlib.Algebra.BigOperators.Group.List.Lemmas
import Mathlib.Algebra.Order.BigOperators.Group.List
import Mathlib.Algebra.Order.Ring.Nat

/-!
How many lines a resolution returns.

With repetition every described stat asks for its block on its turn, and gives the lines of its
observations in their order of arrival: for each at least one line, and at most one for each template of
the block. So where the blocks have one template each, there are exactly as many lines as observations of
described stats.
-/

namespace GemScribe

open Observation

variable {blocks : List Block} {os : List Observation}

/-! ### Observations by stat -/

theorem length_valuesFor {id : Text} (hid : id ≠ []) :
    (valuesFor os id).length = ((os.map Observation.id).filter (!·.isEmpty)).count id := by
  rw [List.count_filter (by simpa using hid), valuesFor, List.length_map,
    ← List.countP_eq_length_filter, List.count_eq_countP, List.countP_map]
  exact List.countP_congr fun o _ => by simp

/-- The observations of some of the stats, counted stat by stat. -/
theorem sum_length_valuesFor (os : List Observation) (p : Text → Bool) :
    (((seenIds os).filter p).map fun id => (valuesFor os id).length).sum =
      os.countP fun o => !o.id.isEmpty && p o.id := by
  set ids := (os.map Observation.id).filter (!·.isEmpty) with hids
  have hperm : (seenIds os).Perm ids.dedup := by
    rw [List.perm_ext_iff_of_nodup (nodup_seenIds os) ids.nodup_dedup]
    intro id
    rw [seenIds, List.mem_eraseDups, List.mem_dedup]
  have hcount : ids.countP p = os.countP fun o => !o.id.isEmpty && p o.id := by
    rw [hids, List.countP_filter, List.countP_map]
    exact List.countP_congr fun o _ => by simp [and_comm]
  rw [← hcount, ← List.sum_map_count_dedup_filter_eq_countP p ids,
    ((hperm.filter p).map _).sum_eq]
  congr 1
  refine List.map_congr_left fun id hid => ?_
  rw [List.mem_filter, List.mem_dedup, ← List.mem_eraseDups] at hid
  have hlength : (valuesFor os id).length = ids.count id :=
    length_valuesFor (mem_seenIds.mp hid.1).1
  convert hlength

/-! ### Lines by observation -/

/-- Parts of a bounded number of lines. -/
theorem length_flatten_bounds {parts : List (List Text)} {least most : Nat}
    (h : ∀ part ∈ parts, least ≤ part.length ∧ part.length ≤ most) :
    parts.length * least ≤ parts.flatten.length ∧ parts.flatten.length ≤ parts.length * most := by
  have hleast := List.card_nsmul_le_sum (parts.map List.length) least
    (List.forall_mem_map.mpr fun part hpart => (h part hpart).1)
  have hmost := List.sum_le_card_nsmul (parts.map List.length) most
    (List.forall_mem_map.mpr fun part hpart => (h part hpart).2)
  rw [List.length_map, Nat.nsmul_eq_mul] at hleast hmost
  rw [List.length_flatten]
  exact ⟨hleast, hmost⟩

/-- What a stat contributes when repetition is not skipped: the lines of its observations in their order
of arrival, each with at least one line and at most one for each template of the block that describes the
stat, or nothing where no block does. -/
structure Contribution (blocks : List Block) (os : List Observation) (a : Account) : Prop where
  described : ∀ block place, Block.describing? blocks a.id = some (block, place) →
    Request.Steps (Grouped.ofObservations os) ⟨a.id, valuesFor os a.id, block, place⟩ a.parts ∧
      (∀ part ∈ a.parts, 1 ≤ part.length ∧ part.length ≤ block.templates.length) ∧
      (valuesFor os a.id).length ≤ a.lines.length ∧
      a.lines.length ≤ (valuesFor os a.id).length * block.templates.length
  undescribed : Block.describing? blocks a.id = none → a.lines = []

theorem Accounting.contribution {accounts : List Account} (h : Accounting blocks false os accounts)
    {a : Account} (ha : a ∈ accounts) : Contribution blocks os a := by
  cases hfate : a.fate with
  | rendered block place =>
    obtain ⟨hd, hsteps, hlength, -⟩ := h.rendered a ha block place hfate
    have hkept := hsteps.kept (Block.templates_ne_nil_of_describing? hd)
    obtain ⟨hleast, hmost⟩ := length_flatten_bounds hkept
    rw [hlength] at hleast hmost
    rw [Nat.mul_one] at hleast
    refine ⟨fun block' place' hd' => ?_, fun hnone => by rw [hd] at hnone; cases hnone⟩
    rw [hd, Option.some.injEq, Prod.mk.injEq] at hd'
    obtain ⟨rfl, rfl⟩ := hd'
    exact ⟨hsteps, hkept, hleast, hmost⟩
  | alreadyRendered =>
    obtain ⟨earlier, later, heq⟩ := List.append_of_mem ha
    exact absurd (h.repeated earlier a later heq hfate).2.1 Bool.false_ne_true
  | undescribed =>
    obtain ⟨hparts, hnone⟩ := h.undescribed a ha hfate
    refine ⟨fun block place hd => ?_, fun _ => by rw [Account.lines, hparts, List.flatten_nil]⟩
    rw [Block.describing?_eq_none_iff.mpr hnone] at hd
    cases hd

/-- Where every block that is asked for has one template, there is one line for each observation of a
described stat. -/
theorem Accounting.length_lines {accounts : List Account} (h : Accounting blocks false os accounts)
    (hsingle : ∀ id ∈ seenIds os, ∀ described ∈ Block.describing? blocks id,
      described.1.templates.length = 1) :
    (accounts.flatMap Account.lines).length =
      os.countP fun o => !o.id.isEmpty && (Block.describing? blocks o.id).isSome := by
  have hlength : ∀ a ∈ accounts, a.lines.length =
      if (Block.describing? blocks a.id).isSome then (valuesFor os a.id).length else 0 := by
    intro a ha
    have hcontribution := h.contribution ha
    cases hd : Block.describing? blocks a.id with
    | none => rw [hcontribution.undescribed hd]; rfl
    | some described =>
      obtain ⟨-, -, hleast, hmost⟩ := hcontribution.described described.1 described.2 hd
      have hseen : a.id ∈ seenIds os := h.order ▸ List.mem_map_of_mem ha
      rw [hsingle a.id hseen described hd, Nat.mul_one] at hmost
      exact Nat.le_antisymm hmost hleast
  have hcount := sum_length_valuesFor os fun id => (Block.describing? blocks id).isSome
  rw [← h.order, List.filter_map, List.map_map] at hcount
  rw [List.length_flatMap, List.map_congr_left hlength, List.sum_map_ite, ← hcount]
  simp [Function.comp_def]

/-- When repetition is not skipped, a resolution that returns gives the lines of the observed stats one
after another, in the order in which the stats are first seen; those of a described stat are at least as
many as its observations, and at most that for each template of its block, and the others give none. With
one template to a block there is one line for each observation of a described stat. -/
theorem resolve_counts_lines (blocks : List Block) (os : List Observation) (lines : List Text)
    (h : (resolve blocks false os).outcome = .ok lines) :
    ∃ accounts : List Account, accounts.map (·.id) = seenIds os ∧
      lines = accounts.flatMap Account.lines ∧ (∀ a ∈ accounts, Contribution blocks os a) ∧
      ((∀ id ∈ seenIds os, ∀ described ∈ Block.describing? blocks id,
        described.1.templates.length = 1) →
        lines.length =
          os.countP fun o => !o.id.isEmpty && (Block.describing? blocks o.id).isSome) := by
  obtain ⟨accounts, haccounts, rfl⟩ := exists_turnAccounts h
  exact ⟨accounts, haccounts.order, rfl, fun _ ha => haccounts.accounting.contribution ha,
    haccounts.accounting.length_lines⟩

/-- The two stats of a block render one line for each of their three observations, the stat without a
block and the observation without an id none. -/
theorem resolve_mixed_lines :
    (resolve pairedBlocks false mixedObservations).outcome =
      .ok ["1 2".toList, "4 0".toList, "1 2".toList] ∧
    ∃ accounts : List Account, accounts.map (·.id) = seenIds mixedObservations ∧
      ["1 2".toList, "4 0".toList, "1 2".toList] = accounts.flatMap Account.lines ∧
      (∀ a ∈ accounts, Contribution pairedBlocks mixedObservations a) ∧
      3 = mixedObservations.countP fun o =>
        !o.id.isEmpty && (Block.describing? pairedBlocks o.id).isSome := by
  have hlines : (resolve pairedBlocks false mixedObservations).outcome =
      .ok ["1 2".toList, "4 0".toList, "1 2".toList] := rfl
  obtain ⟨accounts, horder, hsegments, hcontribution, hcount⟩ := resolve_counts_lines _ _ _ hlines
  exact ⟨hlines, accounts, horder, hsegments, hcontribution, hcount (by decide)⟩

end GemScribe
