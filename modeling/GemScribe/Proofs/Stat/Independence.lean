import GemScribe.Proofs.Stat.Cover
import GemScribe.Proofs.Stat.Step

/-!
Observations that have nothing to do with each other.

The grouping, the values of a block and the stats that are already shown are all read off the whole list
of observations. Where no block that describes a stat of one list names a stat of the other, each of the
three falls apart into what the two lists give by themselves: the turns are those of the one list and
then those of the other, and every block renders as it does for its own list.
-/

namespace GemScribe

open Observation

/-- No block that describes a stat of the first observations names a stat of the others. -/
def Untouched (blocks : List Block) (os others : List Observation) : Prop :=
  ∀ id ∈ seenIds os, ∀ described ∈ Block.describing? blocks id,
    ∀ other ∈ described.1.ids, other ∉ seenIds others

/-- Two lists of observations with different stats, none of which stands in a block of the other's. -/
structure Apart (blocks : List Block) (xs ys : List Observation) : Prop where
  distinct : ∀ id ∈ seenIds xs, id ∉ seenIds ys
  left : Untouched blocks xs ys
  right : Untouched blocks ys xs

variable {blocks : List Block} {skip : Bool} {xs ys os : List Observation}

theorem mem_seenIds_of_mem_ofObservations {entry : Text × List Binary64}
    (h : entry ∈ Grouped.ofObservations os) : entry.1 ∈ seenIds os := by
  rw [← Grouped.keys_ofObservations]
  exact List.mem_map_of_mem h

/-- Two lists that are apart take their turns one list after the other, each as it does by itself. -/
theorem turns_append (h : Apart blocks xs ys) :
    turns blocks skip (Grouped.ofObservations (xs ++ ys)) =
      turns blocks skip (Grouped.ofObservations xs) ++
        turns blocks skip (Grouped.ofObservations ys) := by
  set both := Grouped.ofObservations (xs ++ ys) with hboth
  have hentries : both = Grouped.ofObservations xs ++ Grouped.ofObservations ys :=
    Grouped.ofObservations_append h.distinct
  have hseen : ∀ id, id ∈ seenIds (xs ++ ys) ↔ id ∈ seenIds xs ∨ id ∈ seenIds ys := by
    intro id
    rw [seenIds_append h.distinct, List.mem_append]
  have hleft : turnsFrom blocks skip both [] (Grouped.ofObservations xs) =
      turns blocks skip (Grouped.ofObservations xs) := by
    refine turnsFrom_congr (fun _ _ => Iff.rfl) fun _ _ block _ _ other hother => ?_
    have hother' := mem_seenIds_of_mem_ofObservations hother
    rw [hboth, Block.mem_observedIds, Block.mem_observedIds, hseen]
    simp [hother']
  -- what the first list shows is nothing to the stats of the second
  have hshown : ∀ entry ∈ Grouped.ofObservations ys,
      entry.1 ∉ (turns blocks skip (Grouped.ofObservations xs)).flatMap (Turn.shown both) := by
    intro entry hentry hmem
    obtain ⟨r, hr, hid⟩ := mem_flatMap_shown.mp hmem
    rw [hboth, Block.mem_observedIds] at hid
    exact h.left r.id (seenIds_of_mem_requests hr) _ (describing?_of_mem_requests hr).1 entry.1 hid.1
      (mem_seenIds_of_mem_ofObservations hentry)
  have hright : turnsFrom blocks skip both
      ((turns blocks skip (Grouped.ofObservations xs)).flatMap (Turn.shown both))
        (Grouped.ofObservations ys) = turns blocks skip (Grouped.ofObservations ys) := by
    refine turnsFrom_congr (fun entry hentry => ?_) fun _ _ block _ _ other hother => ?_
    · simp [hshown entry hentry]
    · have hother' := mem_seenIds_of_mem_ofObservations hother
      rw [hboth, Block.mem_observedIds, Block.mem_observedIds, hseen]
      simp [hother']
  calc turns blocks skip both
      = turnsFrom blocks skip both [] (Grouped.ofObservations xs ++ Grouped.ofObservations ys) := by
        rw [turns, ← hentries]
    _ = turns blocks skip (Grouped.ofObservations xs) ++
          turns blocks skip (Grouped.ofObservations ys) := by
        rw [turnsFrom_append, hleft, List.nil_append, hright]

/-- A block of the first list reads the same values without the second list. -/
theorem play_append_left (h : Untouched blocks xs ys) {turn : Turn}
    (hturn : turn ∈ turns blocks skip (Grouped.ofObservations xs)) :
    turn.play (Grouped.ofObservations (xs ++ ys)) = turn.play (Grouped.ofObservations xs) := by
  refine Turn.play_congr fun block place hfate id hid => ?_
  obtain ⟨hseen, hd⟩ := describing?_of_mem_turns hturn hfate
  rw [Grouped.values_append, Grouped.values_eq_nil (h turn.id hseen _ hd id hid),
    List.append_nil]

/-- A block of the second list reads the same values without the first list. -/
theorem play_append_right (h : Untouched blocks ys xs) {turn : Turn}
    (hturn : turn ∈ turns blocks skip (Grouped.ofObservations ys)) :
    turn.play (Grouped.ofObservations (xs ++ ys)) = turn.play (Grouped.ofObservations ys) := by
  refine Turn.play_congr fun block place hfate id hid => ?_
  obtain ⟨hseen, hd⟩ := describing?_of_mem_turns hturn hfate
  rw [Grouped.values_append, Grouped.values_eq_nil (h turn.id hseen _ hd id hid),
    List.nil_append]

/-- Both lists together come to what the one list and then the other come to. -/
theorem outcome_resolve_append (h : Apart blocks xs ys) :
    (resolve blocks skip (xs ++ ys)).outcome =
      (do
        let first ← resolve blocks skip xs
        let rest ← resolve blocks skip ys
        pure (first ++ rest) : Journal _).outcome := by
  simp only [Journal.outcome_bind, Journal.outcome_pure, resolve_outcome_eq_each]
  rw [turns_append h, Journal.each_append, Journal.each_congr fun _ => play_append_left h.left,
    Journal.each_congr fun _ => play_append_right h.right]
  simp only [Journal.outcome_bind, Journal.outcome_pure, bind_assoc, pure_bind, List.flatten_append]

/-- Two lists that are apart are resolved together exactly when each of them is by itself. -/
theorem resolve_append_eq_ok (h : Apart blocks xs ys) {lines : List Text} :
    (resolve blocks skip (xs ++ ys)).outcome = .ok lines ↔
      ∃ first rest, (resolve blocks skip xs).outcome = .ok first ∧
        (resolve blocks skip ys).outcome = .ok rest ∧ first ++ rest = lines := by
  rw [outcome_resolve_append h, Journal.outcome_bind_eq_ok]
  simp only [Journal.outcome_bind_eq_ok]
  constructor
  · rintro ⟨first, hfirst, rest, hrest, heq⟩
    exact ⟨first, rest, hfirst, hrest, Except.ok.inj heq⟩
  · rintro ⟨first, rest, hfirst, hrest, rfl⟩
    exact ⟨first, hfirst, rest, hrest, rfl⟩

/-- Observations that are apart resolve apart: with and without repetition, the outcome for both lists
is that for the first and then that for the second, with the fault of the first where both have one. -/
theorem resolve_append_of_apart (blocks : List Block) (skip : Bool) (xs ys : List Observation)
    (h : Apart blocks xs ys) :
    (resolve blocks skip (xs ++ ys)).outcome =
      (do
        let first ← (resolve blocks skip xs).outcome
        let rest ← (resolve blocks skip ys).outcome
        pure (first ++ rest)) := by
  rw [outcome_resolve_append h]
  simp only [Journal.outcome_bind, Journal.outcome_pure]

/-- Two values of `x`, and a stat that no block describes. -/
def firstObservations : List Observation :=
  [⟨"x".toList, .ofInt 1⟩, ⟨"w".toList, .ofInt 7⟩, ⟨"x".toList, .ofInt 3⟩]

/-- A value of `z`, after an observation without an id. -/
def secondObservations : List Observation :=
  [⟨[], .ofInt 4⟩, ⟨"z".toList, .ofInt 5⟩]

/-- The blocks of `x` and `z` share the stat `y`, which is not observed. -/
theorem resolve_first_second :
    Apart overlappingBlocks firstObservations secondObservations ∧
    (resolve overlappingBlocks true firstObservations).outcome.toOption =
      some ["1 0".toList, "3 0".toList] ∧
    (resolve overlappingBlocks true secondObservations).outcome.toOption = some ["0 5".toList] ∧
    (resolve overlappingBlocks true (firstObservations ++ secondObservations)).outcome.toOption =
      some ["1 0".toList, "3 0".toList, "0 5".toList] := by
  have hapart : Apart overlappingBlocks firstObservations secondObservations :=
    ⟨by decide, by unfold Untouched; decide, by unfold Untouched; decide⟩
  refine ⟨hapart, by decide +kernel, by decide +kernel, ?_⟩
  rw [resolve_append_of_apart _ _ _ _ hapart]
  decide +kernel

end GemScribe
