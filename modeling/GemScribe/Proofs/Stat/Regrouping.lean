import GemScribe.Proofs.Stat.LineCount

/-!
Grouping as a rearrangement.

Grouping keeps each value of an observation with an id, and keeps it with its own stat. What it forgets is
how the observations of different stats lie among one another: a grouping is known from the order in which
the stats are first seen and from the values of each stat. Two lists that agree in both are grouped and
resolved alike. A list that goes on is grouped like its beginning, continued by the grouping of the rest.
-/

namespace GemScribe

open Observation

variable {os os' : List Observation}

/-! ### What a grouping holds -/

namespace Observation

/-- The stats of a list are in the order of their first places in it. -/
theorem pairwise_idxOf_seenIds (os : List Observation) : (seenIds os).Pairwise fun id other =>
    (os.map Observation.id).idxOf id < (os.map Observation.id).idxOf other := by
  induction os using List.reverseRecOn with
  | nil => exact List.Pairwise.nil
  | append_singleton os o ih =>
    have hseen : ∀ id ∈ seenIds os, id ∈ os.map Observation.id := by
      intro id hid
      obtain ⟨-, o', ho', rfl⟩ := mem_seenIds.mp hid
      exact List.mem_map_of_mem ho'
    have hold : (seenIds os).Pairwise fun id other =>
        ((os ++ [o]).map Observation.id).idxOf id < ((os ++ [o]).map Observation.id).idxOf other := by
      refine ih.imp_of_mem fun hid hother hlt => ?_
      rwa [List.map_append, List.idxOf_append_of_mem (hseen _ hid),
        List.idxOf_append_of_mem (hseen _ hother)]
    rw [seenIds_concat]
    split
    · exact hold
    · next hnew =>
      rw [not_or] at hnew
      rw [List.pairwise_append]
      refine ⟨hold, List.pairwise_singleton _ _, fun id hid other hother => ?_⟩
      obtain rfl := List.mem_singleton.mp hother
      have hunseen : o.id ∉ os.map Observation.id := by
        intro hmem
        obtain ⟨o', ho', heq⟩ := List.mem_map.mp hmem
        exact hnew.2 (mem_seenIds.mpr ⟨hnew.1, o', ho', heq⟩)
      rw [List.map_append, List.idxOf_append_of_mem (hseen _ hid), List.idxOf_append_of_notMem hunseen]
      exact (List.idxOf_lt_length_of_mem (hseen _ hid)).trans_le (Nat.le_add_right _ _)

end Observation

namespace Grouped

/-- A grouping that loses and mixes nothing: its stats are the observed ones, each once and in the order of
their first places, and each has all the values observed for it, in their order. -/
structure Holds (grouped : Grouped) (os : List Observation) : Prop where
  distinct : (grouped.map Prod.fst).Nodup
  observed : ∀ id, id ∈ grouped.map Prod.fst ↔ id ≠ [] ∧ ∃ o ∈ os, o.id = id
  firstSeen : (grouped.map Prod.fst).Pairwise fun id other =>
    (os.map Observation.id).idxOf id < (os.map Observation.id).idxOf other
  own : ∀ id values, (id, values) ∈ grouped →
    values = (os.filter fun o => o.id = id).map Observation.value ∧ values ≠ []
  total : (grouped.map fun entry => entry.2.length).sum = (os.filter fun o => o.id ≠ []).length

theorem holds_ofObservations (os : List Observation) : (ofObservations os).Holds os where
  distinct := keys_ofObservations os ▸ nodup_seenIds os
  observed := fun id => by rw [keys_ofObservations, mem_seenIds]
  firstSeen := keys_ofObservations os ▸ pairwise_idxOf_seenIds os
  own := by
    intro id values hmem
    rw [ofObservations_eq, List.mem_map] at hmem
    obtain ⟨_, hid, heq⟩ := hmem
    obtain ⟨rfl, rfl⟩ := Prod.mk.inj heq
    exact ⟨rfl, valuesFor_ne_nil hid⟩
  total := by
    have hsum := sum_length_valuesFor os fun _ => true
    rw [List.filter_true] at hsum
    rw [ofObservations_eq, List.map_map, ← List.countP_eq_length_filter]
    refine hsum.trans (List.countP_congr fun o _ => ?_)
    simp

/-! ### One list after another -/

/-- A grouping continued by a later one: the values of a stat that it has are continued by the later values
of the stat, and the other stats come after its own. -/
def append (grouped later : Grouped) : Grouped :=
  grouped.map (fun entry => (entry.1, entry.2 ++ later.values entry.1)) ++
    later.filter fun entry => !(grouped.map Prod.fst).contains entry.1

/-- Of a list that goes on, the values of a stat that was seen are continued, and the stats that were not
seen have later values only. -/
theorem ofObservations_append_eq (os os' : List Observation) :
    ofObservations (os ++ os') = (ofObservations os).append (ofObservations os') := by
  rw [append, keys_ofObservations, ofObservations_eq (os ++ os'), seenIds_append_eq, List.map_append]
  congr 1
  · rw [ofObservations_eq os, List.map_map]
    refine List.map_congr_left fun id hid => ?_
    rw [Function.comp, valuesFor_append, values_ofObservations (mem_seenIds.mp hid).1]
  · have hnew : ∀ id, (!(seenIds os).contains id) = decide (id ∉ seenIds os) := fun id => by simp
    rw [ofObservations_eq os', List.filter_map]
    simp only [Function.comp_def, hnew]
    refine List.map_congr_left fun id hid => ?_
    obtain ⟨hlater, hunseen⟩ := List.mem_filter.mp hid
    rw [valuesFor_append, valuesFor_eq_nil (mem_seenIds.mp hlater).1 (of_decide_eq_true hunseen),
      List.nil_append]

end Grouped

/-! ### Another order -/

/-- The same observations in another order, which keeps that of the observations of one stat, and that in
which the stats are first seen. -/
structure Reordered (os os' : List Observation) : Prop where
  perm : os.Perm os'
  within : ∀ id, id ≠ [] → (os.filter fun o => o.id = id) = os'.filter fun o => o.id = id
  firstSeen : seenIds os = seenIds os'

theorem Reordered.ofObservations_eq (h : Reordered os os') :
    Grouped.ofObservations os = Grouped.ofObservations os' := by
  rw [Grouped.ofObservations_eq, Grouped.ofObservations_eq, ← h.firstSeen]
  refine List.map_congr_left fun id hid => ?_
  rw [valuesFor, valuesFor, h.within id (mem_seenIds.mp hid).1]

variable {blocks : List Block} {skip : Bool}

/-- Observations that are grouped alike have the same lines, or the same fault. -/
theorem resolve_outcome_congr (h : Grouped.ofObservations os = Grouped.ofObservations os') :
    (resolve blocks skip os).outcome = (resolve blocks skip os').outcome := by
  rw [resolve_outcome_eq_each, resolve_outcome_eq_each, h]

/-- Two resolutions with the same lines, or the same fault, and the same notes up to the places of as many
observations without an id. -/
structure SameResolution (blocks : List Block) (skip : Bool) (os os' : List Observation) : Prop where
  outcome : (resolve blocks skip os).outcome = (resolve blocks skip os').outcome
  events : ∃ noted, (resolve blocks skip os).events = (emptyPlaces 0 os).map .emptyId ++ noted ∧
    (resolve blocks skip os').events = (emptyPlaces 0 os').map .emptyId ++ noted
  empty : (emptyPlaces 0 os).length = (emptyPlaces 0 os').length

theorem Reordered.sameResolution (h : Reordered os os') : SameResolution blocks skip os os' where
  outcome := resolve_outcome_congr h.ofObservations_eq
  events := by
    by_cases hos : os = []
    · subst hos
      obtain rfl := h.perm.nil_eq
      exact ⟨_, rfl, rfl⟩
    · have hos' : os' ≠ [] := fun hnil => hos (List.perm_nil.mp (hnil ▸ h.perm))
      exact ⟨_, events_resolve_eq hos, by rw [events_resolve_eq hos', h.ofObservations_eq]⟩
  empty := by rw [length_emptyPlaces, length_emptyPlaces, h.perm.countP_eq]

/-- Grouping always returns. Its stats are the observed ones, in the order in which they are first seen, each
with all its own values and no others; a list that goes on continues the grouping of its beginning. Only the
order in which stats are first seen and that of the values of each stat count: observations that are
reordered otherwise are grouped alike, and resolved alike. -/
theorem group_keeps_all (os : List Observation) :
    (group os).outcome = .ok (Grouped.ofObservations os) ∧ (Grouped.ofObservations os).Holds os ∧
    (∀ later, Grouped.ofObservations (os ++ later) =
      (Grouped.ofObservations os).append (Grouped.ofObservations later)) ∧
    ∀ os', Reordered os os' → Grouped.ofObservations os = Grouped.ofObservations os' ∧
      ∀ blocks skip, SameResolution blocks skip os os' :=
  ⟨rfl, Grouped.holds_ofObservations os, Grouped.ofObservations_append_eq os,
    fun _ h => ⟨h.ofObservations_eq, fun _ _ => h.sameResolution⟩⟩

/-- The mixed observations with those of one stat side by side. -/
def gatheredObservations : List Observation :=
  [⟨[], .ofInt 9⟩, ⟨"x".toList, .ofInt 1⟩, ⟨"x".toList, .ofInt 4⟩, ⟨"z".toList, .ofInt 3⟩,
    ⟨"y".toList, .ofInt 2⟩]

theorem reordered_gathered : Reordered mixedObservations gatheredObservations where
  perm := by decide
  within := by
    intro id hid
    by_cases hx : "x".toList = id
    · subst hx
      decide
    · simp only [mixedObservations, gatheredObservations, List.filter_cons, List.filter_nil, hx, hid.symm,
        decide_false, Bool.false_eq_true, if_false]
  firstSeen := by decide

/-- Gathering changes the place that is noted, and nothing else. -/
theorem resolve_gathered :
    Reordered mixedObservations gatheredObservations ∧
    Grouped.ofObservations mixedObservations = Grouped.ofObservations gatheredObservations ∧
    SameResolution pairedBlocks true mixedObservations gatheredObservations ∧
    (resolve pairedBlocks true gatheredObservations).outcome = .ok ["1 2".toList, "4 0".toList] ∧
    (resolve pairedBlocks true gatheredObservations).events =
      [.emptyId 0, .undescribed "z".toList, .alreadyRendered "y".toList] := by
  obtain ⟨hgrouping, hresolution⟩ := (group_keeps_all mixedObservations).2.2.2 _ reordered_gathered
  exact ⟨reordered_gathered, hgrouping, hresolution pairedBlocks true, rfl, rfl⟩

end GemScribe
