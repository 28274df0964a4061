import GemScribe.Stat.Observation
import Mathlib.Data.List.Induction

/-!
What grouping keeps of a list of observations.

The grouping is determined by two readings of the list: the stats in the order in which they are first
seen, and for each stat the values observed for it, in order of arrival. `ofObservations_eq` says that
the grouping is nothing but those two put together; all other facts about it follow from that.
-/

namespace GemScribe

namespace Observation

/-- The observed stats, in the order in which they are first seen. -/
def seenIds (os : List Observation) : List Text :=
  ((os.map Observation.id).filter (!·.isEmpty)).eraseDups

/-- The values observed for a stat, in order of arrival. -/
def valuesFor (os : List Observation) (id : Text) : List Binary64 :=
  (os.filter fun o => o.id = id).map Observation.value

theorem mem_seenIds {os : List Observation} {id : Text} :
    id ∈ seenIds os ↔ id ≠ [] ∧ ∃ o ∈ os, o.id = id := by
  rw [seenIds, List.mem_eraseDups, List.mem_filter, List.mem_map]
  simp [and_comm]

/-- One more observation brings at most its own stat, which comes last. -/
theorem seenIds_concat (os : List Observation) (o : Observation) :
    seenIds (os ++ [o]) =
      if o.id = [] ∨ o.id ∈ seenIds os then seenIds os else seenIds os ++ [o.id] := by
  rw [seenIds, List.map_append, List.filter_append, List.eraseDups_append, ← seenIds]
  by_cases hempty : o.id = []
  · simp [hempty]
  · have hkept : ([o].map Observation.id).filter (!·.isEmpty) = [o.id] := by simp [hempty]
    rw [hkept, List.removeAll]
    by_cases hseen : o.id ∈ seenIds os
    · rw [if_pos (Or.inr hseen), List.filter_cons_of_neg, List.filter_nil]
      · exact List.append_nil _
      · rw [seenIds, List.mem_eraseDups] at hseen
        rw [List.elem_eq_true_of_mem hseen]
        exact Bool.false_ne_true
    · rw [if_neg (not_or.mpr ⟨hempty, hseen⟩), List.filter_cons_of_pos, List.filter_nil]
      · rfl
      · rw [seenIds, List.mem_eraseDups, ← List.elem_iff, Bool.not_eq_true] at hseen
        rw [hseen]
        rfl

theorem nodup_seenIds (os : List Observation) : (seenIds os).Nodup := by
  induction os using List.reverseRecOn with
  | nil => exact List.nodup_nil
  | append_singleton os o ih =>
    rw [seenIds_concat]
    split
    · exact ih
    · next h =>
      rw [not_or] at h
      rw [List.nodup_append]
      refine ⟨ih, by simp, fun id hid other hother => ?_⟩
      rintro rfl
      exact h.2 (List.mem_singleton.mp hother ▸ hid)

theorem valuesFor_append (os os' : List Observation) (id : Text) :
    valuesFor (os ++ os') id = valuesFor os id ++ valuesFor os' id := by
  rw [valuesFor, List.filter_append, List.map_append]
  rfl

theorem valuesFor_concat (os : List Observation) (o : Observation) (id : Text) :
    valuesFor (os ++ [o]) id = valuesFor os id ++ if o.id = id then [o.value] else [] := by
  rw [valuesFor_append]
  by_cases h : o.id = id <;> simp [valuesFor, h]

/-- Later observations bring the stats among them that were not seen before. -/
theorem seenIds_append_eq (os os' : List Observation) :
    seenIds (os ++ os') = seenIds os ++ (seenIds os').filter fun id => id ∉ seenIds os := by
  induction os' using List.reverseRecOn with
  | nil => simp [seenIds]
  | append_singleton os' o ih =>
    rw [← List.append_assoc, seenIds_concat, seenIds_concat, ih]
    by_cases hempty : o.id = []
    · rw [if_pos (Or.inl hempty), if_pos (Or.inl hempty)]
    · by_cases hlater : o.id ∈ seenIds os'
      · rw [if_pos (Or.inr hlater), if_pos]
        by_cases hold : o.id ∈ seenIds os <;> simp [hold, hlater]
      · by_cases hold : o.id ∈ seenIds os <;> simp [hempty, hlater, hold]

/-- The stats of two lists that have none in common. -/
theorem seenIds_append {os os' : List Observation} (h : ∀ id ∈ seenIds os, id ∉ seenIds os') :
    seenIds (os ++ os') = seenIds os ++ seenIds os' := by
  rw [seenIds_append_eq, List.filter_eq_self.mpr]
  intro id hid
  rw [decide_eq_true_iff]
  exact fun hold => h id hold hid

theorem valuesFor_ne_nil {os : List Observation} {id : Text} (h : id ∈ seenIds os) :
    valuesFor os id ≠ [] := by
  obtain ⟨-, o, ho, rfl⟩ := mem_seenIds.mp h
  rw [valuesFor, Ne, List.map_eq_nil_iff, List.filter_eq_nil_iff]
  intro hall
  exact hall o ho (by simp)

theorem valuesFor_eq_nil {os : List Observation} {id : Text} (hid : id ≠ [])
    (h : id ∉ seenIds os) : valuesFor os id = [] := by
  rw [valuesFor, List.map_eq_nil_iff, List.filter_eq_nil_iff]
  intro o ho heq
  exact h (mem_seenIds.mpr ⟨hid, o, ho, by simpa using heq⟩)

end Observation

namespace Grouped

open Observation

/-- A value for a stat that is not there yet makes a new entry. -/
theorem push_of_not_mem {id : Text} (value : Binary64) : ∀ {grouped : Grouped},
    id ∉ grouped.map Prod.fst → push id value grouped = grouped ++ [(id, [value])]
  | [], _ => rfl
  | (other, vs) :: rest, h => by
      rw [List.map_cons, List.mem_cons, not_or] at h
      rw [push, if_neg (Ne.symm h.1), push_of_not_mem value h.2]
      rfl

/-- A value for a stat that is there goes to the end of that stat's values. -/
theorem push_map {id : Text} (value : Binary64) (f : Text → List Binary64) : ∀ {ids : List Text},
    ids.Nodup → id ∈ ids → push id value (ids.map fun i => (i, f i)) =
      ids.map fun i => (i, f i ++ if id = i then [value] else [])
  | [], _, h => by simp at h
  | other :: ids, hnodup, h => by
      rw [List.nodup_cons] at hnodup
      rw [List.map_cons, List.map_cons, push]
      rcases eq_or_ne other id with rfl | hne
      · rw [if_pos rfl, if_pos rfl]
        congr 1
        refine List.map_congr_left fun i hi => ?_
        rw [if_neg (by rintro rfl; exact hnodup.1 hi), List.append_nil]
      · rw [if_neg hne, if_neg hne.symm, List.append_nil,
          push_map value f hnodup.2 ((List.mem_cons.mp h).resolve_left hne.symm)]

theorem ofObservations_concat (os : List Observation) (o : Observation) :
    ofObservations (os ++ [o]) = step (ofObservations os) o := by
  rw [ofObservations, List.foldl_append]
  rfl

theorem foldl_step_same {id : Text} (hid : id ≠ []) : ∀ (values xs : List Binary64),
    (xs.map (Observation.mk id)).foldl step [(id, values)] = [(id, values ++ xs)]
  | values, [] => by rw [List.append_nil]; rfl
  | values, x :: xs => by
      have hstep : step [(id, values)] ⟨id, x⟩ = [(id, values ++ [x])] := by
        rw [step, if_neg (by simpa using hid), push, if_pos rfl]
      rw [List.map_cons, List.foldl_cons, hstep, foldl_step_same hid, List.append_assoc,
        List.singleton_append]

/-- Observations of one stat make one entry. -/
theorem ofObservations_same {id : Text} (hid : id ≠ []) {xs : List Binary64} (hxs : xs ≠ []) :
    ofObservations (xs.map (Observation.mk id)) = [(id, xs)] := by
  obtain ⟨x, xs, rfl⟩ := List.exists_cons_of_ne_nil hxs
  have hstep : step [] ⟨id, x⟩ = [(id, [x])] := by
    rw [step, if_neg (by simpa using hid), push]
  rw [ofObservations, List.map_cons, List.foldl_cons, hstep, foldl_step_same hid]
  rfl

/-- The grouping holds each observed stat once, in the order in which they are first seen, with all
the values observed for it. -/
theorem ofObservations_eq (os : List Observation) :
    ofObservations os = (seenIds os).map fun id => (id, valuesFor os id) := by
  induction os using List.reverseRecOn with
  | nil => rfl
  | append_singleton os o ih =>
    rw [ofObservations_concat, ih, step, seenIds_concat]
    simp only [valuesFor_concat]
    by_cases hempty : o.id = []
    · rw [if_pos (by rw [hempty]; rfl), if_pos (Or.inl hempty)]
      refine List.map_congr_left fun id hid => ?_
      have hne : o.id ≠ id := by
        rw [hempty]
        exact (mem_seenIds.mp hid).1.symm
      rw [if_neg hne, List.append_nil]
    · rw [if_neg (by simpa using hempty)]
      by_cases hseen : o.id ∈ seenIds os
      · rw [if_pos (Or.inr hseen)]
        exact push_map o.value (valuesFor os) (nodup_seenIds os) hseen
      · rw [if_neg (not_or.mpr ⟨hempty, hseen⟩), List.map_append, push_of_not_mem]
        · congr 1
          · refine List.map_congr_left fun id hid => ?_
            rw [if_neg (by rintro rfl; exact hseen hid), List.append_nil]
          · simp [valuesFor_eq_nil hempty hseen]
        · simpa [List.map_map, Function.comp_def] using hseen

/-- Two lists that have no stat in common are grouped one after the other. -/
theorem ofObservations_append {os os' : List Observation}
    (h : ∀ id ∈ seenIds os, id ∉ seenIds os') :
    ofObservations (os ++ os') = ofObservations os ++ ofObservations os' := by
  rw [ofObservations_eq, ofObservations_eq, ofObservations_eq, seenIds_append h, List.map_append]
  congr 1
  · refine List.map_congr_left fun id hid => ?_
    rw [valuesFor_append, valuesFor_eq_nil (mem_seenIds.mp hid).1 (h id hid), List.append_nil]
  · refine List.map_congr_left fun id hid => ?_
    rw [valuesFor_append, valuesFor_eq_nil (mem_seenIds.mp hid).1 fun hseen => h id hseen hid,
      List.nil_append]

/-- The stats of a grouping. -/
theorem keys_ofObservations (os : List Observation) :
    (ofObservations os).map Prod.fst = seenIds os := by
  rw [ofObservations_eq, List.map_map]
  exact List.map_id _

/-- A stat is looked up among the entries of a list of distinct stats. -/
theorem values_map {id : Text} (f : Text → List Binary64) : ∀ {ids : List Text},
    values (ids.map fun i => (i, f i)) id = if id ∈ ids then f id else []
  | [] => by simp [values]
  | other :: ids => by
      rw [List.map_cons, values]
      rcases eq_or_ne other id with rfl | hne
      · rw [if_pos rfl, if_pos List.mem_cons_self]
      · rw [if_neg hne, values_map f]
        simp [List.mem_cons, hne.symm]

theorem values_ofObservations {os : List Observation} {id : Text} (h : id ≠ []) :
    (ofObservations os).values id = valuesFor os id := by
  rw [ofObservations_eq, values_map]
  by_cases hseen : id ∈ seenIds os
  · rw [if_pos hseen]
  · rw [if_neg hseen, valuesFor_eq_nil h hseen]

/-- A stat has values in a grouping exactly when it is one of the observed stats. -/
theorem values_ne_nil_iff {os : List Observation} {id : Text} :
    (ofObservations os).values id ≠ [] ↔ id ∈ seenIds os := by
  rw [ofObservations_eq, values_map]
  constructor
  · intro h
    by_contra hseen
    exact h (if_neg hseen)
  · intro hseen
    rw [if_pos hseen]
    exact valuesFor_ne_nil hseen

theorem values_eq_nil {os : List Observation} {id : Text} (h : id ∉ seenIds os) :
    (ofObservations os).values id = [] := by
  by_contra hvalues
  exact h (values_ne_nil_iff.mp hvalues)

/-- The values of a stat in two lists, those of the first list before those of the second. -/
theorem values_append (os os' : List Observation) (id : Text) :
    (ofObservations (os ++ os')).values id =
      (ofObservations os).values id ++ (ofObservations os').values id := by
  rcases eq_or_ne id [] with rfl | hid
  · have hnone : ∀ os : List Observation, (ofObservations os).values [] = [] := fun os =>
      values_eq_nil fun h => (mem_seenIds.mp h).1 rfl
    rw [hnone, hnone, hnone, List.append_nil]
  · rw [values_ofObservations hid, values_ofObservations hid, values_ofObservations hid,
      valuesFor_append]

end Grouped

end GemScribe
