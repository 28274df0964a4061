import GemScribe.Proofs.Gem.StatSet

/-!
Which value a stat is given.

References and values are paired by their places. A reference without an id is left out together with the
value at its place, so that it does not matter for a later reference how many before it were left out. The
observations of a row therefore go, one by one, with its references that have an id; each has the id of its
reference and the number at the same place.
-/

namespace GemScribe

/-- A list, or null for nothing. -/
def Datum.ofList? (o : Option (List Datum)) : Datum :=
  o.elim .null .list

theorem Datum.orElse_list (ds : List Datum) : (list ds).orElse (list []) = list ds := by
  cases ds <;> rfl

theorem Datum.orElse_ofList? (o : Option (List Datum)) :
    (ofList? o).orElse (list []) = list (o.getD []) := by
  cases o with
  | none => rfl
  | some ds => exact orElse_list ds

namespace Observation

variable {values values' : Datum} {place : Nat} {refs : List Datum} {os : List Observation}

/-! ### References and values -/

/-- A value stands for a number: null for zero, and other data for the number that is read from them. -/
def Stands : Datum → Binary64 → Prop
  | .null, x => x = .zero false
  | d, x => d.asReal = .fits x

/-- The references with an id, as the id and the place, when the first reference is at `place`. -/
def slots (place : Nat) (refs : List Datum) : List (Text × Nat) :=
  (refs.zipIdx place).filterMap fun entry => entry.1.refId.map fun id => (id, entry.2)

/-- What is noted of the references without an id, when the first reference is at `place`. -/
def leftOut (place : Nat) (refs : List Datum) : List Event :=
  ((refs.zipIdx place).filter fun entry => entry.1.refId.isNone).map fun entry =>
    .invalidReference entry.2 entry.1

section

variable {ref : Datum} {id : Text}

theorem slots_cons_of_none (h : ref.refId = none) :
    slots place (ref :: refs) = slots (place + 1) refs := by
  rw [slots, List.zipIdx_cons, List.filterMap_cons_none (by rw [h]; rfl), slots]

theorem slots_cons_of_some (h : ref.refId = some id) :
    slots place (ref :: refs) = (id, place) :: slots (place + 1) refs := by
  rw [slots, List.zipIdx_cons, List.filterMap_cons_some (by rw [h]; rfl), slots]

theorem leftOut_cons_of_none (h : ref.refId = none) :
    leftOut place (ref :: refs) = .invalidReference place ref :: leftOut (place + 1) refs := by
  rw [leftOut, List.zipIdx_cons, List.filter_cons_of_pos (by simp [h]), List.map_cons, leftOut]

theorem leftOut_cons_of_some (h : ref.refId = some id) :
    leftOut place (ref :: refs) = leftOut (place + 1) refs := by
  rw [leftOut, List.zipIdx_cons, List.filter_cons_of_neg (by simp [h]), leftOut]

end

theorem map_fst_slots : ∀ (place : Nat) (refs : List Datum),
    (slots place refs).map Prod.fst = refs.filterMap Datum.refId
  | _, [] => rfl
  | place, ref :: refs => by
      cases h : ref.refId with
      | none => rw [slots_cons_of_none h, List.filterMap_cons_none h, map_fst_slots]
      | some id => rw [slots_cons_of_some h, List.filterMap_cons_some h, List.map_cons, map_fst_slots]

/-- The places of slots are places of references. -/
theorem lt_of_mem_slots {slot : Text × Nat} (h : slot ∈ slots place refs) :
    slot.2 < place + refs.length := by
  obtain ⟨⟨ref, i⟩, hentry, hslot⟩ := List.mem_filterMap.mp h
  obtain ⟨id, -, rfl⟩ := Option.map_eq_some_iff.mp hslot
  exact (List.mem_zipIdx hentry).2.1

/-! ### Pairing -/

theorem valueAt_eq_ok {x : Binary64} :
    valueAt values place = .ok x ↔ ∃ d, values.itemAt place = .ok d ∧ Stands d x := by
  rw [valueAt]
  cases values.itemAt place with
  | error fault =>
    constructor
    · intro h
      cases h
    · rintro ⟨d, h, -⟩
      cases h
  | ok d =>
    simp only [Except.ok.injEq, exists_eq_left']
    cases d with
    | null => exact ⟨fun h => (Except.ok.inj h).symm, fun h => congrArg Except.ok h.symm⟩
    | _ => exact Fault.ofReading_eq_ok.trans Reading.under_eq_fits

/-- The observations go with the slots, each with the id and the value of its own slot. -/
theorem pairFrom_eq_ok : ∀ {place : Nat} {refs : List Datum} {os : List Observation},
    (pairFrom values place refs).outcome = .ok os ↔
      List.Forall₂ (fun slot o => o.id = slot.1 ∧ valueAt values slot.2 = .ok o.value)
        (slots place refs) os
  | _, [], os => by
      rw [pairFrom, slots, List.zipIdx_nil, List.filterMap_nil, List.forall₂_nil_left_iff]
      exact ⟨fun h => (Except.ok.inj h).symm, fun h => congrArg Except.ok h.symm⟩
  | place, ref :: refs, os => by
      rw [pairFrom]
      cases h : ref.refId with
      | none =>
        rw [slots_cons_of_none h, ← pairFrom_eq_ok]
        exact Iff.rfl
      | some id =>
        rw [slots_cons_of_some h, List.forall₂_cons_left_iff, Journal.outcome_bind_eq_ok]
        constructor
        · rintro ⟨x, hx, hrest⟩
          obtain ⟨rest, hrest, heq⟩ := Journal.outcome_bind_eq_ok.mp hrest
          exact ⟨⟨id, x⟩, rest, ⟨rfl, hx⟩, pairFrom_eq_ok.mp hrest, (Except.ok.inj heq).symm⟩
        · rintro ⟨⟨_, x⟩, rest, ⟨rfl, hx⟩, hrest, rfl⟩
          exact ⟨x, hx, Journal.outcome_bind_eq_ok.mpr ⟨rest, pairFrom_eq_ok.mpr hrest, rfl⟩⟩

/-- Pairing that returns has noted each reference without an id once. -/
theorem events_pairFrom : ∀ {place : Nat} {refs : List Datum} {os : List Observation},
    (pairFrom values place refs).outcome = .ok os →
      (pairFrom values place refs).events = leftOut place refs
  | _, [], _, _ => rfl
  | place, ref :: refs, os, hos => by
      rw [pairFrom] at hos ⊢
      cases h : ref.refId with
      | none =>
        simp only [h] at hos ⊢
        have hnote : (Journal.note (.invalidReference place ref)).outcome = .ok () := rfl
        rw [Journal.outcome_bind_of_ok hnote] at hos
        rw [leftOut_cons_of_none h, Journal.andThen_ok hnote, events_pairFrom hos]
        rfl
      | some id =>
        simp only [h] at hos ⊢
        obtain ⟨x, hx, hos⟩ := Journal.outcome_bind_eq_ok.mp hos
        obtain ⟨rest, hrest, -⟩ := Journal.outcome_bind_eq_ok.mp hos
        rw [leftOut_cons_of_some h, Journal.andThen_ok hx, Journal.andThen_ok hrest, events_pairFrom hrest]
        exact List.append_nil _

/-- Values that are alike at the places of slots are paired alike, whatever they are at other places. -/
theorem pairFrom_congr : ∀ {place : Nat} {refs : List Datum},
    (∀ slot ∈ slots place refs, valueAt values slot.2 = valueAt values' slot.2) →
      pairFrom values place refs = pairFrom values' place refs
  | _, [], _ => rfl
  | place, ref :: refs, hsame => by
      rw [pairFrom, pairFrom]
      cases h : ref.refId with
      | none =>
        rw [slots_cons_of_none h] at hsame
        rw [pairFrom_congr hsame]
      | some id =>
        rw [slots_cons_of_some h, List.forall_mem_cons] at hsame
        simp only [hsame.1, pairFrom_congr hsame.2]

/-! ### References and values as data -/

/-- Observations that go, one by one, with the references that have an id. Each has the id of its reference,
and its value stands at the same place. -/
def Paired (refs values : Datum) (os : List Observation) : Prop :=
  ∃ ds, (refs.orElse (.list [])).items = .ok ds ∧
    List.Forall₂ (fun slot o => o.id = slot.1 ∧
      ∃ d, (values.orElse (.list [])).itemAt slot.2 = .ok d ∧ Stands d o.value) (slots 0 ds) os

theorem ofReferences_eq_ok {refs : Datum} :
    (ofReferences refs values).outcome = .ok os ↔ Paired refs values os := by
  rw [ofReferences, Journal.outcome_bind_eq_ok, Paired]
  refine exists_congr fun ds => and_congr Iff.rfl ?_
  rw [pairFrom_eq_ok]
  simp only [valueAt_eq_ok]

end Observation

namespace Progression

variable {row : Row} {floats additional : List Observation}

/-- The stats of a row are each paired with the values of their own column. -/
theorem rowStats_eq_ok : (rowStats row).outcome = .ok (floats, additional) ↔
    Observation.Paired (row.get "FloatStats")
        ((row.get "BaseResolvedValues").orElse (row.get "FloatStatsValues")) floats ∧
      Observation.Paired (row.get "AdditionalStats") (row.get "AdditionalStatsValues") additional := by
  rw [← Observation.ofReferences_eq_ok, ← Observation.ofReferences_eq_ok, rowStats,
    Journal.outcome_bind_eq_ok]
  simp only [Journal.outcome_bind_eq_ok]
  constructor
  · rintro ⟨os, hos, os', hos', h⟩
    obtain ⟨rfl, rfl⟩ := Prod.mk.inj (Except.ok.inj h)
    exact ⟨hos, hos'⟩
  · rintro ⟨hos, hos'⟩
    exact ⟨floats, hos, additional, hos', rfl⟩

end Progression

theorem Constant.statsOf_eq_ok {statSet : Option Row} {os : List Observation} :
    (statsOf statSet).outcome = .ok os ↔
      statSet.elim (os = []) fun row =>
        Observation.Paired (row.get "ConstantStats") (row.get "ConstantStatsValues") os := by
  cases statSet with
  | none => exact ⟨fun h => (Except.ok.inj h).symm, fun h => congrArg Except.ok h.symm⟩
  | some row => exact Observation.ofReferences_eq_ok

/-! ### Lists of references and values -/

namespace Observation

variable {refs values : Option (List Datum)} {os : List Observation}

theorem ofReferences_ofList? (refs : Option (List Datum)) (values : Datum) :
    ofReferences (.ofList? refs) values = pairFrom (values.orElse (.list [])) 0 (refs.getD []) := by
  rw [ofReferences, Datum.orElse_ofList?]
  rfl

/-- The number of an observation stands at the place of its reference, and there is zero for a value that is
null or missing. -/
theorem ofReferences_ofList?_eq_ok :
    (ofReferences (.ofList? refs) (.ofList? values)).outcome = .ok os ↔
      List.Forall₂ (fun slot o => o.id = slot.1 ∧ Stands ((values.getD [])[slot.2]?.getD .null) o.value)
        (slots 0 (refs.getD [])) os := by
  rw [ofReferences_ofList?, Datum.orElse_ofList?, pairFrom_eq_ok]
  simp only [valueAt_eq_ok, Datum.itemAt, Except.ok.injEq, exists_eq_left']

theorem map_id_ofReferences (h : (ofReferences (.ofList? refs) (.ofList? values)).outcome = .ok os) :
    os.map Observation.id = (refs.getD []).filterMap Datum.refId := by
  have hids : List.Forall₂ (fun slot o => slot.1 = o.id) (slots 0 (refs.getD [])) os :=
    (ofReferences_ofList?_eq_ok.mp h).imp fun _ _ hslot => hslot.1.symm
  rw [← List.forall₂_map_right_iff, ← List.forall₂_map_left_iff (f := Prod.fst)] at hids
  rw [← map_fst_slots 0, List.forall₂_eq_eq_eq.le _ _ hids]

theorem events_ofReferences (h : (ofReferences (.ofList? refs) (.ofList? values)).outcome = .ok os) :
    (ofReferences (.ofList? refs) (.ofList? values)).events = leftOut 0 (refs.getD []) := by
  rw [ofReferences_ofList?] at h ⊢
  exact events_pairFrom h

/-- Values beyond the last reference do not matter. -/
theorem ofReferences_take (refs values : Option (List Datum)) :
    ofReferences (.ofList? refs) (.list ((values.getD []).take (refs.getD []).length)) =
      ofReferences (.ofList? refs) (.ofList? values) := by
  rw [ofReferences_ofList?, ofReferences_ofList?, Datum.orElse_list, Datum.orElse_ofList?]
  refine pairFrom_congr fun slot hslot => ?_
  have hlt : slot.2 < (refs.getD []).length := by
    simpa using lt_of_mem_slots hslot
  rw [valueAt, valueAt, Datum.itemAt, Datum.itemAt, List.getElem?_take_of_lt hlt]

/-- References without an id are noted, each once and with its place, and have no other effect: the
observations are those of the references with an id, in their order, and each has the value at the place of
its own reference. Values beyond the references are ignored. So neither the stats of a level nor the constant
stats have a value that was given for another stat. -/
theorem ofReferences_keeps_values (refs values : Option (List Datum)) :
    (∀ os, (ofReferences (.ofList? refs) (.ofList? values)).outcome = .ok os ↔
      List.Forall₂ (fun slot o => o.id = slot.1 ∧
        Stands ((values.getD [])[slot.2]?.getD .null) o.value) (slots 0 (refs.getD [])) os) ∧
    (∀ os, (ofReferences (.ofList? refs) (.ofList? values)).outcome = .ok os →
      os.map Observation.id = (refs.getD []).filterMap Datum.refId ∧
      (ofReferences (.ofList? refs) (.ofList? values)).events = leftOut 0 (refs.getD []) ∧
      ∀ e ∈ leftOut 0 (refs.getD []), e.level = .warning) ∧
    ofReferences (.ofList? refs) (.list ((values.getD []).take (refs.getD []).length)) =
      ofReferences (.ofList? refs) (.ofList? values) ∧
    (∀ row floats additional, (Progression.rowStats row).outcome = .ok (floats, additional) →
      Paired (row.get "FloatStats")
          ((row.get "BaseResolvedValues").orElse (row.get "FloatStatsValues")) floats ∧
        Paired (row.get "AdditionalStats") (row.get "AdditionalStatsValues") additional) ∧
    ∀ dataset row blocks settings skill,
      (Constant.record dataset row blocks settings).outcome = .ok skill →
        ∃ effect, dataset.findGrantedEffect (Skill.soughtId row) = some effect ∧
          (dataset.findStatSet effect).elim (skill.constantStats = []) fun statSet =>
            Paired (statSet.get "ConstantStats") (statSet.get "ConstantStatsValues")
              skill.constantStats := by
  refine ⟨fun os => ofReferences_ofList?_eq_ok, fun os h => ⟨map_id_ofReferences h,
    events_ofReferences h, fun e he => ?_⟩, ofReferences_take refs values,
    fun row floats additional => Progression.rowStats_eq_ok.mp,
    fun dataset row blocks settings skill h => ?_⟩
  · obtain ⟨_, -, rfl⟩ := List.mem_map.mp he
    rfl
  · obtain ⟨effect, id, hfound, -, hstats⟩ := Constant.exists_effect_of_record h
    rw [Constant.stats_eq_statsOf] at hstats
    exact ⟨effect, hfound, Constant.statsOf_eq_ok.mp hstats⟩

/-- References of which the first and the third have no id. -/
def patchyRefs : List Datum :=
  [.null, .ref "b".toList, .ref [], .ref "a".toList, .ref "c".toList]

/-- A value for each reference but the last; the second is null. -/
def patchyValues : List Datum :=
  [.number (.whole 1), .null, .number (.whole 3), .number (.whole 4)]

/-- A level whose float stats are these. -/
def patchyRow : Row :=
  [("FloatStats".toList, .list patchyRefs), ("FloatStatsValues".toList, .list patchyValues)]

/-- The places of the references without an id are noted, and the value 4 stays with its own reference. -/
theorem ofReferences_patchy :
    ∃ os, os = [⟨"b".toList, .zero false⟩, ⟨"a".toList, .ofInt 4⟩, ⟨"c".toList, .zero false⟩] ∧
      (ofReferences (.list patchyRefs) (.list patchyValues)).outcome = .ok os ∧
      (ofReferences (.list patchyRefs) (.list patchyValues)).events =
        [.invalidReference 0 .null, .invalidReference 2 (.ref [])] ∧
      (Progression.rowStats patchyRow).outcome = .ok (os, []) ∧
      Paired (.list patchyRefs) (.list patchyValues) os ∧
      ∃ skill, (Constant.record
          (Constant.damageTables (Skill.effectOf "Spark".toList "SparkPlayer".toList)) Skill.spark
          Constant.toDamageBlocks Settings.standard).outcome = .ok skill ∧
        Paired (.list [.ref "damage".toList]) (.list [.number (.whole 7)]) skill.constantStats := by
  obtain ⟨-, hreturned, -, hrow, hconstant⟩ :=
    ofReferences_keeps_values (some patchyRefs) (some patchyValues)
  refine ⟨_, rfl, rfl, (hreturned _ rfl).2.1, rfl, (hrow patchyRow _ _ rfl).1, _, rfl, ?_⟩
  obtain ⟨effect, hfound, hstats⟩ := hconstant
    (Constant.damageTables (Skill.effectOf "Spark".toList "SparkPlayer".toList)) Skill.spark
    Constant.toDamageBlocks Settings.standard _ rfl
  obtain rfl := Option.some.inj hfound
  exact hstats

end Observation

end GemScribe
