import GemScribe.Proofs.Gem.Constant
import GemScribe.Proofs.Gem.Extension

/-!
The stat set of an effect.

The constant stats and the levels of a skill belong to the same stat set: that to which the effect refers, or
else that which has the id of the effect. An effect may have neither. No levels are then searched for, but a
stat set is, and the first one that has no id itself is taken for the effect's. Everywhere else the two
searches go by the same text.
-/

namespace GemScribe

namespace Datum

/-- Nothing is given. -/
def isNull : Datum → Bool
  | null => true
  | _ => false

theorem same_null (d : Datum) : d.same .null = d.isNull := by
  cases d <;> simp [same, sameItem, isNan, isNull, toQuantity?]

theorem toText?_ofText? (o : Option Text) : (ofText? o).toText? = o := by
  cases o <;> rfl

theorem exists_of_asOptional_asText {d : Datum} (h : (asOptional asText d).Fits) :
    ∃ o, d = .ofText? o := by
  obtain ⟨o, ho⟩ := h
  cases d with
  | null => exact ⟨none, rfl⟩
  | text t => exact ⟨some t, rfl⟩
  | _ => cases ho

end Datum

/-! ### The key -/

namespace Dataset

variable {dataset : Dataset} {effect : Row} {key : Option Text}

/-- The key by which rows belong to an effect: the id of the stat set that it refers to, or else its own. -/
def statSetKey (effect : Row) : Option Text :=
  (effect.get "StatSet").refId.or (effect.get "Id").toText?

/-- The rows that carry a key. Without a key there are none. -/
def carrying (keyOf : Row → Option Text) (rows : List Row) : Option Text → List Row
  | none => []
  | some key => rows.filter fun row => keyOf row = some key

/-- The stat sets with a key. -/
def statSetsOf (dataset : Dataset) : Option Text → List Row :=
  carrying (fun row => (row.get "Id").toText?) (dataset.rows grantedEffectStatSets)

/-- The levels with a key. -/
def levelRowsOf (dataset : Dataset) : Option Text → List Row :=
  carrying (fun row => (row.get "StatSet").refId) (dataset.rows grantedEffectStatSetsPerLevel)

/-- The stat sets that have no id. -/
def namelessStatSets (dataset : Dataset) : List Row :=
  (dataset.rows grantedEffectStatSets).filter fun row => (row.get "Id").isNull

theorem statSetId_eq {id : Option Text} (hid : effect.get "Id" = .ofText? id) :
    statSetId effect = .ofText? (statSetKey effect) := by
  rw [statSetId, statSetKey, hid, Datum.toText?_ofText?]
  cases (effect.get "StatSet").refId <;> rfl

theorem rowsReferencing_ofText? (table : Text) (column : String) (key : Option Text) :
    dataset.rowsReferencing table column (.ofText? key) =
      carrying (fun row => (row.get column).refId) (dataset.rows table) key := by
  cases key with
  | none => rfl
  | some id => exact List.filter_congr fun row _ => target_same_text (row.get column) id

/-- The search for a stat set goes by the key, and without a key by the lack of an id. -/
theorem findStatSet_eq (h : statSetId effect = .ofText? key) : dataset.findStatSet effect =
    if key = none then dataset.namelessStatSets.head? else (dataset.statSetsOf key).head? := by
  rw [findStatSet, h, ← List.head?_filter]
  cases key with
  | none =>
    rw [if_pos rfl, namelessStatSets]
    exact congrArg _ (List.filter_congr fun row _ => Datum.same_null (row.get "Id"))
  | some id =>
    rw [if_neg (Option.some_ne_none id)]
    exact congrArg _ (List.filter_congr fun row _ => Datum.same_text (row.get "Id") id)

end Dataset

/-! ### The constant part -/

namespace Constant

variable {dataset : Dataset} {row effect : Row} {blocks : List Block} {settings : Settings} {skill : Skill}

/-- The observations of a stat set; none without a stat set. -/
def statsOf : Option Row → Journal (List Observation)
  | some row => Observation.ofReferences (row.get "ConstantStats") (row.get "ConstantStatsValues")
  | none => pure []

theorem stats_eq_statsOf : stats dataset effect = statsOf (dataset.findStatSet effect) := by
  rw [stats]
  cases dataset.findStatSet effect <;> rfl

/-- An id that is read back as that of the effect is a text, or nothing. -/
theorem exists_ofText?_of_fits {skill name id : Datum} {item gem : Option Row}
    (h : (Skill.read (.record ([("skill_id".toList, skill), ("name".toList, name)] ++
      (item.map baseItemFields).getD [] ++ (gem.map gemFields).getD [] ++
      [("granted_effect_id".toList, id)]))).Fits) : ∃ o, id = .ofText? o := by
  -- ten fields of the record are read after this one
  have hread :=
    h.function.function.function.function.function.function.function.function.function.function.argument
  have hfield : Row.find? ([("skill_id".toList, skill), ("name".toList, name)] ++
      (item.map baseItemFields).getD [] ++ (gem.map gemFields).getD [] ++
      [("granted_effect_id".toList, id)]) "granted_effect_id".toList = some id := by
    cases item <;> cases gem <;> rfl
  rw [Row.withDefault, hfield] at hread
  obtain ⟨o, ho⟩ := hread
  exact Datum.exists_of_asOptional_asText ⟨o, Reading.under_eq_fits.mp ho⟩

/-- Where a constant part that returns has its stats from. -/
theorem exists_effect_of_record (h : (record dataset row blocks settings).outcome = .ok skill) :
    ∃ effect id, dataset.findGrantedEffect (Skill.soughtId row) = some effect ∧
      effect.get "Id" = .ofText? id ∧ (stats dataset effect).outcome = .ok skill.constantStats := by
  rw [record] at h
  obtain ⟨item, -, h⟩ := Journal.outcome_bind_eq_ok.mp h
  have h := Journal.outcome_ite_bind.symm.trans h
  rw [Skill.soughtId]
  cases hfound : dataset.findGrantedEffect ((row.get "Id").orElse (.text [])) with
  | none =>
    rw [hfound] at h
    cases h
  | some effect =>
    simp only [hfound] at h
    obtain ⟨seconds, -, h⟩ := Journal.outcome_bind_eq_ok.mp h
    obtain ⟨cost, -, h⟩ := Journal.outcome_bind_eq_ok.mp h
    obtain ⟨os, hos, h⟩ := Journal.outcome_bind_eq_ok.mp h
    obtain ⟨text, h⟩ := Journal.exists_of_ite_bind h
    obtain ⟨qualityStats, -, h⟩ := Journal.outcome_bind_eq_ok.mp h
    obtain ⟨given, hgiven, h⟩ := Journal.outcome_bind_eq_ok.mp h
    obtain rfl := Except.ok.inj h
    obtain ⟨id, hid⟩ := exists_ofText?_of_fits ⟨given, Fault.ofReading_eq_ok.mp hgiven⟩
    exact ⟨effect, id, rfl, hid, hos⟩

end Constant

/-! ### The levels -/

namespace Progression

variable {dataset : Dataset} {row effect : Row} {blocks : List Block} {settings : Settings}
  {given whole : Skill}

/-- The levels that level rows make; without level rows nothing is added to those there are. -/
def Extends (given : Skill) (levelRows costRows : List Row) (blocks : List Block) (settings : Settings)
    (levels : List GemLevel) : Prop :=
  if levelRows = [] then levels = given.progression
  else (ofRows given (levelRows.map .record) (costRows.map .record) blocks settings).outcome = .ok levels

theorem extends_of_extend (hfound : dataset.findGrantedEffect (Skill.soughtId row) = some effect)
    (h : (extend dataset row given blocks settings).outcome = .ok whole) :
    Extends given
      (dataset.rowsReferencing Dataset.grantedEffectStatSetsPerLevel "StatSet" (Dataset.statSetId effect))
      (dataset.rowsReferencing Dataset.grantedEffectsPerLevel "GrantedEffect" (effect.get "Id"))
      blocks settings whole.progression := by
  obtain ⟨id, words, classes, -, -, -, hlevels⟩ := exists_of_extend h
  simp only [levelRowsFor, costRowsFor, hfound] at hlevels
  rw [Extends]
  cases hrows : dataset.rowsReferencing Dataset.grantedEffectStatSetsPerLevel "StatSet"
    (Dataset.statSetId effect) with
  | nil =>
    simp only [hrows] at hlevels
    rw [if_pos rfl, hlevels]
    rfl
  | cons first rest =>
    simp only [hrows] at hlevels
    rw [if_neg (List.cons_ne_nil first rest)]
    -- the texts with which the record is extended before its levels are read leave the shares alone
    exact ofRows_of_shares (of_withLevels hlevels).2 rfl

end Progression

namespace Constant

variable {dataset : Dataset} {row : Row} {blocks : List Block} {settings : Settings} {skill : Skill}

/-- The levels of an effect are those with its key. Its constant stats are those of the first stat set with
the key exactly when there is a key, or no stats in the first stat set without an id: without a key that stat
set is the one that is found. -/
theorem record_joined (h : (record dataset row blocks settings).outcome = .ok skill) :
    ∃ effect, dataset.findGrantedEffect (Skill.soughtId row) = some effect ∧
      ((statsOf (dataset.statSetsOf (Dataset.statSetKey effect)).head?).outcome =
          .ok skill.constantStats ↔
        Dataset.statSetKey effect ≠ none ∨
          (statsOf dataset.namelessStatSets.head?).outcome = .ok []) ∧
      ∀ given whole, (Progression.extend dataset row given blocks settings).outcome = .ok whole →
        Progression.Extends given (dataset.levelRowsOf (Dataset.statSetKey effect))
          (dataset.rowsReferencing Dataset.grantedEffectsPerLevel "GrantedEffect" (effect.get "Id"))
          blocks settings whole.progression := by
  obtain ⟨effect, id, hfound, hid, hstats⟩ := exists_effect_of_record h
  have hkey := Dataset.statSetId_eq hid
  refine ⟨effect, hfound, ?_, fun given whole hwhole => ?_⟩
  · rw [stats_eq_statsOf, Dataset.findStatSet_eq hkey] at hstats
    by_cases hnone : Dataset.statSetKey effect = none
    · rw [if_pos hnone] at hstats
      rw [hnone, hstats]
      constructor
      · exact fun hempty => Or.inr hempty.symm
      · rintro (hkeyed | hempty)
        · exact absurd rfl hkeyed
        · exact hempty.symm
    · rw [if_neg hnone] at hstats
      exact iff_of_true hstats (Or.inl hnone)
  · have hextends := Progression.extends_of_extend hfound hwhole
    rwa [hkey, Dataset.rowsReferencing_ofText?] at hextends

/-- A stat set with one stat, and without an id. -/
def damageSet (amount : Int) : Row :=
  [("ConstantStats".toList, .list [.ref "damage".toList]),
    ("ConstantStatsValues".toList, .list [.number (.whole amount)])]

def toDamageBlocks : List Block :=
  [⟨"damage".toList, none, ["\x7b0\x7d to Damage".toList]⟩]

/-- Tables with one effect, which grants the skill, and two stat sets, of which the first has no id. -/
def damageTables (effect : Row) : Dataset :=
  ⟨[], [(Dataset.grantedEffects, [effect]),
    (Dataset.grantedEffectStatSets,
      [damageSet 5, ("Id".toList, .text "SparkPlayer".toList) :: damageSet 7])]⟩

theorem record_damageTables :
    ∃ skill, (record (damageTables (Skill.effectOf "Spark".toList "SparkPlayer".toList)) Skill.spark
        toDamageBlocks Settings.standard).outcome = .ok skill ∧
      skill.constantStats = [⟨"damage".toList, .ofInt 7⟩] := by
  obtain ⟨skill, hskill⟩ : ∃ skill, (record (damageTables (Skill.effectOf "Spark".toList
      "SparkPlayer".toList)) Skill.spark toDamageBlocks Settings.standard).outcome = .ok skill :=
    ⟨_, rfl⟩
  obtain ⟨effect, hfound, hstats, -⟩ := record_joined hskill
  obtain rfl : Skill.effectOf "Spark".toList "SparkPlayer".toList = effect := Option.some.inj hfound
  have hjoined := hstats.mpr (Or.inl (by decide))
  exact ⟨skill, hskill, (Except.ok.inj hjoined).symm⟩

/-- An effect that has neither an id nor a reference to a stat set. -/
def namelessEffect : Row :=
  [("ActiveSkill".toList, .ref "Spark".toList)]

/-- It is given the stats of the stat set without an id. -/
theorem record_namelessEffect :
    Dataset.statSetKey namelessEffect = none ∧
    (damageTables namelessEffect).findGrantedEffect (Skill.soughtId Skill.spark) = some namelessEffect ∧
    ∃ skill, (record (damageTables namelessEffect) Skill.spark toDamageBlocks
        Settings.standard).outcome = .ok skill ∧
      skill.constantStats = [⟨"damage".toList, .ofInt 5⟩] :=
  ⟨rfl, rfl, _, rfl, rfl⟩

end Constant

end GemScribe
