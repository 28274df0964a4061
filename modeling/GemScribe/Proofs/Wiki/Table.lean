import GemScribe.Proofs.Wiki.Keys

/-!
The table of wiki parameters.

Each value of a skill stands under a key of its own. The table says which under which, one line for each key that
every skill has, and one for each kind of key that depends on a place or a level. Nothing in it depends on the order
in which parameters are written; they are the pairs that the table has.
-/

namespace GemScribe.Wiki

variable {separator key : Text} {skill : Skill} {d d' : Datum}

/-- The value stands under the key. -/
inductive Stands (separator : Text) (skill : Skill) : Text → Datum → Prop
  | skillId : Stands separator skill "skill_id".toList (.text skill.skillId)
  | name : Stands separator skill "name".toList (.text skill.name)
  | metadataId : Stands separator skill "metadata_id".toList (ofText? skill.metadataId)
  | classId : Stands separator skill "class_id".toList (ofText? skill.classId)
  | sizeX : Stands separator skill "size_x".toList (ofWhole? skill.sizeX)
  | sizeY : Stands separator skill "size_y".toList (ofWhole? skill.sizeY)
  | gemTier : Stands separator skill "gem_tier".toList (ofWhole? skill.gemTier)
  | intelligencePercent :
      Stands separator skill "intelligence_percent".toList (.number (.whole skill.intelligencePercent))
  | strengthPercent : Stands separator skill "strength_percent".toList (.number (.whole skill.strengthPercent))
  | dexterityPercent : Stands separator skill "dexterity_percent".toList (.number (.whole skill.dexterityPercent))
  | gemDescription : Stands separator skill "gem_description".toList (.text skill.gemDescription)
  | itemClassRestriction :
      Stands separator skill "item_class_id_restriction".toList (.text skill.itemClassRestriction)
  | castTime : Stands separator skill "cast_time".toList (ofReal? skill.castTime)
  | staticCostTypes : Stands separator skill "static_cost_types".toList (ofText? skill.staticCostTypes)
  | staticCriticalStrikeChance :
      Stands separator skill "static_critical_strike_chance".toList (ofReal? skill.staticCriticalStrikeChance)
  | statText : Stands separator skill "stat_text".toList (.text (Link.unlink skill.statText))
  | staticStatText (h : skill.constantStatText ≠ []) :
      Stands separator skill "static_stat_text".toList (.text (Link.unlink skill.constantStatText))
  | qualityText {place : Nat} {stat : QualityStat} (h : skill.qualityStats[place]? = some stat) :
      Stands separator skill ("quality_type".toList ++ natText (place + 1) ++ "_stat_text".toList)
        (.text (Link.unlink stat.statText))
  | qualityId {place : Nat} {stat : QualityStat} (h : skill.qualityStats[place]? = some stat) :
      Stands separator skill ("quality_type".toList ++ natText (place + 1) ++ "_stat1_id".toList) (.text stat.statId)
  | level {row : GemLevel} (h : row ∈ skill.progression) :
      Stands separator skill ("level".toList ++ intText row.level) (.bool row.enabled)
  | levelRequirement {row : GemLevel} (h : row ∈ skill.progression) :
      Stands separator skill ("level".toList ++ intText row.level ++ "_level_requirement".toList)
        (.number (.whole row.levelRequirement))
  | costAmount {row : GemLevel} (h : row ∈ skill.progression) :
      Stands separator skill ("level".toList ++ intText row.level ++ "_cost_amounts".toList) (ofWhole? row.costAmount)
  | attributeRequirement {row : GemLevel} (h : row ∈ skill.progression) :
      Stands separator skill
        ("level".toList ++ intText row.level ++ '_' :: row.attributeName ++ "_requirement".toList)
        (.number (.whole row.attributeRequirement))
  | levelText {row : GemLevel} (h : row ∈ skill.progression) :
      Stands separator skill ("level".toList ++ intText row.level ++ "_stat_text".toList)
        (.text (Link.unlink (Text.join separator ([row.statText, row.additionalStatText].filter (!·.isEmpty)))))
  | statId {row : GemLevel} {place : Nat} {o : Observation} (h : row ∈ skill.progression)
      (ho : row.stats[place]? = some o) :
      Stands separator skill ("level".toList ++ intText row.level ++ "_stat".toList ++ natText (place + 1) ++
        "_id".toList) (.text o.id)
  | statValue {row : GemLevel} {place : Nat} {o : Observation} (h : row ∈ skill.progression)
      (ho : row.stats[place]? = some o) :
      Stands separator skill ("level".toList ++ intText row.level ++ "_stat".toList ++ natText (place + 1) ++
        "_value".toList) (.number (.real o.value))

/-! ### The table and the parameters -/

theorem stands_of_mem_staticParameters :
    ∀ p ∈ staticParameters skill, Stands separator skill p.1 p.2 := by
  simp only [staticParameters, List.forall_mem_cons]
  exact ⟨.skillId, .name, .metadataId, .classId, .sizeX, .sizeY, .gemTier, .intelligencePercent, .strengthPercent,
    .dexterityPercent, .gemDescription, .itemClassRestriction, .castTime, .staticCostTypes,
    .staticCriticalStrikeChance, .statText, List.forall_mem_nil _⟩

theorem stands_of_mem_constantParameters :
    ∀ p ∈ constantParameters skill, Stands separator skill p.1 p.2 := by
  rw [constantParameters]
  split
  · exact List.forall_mem_nil _
  · next h =>
    rw [List.forall_mem_singleton]
    exact .staticStatText fun hnil => h (List.isEmpty_iff.mpr hnil)

theorem stands_of_mem_writtenLevel {row : GemLevel} (hrow : row ∈ skill.progression) :
    ∀ p ∈ writtenLevel separator row, Stands separator skill p.1 p.2 := by
  rw [writtenLevel, levelParameters, List.forall_mem_append]
  constructor
  · simp only [List.forall_mem_cons]
    exact ⟨.level hrow, .levelRequirement hrow, .costAmount hrow, .attributeRequirement hrow, .levelText hrow,
      List.forall_mem_nil _⟩
  · intro p hp
    obtain ⟨ps, hps, hp⟩ := List.mem_flatten.mp hp
    obtain ⟨⟨o, place⟩, hentry, rfl⟩ := List.mem_map.mp hps
    have ho := List.mk_mem_zipIdx_iff_getElem?.mp hentry
    simp only [statParameters, List.mem_cons, List.not_mem_nil, or_false] at hp
    rcases hp with rfl | rfl
    · exact .statId hrow ho
    · exact .statValue hrow ho

/-- What is written stands in the table. -/
theorem stands_of_mem_parameters : ∀ p ∈ parameters separator skill, Stands separator skill p.1 p.2 := by
  rw [parameters, skillParameters, List.forall_mem_append, List.forall_mem_append, List.forall_mem_append]
  refine ⟨⟨⟨stands_of_mem_staticParameters, stands_of_mem_constantParameters⟩, ?_⟩, ?_⟩
  · intro p hp
    obtain ⟨ps, hps, hp⟩ := List.mem_flatten.mp hp
    obtain ⟨⟨stat, place⟩, hentry, rfl⟩ := List.mem_map.mp hps
    have hstat := List.mk_mem_zipIdx_iff_getElem?.mp hentry
    simp only [qualityParameters, List.mem_cons, List.not_mem_nil, or_false] at hp
    rcases hp with rfl | rfl
    · exact .qualityText hstat
    · exact .qualityId hstat
  · intro p hp
    obtain ⟨row, hrow, hp⟩ := List.mem_flatMap.mp hp
    exact stands_of_mem_writtenLevel hrow p hp

theorem mem_parameters_of_static {p : Parameter} (h : p ∈ staticParameters skill) :
    p ∈ parameters separator skill :=
  List.mem_append_left _ (List.mem_append_left _ (List.mem_append_left _ h))

theorem mem_parameters_of_quality {p : Parameter} {place : Nat} {stat : QualityStat}
    (h : skill.qualityStats[place]? = some stat) (hp : p ∈ qualityParameters stat place) :
    p ∈ parameters separator skill := by
  refine List.mem_append_left _ (List.mem_append_right _ (List.mem_flatten.mpr ⟨_, List.mem_map.mpr
    ⟨(stat, place), List.mk_mem_zipIdx_iff_getElem?.mpr h, rfl⟩, hp⟩))

theorem mem_parameters_of_level {p : Parameter} {row : GemLevel} (h : row ∈ skill.progression)
    (hp : p ∈ writtenLevel separator row) : p ∈ parameters separator skill :=
  List.mem_append_right _ (List.mem_flatMap.mpr ⟨row, h, hp⟩)

theorem mem_writtenLevel_of_stat {p : Parameter} {row : GemLevel} {place : Nat} {o : Observation}
    (h : row.stats[place]? = some o) (hp : p ∈ statParameters ("level".toList ++ intText row.level) o place) :
    p ∈ writtenLevel separator row :=
  List.mem_append_right _ (List.mem_flatten.mpr ⟨_, List.mem_map.mpr
    ⟨(o, place), List.mk_mem_zipIdx_iff_getElem?.mpr h, rfl⟩, hp⟩)

/-- What stands in the table is written. -/
theorem mem_parameters_of_stands (h : Stands separator skill key d) : (key, d) ∈ parameters separator skill := by
  cases h with
  | staticStatText h =>
    refine List.mem_append_left _ (List.mem_append_left _ (List.mem_append_right _ ?_))
    rw [constantParameters, if_neg (by simpa using h)]
    exact List.mem_singleton_self _
  | qualityText h => exact mem_parameters_of_quality h List.mem_cons_self
  | qualityId h => exact mem_parameters_of_quality h (List.mem_cons_of_mem _ List.mem_cons_self)
  | level h => exact mem_parameters_of_level h (List.mem_append_left _ (by simp))
  | levelRequirement h => exact mem_parameters_of_level h (List.mem_append_left _ (by simp))
  | costAmount h => exact mem_parameters_of_level h (List.mem_append_left _ (by simp))
  | attributeRequirement h => exact mem_parameters_of_level h (List.mem_append_left _ (by simp))
  | levelText h => exact mem_parameters_of_level h (List.mem_append_left _ (by simp [unlinked, Wiki.levelText]))
  | statId h ho => exact mem_parameters_of_level h (mem_writtenLevel_of_stat ho List.mem_cons_self)
  | statValue h ho =>
    exact mem_parameters_of_level h (mem_writtenLevel_of_stat ho (List.mem_cons_of_mem _ List.mem_cons_self))
  | _ => exact mem_parameters_of_static (by simp [staticParameters, unlinked])

/-- The parameters are the pairs of the table. -/
theorem mem_parameters_iff {p : Parameter} : p ∈ parameters separator skill ↔ Stands separator skill p.1 p.2 :=
  ⟨stands_of_mem_parameters p, mem_parameters_of_stands⟩

/-- Under each key that is written there stands one value. -/
theorem existsUnique_stands (hkeys : (keys skill).Nodup) (h : key ∈ keys skill) :
    ∃! d, Stands separator skill key d := by
  have hfst := map_fst_parameters separator skill
  rw [← hfst] at h hkeys
  obtain ⟨⟨_, d⟩, hp, rfl⟩ := List.mem_map.mp h
  refine ⟨d, mem_parameters_iff.mp hp, fun d' hd' => ?_⟩
  exact (Prod.mk.inj (List.inj_on_of_nodup_map hkeys (mem_parameters_of_stands hd') hp rfl)).2

end GemScribe.Wiki
