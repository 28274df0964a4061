import GemScribe.Gem.Export
import GemScribe.Proofs.Outcome

/-!
Rows of other skills.

An export searches each of its tables for one key: the skill's own id or name, or an id in a row that an
earlier search has found. A row without that key is not found wherever it stands, so that every search
finds the rows it would find without it, in the same order, and the searches after it have the same
keys. Tables into which such rows are put are therefore exported alike, event by event.
-/

namespace GemScribe

/-! ### Lists with items put in -/

/-- The second list is the first one with items put in, each of which has the property. -/
inductive Inserted {α : Type} (p : α → Prop) : List α → List α → Prop where
  | nil : Inserted p [] []
  | keep {a : α} {as bs : List α} : Inserted p as bs → Inserted p (a :: as) (a :: bs)
  | insert {b : α} {as bs : List α} : p b → Inserted p as bs → Inserted p as (b :: bs)

namespace Inserted

variable {α : Type} {p : α → Prop} {q : α → Bool} {as bs : List α}

theorem refl (p : α → Prop) : ∀ as : List α, Inserted p as as
  | [] => .nil
  | _ :: as => .keep (refl p as)

theorem filter_eq (h : Inserted p as bs) (hp : ∀ a, q a → ¬p a) : bs.filter q = as.filter q := by
  induction h with
  | nil => rfl
  | keep _ ih => rw [List.filter_cons, List.filter_cons, ih]
  | insert hb _ ih => rw [List.filter_cons_of_neg fun hq => hp _ hq hb, ih]

/-- A search does not find what was put in without being looked for. -/
theorem find?_eq (h : Inserted p as bs) (hp : ∀ a, q a → ¬p a) : bs.find? q = as.find? q := by
  rw [← List.head?_filter, ← List.head?_filter, h.filter_eq hp]

end Inserted

namespace Skill

/-! ### The keys of an export -/

/-- The id by which the effect of a skill is searched for. -/
def soughtId (skill : Row) : Datum :=
  (skill.get "Id").orElse (.text [])

/-- The name by which the base item of a skill is searched for. -/
def soughtName (skill : Row) : Datum :=
  (skill.get "DisplayedName").orElse (.text [])

/-- The row carries the key by which the export of the skill searches the table. The tables that an export
does not search have no such rows. -/
inductive Sought (dataset : Dataset) (skill : Row) : Text → Row → Prop where
  | baseItem {row : Row} {name : Text} (hname : soughtName skill = .text name)
      (h : Dataset.isNamed (Text.lower name) row) : Sought dataset skill Dataset.baseItemTypes row
  | gem {row item : Row} (hitem : dataset.findBaseItem (soughtName skill) = .ok (some item))
      (hid : item.get "Id" ≠ .null)
      (h : (Dataset.target (row.get "BaseItemType")).same (item.get "Id")) :
      Sought dataset skill Dataset.skillGems row
  | effect {row : Row} (h : (Dataset.target (row.get "ActiveSkill")).same (soughtId skill)) :
      Sought dataset skill Dataset.grantedEffects row
  | statSet {row effect : Row} (heffect : dataset.findGrantedEffect (soughtId skill) = some effect)
      (h : (row.get "Id").same (Dataset.statSetId effect)) :
      Sought dataset skill Dataset.grantedEffectStatSets row
  | level {row effect : Row} (heffect : dataset.findGrantedEffect (soughtId skill) = some effect)
      (hid : Dataset.statSetId effect ≠ .null)
      (h : (Dataset.target (row.get "StatSet")).same (Dataset.statSetId effect)) :
      Sought dataset skill Dataset.grantedEffectStatSetsPerLevel row
  | cost {row effect : Row} (heffect : dataset.findGrantedEffect (soughtId skill) = some effect)
      (hid : effect.get "Id" ≠ .null)
      (h : (Dataset.target (row.get "GrantedEffect")).same (effect.get "Id")) :
      Sought dataset skill Dataset.grantedEffectsPerLevel row
  | quality {row effect : Row} (heffect : dataset.findGrantedEffect (soughtId skill) = some effect)
      (hid : effect.get "Id" ≠ .null)
      (h : (Dataset.target (row.get "GrantedEffect")).same (effect.get "Id")) :
      Sought dataset skill Dataset.grantedEffectQualityStats row

/-- The second dataset is the first one with rows put into its tables that the export of the skill does not
search for. -/
def Foreign (dataset dataset' : Dataset) (skill : Row) : Prop :=
  ∀ table, Inserted (fun row => ¬Sought dataset skill table row) (dataset.rows table)
    (dataset'.rows table)

/-- No rows of the table of skills are searched for, and none of tables that are not required. -/
theorem Sought.searched {dataset : Dataset} {skill row : Row} {table : Text}
    (h : Sought dataset skill table row) :
    table ∈ Dataset.requiredTables ∧ table ≠ Dataset.activeSkills := by
  cases h <;> decide

/-- Rows are put into tables when they are put into each entry of the dataset. -/
theorem foreign_of_tables {skill : Row} {version : Text} {tables tables' : List (Text × List Row)}
    (h : List.Forall₂ (fun entry entry' => entry.1 = entry'.1 ∧
      Inserted (fun row => ¬Sought ⟨version, tables⟩ skill entry.1 row) entry.2 entry'.2)
      tables tables') : Foreign ⟨version, tables⟩ ⟨version, tables'⟩ skill := by
  intro table
  -- what is sought depends on the whole dataset, so that only the lists of entries are varied
  generalize Sought ⟨version, tables⟩ skill = sought at h ⊢
  simp only [Dataset.rows]
  induction h with
  | nil => exact .nil
  | cons hentry _ ih =>
    obtain ⟨hname, hinserted⟩ := hentry
    rw [List.find?_cons, List.find?_cons, ← hname]
    split
    · next htable => simpa [of_decide_eq_true htable] using hinserted
    · exact ih

namespace Foreign

variable {dataset dataset' : Dataset} {skill effect : Row} {item : Option Row} {table : Text}
  {blocks : List Block} {settings : Settings}

/-! ### Searches -/

theorem find?_eq (h : Foreign dataset dataset' skill) {q : Row → Bool}
    (hq : ∀ row, q row → Sought dataset skill table row) :
    (dataset'.rows table).find? q = (dataset.rows table).find? q :=
  (h table).find?_eq fun row hrow => not_not_intro (hq row hrow)

theorem rowsReferencing_eq (h : Foreign dataset dataset' skill) {column : String} {id : Datum}
    (hsought : ∀ row, id ≠ .null → (Dataset.target (row.get column)).same id →
      Sought dataset skill table row) :
    dataset'.rowsReferencing table column id = dataset.rowsReferencing table column id := by
  unfold Dataset.rowsReferencing
  split
  · rfl
  · next hid =>
    exact (h table).filter_eq fun row hrow => not_not_intro (hsought row hid hrow)

theorem findBaseItem_eq (h : Foreign dataset dataset' skill) :
    dataset'.findBaseItem (soughtName skill) = dataset.findBaseItem (soughtName skill) := by
  unfold Dataset.findBaseItem
  split
  · next name hname => rw [h.find?_eq fun row hrow => .baseItem hname hrow]
  · rfl

theorem findSkillGem_eq (h : Foreign dataset dataset' skill)
    (hitem : dataset.findBaseItem (soughtName skill) = .ok item) :
    dataset'.findSkillGem (((item.map Constant.baseItemFields).getD []).get "metadata_id") =
      dataset.findSkillGem (((item.map Constant.baseItemFields).getD []).get "metadata_id") := by
  cases item with
  | none => rfl
  | some item =>
    change dataset'.findSkillGem (item.get "Id") = dataset.findSkillGem (item.get "Id")
    unfold Dataset.findSkillGem
    split
    · rfl
    · next hid => exact h.find?_eq fun row hrow => .gem hitem hid hrow

theorem findGrantedEffect_eq (h : Foreign dataset dataset' skill) :
    dataset'.findGrantedEffect (soughtId skill) = dataset.findGrantedEffect (soughtId skill) :=
  h.find?_eq fun _ => .effect

section

variable (h : Foreign dataset dataset' skill)
  (heffect : dataset.findGrantedEffect (soughtId skill) = some effect)
include h heffect

theorem stats_eq : Constant.stats dataset' effect = Constant.stats dataset effect := by
  have hfound : dataset'.findStatSet effect = dataset.findStatSet effect :=
    h.find?_eq fun _ => .statSet heffect
  rw [Constant.stats, Constant.stats, hfound]

theorem collect_eq : Quality.collect dataset' (effect.get "Id") blocks settings =
    Quality.collect dataset (effect.get "Id") blocks settings := by
  rw [Quality.collect, Quality.collect, h.rowsReferencing_eq fun _ => .quality heffect]

theorem levelRows_eq :
    dataset'.rowsReferencing Dataset.grantedEffectStatSetsPerLevel "StatSet"
        (Dataset.statSetId effect) =
      dataset.rowsReferencing Dataset.grantedEffectStatSetsPerLevel "StatSet"
        (Dataset.statSetId effect) :=
  h.rowsReferencing_eq fun _ => .level heffect

theorem costRows_eq :
    dataset'.rowsReferencing Dataset.grantedEffectsPerLevel "GrantedEffect" (effect.get "Id") =
      dataset.rowsReferencing Dataset.grantedEffectsPerLevel "GrantedEffect" (effect.get "Id") :=
  h.rowsReferencing_eq fun _ => .cost heffect

end

/-! ### Runs -/

theorem record_eq (h : Foreign dataset dataset' skill) :
    Constant.record dataset' skill blocks settings = Constant.record dataset skill blocks settings := by
  have hname := h.findBaseItem_eq
  have hid := h.findGrantedEffect_eq
  rw [soughtName] at hname
  rw [soughtId] at hid
  rw [Constant.record, Constant.record]
  simp only [hname, hid]
  refine Journal.bind_congr_of_ok fun item hitem => ?_
  have hgem := h.findSkillGem_eq hitem
  cases heffect : dataset.findGrantedEffect ((skill.get "Id").orElse (.text [])) with
  | none => rfl
  | some effect => simp only [hgem, h.stats_eq heffect, h.collect_eq heffect]

theorem extend_eq (h : Foreign dataset dataset' skill) (given : Skill) :
    Progression.extend dataset' skill given blocks settings =
      Progression.extend dataset skill given blocks settings := by
  have hid := h.findGrantedEffect_eq
  rw [soughtId] at hid
  rw [Progression.extend, Progression.extend]
  simp only [hid]
  cases heffect : dataset.findGrantedEffect ((skill.get "Id").orElse (.text [])) with
  | none => rfl
  | some effect => simp only [h.levelRows_eq heffect, h.costRows_eq heffect]

end Foreign

/-- Rows of other skills, put anywhere into the tables, change neither the record nor the fault in which
an export ends, nor what it notes. -/
theorem ofTables_eq_of_foreign {dataset dataset' : Dataset} {skill : Row}
    (h : Foreign dataset dataset' skill) (grammar : Text) (settings : Settings) :
    ofTables dataset' skill grammar settings = ofTables dataset skill grammar settings := by
  simp only [ofTables, ofBlocks, h.record_eq, h.extend_eq]

/-- A skill of which only the id is known. -/
def spark : Row :=
  [("Id".toList, .text "Spark".toList)]

/-- The effect that grants a skill. -/
def effectOf (skill effect : Text) : Row :=
  [("Id".toList, .text effect), ("ActiveSkill".toList, .ref skill)]

def levelOf (effect : Text) : Row :=
  [("StatSet".toList, .ref effect)]

def costOf (effect : Text) (cost : Int) : Row :=
  [("GrantedEffect".toList, .ref effect), ("CostAmounts".toList, .list [.number (.whole cost)])]

/-- Tables with these rows; the other tables are absent. -/
def tablesOf (skills effects levels costs : List Row) : Dataset :=
  ⟨[], [(Dataset.activeSkills, skills), (Dataset.grantedEffects, effects),
    (Dataset.grantedEffectStatSetsPerLevel, levels), (Dataset.grantedEffectsPerLevel, costs)]⟩

def sparkTables : Dataset :=
  tablesOf [spark] [effectOf "Spark".toList "SparkPlayer".toList] [levelOf "SparkPlayer".toList]
    [costOf "SparkPlayer".toList 8]

/-- The same tables, with another skill, its effect and its cost before those of the skill. -/
def crowdedTables : Dataset :=
  tablesOf [[("Id".toList, .text "Arc".toList)], spark]
    [effectOf "Arc".toList "ArcPlayer".toList, effectOf "Spark".toList "SparkPlayer".toList]
    [levelOf "SparkPlayer".toList] [costOf "ArcPlayer".toList 5, costOf "SparkPlayer".toList 8]

theorem not_sought_arcEffect :
    ¬Sought sparkTables spark Dataset.grantedEffects (effectOf "Arc".toList "ArcPlayer".toList) := by
  generalize htable : Dataset.grantedEffects = table
  rintro ⟨⟩
  case effect h => exact absurd h (by decide)
  all_goals exact absurd htable (by decide)

theorem not_sought_arcCost :
    ¬Sought sparkTables spark Dataset.grantedEffectsPerLevel (costOf "ArcPlayer".toList 5) := by
  generalize htable : Dataset.grantedEffectsPerLevel = table
  rintro ⟨⟩
  case cost effect heffect hid h =>
    obtain rfl : effectOf "Spark".toList "SparkPlayer".toList = effect := Option.some.inj heffect
    exact absurd h (by decide)
  all_goals exact absurd htable (by decide)

theorem ofTables_crowdedTables :
    Foreign sparkTables crowdedTables spark ∧
      ofTables crowdedTables spark [] Settings.standard =
        ofTables sparkTables spark [] Settings.standard := by
  have hforeign : Foreign sparkTables crowdedTables spark :=
    foreign_of_tables (.cons ⟨rfl, .insert (fun h => h.searched.2 rfl) (.refl _ _)⟩
      (.cons ⟨rfl, .insert not_sought_arcEffect (.refl _ _)⟩ (.cons ⟨rfl, .refl _ _⟩
        (.cons ⟨rfl, .insert not_sought_arcCost (.refl _ _)⟩ .nil))))
  exact ⟨hforeign, ofTables_eq_of_foreign hforeign [] Settings.standard⟩

end Skill

end GemScribe
