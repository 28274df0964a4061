import GemScribe.Proofs.Number.Numeral
import GemScribe.Wiki.Parameters
import Mathlib.Data.List.Nodup

/-!
The keys of wiki parameters.

Keys are put together from words and numbers, and no key may come about in two ways. Keys of quality stats
and of levels begin with letters with which no other key begins. The number in a key ends at the next
underscore or at the end of the key, so that it can be read off the key; and what follows the number of a
level is one of the five names of every level, or the number of a stat and one of two names.
-/

namespace GemScribe.Wiki

/-! ### The keys in order -/

def staticKeys : List Text := [
  "skill_id".toList, "name".toList, "metadata_id".toList, "class_id".toList, "size_x".toList,
  "size_y".toList, "gem_tier".toList, "intelligence_percent".toList, "strength_percent".toList,
  "dexterity_percent".toList, "gem_description".toList, "item_class_id_restriction".toList,
  "cast_time".toList, "static_cost_types".toList, "static_critical_strike_chance".toList,
  "stat_text".toList]

/-- The key of the text of constant stats, when there is any. -/
def constantKeys (skill : Skill) : List Text :=
  if skill.constantStatText.isEmpty then [] else ["static_stat_text".toList]

/-- Keys with the number of a place between their beginning and their endings. -/
def numbered (start : Text) (endings : List Text) (place : Nat) : List Text :=
  endings.map fun ending => start ++ natText (place + 1) ++ ending

/-- The keys of that many quality stats. -/
def qualityKeys (count : Nat) : List Text :=
  (List.range count).flatMap
    (numbered "quality_type".toList ["_stat_text".toList, "_stat1_id".toList])

/-- What follows the number of a level in the keys that each level has. -/
def levelEndings (attributeName : Text) : List Text :=
  [[], "_level_requirement".toList, "_cost_amounts".toList,
    '_' :: attributeName ++ "_requirement".toList, "_stat_text".toList]

/-- What follows the number of a level in the keys of that many stats. -/
def statEndings (count : Nat) : List Text :=
  (List.range count).flatMap (numbered "_stat".toList ["_id".toList, "_value".toList])

def levelKeys (row : GemLevel) : List Text :=
  (levelEndings row.attributeName ++ statEndings row.stats.length).map
    fun ending => "level".toList ++ intText row.level ++ ending

/-- The keys of a skill, in the order in which they are written. -/
def keys (skill : Skill) : List Text :=
  staticKeys ++ constantKeys skill ++ qualityKeys skill.qualityStats.length ++
    skill.progression.flatMap levelKeys

/-- The attributes that a requirement can be for. -/
def attributes : List Text :=
  ["intelligence".toList, "strength".toList, "dexterity".toList]

variable {separator : Text} {skill : Skill}

theorem map_fst_constantParameters (skill : Skill) :
    (constantParameters skill).map Prod.fst = constantKeys skill := by
  rw [constantParameters, constantKeys]
  split <;> rfl

/-- Items at their places, when only the places matter. -/
theorem map_zipIdx {α β : Type} (as : List α) (f : Nat → β) :
    as.zipIdx.map (fun entry => f entry.2) = (List.range as.length).map f := by
  rw [← Function.comp_def, ← List.map_map, List.zipIdx_map_snd, List.range_eq_range']

theorem map_fst_qualityParameters (stats : List QualityStat) :
    (stats.zipIdx.map fun entry => qualityParameters entry.1 entry.2).flatten.map Prod.fst =
      qualityKeys stats.length := by
  rw [List.map_flatten, List.map_map, qualityKeys, List.flatMap_def, ← map_zipIdx]
  rfl

theorem map_fst_statParameters (start : Text) (os : List Observation) :
    (os.zipIdx.map fun entry => statParameters start entry.1 entry.2).flatten.map Prod.fst =
      (statEndings os.length).map (start ++ ·) := by
  rw [List.map_flatten, List.map_map, statEndings, List.map_flatMap, List.flatMap_def, ← map_zipIdx]
  simp [Function.comp_def, statParameters, numbered]

/-- The parameters of a level whose number is written with as many digits as it has. -/
def writtenLevel (separator : Text) (row : GemLevel) : List Parameter :=
  levelParameters separator ("level".toList ++ intText row.level) row

theorem map_fst_writtenLevel (separator : Text) (row : GemLevel) :
    (writtenLevel separator row).map Prod.fst = levelKeys row := by
  rw [writtenLevel, levelParameters, List.map_append, map_fst_statParameters, levelKeys, List.map_append]
  simp [levelEndings]

/-- The parameters of a skill, in the order in which they are written. -/
def parameters (separator : Text) (skill : Skill) : List Parameter :=
  skillParameters skill ++ skill.progression.flatMap (writtenLevel separator)

/-- The parameters of a skill have these keys. -/
theorem map_fst_parameters (separator : Text) (skill : Skill) :
    (parameters separator skill).map Prod.fst = keys skill := by
  rw [parameters, skillParameters, List.map_append, List.map_append, List.map_append,
    map_fst_constantParameters, map_fst_qualityParameters, List.map_flatMap, funext (map_fst_writtenLevel separator)]
  rfl

theorem length_numbered (start : Text) (endings : List Text) (count : Nat) :
    ((List.range count).flatMap (numbered start endings)).length = count * endings.length := by
  simp [List.length_flatMap, numbered]

theorem length_levelKeys (row : GemLevel) : (levelKeys row).length = 5 + 2 * row.stats.length := by
  rw [levelKeys, List.length_map, List.length_append, statEndings, length_numbered, Nat.mul_comm]
  rfl

/-- There are the keys of every skill, that of a text of constant stats if there is one, two for each quality
stat, and for each level five and two for each of its stats. -/
theorem length_keys (skill : Skill) : (keys skill).length =
    16 + (if skill.constantStatText.isEmpty then 0 else 1) + 2 * skill.qualityStats.length +
      (skill.progression.map fun row => 5 + 2 * row.stats.length).sum := by
  have hconstant : (constantKeys skill).length = if skill.constantStatText.isEmpty then 0 else 1 := by
    rw [constantKeys]
    split <;> rfl
  rw [keys, List.length_append, List.length_append, List.length_append, hconstant, qualityKeys,
    length_numbered, Nat.mul_comm, List.length_flatMap, funext length_levelKeys]
  rfl

/-! ### Numbers in keys -/

/-- What ends the numeral before it: nothing at all, or something that begins with an underscore. -/
def EndsNumeral (ending : Text) : Prop :=
  ending.takeWhile (· ≠ '_') = []

/-- Keys with different numbers are different. -/
theorem intText_append_inj {i j : ℤ} {s t : Text} (hs : EndsNumeral s) (ht : EndsNumeral t)
    (h : intText i ++ s = intText j ++ t) : i = j := by
  have htake : ∀ (k : ℤ) {u : Text}, EndsNumeral u →
      (intText k ++ u).takeWhile (· ≠ '_') = intText k := by
    intro k u hu
    have hnumeral : ∀ c ∈ Text.numeralChars, c ≠ '_' := Text.forall_mem_of_all (by decide)
    rw [List.takeWhile_append_of_pos fun c hc =>
      decide_eq_true (hnumeral c (mem_numeralChars_of_mem_intText hc)), hu, List.append_nil]
  have hij := congrArg (List.takeWhile (· ≠ '_')) h
  rw [htake i hs, htake j ht] at hij
  exact intText_injective hij

/-- Numbered keys are different when their endings are, and begin with an underscore. -/
theorem nodup_numbered (start : Text) {endings : List Text} (hnodup : endings.Nodup)
    (hends : ∀ ending ∈ endings, ending.head? = some '_') (count : Nat) :
    ((List.range count).flatMap (numbered start endings)).Nodup := by
  rw [List.nodup_flatMap]
  refine ⟨fun place _ => hnodup.map fun s t h => List.append_cancel_left h,
    List.nodup_range.imp fun hne key hkey hkey' => hne ?_⟩
  obtain ⟨s, hs, rfl⟩ := List.mem_map.mp hkey
  obtain ⟨t, ht, heq⟩ := List.mem_map.mp hkey'
  obtain ⟨rest, rfl⟩ := List.head?_eq_some_iff.mp (hends s hs)
  obtain ⟨rest', rfl⟩ := List.head?_eq_some_iff.mp (hends t ht)
  rw [List.append_assoc, List.append_assoc] at heq
  have hplace := natText_append_cons_inj (by decide) (by decide) (List.append_cancel_left heq)
  exact (Nat.succ.inj hplace.1).symm

/-! ### Keys of a level -/

variable {attributeName : Text}

theorem nodup_levelEndings (h : attributeName ∈ attributes) : (levelEndings attributeName).Nodup := by
  have hall : ∀ attributeName ∈ attributes, (levelEndings attributeName).Nodup := by decide
  exact hall attributeName h

theorem exists_digit_of_mem_statEndings {count : Nat} {ending : Text} (h : ending ∈ statEndings count) :
    ∃ c rest, c ∈ "0123456789".toList ∧ ending = "_stat".toList ++ c :: rest := by
  obtain ⟨place, -, h⟩ := List.mem_flatMap.mp h
  obtain ⟨s, -, rfl⟩ := List.mem_map.mp h
  obtain ⟨c, digits, hdigits⟩ := List.exists_cons_of_ne_nil (natText_ne_nil (place + 1))
  refine ⟨c, digits ++ s, mem_digits_of_mem_natText (n := place + 1) (hdigits ▸ List.mem_cons_self), ?_⟩
  rw [hdigits, List.append_assoc]
  rfl

/-- No name that each level has continues with a digit where those of stats do. -/
theorem statEndings_disjoint (h : attributeName ∈ attributes) (count : Nat) :
    (levelEndings attributeName).Disjoint (statEndings count) := by
  have hall : ∀ attributeName ∈ attributes, ∀ ending ∈ levelEndings attributeName,
      "0123456789".toList.all fun c => decide (¬"_stat".toList ++ [c] <+: ending) := by decide
  intro ending hlevel hstat
  obtain ⟨c, rest, hc, rfl⟩ := exists_digit_of_mem_statEndings hstat
  refine Text.forall_mem_of_all (hall attributeName h _ hlevel) c hc ⟨rest, ?_⟩
  rw [List.append_assoc]
  rfl

theorem nodup_levelKeys {row : GemLevel} (h : row.attributeName ∈ attributes) :
    (levelKeys row).Nodup := by
  refine List.Nodup.map (fun s t hst => List.append_cancel_left hst) ?_
  exact (nodup_levelEndings h).append (nodup_numbered _ (by decide) (by decide) _)
    (statEndings_disjoint h _)

theorem endsNumeral_of_mem {row : GemLevel} {ending : Text}
    (h : ending ∈ levelEndings row.attributeName ++ statEndings row.stats.length) :
    EndsNumeral ending := by
  rcases List.mem_append.mp h with h | h
  · have hends : ∀ ending ∈ levelEndings row.attributeName, EndsNumeral ending := by
      simp [levelEndings, EndsNumeral]
    exact hends ending h
  · obtain ⟨c, rest, -, rfl⟩ := exists_digit_of_mem_statEndings h
    rfl

theorem disjoint_levelKeys {row row' : GemLevel} (h : row.level ≠ row'.level) :
    (levelKeys row).Disjoint (levelKeys row') := by
  intro key hkey hkey'
  obtain ⟨s, hs, rfl⟩ := List.mem_map.mp hkey
  obtain ⟨t, ht, heq⟩ := List.mem_map.mp hkey'
  rw [List.append_assoc, List.append_assoc] at heq
  exact h (intText_append_inj (endsNumeral_of_mem hs) (endsNumeral_of_mem ht)
    (List.append_cancel_left heq).symm)

/-! ### Characters of keys -/

/-- The characters that keys are made of. -/
def keyChars : Text :=
  "abcdefghijklmnopqrstuvwxyz_".toList ++ Text.numeralChars

/-- The text is made of these characters. -/
def Spelled (t : Text) : Prop :=
  ∀ c ∈ t, c ∈ keyChars

instance : DecidablePred Spelled := fun t =>
  decidable_of_iff (t.all fun c => decide (c ∈ keyChars)) (by simp [Spelled])

theorem Spelled.append {s t : Text} (hs : Spelled s) (ht : Spelled t) : Spelled (s ++ t) :=
  List.forall_mem_append.mpr ⟨hs, ht⟩

theorem spelled_natText (n : ℕ) : Spelled (natText n) :=
  fun _ hc => List.mem_append_right _ (mem_numeralChars_of_mem_natText hc)

theorem spelled_intText (i : ℤ) : Spelled (intText i) :=
  fun _ hc => List.mem_append_right _ (mem_numeralChars_of_mem_intText hc)

theorem spelled_of_mem_numbered {start : Text} {endings : List Text} {count : Nat} {key : Text}
    (hstart : Spelled start) (hendings : ∀ ending ∈ endings, Spelled ending)
    (h : key ∈ (List.range count).flatMap (numbered start endings)) : Spelled key := by
  obtain ⟨place, -, h⟩ := List.mem_flatMap.mp h
  obtain ⟨ending, hending, rfl⟩ := List.mem_map.mp h
  exact (hstart.append (spelled_natText _)).append (hendings ending hending)

theorem spelled_of_mem_levelKeys {row : GemLevel} {key : Text}
    (hrow : row.attributeName ∈ attributes) (h : key ∈ levelKeys row) : Spelled key := by
  have hlevel : Spelled "level".toList := by decide
  have hnames : ∀ attributeName ∈ attributes, ∀ ending ∈ levelEndings attributeName,
      Spelled ending := by decide +kernel
  obtain ⟨ending, hending, rfl⟩ := List.mem_map.mp h
  refine (hlevel.append (spelled_intText _)).append ?_
  rcases List.mem_append.mp hending with hending | hending
  · exact hnames _ hrow ending hending
  · exact spelled_of_mem_numbered (by decide) (by decide) hending

theorem spelled_of_mem_keys {key : Text}
    (hattributes : ∀ row ∈ skill.progression, row.attributeName ∈ attributes) (h : key ∈ keys skill) :
    Spelled key := by
  have hstatic : ∀ key ∈ "static_stat_text".toList :: staticKeys, Spelled key := by decide +kernel
  rw [List.forall_mem_cons] at hstatic
  rw [keys, List.mem_append, List.mem_append, List.mem_append] at h
  rcases h with ((h | h) | h) | h
  · exact hstatic.2 key h
  · rw [constantKeys] at h
    split at h
    · cases h
    · rw [List.mem_singleton.mp h]
      exact hstatic.1
  · exact spelled_of_mem_numbered (by decide) (by decide) h
  · obtain ⟨row, hrow, h⟩ := List.mem_flatMap.mp h
    exact spelled_of_mem_levelKeys (hattributes row hrow) h

/-! ### All keys -/

theorem head?_of_mem_qualityKeys {count : Nat} {key : Text} (h : key ∈ qualityKeys count) :
    key.head? = some 'q' := by
  obtain ⟨place, -, h⟩ := List.mem_flatMap.mp h
  obtain ⟨s, -, rfl⟩ := List.mem_map.mp h
  rfl

theorem head?_of_mem_levelKeys {rows : List GemLevel} {key : Text} (h : key ∈ rows.flatMap levelKeys) :
    key.head? = some 'l' := by
  obtain ⟨row, -, h⟩ := List.mem_flatMap.mp h
  obtain ⟨s, -, rfl⟩ := List.mem_map.mp h
  rfl

/-- No key is written twice, for a skill whose levels are different. -/
theorem nodup_keys (hlevels : (skill.progression.map GemLevel.level).Nodup)
    (hattributes : ∀ row ∈ skill.progression, row.attributeName ∈ attributes) : (keys skill).Nodup := by
  have hfixed : ∀ key ∈ staticKeys ++ ["static_stat_text".toList],
      key.head? ≠ some 'q' ∧ key.head? ≠ some 'l' := by decide
  have hsub : (staticKeys ++ constantKeys skill).Sublist
      (staticKeys ++ ["static_stat_text".toList]) := by
    refine List.Sublist.append_left ?_ _
    rw [constantKeys]
    split
    · exact List.nil_sublist _
    · exact .refl _
  have hstatic : (staticKeys ++ constantKeys skill).Nodup := hsub.nodup (by decide)
  have hquality : (qualityKeys skill.qualityStats.length).Nodup :=
    nodup_numbered _ (by decide) (by decide) _
  have hlevel : (skill.progression.flatMap levelKeys).Nodup := by
    rw [List.nodup_flatMap]
    refine ⟨fun row hrow => nodup_levelKeys (hattributes row hrow), ?_⟩
    exact (List.pairwise_map.mp hlevels).imp fun hne => disjoint_levelKeys hne
  rw [keys]
  refine (hstatic.append hquality fun key hkey hkey' => ?_).append hlevel fun key hkey hkey' => ?_
  · exact (hfixed key (hsub.subset hkey)).1 (head?_of_mem_qualityKeys hkey')
  · have hhead := head?_of_mem_levelKeys hkey'
    rcases List.mem_append.mp hkey with hkey | hkey
    · exact (hfixed key (hsub.subset hkey)).2 hhead
    · exact absurd ((head?_of_mem_qualityKeys hkey).symm.trans hhead) (by decide)

end GemScribe.Wiki
