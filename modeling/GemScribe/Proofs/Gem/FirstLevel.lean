import GemScribe.Proofs.Gem.Positions
import GemScribe.Proofs.Stat.Arrival
import GemScribe.Proofs.Stat.Independence

/-!
The texts of the first level.

The stats of the first level are resolved twice: all of them at once and from the last to the first, for
the text of the skill, and the float stats and the additional stats each by themselves, for the two texts
of the level. With one value for each stat a block renders alike whichever of its stats asks, so that the
order of the stats only decides the order of the lines; and where no block names stats of both kinds,
those of one kind are resolved as if the others were not there.
-/

namespace GemScribe

open Observation

variable {blocks : List Block} {os os' floats additional : List Observation}

/-! ### One value for each stat -/

theorem length_valuesFor_le_one (h : (os.map Observation.id).Nodup) (id : Text) :
    (valuesFor os id).length ≤ 1 := by
  have hids : (os.filter fun o => o.id = id).map Observation.id =
      List.replicate (os.filter fun o => o.id = id).length id := by
    rw [List.map_eq_replicate_iff]
    exact fun o ho => of_decide_eq_true (List.mem_filter.mp ho).2
  have hkept : (os.filter fun o => o.id = id).Sublist os := List.filter_sublist
  have hnodup := (hkept.map Observation.id).nodup h
  rw [hids, List.nodup_replicate] at hnodup
  rwa [valuesFor, List.length_map]

theorem length_valuesFor_eq_one (h : (os.map Observation.id).Nodup) {id : Text}
    (hseen : id ∈ seenIds os) : (valuesFor os id).length = 1 :=
  Nat.le_antisymm (length_valuesFor_le_one h id) (List.length_pos_iff.mpr (valuesFor_ne_nil hseen))

/-- The order of observations does not matter for the values of a stat that has only one. -/
theorem sameValues_of_perm (h : (os.map Observation.id).Nodup) (hperm : os.Perm os') :
    SameValues os os' := by
  intro id _
  have hvalues : (valuesFor os id).Perm (valuesFor os' id) := (hperm.filter _).map _
  have hlength := length_valuesFor_le_one h id
  cases hv : valuesFor os id with
  | nil => rw [hv] at hvalues; exact hvalues.nil_eq
  | cons v vs =>
    rw [hv, List.length_cons] at hlength
    obtain rfl : vs = [] := List.length_eq_zero_iff.mp (by omega)
    rw [hv] at hvalues
    exact (List.perm_singleton.mp hvalues.symm).symm

theorem uniform_of_nodup (h : (os.map Observation.id).Nodup)
    (hsecond : ∀ o ∈ os, (Quantity.real o.value).equalsInt Template.oneSecond = false) :
    Uniform blocks os where
  even := by
    intro _ _ _ id _ other _ hseen hseen'
    rw [length_valuesFor_eq_one h hseen, length_valuesFor_eq_one h hseen']
  noSecond := by
    intro id _ v hv
    rw [valuesFor, List.mem_map] at hv
    obtain ⟨o, ho, rfl⟩ := hv
    exact hsecond o (List.mem_of_mem_filter ho)

/-! ### Two kinds of stats -/

/-- Float stats and additional stats that are all different, each of them in one block at most, and with
no block for stats of both kinds. -/
structure Divided (blocks : List Block) (floats additional : List Observation) : Prop where
  distinct : ((floats ++ additional).map Observation.id).Nodup
  namedOnce : ∀ o ∈ floats ++ additional, NamedOnce blocks o.id
  apart : ∀ block ∈ blocks, block.templates ≠ [] →
    ∀ o ∈ floats, o.id ∈ block.ids → ∀ o' ∈ additional, o'.id ∉ block.ids
  noSecond : ∀ o ∈ floats ++ additional,
    (Quantity.real o.value).equalsInt Template.oneSecond = false

theorem untouched_of_blocks {xs ys : List Observation}
    (h : ∀ block ∈ blocks, block.templates ≠ [] →
      ∀ o ∈ xs, o.id ∈ block.ids → ∀ o' ∈ ys, o'.id ∉ block.ids) : Untouched blocks xs ys := by
  rintro id hseen ⟨block, place⟩ hd other hother hseen'
  obtain ⟨-, o, ho, rfl⟩ := mem_seenIds.mp hseen
  obtain ⟨-, o', ho', rfl⟩ := mem_seenIds.mp hseen'
  obtain ⟨hblock, hid⟩ := Block.describing?_eq_some hd
  exact h block (List.mem_of_getElem? hblock) (Block.templates_ne_nil_of_describing? hd) o ho hid o'
    ho' hother

namespace Divided

theorem resolvesApart (h : Divided blocks floats additional) : Apart blocks floats additional where
  distinct := by
    intro id hseen hseen'
    obtain ⟨-, o, ho, rfl⟩ := mem_seenIds.mp hseen
    obtain ⟨-, o', ho', hid⟩ := mem_seenIds.mp hseen'
    have hdistinct := h.distinct
    rw [List.map_append, List.nodup_append] at hdistinct
    exact hdistinct.2.2 _ (List.mem_map_of_mem ho) _ (List.mem_map_of_mem ho') hid.symm
  left := untouched_of_blocks h.apart
  right := untouched_of_blocks fun block hblock ht o ho hid o' ho' hid' =>
    h.apart block hblock ht o' ho' hid' o ho hid

theorem reverse_perm (floats additional : List Observation) :
    (floats ++ additional).Perm (additional ++ floats).reverse :=
  List.perm_append_comm.trans (List.reverse_perm _).symm

/-- In any two orders the stats give the same lines, in some order. -/
theorem exists_resolve_perm (h : Divided blocks floats additional)
    (hos : (floats ++ additional).Perm os) (hperm : os.Perm os') {lines : List Text}
    (hlines : (resolve blocks true os).outcome = .ok lines) :
    ∃ lines', (resolve blocks true os').outcome = .ok lines' ∧ lines.Perm lines' := by
  have hdistinct : (os.map Observation.id).Nodup := (hos.map _).nodup_iff.mp h.distinct
  refine exists_resolve_perm_of_namedOnce (sameValues_of_perm hdistinct hperm) (fun id hseen => ?_)
    (uniform_of_nodup hdistinct fun o ho => h.noSecond o (hos.mem_iff.mpr ho)) hlines
  obtain ⟨-, o, ho, rfl⟩ := mem_seenIds.mp hseen
  exact h.namedOnce o (hos.mem_iff.mpr ho)

/-- From the lines of all stats to those of each kind. -/
theorem exists_lines_of_both (h : Divided blocks floats additional) {lines : List Text}
    (hlines : (resolve blocks true (additional ++ floats).reverse).outcome = .ok lines) :
    ∃ floatLines additionalLines, (resolve blocks true floats).outcome = .ok floatLines ∧
      (resolve blocks true additional).outcome = .ok additionalLines ∧
      lines.Perm (floatLines ++ additionalLines) := by
  have hperm := reverse_perm floats additional
  obtain ⟨lines', hlines', hsame⟩ := h.exists_resolve_perm hperm hperm.symm hlines
  obtain ⟨first, rest, hfirst, hrest, rfl⟩ := (resolve_append_eq_ok h.resolvesApart).mp hlines'
  exact ⟨first, rest, hfirst, hrest, hsame⟩

theorem exists_lines_of_each (h : Divided blocks floats additional)
    {floatLines additionalLines : List Text}
    (hfloats : (resolve blocks true floats).outcome = .ok floatLines)
    (hadditional : (resolve blocks true additional).outcome = .ok additionalLines) :
    ∃ lines, (resolve blocks true (additional ++ floats).reverse).outcome = .ok lines := by
  have hboth := (resolve_append_eq_ok h.resolvesApart).mpr
    ⟨floatLines, additionalLines, hfloats, hadditional, rfl⟩
  obtain ⟨lines, hlines, -⟩ :=
    h.exists_resolve_perm (.refl _) (reverse_perm floats additional) hboth
  exact ⟨lines, hlines⟩

end Divided

/-! ### The texts of a record -/

namespace Progression

variable {settings : Settings} {skill : Skill} {row : Row}

theorem joinStats_eq_ok {text : Text} :
    (joinStats blocks settings os).outcome = .ok text ↔
      ∃ lines, (resolve blocks true os).outcome = .ok lines ∧
        Text.join settings.separator lines = text := by
  cases os with
  | nil =>
    constructor
    · exact fun h => ⟨[], rfl, Except.ok.inj h⟩
    · rintro ⟨lines, hlines, rfl⟩
      rw [← Except.ok.inj hlines]
      rfl
  | cons o os =>
    rw [joinStats, if_neg (by simp), Constant.joinLines, Journal.outcome_bind_eq_ok]
    exact exists_congr fun lines => and_congr_right fun _ => ⟨Except.ok.inj, congrArg Except.ok⟩

/-- Where the texts of a record and of its first level come from. -/
theorem withLevels_texts {rest costRows : List Row} {result : Skill}
    (hstats : (rowStats row).outcome = .ok (floats, additional))
    (h : (withLevels skill row (row :: rest) costRows blocks settings).outcome = .ok result) :
    ∃ level levels, result.progression = level :: levels ∧
      (joinStats blocks settings (additional ++ floats).reverse).outcome = .ok result.statText ∧
      (joinStats blocks settings floats).outcome = .ok level.statText ∧
      (joinStats blocks settings additional).outcome = .ok level.additionalStatText := by
  obtain ⟨⟨_, _, hread, htext⟩, hlevels⟩ := of_withLevels h
  obtain ⟨rfl, rfl⟩ := Prod.mk.inj (Except.ok.inj (hstats.symm.trans hread))
  obtain ⟨hlength, hplaces⟩ := ofRows_eq_ok.mp hlevels
  cases hprogression : result.progression with
  | nil =>
    rw [hprogression] at hlength
    cases hlength
  | cons level levels =>
    obtain ⟨_, hrow, hmade⟩ := hplaces 0 level (by rw [hprogression]; rfl)
    obtain rfl := Datum.record.inj (Option.some.inj hrow)
    obtain ⟨hfloats, hadditional⟩ := Prod.mk.inj (Except.ok.inj (hmade.stats.symm.trans hstats))
    exact ⟨level, levels, rfl, htext, hfloats ▸ hmade.statText, hadditional ▸ hmade.additionalStatText⟩

/-- The text of the skill has the lines of the texts of its first level, in some order: all stats can be
resolved together exactly when each kind can by itself, the lines are the same up to their order, and
these are the lines of the three texts in a record. -/
theorem withLevels_firstLevel {rest costRows : List Row}
    (hstats : (rowStats row).outcome = .ok (floats, additional))
    (h : Divided blocks floats additional) :
    ((resolve blocks true (additional ++ floats).reverse).Returns ↔
      (resolve blocks true floats).Returns ∧ (resolve blocks true additional).Returns) ∧
    (∀ lines floatLines additionalLines,
      (resolve blocks true (additional ++ floats).reverse).outcome = .ok lines →
      (resolve blocks true floats).outcome = .ok floatLines →
      (resolve blocks true additional).outcome = .ok additionalLines →
      lines.Perm (floatLines ++ additionalLines)) ∧
    ∀ result, (withLevels skill row (row :: rest) costRows blocks settings).outcome = .ok result →
      ∃ level levels lines floatLines additionalLines,
        result.progression = level :: levels ∧
        result.statText = Text.join settings.separator lines ∧
        level.statText = Text.join settings.separator floatLines ∧
        level.additionalStatText = Text.join settings.separator additionalLines ∧
        (resolve blocks true (additional ++ floats).reverse).outcome = .ok lines ∧
        (resolve blocks true floats).outcome = .ok floatLines ∧
        (resolve blocks true additional).outcome = .ok additionalLines := by
  refine ⟨⟨?_, ?_⟩, ?_, ?_⟩
  · rintro ⟨lines, hlines⟩
    obtain ⟨floatLines, additionalLines, hfloats, hadditional, -⟩ := h.exists_lines_of_both hlines
    exact ⟨⟨_, hfloats⟩, ⟨_, hadditional⟩⟩
  · rintro ⟨⟨floatLines, hfloats⟩, ⟨additionalLines, hadditional⟩⟩
    exact h.exists_lines_of_each hfloats hadditional
  · intro lines floatLines additionalLines hlines hfloats hadditional
    obtain ⟨_, _, hfloats', hadditional', hperm⟩ := h.exists_lines_of_both hlines
    rwa [Except.ok.inj (hfloats.symm.trans hfloats'),
      Except.ok.inj (hadditional.symm.trans hadditional')]
  · intro result hresult
    obtain ⟨level, levels, hprogression, htext, hfloatText, hadditionalText⟩ :=
      withLevels_texts hstats hresult
    obtain ⟨lines, hlines, hjoined⟩ := joinStats_eq_ok.mp htext
    obtain ⟨floatLines, hfloats, hfloatJoined⟩ := joinStats_eq_ok.mp hfloatText
    obtain ⟨additionalLines, hadditional, hadditionalJoined⟩ := joinStats_eq_ok.mp hadditionalText
    exact ⟨level, levels, lines, floatLines, additionalLines, hprogression, hjoined.symm,
      hfloatJoined.symm, hadditionalJoined.symm, hlines, hfloats, hadditional⟩

/-- A level with two float stats and two additional stats. -/
def blastLevel : Row :=
  [("FloatStats".toList, .list [.ref "x".toList, .ref "y".toList]),
    ("FloatStatsValues".toList, .list [.number (.whole 9), .number (.whole 14)]),
    ("AdditionalStats".toList, .list [.ref "z".toList, .ref "w".toList]),
    ("AdditionalStatsValues".toList, .list [.number (.whole 20), .number (.whole 3)])]

def blastFloats : List Observation :=
  [⟨"x".toList, .ofInt 9⟩, ⟨"y".toList, .ofInt 14⟩]

def blastAdditional : List Observation :=
  [⟨"z".toList, .ofInt 20⟩, ⟨"w".toList, .ofInt 3⟩]

/-- One block for the float stats, and one for each of the additional stats. -/
def blastBlocks : List Block :=
  [⟨"x y".toList, none, ["\x7b0\x7d to \x7b1\x7d".toList]⟩,
    ⟨"z".toList, none, ["\x7b0\x7d more".toList]⟩, ⟨"w".toList, none, ["\x7b0\x7d less".toList]⟩]

/-- A skill of which nothing is known. -/
def unknownSkill : Skill :=
  ⟨[], [], none, none, none, none, 0, 0, 0, none, none, none, none, none, [], [], [], [], [], [], []⟩

/-- The lines of the additional stats are the other way round for the skill. -/
theorem withLevels_blastLevel :
    (rowStats blastLevel).outcome = .ok (blastFloats, blastAdditional) ∧
    Divided blastBlocks blastFloats blastAdditional ∧
    (resolve blastBlocks true (blastAdditional ++ blastFloats).reverse).outcome =
      .ok ["9 to 14".toList, "3 less".toList, "20 more".toList] ∧
    (resolve blastBlocks true blastAdditional).outcome = .ok ["20 more".toList, "3 less".toList] ∧
    ∀ result, (withLevels unknownSkill blastLevel [blastLevel] [] blastBlocks
        Settings.standard).outcome = .ok result →
      ∃ level levels lines floatLines additionalLines,
        result.progression = level :: levels ∧
        result.statText = Text.join Settings.standard.separator lines ∧
        level.statText = Text.join Settings.standard.separator floatLines ∧
        level.additionalStatText = Text.join Settings.standard.separator additionalLines ∧
        (resolve blastBlocks true (blastAdditional ++ blastFloats).reverse).outcome = .ok lines ∧
        (resolve blastBlocks true blastFloats).outcome = .ok floatLines ∧
        (resolve blastBlocks true blastAdditional).outcome = .ok additionalLines := by
  have hstats : (rowStats blastLevel).outcome = .ok (blastFloats, blastAdditional) := rfl
  have hdivided : Divided blastBlocks blastFloats blastAdditional :=
    ⟨by decide, by unfold NamedOnce; decide, by decide, by decide⟩
  exact ⟨hstats, hdivided, rfl, rfl, (withLevels_firstLevel hstats hdivided).2.2⟩

end Progression

end GemScribe
