import GemScribe.Gem.Progression
import GemScribe.Proofs.Outcome
import Mathlib.Algebra.Order.Group.Int

/-!
Levels by their places.

Each level is made of the level row and the cost row at its place. The resolver starts anew for each text,
and nothing that one level has resolved is kept for the next; a list of levels is therefore known from its
places alone, whatever stands at other places, and a shorter list of rows gives the beginning of the same
levels.
-/

namespace GemScribe

/-! ### The largest share -/

namespace Skill

variable (skill : Skill)

theorem larger_cases (a b : Text × ℤ) : larger a b = a ∨ larger a b = b := by
  rw [larger]
  split
  · exact Or.inr rfl
  · exact Or.inl rfl

theorem larger_snd (a b : Text × ℤ) : (larger a b).2 = max a.2 b.2 := by
  rw [larger]
  split <;> omega

theorem primary_mem_shares : skill.primary ∈ skill.shares := by
  rw [primary, shares]
  simp only [List.foldl_cons, List.foldl_nil, List.mem_cons, List.not_mem_nil, or_false]
  rcases larger_cases (larger ("intelligence".toList, skill.intelligencePercent)
    ("strength".toList, skill.strengthPercent)) ("dexterity".toList, skill.dexterityPercent)
    with heq | heq
  · rw [heq]
    exact (larger_cases _ _).imp_right Or.inl
  · exact Or.inr (Or.inr heq)

theorem primary_snd : skill.primary.2 = skill.attributePercent := by
  rw [primary, shares, attributePercent]
  simp only [List.foldl_cons, List.foldl_nil, larger_snd]
  exact max_assoc _ _ _

/-- The attribute that is named is one with the percentage that is calculated with. -/
theorem primaryAttribute_mem_shares :
    (skill.primaryAttribute, skill.attributePercent) ∈ skill.shares := by
  rw [primaryAttribute, ← primary_snd]
  exact skill.primary_mem_shares

end Skill

namespace Progression

variable {skill : Skill} {levelRows costRows : List Datum} {blocks : List Block}
  {settings : Settings} {place : ℕ} {row : Row} {result : GemLevel} {levels : List GemLevel}

/-! ### One level -/

/-- The cost that a cost row gives: none when there is no such row or no amounts in it, else the first
amount, which may be null. -/
inductive Costs : Option Datum → Option ℤ → Prop
  | noRow : Costs none none
  | noAmounts {row : Row} (hamounts : (row.get "CostAmounts").isGiven = false) :
      Costs (some (.record row)) none
  | ofFirst {row : Row} {amount : Datum} {given : Option ℤ}
      (hamounts : (row.get "CostAmounts").isGiven)
      (hfirst : (row.get "CostAmounts").firstItem = .ok amount)
      (hread : Datum.asOptional Datum.asWhole amount = .fits given) :
      Costs (some (.record row)) given

theorem toRow_eq_ok {d : Datum} : d.toRow = .ok row ↔ d = .record row := by
  cases d <;> simp [Datum.toRow]

/-- The cost of a level is read from the cost row at its place, and from no other. -/
theorem costs_iff {given : Option ℤ} : Costs costRows[place]? given ↔
    ∃ amount, cost costRows place = .ok amount ∧
      Datum.asOptional Datum.asWhole amount = .fits given := by
  rw [cost]
  generalize costRows[place]? = costRow
  constructor
  · rintro (- | ⟨hamounts⟩ | ⟨hamounts, hfirst, hread⟩)
    · exact ⟨.null, rfl, rfl⟩
    · exact ⟨.null, bind_eq_ok.mpr ⟨_, rfl, if_neg (Bool.eq_false_iff.mp hamounts)⟩, rfl⟩
    · exact ⟨_, bind_eq_ok.mpr ⟨_, rfl, (if_pos hamounts).trans hfirst⟩, hread⟩
  · rintro ⟨amount, hamount, hread⟩
    cases costRow with
    | none =>
      obtain rfl := Except.ok.inj hamount
      obtain rfl := Reading.fits.inj hread
      exact .noRow
    | some d =>
      obtain ⟨row, hrow, hfirst⟩ := bind_eq_ok.mp hamount
      obtain rfl := toRow_eq_ok.mp hrow
      by_cases hamounts : (row.get "CostAmounts").isGiven
      · exact .ofFirst hamounts ((if_pos hamounts).symm.trans hfirst) hread
      · obtain rfl := Except.ok.inj ((if_neg hamounts).symm.trans hfirst)
        obtain rfl := Reading.fits.inj hread
        exact .noAmounts (Bool.eq_false_iff.mpr hamounts)

/-- What a level is, given the level row and the cost row at its place. -/
structure IsLevel (skill : Skill) (blocks : List Block) (settings : Settings) (place : ℕ) (row : Row)
    (costRow : Option Datum) (result : GemLevel) : Prop where
  level : result.level = place + 1
  enabled : result.enabled ↔ (place : ℤ) + 1 ≤ settings.maxGemLevel
  levelRequirement : actorLevel row = .ok result.levelRequirement
  cost : Costs costRow result.costAmount
  attributeName : result.attributeName = skill.primaryAttribute
  /-- The percentage of the attribute that is named is the one the requirement is calculated with. -/
  share : (result.attributeName, skill.attributePercent) ∈ skill.shares
  attributeRequirement : Requirement.atLevel result.levelRequirement (.whole skill.attributePercent) =
    .ok result.attributeRequirement
  stats : (rowStats row).outcome = .ok (result.floatStats, result.additionalStats)
  statText : (joinStats blocks settings result.floatStats).outcome = .ok result.statText
  additionalStatText :
    (joinStats blocks settings result.additionalStats).outcome = .ok result.additionalStatText

/-- A level returns with what its two rows make it, and with nothing else. -/
theorem level_eq_ok {d : Datum} :
    (level skill costRows blocks settings place d).outcome = .ok result ↔
      ∃ row, d = .record row ∧ IsLevel skill blocks settings place row costRows[place]? result := by
  constructor
  · intro h
    rw [level] at h
    obtain ⟨row, hrow, h⟩ := Journal.outcome_bind_eq_ok.mp h
    obtain ⟨actor, hactor, h⟩ := Journal.outcome_bind_eq_ok.mp h
    obtain ⟨⟨floats, additional⟩, hstats, h⟩ := Journal.outcome_bind_eq_ok.mp h
    obtain ⟨amount, hamount, h⟩ := Journal.outcome_bind_eq_ok.mp h
    obtain ⟨requirement, hrequirement, h⟩ := Journal.outcome_bind_eq_ok.mp h
    obtain ⟨floatText, hfloats, h⟩ := Journal.outcome_bind_eq_ok.mp h
    obtain ⟨additionalText, hadditional, h⟩ := Journal.outcome_bind_eq_ok.mp h
    obtain ⟨given, hgiven, h⟩ := Journal.outcome_bind_eq_ok.mp h
    obtain rfl := Except.ok.inj h
    have hread := Reading.under_eq_fits.mp (Fault.ofReading_eq_ok.mp hgiven)
    exact ⟨row, toRow_eq_ok.mp hrow, {
      level := rfl
      enabled := decide_eq_true_iff
      levelRequirement := hactor
      cost := costs_iff.mpr ⟨amount, hamount, hread⟩
      attributeName := rfl
      share := skill.primaryAttribute_mem_shares
      attributeRequirement := Fault.ofNumber_eq_ok.mp hrequirement
      stats := hstats
      statText := hfloats
      additionalStatText := hadditional }⟩
  · rintro ⟨row, rfl, h⟩
    obtain ⟨amount, hamount, hread⟩ := costs_iff.mp h.cost
    have hcost : (Journal.ofReading (Reading.under "cost_amount".toList
        (Datum.asOptional Datum.asWhole amount))).outcome = .ok result.costAmount :=
      Fault.ofReading_eq_ok.mpr (Reading.under_eq_fits.mpr hread)
    have henabled : result.enabled = decide ((place : ℤ) + 1 ≤ settings.maxGemLevel) :=
      Bool.eq_iff_iff.mpr (h.enabled.trans decide_eq_true_iff.symm)
    rw [level, Journal.outcome_bind_of_ok (a := row) rfl, Journal.outcome_bind_of_ok h.levelRequirement,
      Journal.outcome_bind_of_ok h.stats, Journal.outcome_bind_of_ok hamount,
      Journal.outcome_bind_of_ok (Fault.ofNumber_eq_ok.mpr h.attributeRequirement),
      Journal.outcome_bind_of_ok h.statText, Journal.outcome_bind_of_ok h.additionalStatText,
      Journal.outcome_bind_of_ok hcost, ← henabled, ← h.level, ← h.attributeName]
    rfl

/-! ### All levels -/

/-- The levels from a place on are those of the rows, each at its own place. -/
theorem levelsFrom_eq_ok : ∀ {place : ℕ} {ds : List Datum} {levels : List GemLevel},
    (levelsFrom skill costRows blocks settings place ds).outcome = .ok levels ↔
      levels.length = ds.length ∧ ∀ k result, levels[k]? = some result →
        ∃ row, ds[k]? = some (.record row) ∧
          IsLevel skill blocks settings (place + k) row costRows[place + k]? result
  | place, [], levels => by
      rw [levelsFrom, List.length_nil, List.length_eq_zero_iff]
      constructor
      · intro h
        obtain rfl := Except.ok.inj h
        exact ⟨rfl, fun k result h => nomatch h⟩
      · rintro ⟨rfl, -⟩
        rfl
  | place, d :: ds, levels => by
      rw [levelsFrom, Journal.outcome_bind_eq_ok]
      constructor
      · rintro ⟨first, hfirst, h⟩
        obtain ⟨others, hothers, h⟩ := Journal.outcome_bind_eq_ok.mp h
        obtain rfl := Except.ok.inj h
        obtain ⟨hlength, hplaces⟩ := levelsFrom_eq_ok.mp hothers
        obtain ⟨row, rfl, hlevel⟩ := level_eq_ok.mp hfirst
        refine ⟨congrArg (· + 1) hlength, fun k result hk => ?_⟩
        cases k with
        | zero =>
          obtain rfl := Option.some.inj hk
          exact ⟨row, rfl, hlevel⟩
        | succ k =>
          obtain ⟨row', hrow', hlevel'⟩ := hplaces k result hk
          rw [Nat.add_assoc, Nat.add_comm 1 k] at hlevel'
          exact ⟨row', hrow', hlevel'⟩
      · rintro ⟨hlength, hplaces⟩
        cases levels with
        | nil => cases hlength
        | cons first others =>
          obtain ⟨row, hrow, hlevel⟩ := hplaces 0 first rfl
          have hothers : (levelsFrom skill costRows blocks settings (place + 1) ds).outcome =
              .ok others := by
            refine levelsFrom_eq_ok.mpr ⟨Nat.succ.inj hlength, fun k result hk => ?_⟩
            rw [Nat.add_assoc, Nat.add_comm 1 k]
            exact hplaces (k + 1) result hk
          refine ⟨first, level_eq_ok.mpr ⟨row, Option.some.inj hrow, hlevel⟩, ?_⟩
          rw [Journal.outcome_bind_of_ok hothers]
          rfl

/-- Of a skill only the shares count. -/
theorem levelsFrom_congr {skill' : Skill} (hshares : skill'.shares = skill.shares) :
    ∀ (place : ℕ) (ds : List Datum), levelsFrom skill' costRows blocks settings place ds =
      levelsFrom skill costRows blocks settings place ds
  | _, [] => rfl
  | place, d :: ds => by
      have hprimary : skill'.primary = skill.primary := by
        rw [Skill.primary, Skill.primary, hshares]
      have hlevel : level skill' costRows blocks settings place d =
          level skill costRows blocks settings place d := by
        simp only [level, Skill.primaryAttribute, ← Skill.primary_snd, hprimary]
      rw [levelsFrom, levelsFrom, hlevel, levelsFrom_congr hshares]

theorem ofRows_of_shares {skill' : Skill}
    (h : (ofRows skill' levelRows costRows blocks settings).outcome = .ok levels)
    (hshares : skill'.shares = skill.shares) :
    (ofRows skill levelRows costRows blocks settings).outcome = .ok levels := by
  rwa [ofRows, levelsFrom_congr hshares] at h

/-- The levels are added to a record without touching what it has besides. -/
theorem withLevels_eq_ok {whole : Skill} {first : Row} {rows costs : List Row}
    (h : (withLevels skill first rows costs blocks settings).outcome = .ok whole) :
    ∃ chance floats additional text levels, critChance first = .ok chance ∧
      (rowStats first).outcome = .ok (floats, additional) ∧
      (joinStats blocks settings (additional ++ floats).reverse).outcome = .ok text ∧
      (ofRows skill (rows.map .record) (costs.map .record) blocks settings).outcome = .ok levels ∧
      whole = { skill with
        staticCriticalStrikeChance := chance.or skill.staticCriticalStrikeChance
        statText := text
        progression := levels } := by
  rw [withLevels] at h
  obtain ⟨chance, hchance, h⟩ := Journal.outcome_bind_eq_ok.mp h
  obtain ⟨⟨floats, additional⟩, hstats, h⟩ := Journal.outcome_bind_eq_ok.mp h
  obtain ⟨text, htext, h⟩ := Journal.outcome_bind_eq_ok.mp h
  obtain ⟨levels, hlevels, h⟩ := Journal.outcome_bind_eq_ok.mp h
  refine ⟨chance, floats, additional, text, levels, hchance, hstats, htext, hlevels, ?_⟩
  rw [← Except.ok.inj h]
  cases chance <;> rfl

/-- What the first level row and all of them give a record. -/
theorem of_withLevels {whole : Skill} {first : Row} {rows costs : List Row}
    (h : (withLevels skill first rows costs blocks settings).outcome = .ok whole) :
    (∃ floats additional, (rowStats first).outcome = .ok (floats, additional) ∧
      (joinStats blocks settings (additional ++ floats).reverse).outcome = .ok whole.statText) ∧
    (ofRows skill (rows.map .record) (costs.map .record) blocks settings).outcome =
      .ok whole.progression := by
  obtain ⟨_, floats, additional, text, levels, -, hstats, htext, hlevels, rfl⟩ := withLevels_eq_ok h
  exact ⟨⟨floats, additional, hstats, htext⟩, hlevels⟩

/-- Levels that are enabled up to a bound are enabled at the beginning. -/
theorem filter_enabled : ∀ {bound : ℤ} {levels : List GemLevel},
    (∀ (k : ℕ) result, levels[k]? = some result → (result.enabled ↔ (k : ℤ) + 1 ≤ bound)) →
    levels.filter GemLevel.enabled = levels.take bound.toNat
  | _, [], _ => List.take_nil.symm
  | bound, first :: others, h => by
      have hfirst : first.enabled ↔ 1 ≤ bound := h 0 first rfl
      have hothers : others.filter GemLevel.enabled = others.take (bound - 1).toNat :=
        filter_enabled fun k result hk => (h (k + 1) result hk).trans (by omega)
      by_cases hle : 1 ≤ bound
      · have hbound : bound.toNat = (bound - 1).toNat + 1 := by omega
        rw [List.filter_cons_of_pos (hfirst.mpr hle), hothers, hbound, List.take_succ_cons]
      · have hbound : bound.toNat = 0 := by omega
        have hrest : (bound - 1).toNat = 0 := by omega
        rw [List.filter_cons_of_neg (fun henabled => hle (hfirst.mp henabled)), hothers, hbound, hrest,
          List.take_zero, List.take_zero]

theorem ofRows_eq_ok : (ofRows skill levelRows costRows blocks settings).outcome = .ok levels ↔
    levels.length = levelRows.length ∧ ∀ place result, levels[place]? = some result →
      ∃ row, levelRows[place]? = some (.record row) ∧
        IsLevel skill blocks settings place row costRows[place]? result := by
  rw [ofRows, levelsFrom_eq_ok]
  simp only [Nat.zero_add]

section

variable {levelRows' costRows' : List Datum} {levels' : List GemLevel}

theorem getElem?_eq_some_of_rows
    (h : (ofRows skill levelRows costRows blocks settings).outcome = .ok levels)
    (h' : (ofRows skill levelRows' costRows' blocks settings).outcome = .ok levels')
    (hlevel : levelRows'[place]? = levelRows[place]?) (hcost : costRows'[place]? = costRows[place]?)
    (hresult : levels[place]? = some result) : levels'[place]? = some result := by
  obtain ⟨-, hplaces⟩ := ofRows_eq_ok.mp h
  obtain ⟨hlength, hplaces'⟩ := ofRows_eq_ok.mp h'
  obtain ⟨row, hrow, hmade⟩ := hplaces place result hresult
  have hlt : place < levels'.length := by
    rw [hlength]
    exact (List.getElem?_eq_some_iff.mp (hlevel.trans hrow)).1
  obtain ⟨row', hrow', hmade'⟩ := hplaces' place _ (List.getElem?_eq_getElem hlt)
  rw [hlevel, hrow] at hrow'
  obtain rfl := Datum.record.inj (Option.some.inj hrow')
  rw [hcost] at hmade'
  -- The same two rows cannot make two levels, as both would be what one run returns.
  have hboth := (level_eq_ok.mpr ⟨row, rfl, hmade'⟩).symm.trans (level_eq_ok.mpr ⟨row, rfl, hmade⟩)
  rw [List.getElem?_eq_getElem hlt, Except.ok.inj hboth]

/-- A level is known from the two rows at its place. -/
theorem getElem?_eq_of_rows
    (h : (ofRows skill levelRows costRows blocks settings).outcome = .ok levels)
    (h' : (ofRows skill levelRows' costRows' blocks settings).outcome = .ok levels')
    (hlevel : levelRows'[place]? = levelRows[place]?) (hcost : costRows'[place]? = costRows[place]?) :
    levels'[place]? = levels[place]? :=
  Option.ext fun _ => ⟨getElem?_eq_some_of_rows h' h hlevel.symm hcost.symm,
    getElem?_eq_some_of_rows h h' hlevel hcost⟩

/-- The first level rows give the first levels, with any cost rows that are the same at their places. -/
theorem ofRows_take {n : ℕ} (hcost : costRows'.take n = costRows.take n)
    (h : (ofRows skill levelRows costRows blocks settings).outcome = .ok levels) :
    (ofRows skill (levelRows.take n) costRows' blocks settings).outcome = .ok (levels.take n) := by
  obtain ⟨hlength, hplaces⟩ := ofRows_eq_ok.mp h
  refine ofRows_eq_ok.mpr ⟨by rw [List.length_take, List.length_take, hlength], ?_⟩
  intro place result hresult
  have hlt : place < n := by
    have hplace := (List.getElem?_eq_some_iff.mp hresult).1
    rw [List.length_take] at hplace
    omega
  have hsame : costRows'[place]? = costRows[place]? := by
    rw [← List.getElem?_take_of_lt hlt, hcost, List.getElem?_take_of_lt hlt]
  rw [List.getElem?_take_of_lt hlt] at hresult ⊢
  rw [hsame]
  exact hplaces place result hresult

end

/-- A progression has a level for each level row, in order, made of the level row and the cost row at its
place; the enabled levels are the first ones. A level is the same in every progression that has the same
two rows at its place, and the first level rows give the first levels. -/
theorem ofRows_positional
    (h : (ofRows skill levelRows costRows blocks settings).outcome = .ok levels) :
    levels.length = levelRows.length ∧
    (∀ place result, levels[place]? = some result → ∃ row,
      levelRows[place]? = some (.record row) ∧
        IsLevel skill blocks settings place row costRows[place]? result) ∧
    levels.filter GemLevel.enabled = levels.take settings.maxGemLevel.toNat ∧
    (∀ levelRows' costRows' levels',
      (ofRows skill levelRows' costRows' blocks settings).outcome = .ok levels' →
      ∀ place : ℕ, levelRows'[place]? = levelRows[place]? → costRows'[place]? = costRows[place]? →
        levels'[place]? = levels[place]?) ∧
    ∀ n costRows', costRows'.take n = costRows.take n →
      (ofRows skill (levelRows.take n) costRows' blocks settings).outcome = .ok (levels.take n) := by
  obtain ⟨hlength, hplaces⟩ := ofRows_eq_ok.mp h
  have henabled : levels.filter GemLevel.enabled = levels.take settings.maxGemLevel.toNat := by
    refine filter_enabled fun k result hk => ?_
    obtain ⟨row, -, hlevel⟩ := hplaces k result hk
    exact hlevel.enabled
  exact ⟨hlength, hplaces, henabled, fun _ _ _ h' _ => getElem?_eq_of_rows h h',
    fun _ _ hcost => ofRows_take hcost h⟩

/-- A skill that asks for two attributes alike. -/
def evenSkill : Skill :=
  ⟨[], [], none, none, none, none, 0, 60, 60, none, none, none, none, none, [], [], [], [], [], [], []⟩

def novice : Row :=
  [("ActorLevel".toList, .number (.whole 1))]

def adept : Row :=
  [("ActorLevel".toList, .number (.whole 30)),
    ("AdditionalStats".toList, .list [.ref "x".toList]),
    ("AdditionalStatsValues".toList, .list [.number (.whole 9)])]

def noviceCost : Row :=
  [("CostAmounts".toList, .list [.number (.whole 7)])]

def moreBlocks : List Block :=
  [⟨"x".toList, none, ["\x7b0\x7d more".toList]⟩]

def oneLevel : Settings :=
  { Settings.standard with maxGemLevel := 1 }

def evenLevels : List GemLevel :=
  [⟨1, true, 1, some 7, "strength".toList, 0, [], [], [], []⟩,
    ⟨2, false, 30, none, "strength".toList, 46, [], [⟨"x".toList, .ofInt 9⟩], [], "9 more".toList⟩]

theorem isLevel_novice {first : GemLevel} (h : evenLevels[0]? = some first) :
    IsLevel evenSkill moreBlocks oneLevel 0 novice (some (.record noviceCost)) first := by
  obtain rfl := Option.some.inj h
  exact ⟨rfl, by decide, rfl, .ofFirst rfl rfl rfl, rfl, by decide, by decide +kernel, rfl, rfl, rfl⟩

theorem isLevel_adept {second : GemLevel} (h : evenLevels[1]? = some second) :
    IsLevel evenSkill moreBlocks oneLevel 1 adept none second := by
  obtain rfl := Option.some.inj h
  exact ⟨rfl, by decide, rfl, .noRow, rfl, by decide, by decide +kernel, rfl, rfl, rfl⟩

/-- Two level rows and one cost row, of which only the first makes an enabled level. -/
theorem ofRows_evenLevels :
    (ofRows evenSkill [.record novice, .record adept] [.record noviceCost] moreBlocks oneLevel).outcome =
      .ok evenLevels ∧
    evenLevels.filter GemLevel.enabled = evenLevels.take 1 ∧
    (ofRows evenSkill [.record novice] [.record noviceCost, .null] moreBlocks oneLevel).outcome =
      .ok (evenLevels.take 1) := by
  have hlevels : (ofRows evenSkill [.record novice, .record adept] [.record noviceCost] moreBlocks
      oneLevel).outcome = .ok evenLevels := by
    refine ofRows_eq_ok.mpr ⟨rfl, fun place result hresult => ?_⟩
    match place, hresult with
    | 0, hresult => exact ⟨novice, rfl, isLevel_novice hresult⟩
    | 1, hresult => exact ⟨adept, rfl, isLevel_adept hresult⟩
  obtain ⟨-, -, henabled, -, htake⟩ := ofRows_positional hlevels
  exact ⟨hlevels, henabled, htake 1 [.record noviceCost, .null] rfl⟩

end Progression

end GemScribe
