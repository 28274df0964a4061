import GemScribe.Proofs.Number.WholeText
import GemScribe.Settings

/-!
Settings in the variables of an environment.

Settings are written into four variables, each in its own way: the separator as it stands, the highest gem
level as a numeral, the quality levels as numerals between commas with blanks and empty parts wherever one
likes, and the log level in letters of either case. What else the environment holds does not matter. Settings
that are valid are read from such an environment as they were written, and whatever settings an environment
gives are valid.
-/

namespace GemScribe

/-! ### Blanks around a text -/

/-- A text of nothing but blanks. -/
abbrev Blanks := {t : Text // ∀ c ∈ t, Text.isBlank c}

namespace Text

/-- The blanks around a text without blanks are stripped from it. -/
theorem strip_surrounded (before after : Blanks) {t : Text} (ht : ∀ c ∈ t, isBlank c = false) :
    strip (before.val ++ (t ++ after.val)) = t :=
  trim_surrounded before.property after.property ht

theorem strip_blanks (blanks : Blanks) : strip blanks.val = [] := by
  have hnone : ∀ c ∈ ([] : Text), isBlank c = false := fun _ hc => absurd hc List.not_mem_nil
  have h := strip_surrounded blanks ⟨[], fun _ hc => absurd hc List.not_mem_nil⟩ hnone
  rwa [List.nil_append, List.append_nil] at h

/-! ### Letters of either case -/

/-- The text is a name in letters of either case: each is the letter of the name or its small form. -/
def IsCasingOf (t name : Text) : Prop :=
  List.Forall₂ (fun c letter => c = letter ∨ c = letter.toLower) t name

/-- In capital letters a casing is the name again. -/
theorem upper_of_isCasingOf {t name : Text} (hname : ∀ c ∈ name, c ∈ "ABCDEFGHIJKLMNOPQRSTUVWXYZ".toList)
    (h : IsCasingOf t name) : upper t = name := by
  have hletters : ∀ letter ∈ "ABCDEFGHIJKLMNOPQRSTUVWXYZ".toList,
      mapCase upperRuns upperExpansions letter = [letter] ∧
        mapCase upperRuns upperExpansions letter.toLower = [letter] :=
    forall_mem_of_all (by decide)
  induction h with
  | nil => rfl
  | @cons c letter t name hc _ ih =>
    rw [List.forall_mem_cons] at hname
    have himage : mapCase upperRuns upperExpansions c = [letter] := by
      rcases hc with rfl | rfl
      · exact (hletters c hname.1).1
      · exact (hletters letter hname.1).2
    rw [upper, List.flatMap_cons, himage, ← upper, ih hname.2, List.singleton_append]

end Text

theorem LogLevel.name_mem_capitals (level : LogLevel) :
    ∀ c ∈ level.name, c ∈ "ABCDEFGHIJKLMNOPQRSTUVWXYZ".toList := by
  cases level <;> exact Text.forall_mem_of_all (by decide)

theorem LogLevel.name_of_ofName? {t : Text} {level : LogLevel} (h : ofName? t = some level) : level.name = t := by
  have hfound := List.find?_some h
  simpa using hfound

theorem LogLevel.upper_name (level : LogLevel) : Text.upper level.name = level.name :=
  Text.upper_of_isCasingOf level.name_mem_capitals (List.forall₂_same.mpr fun _ _ => .inl rfl)

theorem LogLevel.mem_all (level : LogLevel) : level ∈ all := by
  cases level <;> decide

namespace Settings

/-! ### Lists of numbers -/

/-- A part of a list of quality levels: a numeral with blanks around it, or blanks only. -/
inductive ListPart where
  | level (before : Blanks) (i : ℤ) (after : Blanks)
  | empty (blanks : Blanks)

namespace ListPart

def text : ListPart → Text
  | level before i after => before.val ++ (intText i ++ after.val)
  | empty blanks => blanks.val

def level? : ListPart → Option ℤ
  | level _ i _ => some i
  | empty _ => none

theorem not_isBlank_of_mem_intText {i : ℤ} : ∀ c ∈ intText i, Text.isBlank c = false ∧ c ≠ ',' := by
  have hall : ∀ c ∈ Text.numeralChars, Text.isBlank c = false ∧ c ≠ ',' := Text.forall_mem_of_all (by decide)
  intro c hc
  exact hall c (mem_numeralChars_of_mem_intText hc)

theorem comma_not_mem_text (part : ListPart) : ∀ c ∈ part.text, c ≠ ',' := by
  have hblanks : ∀ (blanks : Blanks), ∀ c ∈ blanks.val, c ≠ ',' := by
    rintro blanks c hc rfl
    exact absurd (blanks.property _ hc) (by decide)
  cases part with
  | empty blanks => exact hblanks blanks
  | level before i after =>
    intro c hc
    rcases List.mem_append.mp hc with hc | hc
    · exact hblanks before c hc
    · rcases List.mem_append.mp hc with hc | hc
      · exact (not_isBlank_of_mem_intText c hc).2
      · exact hblanks after c hc

/-- Stripped of blanks, a part is its numeral or nothing. -/
theorem strip_text (part : ListPart) : Text.strip part.text = (part.level?.map intText).getD [] := by
  cases part with
  | empty blanks => exact Text.strip_blanks blanks
  | level before i after =>
    exact Text.strip_surrounded before after fun c hc => (not_isBlank_of_mem_intText c hc).1

end ListPart

/-- The parts of a written list are the numerals in it. -/
theorem filter_strip_parts : ∀ parts : List ListPart,
    ((parts.map ListPart.text).map Text.strip).filter (!·.isEmpty) =
      (parts.filterMap ListPart.level?).map intText
  | [] => rfl
  | part :: parts => by
      rw [List.map_cons, List.map_cons, List.filter_cons, filter_strip_parts parts, ListPart.strip_text]
      cases part with
      | empty blanks => rfl
      | level before i after => simp [ListPart.level?, intText_ne_nil]

theorem listParts_join (parts : List ListPart) :
    listParts (Text.join [','] (parts.map ListPart.text)) = (parts.filterMap ListPart.level?).map intText := by
  rcases parts with _ | ⟨part, parts⟩
  · rfl
  · rw [listParts, Text.pieces_join (decide_eq_true rfl) (by simp), filter_strip_parts]
    intro t ht c hc
    obtain ⟨p, -, rfl⟩ := List.mem_map.mp ht
    exact decide_eq_false (p.comma_not_mem_text c hc)

theorem each_asWhole_intText : ∀ {levels : List ℤ} (place : ℕ),
    (∀ i ∈ levels, i.natAbs < 10 ^ longestNumeral) →
      Reading.each Datum.asWhole place (levels.map (.text ∘ intText)) = .fits levels
  | [], _, _ => rfl
  | i :: levels, place, h => by
      rw [List.forall_mem_cons] at h
      rw [List.map_cons, Reading.each, Function.comp_apply, Datum.asWhole_intText h.1,
        each_asWhole_intText (place + 1) h.2]
      rfl

/-! ### Environments -/

/-- An environment in which settings are written. -/
structure WrittenIn (s : Settings) (env : Environment) : Prop where
  distinct : (env.map Prod.fst).Nodup
  separator : ("GEMWIKI_SEPARATOR".toList, s.separator) ∈ env
  maxGemLevel : ("GEMWIKI_MAX_GEM_LEVEL".toList, intText s.maxGemLevel) ∈ env
  qualityLevels : ∃ parts : List ListPart, parts.filterMap ListPart.level? = s.qualityLevels ∧
    ("GEMWIKI_QUALITY_LEVELS".toList, Text.join [','] (parts.map ListPart.text)) ∈ env
  logLevel : ∃ t, Text.IsCasingOf t s.logLevel.name ∧ ("GEMWIKI_LOG_LEVEL".toList, t) ∈ env

variable {s : Settings} {env : Environment}

theorem given?_eq_some {name : String} {t : Text} (hdistinct : (env.map Prod.fst).Nodup)
    (h : (name.toList, t) ∈ env) : given? env name = some t := by
  induction env with
  | nil => exact absurd h List.not_mem_nil
  | cons entry env ih =>
    rw [List.map_cons, List.nodup_cons] at hdistinct
    rcases List.mem_cons.mp h with rfl | h
    · simp [given?]
    · have hne : entry.1 ≠ name.toList := by
        intro heq
        exact hdistinct.1 (heq ▸ List.mem_map_of_mem (f := Prod.fst) h)
      rw [given?, List.find?_cons_of_neg (by simpa using hne)]
      exact ih hdistinct.2 h

theorem nonempty?_eq_some {name : String} {t : Text} (hdistinct : (env.map Prod.fst).Nodup)
    (h : (name.toList, t) ∈ env) (hne : t ≠ []) : nonempty? env name = some t := by
  rw [nonempty?, given?_eq_some hdistinct h, Option.filter_some, if_pos (by simpa using hne)]

/-- A casing of a level's name is read as that level. -/
theorem checkLogLevel_eq_ok {t : Text} {level : LogLevel} :
    checkLogLevel t = .ok level ↔ Text.upper t = level.name := by
  rw [checkLogLevel]
  constructor
  · intro h
    split at h
    · next hlevel => rw [← Except.ok.inj h, LogLevel.name_of_ofName? hlevel]
    · cases h
  · intro h
    rw [h, LogLevel.ofName?_name]

theorem inWords_eq_ok {α β : Type} {test : α → Except Refusal β} {a : α} {b : β} :
    inWords test a = .ok b ↔ test a = .ok b := by
  cases h : test a <;> simp [inWords, h, Except.mapError]

theorem checkGemLevel_eq_ok {i j : ℤ} : checkGemLevel i = .ok j ↔ 1 ≤ i ∧ i = j := by
  rw [checkGemLevel]
  split <;> simp <;> omega

theorem checkQualityLevels_eq_ok {is js : List ℤ} : checkQualityLevels is = .ok js ↔ is ≠ [] ∧ is = js := by
  cases is <;> simp [checkQualityLevels]

/-- What is read of the fields that the variables give. -/
theorem read_eq_fits {fields : Row} {s : Settings} : read (.record fields) = .fits s ↔
    fields.withDefault "separator" standard.separator Datum.asText = .fits s.separator ∧
      fields.withDefault "max_gem_level" standard.maxGemLevel
        (fun d => (Datum.asWhole d).check (inWords checkGemLevel)) = .fits s.maxGemLevel ∧
      fields.withDefault "quality_levels" standard.qualityLevels
        (fun d => (Datum.asSequenceOf Datum.asWhole d).check (inWords checkQualityLevels)) =
          .fits s.qualityLevels ∧
      fields.withDefault "log_level" standard.logLevel
        (fun d => (Datum.asText d).check (inWords checkLogLevel)) = .fits s.logLevel := by
  simp only [read, Datum.asRecord, Reading.seq_eq_fits, Reading.map_eq_fits]
  constructor
  · rintro ⟨_, level, ⟨_, levels, ⟨_, gemLevel, ⟨separator, h₁, rfl⟩, h₂, rfl⟩, h₃, rfl⟩, h₄, rfl⟩
    exact ⟨h₁, h₂, h₃, h₄⟩
  · rintro ⟨h₁, h₂, h₃, h₄⟩
    exact ⟨_, _, ⟨_, _, ⟨_, _, ⟨_, h₁, rfl⟩, h₂, rfl⟩, h₃, rfl⟩, h₄, rfl⟩

theorem outcome_load (env : Environment) :
    (load env).outcome = Fault.ofReading (read (.record (overrides env))) := by
  rw [load]
  split <;> rfl

/-! ### The fields that the variables give -/

theorem find?_field?_append (name : String) (value : Option Datum) (row : Row) (sought : Text) :
    Row.find? (field? name value ++ row) sought =
      if name.toList = sought then value.or (row.find? sought) else row.find? sought := by
  cases value <;> simp [field?, Row.find?]

theorem find?_field? (name : String) (value : Option Datum) (sought : Text) :
    Row.find? (field? name value) sought = if name.toList = sought then value else none := by
  cases value <;> simp [field?, Row.find?]

/-- Each setting has a variable of its own. -/
theorem find?_overrides (env : Environment) :
    (overrides env).find? "separator".toList = (given? env "GEMWIKI_SEPARATOR").map .text ∧
      (overrides env).find? "max_gem_level".toList = (nonempty? env "GEMWIKI_MAX_GEM_LEVEL").map .text ∧
      (overrides env).find? "quality_levels".toList =
        (nonempty? env "GEMWIKI_QUALITY_LEVELS").map (fun t => .list ((listParts t).map .text)) ∧
      (overrides env).find? "log_level".toList = (nonempty? env "GEMWIKI_LOG_LEVEL").map .text := by
  simp [overrides, List.append_assoc, find?_field?_append, find?_field?]

/-! ### The two directions -/

theorem WrittenIn.qualityText_ne_nil {parts : List ListPart} (h : parts.filterMap ListPart.level? ≠ []) :
    Text.join [','] (parts.map ListPart.text) ≠ [] := by
  intro hnil
  have hparts := listParts_join parts
  rw [hnil] at hparts
  exact h (List.map_eq_nil_iff.mp hparts.symm)

/-- Valid settings are read from an environment in which they are written. -/
theorem WrittenIn.outcome_load (h : s.WrittenIn env) (hvalid : s.Valid)
    (hwhole : ∀ i ∈ s.maxGemLevel :: s.qualityLevels, i.natAbs < 10 ^ longestNumeral) :
    (load env).outcome = .ok s := by
  obtain ⟨parts, hparts, hquality⟩ := h.qualityLevels
  obtain ⟨t, ht, hlevel⟩ := h.logLevel
  obtain ⟨hfind₁, hfind₂, hfind₃, hfind₄⟩ := find?_overrides env
  rw [List.forall_mem_cons] at hwhole
  have hne : t ≠ [] := by
    rintro rfl
    have hname := List.forall₂_nil_left_iff.mp ht
    revert hname
    cases s.logLevel <;> decide
  rw [given?_eq_some h.distinct h.separator] at hfind₁
  rw [nonempty?_eq_some h.distinct h.maxGemLevel (intText_ne_nil _)] at hfind₂
  rw [nonempty?_eq_some h.distinct hquality (qualityText_ne_nil (hparts ▸ hvalid.qualityLevels))] at hfind₃
  rw [nonempty?_eq_some h.distinct hlevel hne] at hfind₄
  rw [Settings.outcome_load, Fault.ofReading_eq_ok, read_eq_fits]
  simp only [Row.withDefault_eq_fits, Reading.check_eq_fits, inWords_eq_ok]
  refine ⟨.inr ⟨_, hfind₁, rfl⟩, .inr ⟨_, hfind₂, _, Datum.asWhole_intText hwhole.1, ?_⟩,
    .inr ⟨_, hfind₃, s.qualityLevels, ?_, ?_⟩, .inr ⟨_, hfind₄, t, rfl, ?_⟩⟩
  · exact checkGemLevel_eq_ok.mpr ⟨hvalid.gemLevel, rfl⟩
  · simp only [listParts_join, hparts, List.map_map]
    exact each_asWhole_intText 0 hwhole.2
  · exact checkQualityLevels_eq_ok.mpr ⟨hvalid.qualityLevels, rfl⟩
  · exact checkLogLevel_eq_ok.mpr (Text.upper_of_isCasingOf s.logLevel.name_mem_capitals ht)

/-- Settings that are read are valid. -/
theorem valid_of_load (h : (load env).outcome = .ok s) : s.Valid := by
  rw [outcome_load, Fault.ofReading_eq_ok, read_eq_fits] at h
  obtain ⟨-, hgem, hquality, -⟩ := h
  simp only [Row.withDefault_eq_fits, Reading.check_eq_fits, inWords_eq_ok, checkGemLevel_eq_ok,
    checkQualityLevels_eq_ok] at hgem hquality
  constructor
  · rcases hgem with ⟨-, hgem⟩ | ⟨d, -, i, -, hi, rfl⟩
    · rw [← hgem]
      decide
    · exact hi
  · rcases hquality with ⟨-, hquality⟩ | ⟨d, -, is, -, his, rfl⟩
    · rw [← hquality]
      decide
    · exact his

/-- The log level is the one that the variable names, in capital letters, or else the standard one. -/
theorem logLevel_of_load (h : (load env).outcome = .ok s) :
    s.logLevel.name = Text.upper ((nonempty? env "GEMWIKI_LOG_LEVEL").getD standard.logLevel.name) := by
  obtain ⟨-, -, -, hfind⟩ := find?_overrides env
  rw [outcome_load, Fault.ofReading_eq_ok, read_eq_fits] at h
  obtain ⟨-, -, -, hlevel⟩ := h
  simp only [Row.withDefault_eq_fits, Reading.check_eq_fits, inWords_eq_ok, checkLogLevel_eq_ok, hfind] at hlevel
  cases hgiven : nonempty? env "GEMWIKI_LOG_LEVEL" with
  | none =>
    rw [hgiven] at hlevel
    rcases hlevel with ⟨-, hlevel⟩ | ⟨d, hd, -⟩
    · rw [← hlevel, Option.getD_none, LogLevel.upper_name]
    · cases hd
  | some t =>
    rw [hgiven] at hlevel
    rcases hlevel with ⟨hnone, -⟩ | ⟨d, hd, name, hname, hupper⟩
    · cases hnone
    · cases hd
      cases hname
      exact hupper.symm

/-- Settings survive the environment: an environment in which valid settings are written gives these settings
again, and whatever settings an environment gives are valid, with a known log level under its name in capital
letters. -/
theorem load_round_trip (env : Environment) :
    (∀ s : Settings, s.Valid → (∀ i ∈ s.maxGemLevel :: s.qualityLevels, i.natAbs < 10 ^ longestNumeral) →
      s.WrittenIn env → (load env).outcome = .ok s) ∧
    (∀ s : Settings, (load env).outcome = .ok s → s.Valid ∧ s.logLevel ∈ LogLevel.all ∧
      Text.upper s.logLevel.name = s.logLevel.name ∧
      s.logLevel.name = Text.upper ((nonempty? env "GEMWIKI_LOG_LEVEL").getD standard.logLevel.name)) := by
  constructor
  · intro s hvalid hwhole hwritten
    exact hwritten.outcome_load hvalid hwhole
  · intro s h
    exact ⟨valid_of_load h, s.logLevel.mem_all, s.logLevel.upper_name, logLevel_of_load h⟩

/-- An empty separator, a repeated and a negative quality level, blanks and empty parts in the list, and another
variable besides. -/
theorem load_scattered_environment :
    let s : Settings := ⟨[], 7, [1, -5, 1], .debug⟩
    let env : Environment := [("PATH".toList, "/bin".toList), ("GEMWIKI_LOG_LEVEL".toList, "dEbug".toList),
      ("GEMWIKI_QUALITY_LEVELS".toList, " 1 ,, \t-5,1,".toList), ("GEMWIKI_SEPARATOR".toList, []),
      ("GEMWIKI_MAX_GEM_LEVEL".toList, "7".toList)]
    (load env).outcome = .ok s ∧ s.Valid ∧ s.logLevel.name = "DEBUG".toList := by
  intro s env
  have hvalid : s.Valid := ⟨by decide, by decide⟩
  have hwhole : ∀ i ∈ s.maxGemLevel :: s.qualityLevels, i.natAbs < 10 ^ longestNumeral := by
    have hsmall : ∀ i ∈ s.maxGemLevel :: s.qualityLevels, i.natAbs < 10 ^ 1 := by decide
    have hpow : 10 ^ 1 < 10 ^ longestNumeral := Nat.pow_lt_pow_right (by decide) (by decide)
    intro i hi
    exact (hsmall i hi).trans hpow
  let none : Blanks := ⟨[], by simp⟩
  let one : Blanks := ⟨[' '], Text.forall_mem_of_all (by decide)⟩
  let two : Blanks := ⟨[' ', '\t'], Text.forall_mem_of_all (by decide)⟩
  have hcasing : Text.IsCasingOf "dEbug".toList s.logLevel.name :=
    .cons (.inr rfl) (.cons (.inl rfl) (.cons (.inr rfl) (.cons (.inr rfl) (.cons (.inr rfl) .nil))))
  have hwritten : s.WrittenIn env :=
    { distinct := by decide
      separator := by simp [env, s]
      maxGemLevel := by decide
      qualityLevels :=
        ⟨[.level one 1 one, .empty none, .level two (-5) none, .level none 1 none, .empty none], rfl,
          by decide⟩
      logLevel := ⟨"dEbug".toList, hcasing, by simp [env]⟩ }
  have hload := (load_round_trip env).1 s hvalid hwhole hwritten
  exact ⟨hload, ((load_round_trip env).2 s hload).1, rfl⟩

end Settings

end GemScribe
