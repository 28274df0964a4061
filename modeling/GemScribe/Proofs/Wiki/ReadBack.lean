import GemScribe.Proofs.Number.Shown
import GemScribe.Proofs.Outcome
import GemScribe.Proofs.Text.Lines
import GemScribe.Proofs.Text.Signs
import GemScribe.Proofs.Wiki.Table

/-!
Reading wiki parameters back.

A key has neither blanks nor an equals sign, so that the first equals sign of a line is the one between the
key and the value, whatever the value has in it and however far the key is filled up. A value without
line breaks stays on its line. So the lines are those of the parameters, as long as all of them can be
written: a whole number can be only when there is a binary64 number near it, and the number of a level when it
has not too many digits.
-/

namespace GemScribe.Wiki

/-! ### Reading -/

/-- What stands before and after the first occurrence of a part that is not empty. -/
def cut? (part : Text) : Text → Option (Text × Text)
  | [] => none
  | c :: t =>
    match Text.dropStart? part (c :: t) with
    | some rest => some ([], rest)
    | none => (cut? part t).map fun sides => (c :: sides.1, sides.2)

/-- The key and the value on a line: what stands before the first equals sign between spaces, without the
bar in front and the spaces around it, and what stands after it. -/
def readLine (t : Text) : Option (Text × Text) :=
  (cut? " = ".toList t).map fun sides => (Text.strip (sides.1.drop 1), sides.2)

/-- The line begins with a bar, and the parameter is read off it, with its value as it is written. -/
def ReadsBack (p : Parameter) (t : Text) : Prop :=
  ∃ value, valueText p.2 = .ok value ∧ t.head? = some '|' ∧ readLine t = some (p.1, value)

/-- The line gives back the key, with the value that stands under it. -/
def Shows (separator : Text) (skill : Skill) (key t : Text) : Prop :=
  ∃ d, Stands separator skill key d ∧ ReadsBack (key, d) t

/-- The texts in the record of a skill that become values. -/
def textFields (skill : Skill) : List Text :=
  [skill.skillId, skill.name] ++ skill.metadataId.toList ++ skill.classId.toList ++
    [skill.gemDescription, skill.itemClassRestriction] ++ skill.staticCostTypes.toList ++
    [skill.statText, skill.constantStatText] ++
    (skill.qualityStats.flatMap fun stat => [stat.statText, stat.statId]) ++
    skill.progression.flatMap fun row =>
      [row.statText, row.additionalStatText] ++ row.stats.map Observation.id

variable {separator start t key value text : Text} {skill : Skill} {d : Datum}

/-! ### One line -/

theorem dropStart?_equals {c : Char} (h : t.head? ≠ some '=') :
    Text.dropStart? " = ".toList (c :: t) = none := by
  change Text.dropStart? [' ', '=', ' '] (c :: t) = none
  cases t with
  | nil => simp [Text.dropStart?]
  | cons d t =>
    have hd : '=' ≠ d := fun heq => h (by rw [heq]; rfl)
    simp [Text.dropStart?, hd]

theorem cut?_append : ∀ {start : Text}, '=' ∉ start → ∀ value : Text,
    cut? " = ".toList (start ++ (" = ".toList ++ value)) = some (start, value)
  | [], _, value => by
      have hfound := Text.dropStart?_append " = ".toList value
      change Text.dropStart? " = ".toList (' ' :: '=' :: ' ' :: value) = some value at hfound
      change cut? " = ".toList (' ' :: '=' :: ' ' :: value) = some ([], value)
      rw [cut?, hfound]
  | c :: start, h, value => by
      rw [List.mem_cons, not_or] at h
      have hnext : (start ++ (" = ".toList ++ value)).head? ≠ some '=' := by
        cases start with
        | nil => exact fun heq => absurd (Option.some.inj heq) (by decide)
        | cons d start =>
          intro heq
          exact h.2 (Option.some.inj heq ▸ List.mem_cons_self)
      rw [List.cons_append, cut?, dropStart?_equals hnext, cut?_append h.2 value]
      rfl

/-- A parameter is read off its line, whatever its value. -/
theorem readLine_line (hkey : Spelled key) (value : Text) :
    readLine (Text.padRight keyWidth ' ' ('|' :: key) ++ " = ".toList ++ value) = some (key, value) := by
  have hchars : ∀ c ∈ keyChars, c ≠ '=' ∧ Text.isBlank c = false :=
    Text.forall_mem_of_all (by decide +kernel)
  have hequals : '=' ∉ Text.padRight keyWidth ' ' ('|' :: key) := by
    rw [Text.padRight, List.mem_append, List.mem_cons, List.mem_replicate, not_or, not_or]
    exact ⟨⟨by decide, fun h => (hchars _ (hkey _ h)).1 rfl⟩, fun h => absurd h.2 (by decide)⟩
  rw [readLine, List.append_assoc, cut?_append hequals, Option.map_some, Text.padRight,
    List.cons_append, List.drop_one, List.tail_cons]
  exact congrArg (fun key => some (key, value)) (Text.trim_append_replicate (by decide)
    (fun c hc => (hchars c (hkey c hc)).2) _)

/-! ### Values -/

/-- A value that is written without line breaks. -/
def OneLine : Datum → Prop
  | .null | .bool _ | .number _ => True
  | .text t => '\n' ∉ t
  | .list _ | .record _ => False

theorem newline_not_mem_of_oneLine (hd : OneLine d) (h : valueText d = .ok value) : '\n' ∉ value := by
  cases d with
  | null =>
    rw [← Except.ok.inj h]
    decide
  | bool b =>
    rw [← Except.ok.inj h]
    cases b <;> decide
  | number q =>
    intro hmem
    exact absurd (Quantity.mem_shownChars_of_display h _ hmem) (by decide)
  | text t =>
    rw [← Except.ok.inj h]
    exact hd
  | list ds => exact hd.elim
  | record fields => exact hd.elim

/-- All values can be written but whole numbers with no binary64 number near them. -/
theorem exists_valueText_iff : (∃ value, valueText d = .ok value) ↔
    ∀ i, d = .number (.whole i) → ∃ x, Quantity.nearest i = .ok x := by
  constructor
  · rintro ⟨value, h⟩ i rfl
    exact (Quantity.nearest_of_display_whole h).1
  · intro h
    cases d with
    | number q =>
      cases q with
      | whole i =>
        obtain ⟨x, hx⟩ := h i rfl
        exact ⟨intText i, by rw [valueText, Quantity.display, hx]⟩
      | real x => exact ⟨x.display, rfl⟩
    | null => exact ⟨_, rfl⟩
    | bool b => exact ⟨_, rfl⟩
    | text t => exact ⟨_, rfl⟩
    | list ds => exact ⟨_, rfl⟩
    | record fields => exact ⟨_, rfl⟩

/-! ### Links and joined texts -/

theorem mem_of_mem_expandFrom {at? : Text → Option (Text × Nat)}
    (h : ∀ {t new length}, at? t = some (new, length) → new ⊆ t) {c : Char} :
    ∀ {skip : Nat} {t : Text}, c ∈ Text.expandFrom at? skip t → c ∈ t
  | 0, [], hc => by simp [Text.expandFrom] at hc
  | skip + 1, [], hc => by simp [Text.expandFrom] at hc
  | skip + 1, d :: t, hc => by
      rw [Text.expandFrom] at hc
      exact List.mem_cons_of_mem d (mem_of_mem_expandFrom h hc)
  | 0, d :: t, hc => by
      rw [Text.expandFrom] at hc
      split at hc
      · next new length hnew =>
        rcases List.mem_append.mp hc with hc | hc
        · exact h hnew hc
        · exact List.mem_cons_of_mem d (mem_of_mem_expandFrom h hc)
      · rcases List.mem_cons.mp hc with rfl | hc
        · exact List.mem_cons_self
        · exact List.mem_cons_of_mem d (mem_of_mem_expandFrom h hc)

theorem subset_of_aliased? {new : Text} {length : Nat} (h : Link.aliased? t = some (new, length)) :
    new ⊆ t := by
  unfold Link.aliased? at h
  split at h
  · next t =>
    dsimp only at h
    split at h
    · next rest hrest =>
      split at h
      · obtain ⟨rfl, -⟩ := Prod.mk.inj (Option.some.inj h)
        intro c hc
        have hmem : c ∈ '|' :: rest :=
          List.mem_cons_of_mem _ ((List.takeWhile_sublist _).subset hc)
        rw [← hrest] at hmem
        exact List.mem_cons_of_mem _ ((List.dropWhile_sublist _).subset hmem)
      · cases h
    · cases h
  · cases h

theorem subset_of_plain? {new : Text} {length : Nat} (h : Link.plain? t = some (new, length)) :
    new ⊆ t := by
  unfold Link.plain? at h
  split at h
  · next t =>
    dsimp only at h
    split at h
    · obtain ⟨rfl, -⟩ := Prod.mk.inj (Option.some.inj h)
      exact fun c hc => List.mem_cons_of_mem _ ((List.takeWhile_sublist _).subset hc)
    · cases h
  · cases h

/-- A text without its links has no other characters. -/
theorem oneLine_unlinked (h : '\n' ∉ t) : OneLine (unlinked t) :=
  fun hmem => h (mem_of_mem_expandFrom subset_of_aliased? (mem_of_mem_expandFrom subset_of_plain? hmem))

theorem not_mem_join {c : Char} (hseparator : c ∉ separator) : ∀ {ts : List Text},
    (∀ t ∈ ts, c ∉ t) → c ∉ Text.join separator ts
  | [], _ => List.not_mem_nil
  | [t], h => by
      rw [Text.join, List.intercalate_singleton]
      exact h t List.mem_cons_self
  | t :: t' :: ts, h => by
      rw [List.forall_mem_cons] at h
      rw [Text.join, List.intercalate_cons_of_ne_nil (List.cons_ne_nil _ _), List.mem_append,
        List.mem_append, not_or, not_or]
      exact ⟨⟨h.1, hseparator⟩, not_mem_join hseparator h.2⟩

/-! ### The values of a skill -/

theorem oneLine_ofText? {o : Option Text} (h : ∀ t ∈ o.toList, '\n' ∉ t) : OneLine (ofText? o) := by
  cases o with
  | none => trivial
  | some t => exact h t (by simp)

theorem oneLine_ofWhole? (o : Option ℤ) : OneLine (ofWhole? o) := by
  cases o <;> trivial

theorem oneLine_ofReal? (o : Option Binary64) : OneLine (ofReal? o) := by
  cases o <;> trivial

theorem oneLine_qualityParameters {stat : QualityStat} (htext : '\n' ∉ stat.statText)
    (hid : '\n' ∉ stat.statId) (place : Nat) : ∀ p ∈ qualityParameters stat place, OneLine p.2 := by
  simp only [qualityParameters, List.forall_mem_cons]
  exact ⟨oneLine_unlinked htext, hid, List.forall_mem_nil _⟩

theorem oneLine_writtenLevel {row : GemLevel} (hseparator : '\n' ∉ separator)
    (htext : '\n' ∉ row.statText) (hadditional : '\n' ∉ row.additionalStatText)
    (hids : ∀ t ∈ row.stats.map Observation.id, '\n' ∉ t) :
    ∀ p ∈ writtenLevel separator row, OneLine p.2 := by
  have hboth : '\n' ∉ levelText separator row := by
    refine not_mem_join hseparator fun t ht => ?_
    have hall : ∀ t ∈ [row.statText, row.additionalStatText], '\n' ∉ t := by
      simp [htext, hadditional]
    exact hall t (List.mem_of_mem_filter ht)
  rw [writtenLevel, levelParameters, List.forall_mem_append]
  constructor
  · simp only [List.forall_mem_cons]
    exact ⟨trivial, trivial, oneLine_ofWhole? _, trivial, oneLine_unlinked hboth,
      List.forall_mem_nil _⟩
  · intro p hp
    obtain ⟨ps, hps, hp⟩ := List.mem_flatten.mp hp
    obtain ⟨entry, hentry, rfl⟩ := List.mem_map.mp hps
    have hid := hids _ (List.mem_map_of_mem (List.fst_mem_of_mem_zipIdx hentry))
    simp only [statParameters, List.mem_cons, List.not_mem_nil, or_false] at hp
    rcases hp with rfl | rfl
    · exact hid
    · trivial

/-- No value of a skill without line breaks in its texts has one. -/
theorem oneLine_parameters (h : ∀ t ∈ separator :: textFields skill, '\n' ∉ t) :
    ∀ p ∈ parameters separator skill, OneLine p.2 := by
  simp only [textFields, List.forall_mem_cons, List.forall_mem_append, List.forall_mem_flatMap] at h
  obtain ⟨hseparator, ⟨⟨⟨⟨⟨⟨⟨hid, hname, -⟩, hmetadata⟩, hclass⟩, hdescription, hrestriction, -⟩,
    hcost⟩, htext, hconstant, -⟩, hquality⟩, hlevels⟩ := h
  rw [parameters, skillParameters, List.forall_mem_append, List.forall_mem_append, List.forall_mem_append]
  refine ⟨⟨⟨?_, ?_⟩, ?_⟩, ?_⟩
  · simp only [staticParameters, List.forall_mem_cons]
    exact ⟨hid, hname, oneLine_ofText? hmetadata, oneLine_ofText? hclass, oneLine_ofWhole? _,
      oneLine_ofWhole? _, oneLine_ofWhole? _, trivial, trivial, trivial, hdescription, hrestriction,
      oneLine_ofReal? _, oneLine_ofText? hcost, oneLine_ofReal? _, oneLine_unlinked htext,
      List.forall_mem_nil _⟩
  · rw [constantParameters]
    split
    · exact List.forall_mem_nil _
    · rw [List.forall_mem_singleton]
      exact oneLine_unlinked hconstant
  · intro p hp
    obtain ⟨ps, hps, hp⟩ := List.mem_flatten.mp hp
    obtain ⟨entry, hentry, rfl⟩ := List.mem_map.mp hps
    obtain ⟨hstat, hstatId, -⟩ := hquality _ (List.fst_mem_of_mem_zipIdx hentry)
    exact oneLine_qualityParameters hstat hstatId entry.2 p hp
  · intro p hp
    obtain ⟨row, hrow, hp⟩ := List.mem_flatMap.mp hp
    obtain ⟨⟨hrowText, hadditional, -⟩, hids⟩ := hlevels row hrow
    exact oneLine_writtenLevel hseparator hrowText hadditional hids p hp

/-! ### All lines -/

theorem exists_writeAll_iff : ∀ {ps : List Parameter},
    (∃ text, writeAll ps = .ok text) ↔ ∀ p ∈ ps, ∃ value, valueText p.2 = .ok value
  | [] => by simp [writeAll]
  | (key, d) :: ps => by
      have ih := @exists_writeAll_iff ps
      rw [List.forall_mem_cons, ← ih, writeAll]
      simp only [bind_eq_ok]
      constructor
      · rintro ⟨_, value, hvalue, text, htext, -⟩
        exact ⟨⟨value, hvalue⟩, ⟨text, htext⟩⟩
      · rintro ⟨⟨value, hvalue⟩, ⟨text, htext⟩⟩
        exact ⟨_, value, hvalue, text, htext, rfl⟩

/-- Parameters are written on a line each, in their order, and read off these lines. -/
theorem pieces_writeAll : ∀ {ps : List Parameter} {text : Text},
    (∀ p ∈ ps, Spelled p.1) → (∀ p ∈ ps, OneLine p.2) → writeAll ps = .ok text →
      ∃ lines, Text.pieces (· = '\n') text = lines ++ [[]] ∧ List.Forall₂ ReadsBack ps lines
  | [], text, _, _, h => by
      rw [← Except.ok.inj h]
      exact ⟨[], rfl, .nil⟩
  | (key, d) :: ps, text, hkeys, hvalues, h => by
      rw [List.forall_mem_cons] at hkeys hvalues
      rw [writeAll, bind_eq_ok] at h
      obtain ⟨value, hvalue, h⟩ := h
      obtain ⟨rest, hrest, h⟩ := bind_eq_ok.mp h
      obtain ⟨lines, hlines, hread⟩ := pieces_writeAll hkeys.2 hvalues.2 hrest
      set body := Text.padRight keyWidth ' ' ('|' :: key) ++ " = ".toList ++ value with hbody
      have hchars : ∀ c ∈ keyChars, c ≠ '\n' := Text.forall_mem_of_all (by decide)
      have hbreak : '\n' ∉ body := by
        rw [hbody, Text.padRight, List.mem_append, List.mem_append, List.mem_append, List.mem_cons,
          List.mem_replicate, not_or, not_or, not_or, not_or]
        exact ⟨⟨⟨⟨by decide, fun hmem => hchars _ (hkeys.1 _ hmem) rfl⟩, fun hmem => absurd hmem.2
          (by decide)⟩, by decide⟩, newline_not_mem_of_oneLine hvalues.1 hvalue⟩
      refine ⟨body :: lines, ?_, .cons ⟨value, hvalue, rfl, readLine_line hkeys.1 value⟩ hread⟩
      rw [← Except.ok.inj h, line, List.append_assoc, List.singleton_append, ← hbody,
        Text.pieces_append_cons (by decide), hlines, Text.pieces_of_forall_not]
      · rfl
      · exact fun c hc => decide_eq_false fun heq => hbreak (heq ▸ hc)

/-! ### The text of a skill -/

theorem writeAll_append : ∀ {ps qs : List Parameter} {text : Text},
    writeAll (ps ++ qs) = .ok text ↔ ∃ s t, writeAll ps = .ok s ∧ writeAll qs = .ok t ∧ text = s ++ t
  | [], qs, text => by simp [writeAll]
  | (key, d) :: ps, qs, text => by
      simp only [List.cons_append, writeAll, bind_eq_ok, writeAll_append]
      constructor
      · rintro ⟨value, hvalue, _, ⟨s, t, hs, ht, rfl⟩, h⟩
        refine ⟨_, t, ⟨value, hvalue, s, hs, rfl⟩, ht, ?_⟩
        rw [← Except.ok.inj h, List.append_assoc]
      · rintro ⟨_, t, ⟨value, hvalue, s, hs, h⟩, ht, rfl⟩
        refine ⟨value, hvalue, _, ⟨s, t, hs, ht, rfl⟩, ?_⟩
        rw [← Except.ok.inj h, List.append_assoc]
        rfl

/-- The number of the level has not too many digits. -/
def IsShort (row : GemLevel) : Prop :=
  row.level.natAbs < 10 ^ longestNumeral

theorem levelStart_eq_ok {row : GemLevel} :
    levelStart row = .ok start ↔ IsShort row ∧ "level".toList ++ intText row.level = start := by
  rw [levelStart, bind_eq_ok]
  simp only [writeInt_eq_ok]
  constructor
  · rintro ⟨_, ⟨hshort, rfl⟩, h⟩
    exact ⟨hshort, Except.ok.inj h⟩
  · rintro ⟨hshort, rfl⟩
    exact ⟨_, ⟨hshort, rfl⟩, rfl⟩

/-- Levels are written when their numbers are short and their parameters can be. -/
theorem writeLevels_eq_ok : ∀ {rows : List GemLevel} {text : Text}, writeLevels separator rows = .ok text ↔
    (∀ row ∈ rows, IsShort row) ∧ writeAll (rows.flatMap (writtenLevel separator)) = .ok text
  | [], text => by simp [writeLevels, writeAll]
  | row :: rows, text => by
      rw [List.flatMap_cons, List.forall_mem_cons, writeAll_append, writeLevels]
      simp only [bind_eq_ok, levelStart_eq_ok, writeLevels_eq_ok]
      constructor
      · rintro ⟨_, ⟨hshort, rfl⟩, s, hs, t, ⟨hall, ht⟩, h⟩
        exact ⟨⟨hshort, hall⟩, s, t, hs, ht, (Except.ok.inj h).symm⟩
      · rintro ⟨⟨hshort, hall⟩, s, t, hs, ht, rfl⟩
        exact ⟨_, ⟨hshort, rfl⟩, s, hs, t, ⟨hall, ht⟩, rfl⟩

theorem render_eq_ok : render separator skill = .ok text ↔
    (∀ row ∈ skill.progression, IsShort row) ∧ writeAll (parameters separator skill) = .ok text := by
  rw [parameters, writeAll_append, render]
  simp only [bind_eq_ok, writeLevels_eq_ok]
  constructor
  · rintro ⟨s, hs, t, ⟨hall, ht⟩, h⟩
    exact ⟨hall, s, t, hs, ht, (Except.ok.inj h).symm⟩
  · rintro ⟨hall, s, t, hs, ht, rfl⟩
    exact ⟨s, hs, t, ⟨hall, ht⟩, rfl⟩

/-- A text is written when the numbers of levels are short and every whole number that stands somewhere has a
binary64 number near it. -/
theorem exists_render_iff : (∃ text, render separator skill = .ok text) ↔
    (∀ row ∈ skill.progression, IsShort row) ∧
      ∀ key i, Stands separator skill key (.number (.whole i)) → ∃ x, Quantity.nearest i = .ok x := by
  simp only [render_eq_ok, exists_and_left, exists_writeAll_iff, exists_valueText_iff, mem_parameters_iff]
  refine and_congr_right fun _ => ?_
  constructor
  · intro h key i hi
    exact h (key, _) hi i rfl
  · rintro h ⟨key, _⟩ hd i rfl
    exact h key i hd

theorem hasHalf_line_append (key value rest : Text) :
    Text.hasHalf (line key value ++ rest) =
      (Text.hasHalf (Text.padRight keyWidth ' ' ('|' :: key) ++ " =".toList) ||
        (Text.hasHalf value || Text.hasHalf rest)) := by
  have hline : line key value ++ rest =
      (Text.padRight keyWidth ' ' ('|' :: key) ++ " =".toList) ++ ' ' :: (value ++ '\n' :: rest) := by
    simp [line]
  rw [hline, Text.hasHalf_append_cons (by decide), Text.hasHalf_append_cons (by decide)]

theorem hasHalf_of_writeAll (hvalue : valueText d = .ok value) (hhalf : Text.hasHalf value = true) :
    ∀ {ps : List Parameter} {text : Text}, writeAll ps = .ok text → (key, d) ∈ ps → Text.hasHalf text = true
  | [], _, _, hmem => absurd hmem List.not_mem_nil
  | (key', d') :: ps, text, h, hmem => by
      rw [writeAll, bind_eq_ok] at h
      obtain ⟨value', hvalue', h⟩ := h
      obtain ⟨rest, hrest, h⟩ := bind_eq_ok.mp h
      rw [← Except.ok.inj h, hasHalf_line_append]
      rcases List.mem_cons.mp hmem with heq | hmem
      · obtain ⟨rfl, rfl⟩ := Prod.mk.inj heq
        rw [hvalue] at hvalue'
        rw [← Except.ok.inj hvalue', hhalf, Bool.true_or, Bool.or_true]
      · rw [hasHalf_of_writeAll hvalue hhalf hrest hmem, Bool.or_true, Bool.or_true]

/-- A half in a value that stands in the table is in the text. -/
theorem hasHalf_of_render (hrender : render separator skill = .ok text) (hstands : Stands separator skill key d)
    (hvalue : valueText d = .ok value) (hhalf : Text.hasHalf value = true) : Text.hasHalf text = true :=
  hasHalf_of_writeAll hvalue hhalf (render_eq_ok.mp hrender).2 (mem_parameters_of_stands hstands)

/-- Wiki parameters can be read back. A skill with different levels, requirements for attributes only and no
line breaks in its texts has one value under each of its keys, and no key twice. Its text is written
exactly when there is a binary64 number near each of the whole numbers and no level has too many digits, and then has
a line for each key and nothing after the last line break; each line begins with a bar and gives back the key and
the value that stands under it, as it is written. -/
theorem render_readsBack {separator : Text} {skill : Skill}
    (hlevels : (skill.progression.map GemLevel.level).Nodup)
    (hattributes : ∀ row ∈ skill.progression, row.attributeName ∈ attributes)
    (htexts : ∀ t ∈ separator :: textFields skill, '\n' ∉ t) :
    (keys skill).Nodup ∧
    (keys skill).length =
      16 + (if skill.constantStatText.isEmpty then 0 else 1) + 2 * skill.qualityStats.length +
        (skill.progression.map fun row => 5 + 2 * row.stats.length).sum ∧
    (∀ key d, Stands separator skill key d → key ∈ keys skill) ∧
    (∀ key ∈ keys skill, ∃! d, Stands separator skill key d) ∧
    ((∃ text, render separator skill = .ok text) ↔
      (∀ row ∈ skill.progression, row.level.natAbs < 10 ^ longestNumeral) ∧
        ∀ key i, Stands separator skill key (.number (.whole i)) → ∃ x, Quantity.nearest i = .ok x) ∧
    ∀ text, render separator skill = .ok text →
      ∃ lines, Text.pieces (· = '\n') text = lines ++ [[]] ∧
        List.Forall₂ (Shows separator skill) (keys skill) lines := by
  have hnodup := nodup_keys hlevels hattributes
  refine ⟨hnodup, length_keys skill, fun key d h => ?_, fun key => existsUnique_stands hnodup, exists_render_iff,
    fun text htext => ?_⟩
  · rw [← map_fst_parameters separator]
    exact List.mem_map_of_mem (f := Prod.fst) (mem_parameters_of_stands h)
  · have hspelled : ∀ p ∈ parameters separator skill, Spelled p.1 := by
      intro p hp
      have hkey := List.mem_map_of_mem (f := Prod.fst) hp
      rw [map_fst_parameters] at hkey
      exact spelled_of_mem_keys hattributes hkey
    obtain ⟨lines, hlines, hread⟩ :=
      pieces_writeAll hspelled (oneLine_parameters htexts) (render_eq_ok.mp htext).2
    refine ⟨lines, hlines, ?_⟩
    rw [← map_fst_parameters separator, List.forall₂_map_left_iff]
    exact ((List.forall₂_and_left _ _).mpr ⟨stands_of_mem_parameters, hread⟩).imp fun p t h => ⟨p.2, h⟩

/-- A skill with that width and those levels, and nothing else. -/
def sized (width : ℤ) (levels : List GemLevel) : Skill :=
  ⟨[], [], none, none, some width, none, 0, 0, 0, none, none, none, none, none, [], [], [], [], [], [],
    levels⟩

/-- A level whose text has an equals sign and a bar in it, and whose stat has a long id. -/
def oddLevel (level : ℤ) : GemLevel :=
  ⟨level, true, 1, none, "strength".toList, 8,
    [⟨"active_skill_base_area_of_effect_radius_in_centimetres".toList, .ofInt 20⟩], [],
    "[Radius|Area] = 20 |".toList, []⟩

/-- The text of a skill with two such levels is written and read back. -/
theorem render_oddLevels :
    ((sized 2 [oddLevel 1, oddLevel 11]).progression.map GemLevel.level).Nodup ∧
    (∀ row ∈ (sized 2 [oddLevel 1, oddLevel 11]).progression, row.attributeName ∈ attributes) ∧
    (∀ t ∈ "<br>".toList :: textFields (sized 2 [oddLevel 1, oddLevel 11]), '\n' ∉ t) ∧
    ∃ text lines, render "<br>".toList (sized 2 [oddLevel 1, oddLevel 11]) = .ok text ∧
      Text.pieces (· = '\n') text = lines ++ [[]] ∧
        List.Forall₂ (Shows "<br>".toList (sized 2 [oddLevel 1, oddLevel 11]))
          (keys (sized 2 [oddLevel 1, oddLevel 11])) lines := by
  have hlevels : ((sized 2 [oddLevel 1, oddLevel 11]).progression.map GemLevel.level).Nodup := by decide
  have hattributes : ∀ row ∈ (sized 2 [oddLevel 1, oddLevel 11]).progression,
      row.attributeName ∈ attributes := by decide
  have htexts : ∀ t ∈ "<br>".toList :: textFields (sized 2 [oddLevel 1, oddLevel 11]), '\n' ∉ t := by
    decide
  refine ⟨hlevels, hattributes, htexts, ?_⟩
  have hwritten : (render "<br>".toList (sized 2 [oddLevel 1, oddLevel 11])).isOk = true := by decide +kernel
  obtain ⟨-, -, -, -, -, hread⟩ := render_readsBack hlevels hattributes htexts
  cases htext : render "<br>".toList (sized 2 [oddLevel 1, oddLevel 11]) with
  | error fault =>
    rw [htext] at hwritten
    cases hwritten
  | ok text =>
    obtain ⟨lines, hlines, hshows⟩ := hread text htext
    exact ⟨text, lines, rfl, hlines, hshows⟩

/-- A width with no binary64 number near it is not written, although its digits would fit on a line. -/
theorem render_immenseWidth :
    ((sized (10 ^ 200 * 10 ^ 200) []).progression.map GemLevel.level).Nodup ∧
    (∀ row ∈ (sized (10 ^ 200 * 10 ^ 200) []).progression, row.attributeName ∈ attributes) ∧
    (∀ t ∈ "<br>".toList :: textFields (sized (10 ^ 200 * 10 ^ 200) []), '\n' ∉ t) ∧
    render "<br>".toList (sized (10 ^ 200 * 10 ^ 200) []) = .error .outOfRange := by
  decide +kernel

end GemScribe.Wiki
