import GemScribe.Proofs.Number.Numeral
import GemScribe.Proofs.Outcome
import GemScribe.Proofs.Text.Lines
import GemScribe.Stat.Block

/-!
When a description file can be read.

Whatever its lines are, a file falls into sections, and every section is a block. One thing only can go
wrong on the way: the first line of digits in a block is read as a number, and a number is read from at
most 4300 digits. `parse_returns_iff` says that a file is read exactly when each of its count lines keeps
to that limit.
-/

namespace GemScribe.Block

/-! ### Sections -/

section Sections

variable {line : Text} {rest front : List Text}

theorem sections_cons_of_marker (h : isMarker line) :
    sections (line :: rest) = ([], (sections rest).1 :: (sections rest).2) := by
  simp [sections, h]

theorem sections_cons_of_not_marker (h : isMarker line = false) :
    sections (line :: rest) = (line :: (sections rest).1, (sections rest).2) := by
  simp [sections, h]

/-- Lines without a marker belong to what stands before the first marker. -/
theorem sections_append (h : ∀ l ∈ front, isMarker l = false) (rest : List Text) :
    sections (front ++ rest) = (front ++ (sections rest).1, (sections rest).2) := by
  induction front with
  | nil => rfl
  | cons l front ih =>
    rw [List.forall_mem_cons] at h
    rw [List.cons_append, sections_cons_of_not_marker h.1, ih h.2, List.cons_append]

/-- What stands before the first marker goes on to that marker, or to the end. -/
theorem exists_eq_sections_fst_append (ls : List Text) : ∃ later, ls = (sections ls).1 ++ later ∧
    (∀ l ∈ (sections ls).1, isMarker l = false) ∧ ∀ l ∈ later.head?, isMarker l := by
  induction ls with
  | nil => exact ⟨[], rfl, by simp [sections], by simp⟩
  | cons l ls ih =>
    by_cases h : isMarker l
    · exact ⟨l :: ls, by simp [sections_cons_of_marker h], by simp [sections_cons_of_marker h],
        by simpa using h⟩
    · rw [Bool.not_eq_true] at h
      obtain ⟨later, hls, hplain, hlater⟩ := ih
      rw [sections_cons_of_not_marker h]
      exact ⟨later, congrArg (l :: ·) hls, List.forall_mem_cons.mpr ⟨h, hplain⟩, hlater⟩

/-- The lines behind a marker, up to the next marker or the end. -/
def IsSection (ls lines : List Text) : Prop :=
  ∃ earlier m later, ls = earlier ++ m :: (lines ++ later) ∧ isMarker m ∧
    (∀ l ∈ lines, isMarker l = false) ∧ ∀ l ∈ later.head?, isMarker l

theorem IsSection.cons {ls lines : List Text} (h : IsSection ls lines) (l : Text) :
    IsSection (l :: ls) lines := by
  obtain ⟨earlier, m, later, rfl, hrest⟩ := h
  exact ⟨l :: earlier, m, later, rfl, hrest⟩

theorem mem_sections_iff {ls lines : List Text} : lines ∈ (sections ls).2 ↔ IsSection ls lines := by
  constructor
  · intro h
    induction ls with
    | nil => simp [sections] at h
    | cons l ls ih =>
      by_cases hl : isMarker l
      · rw [sections_cons_of_marker hl, List.mem_cons] at h
        rcases h with rfl | h
        · obtain ⟨later, hls, hrest⟩ := exists_eq_sections_fst_append ls
          exact ⟨[], l, later, congrArg (l :: ·) hls, hl, hrest⟩
        · exact (ih h).cons l
      · rw [sections_cons_of_not_marker (Bool.not_eq_true _ ▸ hl)] at h
        exact (ih h).cons l
  · rintro ⟨earlier, m, later, rfl, hm, hlines, hlater⟩
    have hfirst : (sections later).1 = [] := by
      cases later with
      | nil => rfl
      | cons l later => rw [sections_cons_of_marker (hlater l rfl)]
    induction earlier with
    | nil =>
      rw [List.nil_append, sections_cons_of_marker hm, sections_append hlines, hfirst, List.append_nil]
      exact List.mem_cons_self
    | cons l earlier ih =>
      by_cases hl : isMarker l
      · rw [List.cons_append, sections_cons_of_marker hl]
        exact List.mem_cons_of_mem _ ih
      · rw [List.cons_append, sections_cons_of_not_marker (Bool.not_eq_true _ ▸ hl)]
        exact ih

end Sections

/-! ### Counts -/

theorem takeCount_eq (lines : List Text) :
    takeCount lines = (lines.find? isCount, lines.eraseP isCount) := by
  induction lines with
  | nil => rfl
  | cons l lines ih =>
    rw [takeCount, ih]
    by_cases h : isCount l <;> simp [h]

/-- The count line of a block: the first line of digits behind the line that names the stats. -/
def CountLine (ls : List Text) (digits : Text) : Prop :=
  ∃ earlier m idLine between later, ls = earlier ++ m :: idLine :: (between ++ digits :: later) ∧
    isMarker m ∧ (∀ l ∈ idLine :: (between ++ [digits]), isMarker l = false) ∧
    (∀ l ∈ between, isCount l = false) ∧ isCount digits

/-- A count line is the first line of digits of a section without its first line. -/
theorem countLine_iff {ls : List Text} {digits : Text} : CountLine ls digits ↔
    ∃ lines ∈ (sections ls).2, lines.tail.find? isCount = some digits := by
  simp only [mem_sections_iff, IsSection, List.find?_eq_some_iff_append]
  constructor
  · rintro ⟨earlier, m, idLine, between, later, rfl, hm, hplain, hbetween, hdigits⟩
    obtain ⟨next, hlater, hrest, hnext⟩ := exists_eq_sections_fst_append later
    refine ⟨idLine :: (between ++ digits :: (sections later).1),
      ⟨earlier, m, next, ?_, hm, ?_, hnext⟩, hdigits, between, (sections later).1, rfl, by simpa⟩
    · conv_lhs => rw [hlater]
      simp
    · intro l hl
      have hmem : l ∈ idLine :: (between ++ [digits]) ∨ l ∈ (sections later).1 := by
        simpa [or_assoc] using hl
      exact hmem.elim (hplain l) (hrest l)
  · rintro ⟨lines, ⟨earlier, m, later, rfl, hm, hplain, -⟩, hdigits, between, rest, htail, hbetween⟩
    cases lines with
    | nil => simp at htail
    | cons idLine lines =>
      obtain rfl : lines = between ++ digits :: rest := htail
      refine ⟨earlier, m, idLine, between, rest ++ later, by simp, hm, fun l hl => hplain l ?_,
        by simpa using hbetween, hdigits⟩
      simp only [List.mem_cons, List.mem_append, List.not_mem_nil, or_false] at hl ⊢
      tauto

/-! ### Blocks -/

section Lines

variable {idLine digits : Text} {lines rest : List Text}

theorem ofLines_of_count_none (h : rest.find? isCount = none) :
    ofLines (idLine :: rest) = .ok ⟨idLine, none, rest⟩ := by
  have hrest : rest.eraseP isCount = rest :=
    List.eraseP_of_forall_not fun l hl => List.find?_eq_none.mp h l hl
  rw [ofLines, takeCount_eq, h, hrest]

theorem ofLines_of_count_some (h : rest.find? isCount = some digits) :
    ofLines (idLine :: rest) =
      (readNat digits).map fun n => ⟨idLine, some n, rest.eraseP isCount⟩ := by
  rw [ofLines, takeCount_eq, h]
  dsimp only
  cases readNat digits <;> rfl

/-- A section is read unless its count line is too long. -/
theorem exists_ofLines_iff : (∃ b, ofLines lines = .ok b) ↔
    ∀ digits, lines.tail.find? isCount = some digits → digits.length ≤ longestNumeral := by
  cases lines with
  | nil => simp [ofLines]
  | cons idLine rest =>
    rw [List.tail_cons]
    cases hcount : rest.find? isCount with
    | none => simp [ofLines_of_count_none hcount]
    | some digits =>
      rw [ofLines_of_count_some hcount]
      simp only [Option.some.injEq, forall_eq']
      constructor
      · rintro ⟨b, hb⟩
        cases h : readNat digits with
        | ok n => exact (readNat_eq_ok.mp h).1
        | error cause => simp [h, Except.map] at hb
      · intro hshort
        rw [readNat_eq_ok.mpr ⟨hshort, rfl⟩]
        exact ⟨_, rfl⟩

theorem ofLines_eq_error {cause : NumberFault} (h : ofLines lines = .error cause) :
    cause = .numeralTooLong := by
  cases lines with
  | nil => cases h
  | cons idLine rest =>
    cases hcount : rest.find? isCount with
    | none =>
      rw [ofLines_of_count_none hcount] at h
      cases h
    | some digits =>
      rw [ofLines_of_count_some hcount] at h
      cases hread : readNat digits with
      | ok n => simp [hread, Except.map] at h
      | error cause' =>
        simp only [hread, Except.map, Except.error.injEq] at h
        exact h ▸ readNat_eq_error hread

end Lines

theorem ofSections_cons (lines : List Text) (rest : List (List Text)) :
    ofSections (lines :: rest) =
      (ofLines lines >>= fun b => ofSections rest >>= fun bs => .ok (b :: bs)) := by
  rw [ofSections]
  cases ofLines lines with
  | error fault => rfl
  | ok b => cases ofSections rest <;> rfl

/-- The blocks of a file are those of its sections, one after another. -/
theorem ofSections_eq_ok {parts : List (List Text)} {bs : List Block} :
    ofSections parts = .ok bs ↔ List.Forall₂ (fun lines b => ofLines lines = .ok b) parts bs := by
  induction parts generalizing bs with
  | nil => simp [ofSections, eq_comm]
  | cons lines rest ih =>
    simp only [ofSections_cons, bind_eq_ok, List.forall₂_cons_left_iff, ih, Except.ok.injEq]
    constructor
    · rintro ⟨b, hb, bs, hbs, rfl⟩
      exact ⟨b, bs, hb, hbs, rfl⟩
    · rintro ⟨b, bs, hb, hbs, rfl⟩
      exact ⟨b, hb, bs, hbs, rfl⟩

theorem exists_ofSections_iff {parts : List (List Text)} :
    (∃ bs, ofSections parts = .ok bs) ↔ ∀ lines ∈ parts, ∃ b, ofLines lines = .ok b := by
  induction parts with
  | nil => simp [ofSections]
  | cons lines rest ih =>
    simp only [ofSections_cons, bind_eq_ok, List.forall_mem_cons, ← ih, Except.ok.injEq]
    constructor
    · rintro ⟨_, b, hb, bs, hbs, -⟩
      exact ⟨⟨b, hb⟩, bs, hbs⟩
    · rintro ⟨⟨b, hb⟩, bs, hbs⟩
      exact ⟨_, b, hb, bs, hbs, rfl⟩

theorem ofSections_eq_error {parts : List (List Text)} {cause : NumberFault}
    (h : ofSections parts = .error cause) : cause = .numeralTooLong := by
  induction parts with
  | nil => cases h
  | cons lines rest ih =>
    rw [ofSections_cons, bind_eq_error] at h
    rcases h with h | ⟨b, -, h⟩
    · exact ofLines_eq_error h
    · rcases bind_eq_error.mp h with h | ⟨bs, -, h⟩
      · exact ih h
      · cases h

/-! ### Files -/

/-- A line of one word is a marker only as the word itself. -/
theorem isMarker_eq_of_forall_not {t : Text} (hne : t ≠ []) (h : ∀ c ∈ t, Text.isBlank c = false) :
    isMarker t = decide (t = marker) := by
  rw [isMarker, Text.words_of_forall_not hne h, List.head?_cons]
  simp

theorem clean_marker : Text.Clean marker :=
  Text.clean_of_forall_not (by decide) (Text.forall_mem_of_all (by decide))

theorem isMarker_marker : isMarker marker := by
  decide

/-- A file that is written with clean lines is read from these lines. -/
theorem parse_join {ls : List Text} (h : ∀ l ∈ ls, Text.Clean l) :
    parse (Text.join ['\n'] ls) = ofSections (sections ls).2 := by
  rw [parse, Text.statements_join h]

theorem digits_spec : ∀ c ∈ "0123456789".toList,
    Text.isDigit c ∧ Text.isBlank c = false ∧ c ∉ marker :=
  Text.forall_mem_of_all (by decide)

/-- A line of digits is read as it stands, is no marker and may be a count line. -/
theorem digits_line {digits : Text} (hne : digits ≠ []) (h : ∀ c ∈ digits, c ∈ "0123456789".toList) :
    Text.Clean digits ∧ isMarker digits = false ∧ isCount digits := by
  have hblank : ∀ c ∈ digits, Text.isBlank c = false := fun c hc => (digits_spec c (h c hc)).2.1
  refine ⟨Text.clean_of_forall_not hne hblank, ?_, ?_⟩
  · obtain ⟨c, rest, rfl⟩ := List.exists_cons_of_ne_nil hne
    rw [isMarker_eq_of_forall_not hne hblank, decide_eq_false_iff_not]
    intro heq
    exact (digits_spec c (h c List.mem_cons_self)).2.2 (heq ▸ List.mem_cons_self)
  · exact List.all_eq_true.mpr fun c hc => (digits_spec c (h c hc)).1

/-- A count line with too many digits is not read. -/
theorem parse_of_long_count {digits : Text} (h : ∀ c ∈ digits, c ∈ "0123456789".toList)
    (hlong : longestNumeral < digits.length) :
    parse ("description\na\n".toList ++ digits) = .error .numeralTooLong := by
  have hne : digits ≠ [] := List.ne_nil_of_length_pos (Nat.zero_lt_of_lt hlong)
  obtain ⟨hclean, hmarker, hcount⟩ := digits_line hne h
  have hlines : ∀ l ∈ [marker, ['a'], digits], Text.Clean l := by
    simp only [List.forall_mem_cons]
    exact ⟨clean_marker, Text.clean_of_forall_not (by decide) (Text.forall_mem_of_all (by decide)),
      hclean, by simp⟩
  have htext : "description\na\n".toList ++ digits = Text.join ['\n'] [marker, ['a'], digits] := by
    have hfront : "description\na\n".toList = marker ++ ['\n', 'a', '\n'] := by decide
    rw [hfront, Text.join, List.intercalate_cons_cons, List.intercalate_cons_cons,
      List.intercalate_singleton]
    simp only [List.append_assoc, List.cons_append, List.nil_append]
  have hplain : sections [['a'], digits] = ([['a'], digits], []) := by
    rw [sections_cons_of_not_marker (by decide), sections_cons_of_not_marker hmarker]
    rfl
  have hread : readNat digits = .error .numeralTooLong := if_pos hlong
  have hfirst : [digits].find? isCount = some digits := by simp [hcount]
  rw [htext, parse_join hlines, sections_cons_of_marker isMarker_marker, hplain, ofSections_cons,
    ofLines_of_count_some hfirst, hread]
  rfl

/-- A file is read unless a count line has more digits than a number is read from, and nothing else can
go wrong. -/
theorem parse_returns_iff (text : Text) :
    ((∃ blocks, parse text = .ok blocks) ↔
      ∀ digits, CountLine (Text.statements text) digits → digits.length ≤ longestNumeral) ∧
    ∀ cause, parse text = .error cause → cause = .numeralTooLong := by
  refine ⟨?_, fun cause => ofSections_eq_error⟩
  rw [parse, exists_ofSections_iff]
  simp only [exists_ofLines_iff, countLine_iff]
  constructor
  · rintro h digits ⟨lines, hlines, hdigits⟩
    exact h lines hlines digits hdigits
  · intro h lines hlines digits hdigits
    exact h digits ⟨lines, hlines, hdigits⟩

/-- A count line with one digit more than a number is read from. -/
theorem parse_fails_on_long_count :
    parse ("description\na\n".toList ++ List.replicate 4301 '1') = .error .numeralTooLong := by
  refine parse_of_long_count (fun c hc => ?_) ?_
  · rw [List.eq_of_mem_replicate hc]
    decide
  · rw [List.length_replicate]
    decide

end GemScribe.Block
