import GemScribe.Proofs.Stat.Reading

/-!
Description files that are written and read again.

The well-formed blocks are those that a file can list: written as a file they are read again as they
were, and whatever is read from a file is well-formed. A line of a written block is read for what it is
because of what stands before it. The first line behind the marker names the stats, whatever it looks
like; the count is the first line of digits behind that; and a template of digits has a count before it.
-/

namespace GemScribe.Block

variable {b : Block} {blocks : List Block}

theorem plainLine_iff {t : Text} : PlainLine t ↔ Text.Clean t ∧ isMarker t = false :=
  ⟨fun h => ⟨⟨h.1, h.2.1, h.2.2.1⟩, h.2.2.2⟩,
    fun h => ⟨h.1.nonempty, h.1.trimmed, h.1.unbroken, h.2⟩⟩

/-! ### Written blocks -/

/-- The lines of a block behind its marker. -/
def body (b : Block) : List Text :=
  b.lines.tail

theorem lines_eq (b : Block) : b.lines = marker :: b.body :=
  rfl

theorem body_of_bare (h : b.WellFormed) (hbare : b.idLine = []) : b.body = [] := by
  obtain ⟨hcount, htemplates⟩ := h.bare hbare
  simp [body, lines, hbare, hcount, htemplates]

theorem body_of_named (hnamed : b.idLine ≠ []) :
    b.body = b.idLine :: ((b.valueCount.map intText).toList ++ b.templates) := by
  simp [body, lines, hnamed]

/-- The count of a well-formed block is written with digits alone, and these are read as the count. -/
theorem WellFormed.exists_count (h : b.WellFormed) {i : ℤ} (hi : b.valueCount = some i) :
    ∃ n : ℕ, i = n ∧ intText i = natText n ∧ readNat (natText n) = .ok n := by
  obtain ⟨hnonneg, hbound⟩ := h.count i hi
  refine ⟨i.natAbs, by omega, ?_, readNat_natText (by omega)⟩
  rw [intText, if_neg (by omega)]

theorem WellFormed.plainLine_of_mem_body (h : b.WellFormed) : ∀ l ∈ b.body, PlainLine l := by
  by_cases hid : b.idLine = []
  · simp [body_of_bare h hid]
  · intro l hl
    rw [body_of_named hid, List.mem_cons, List.mem_append] at hl
    rcases hl with rfl | hl | hl
    · exact h.idLine hid
    · obtain ⟨i, hi, rfl⟩ : ∃ i, b.valueCount = some i ∧ intText i = l := by simpa using hl
      obtain ⟨n, -, htext, -⟩ := h.exists_count hi
      have hline := digits_line (natText_ne_nil n) fun c hc => mem_digits_of_mem_natText hc
      rw [htext, plainLine_iff]
      exact ⟨hline.1, hline.2.1⟩
    · exact h.templates l hl

/-- A well-formed block is read from its own lines. -/
theorem WellFormed.ofLines_body (h : b.WellFormed) : ofLines b.body = .ok b := by
  obtain ⟨idLine, valueCount, templates⟩ := b
  by_cases hid : idLine = []
  · obtain ⟨hcount, htemplates⟩ := h.bare hid
    rw [body_of_bare h hid]
    simp only at hid hcount htemplates
    subst hid hcount htemplates
    rfl
  · rw [body_of_named hid]
    cases valueCount with
    | none =>
      have hnone : templates.find? isCount = none :=
        List.find?_eq_none.mpr fun t ht => by simp [h.uncounted rfl t ht]
      exact ofLines_of_count_none hnone
    | some i =>
      obtain ⟨n, rfl, htext, hread⟩ := h.exists_count rfl
      have hcount : isCount (natText n) :=
        (digits_line (natText_ne_nil n) fun c hc => mem_digits_of_mem_natText hc).2.2
      have hfirst : (natText n :: templates).find? isCount = some (natText n) := by simp [hcount]
      simp only [Option.map_some, Option.toList_some, htext, List.singleton_append]
      rw [ofLines_of_count_some hfirst, hread, List.eraseP_cons_of_pos hcount]
      rfl

/-- The sections of written blocks are their lines. -/
theorem sections_flatMap_lines (h : ∀ b ∈ blocks, b.WellFormed) :
    sections (blocks.flatMap lines) = ([], blocks.map body) := by
  induction blocks with
  | nil => rfl
  | cons b blocks ih =>
    rw [List.forall_mem_cons] at h
    have hplain : ∀ l ∈ b.body, isMarker l = false := fun l hl =>
      (plainLine_iff.mp (h.1.plainLine_of_mem_body l hl)).2
    rw [List.flatMap_cons, lines_eq, List.cons_append, sections_cons_of_marker isMarker_marker,
      sections_append hplain, ih h.2]
    simp

/-- Well-formed blocks are read as they were written. -/
theorem parse_print (h : ∀ b ∈ blocks, b.WellFormed) : parse (print blocks) = .ok blocks := by
  have hclean : ∀ l ∈ blocks.flatMap lines, Text.Clean l := by
    intro l hl
    obtain ⟨b, hb, hl⟩ := List.mem_flatMap.mp hl
    rw [lines_eq, List.mem_cons] at hl
    rcases hl with rfl | hl
    · exact clean_marker
    · exact (plainLine_iff.mp ((h b hb).plainLine_of_mem_body l hl)).1
  rw [print, parse_join hclean, sections_flatMap_lines h, ofSections_eq_ok, List.forall₂_map_left_iff,
    List.forall₂_same]
  exact fun b hb => (h b hb).ofLines_body

/-! ### Blocks that were read -/

/-- What is read from plain lines is well-formed. -/
theorem wellFormed_of_ofLines {ls : List Text} (hls : ∀ l ∈ ls, PlainLine l)
    (h : ofLines ls = .ok b) : b.WellFormed := by
  cases ls with
  | nil =>
    obtain rfl := Except.ok.inj h
    exact {
      idLine := fun h => absurd rfl h
      templates := nofun
      bare := fun _ => ⟨rfl, rfl⟩
      uncounted := nofun
      count := nofun }
  | cons idLine rest =>
    rw [List.forall_mem_cons] at hls
    obtain ⟨hid, hrest⟩ := hls
    cases hcount : rest.find? isCount with
    | none =>
      rw [ofLines_of_count_none hcount] at h
      obtain rfl := Except.ok.inj h
      exact {
        idLine := fun _ => hid
        templates := hrest
        bare := fun hbare => absurd hbare hid.1
        uncounted := fun _ t ht => by simpa using List.find?_eq_none.mp hcount t ht
        count := nofun }
    | some digits =>
      rw [ofLines_of_count_some hcount] at h
      cases hread : readNat digits with
      | error cause => simp [hread, Except.map] at h
      | ok n =>
        rw [hread] at h
        obtain rfl := Except.ok.inj h
        obtain ⟨hshort, hvalue⟩ := readNat_eq_ok.mp hread
        have hbound : n < tenPow longestNumeral := by
          rw [← hvalue, tenPow_eq]
          exact lt_of_lt_of_le (digitsValue_lt digits) (Nat.pow_le_pow_right (by decide) hshort)
        exact {
          idLine := fun _ => hid
          templates := fun t ht => hrest t (List.eraseP_subset ht)
          bare := fun hbare => absurd hbare hid.1
          uncounted := by simp
          count := by
            rintro i ⟨⟩
            omega }

theorem plainLine_of_isSection {text : Text} {ls : List Text}
    (h : IsSection (Text.statements text) ls) : ∀ l ∈ ls, PlainLine l := by
  obtain ⟨earlier, m, later, hlines, -, hplain, -⟩ := h
  intro l hl
  refine plainLine_iff.mpr ⟨Text.clean_of_mem_statements (t := text) ?_, hplain l hl⟩
  simp [hlines, hl]

/-- What is read from a file is well-formed. -/
theorem wellFormed_of_parse {text : Text} (h : parse text = .ok blocks) :
    ∀ b ∈ blocks, b.WellFormed := by
  rw [parse, ofSections_eq_ok] at h
  have hsections : ∀ ls ∈ (sections (Text.statements text)).2, ∀ l ∈ ls, PlainLine l := fun ls hls =>
    plainLine_of_isSection (mem_sections_iff.mp hls)
  generalize (sections (Text.statements text)).2 = parts at h hsections
  induction h with
  | nil => simp
  | cons hb _ ih =>
    rw [List.forall_mem_cons] at hsections ⊢
    exact ⟨wellFormed_of_ofLines hsections.1 hb, ih hsections.2⟩

/-- Reading takes a written file back to its blocks exactly when they are well-formed, and what is read
from any file is well-formed, so that writing and reading it again changes nothing. -/
theorem parse_print_iff_wellFormed (blocks : List Block) :
    (parse (print blocks) = .ok blocks ↔ ∀ b ∈ blocks, b.WellFormed) ∧
      ∀ text, parse text = .ok blocks →
        (∀ b ∈ blocks, b.WellFormed) ∧ parse (print blocks) = .ok blocks := by
  refine ⟨⟨wellFormed_of_parse, parse_print⟩, fun text h => ?_⟩
  have hformed := wellFormed_of_parse h
  exact ⟨hformed, parse_print hformed⟩

/-- A file with a line before its first block, a count behind a template, a template of digits and an
empty block. -/
def untidyFile : Text :=
  "stray\ndescription of\n 2 x y\t\n\n# \x7b0\x7d\n 02\n7\ndescription\n".toList

/-- The blocks of that file. -/
def untidyBlocks : List Block :=
  [⟨"2 x y".toList, some 2, ["# \x7b0\x7d".toList, "7".toList]⟩, ⟨[], none, []⟩]

theorem parse_untidyFile : parse untidyFile = .ok untidyBlocks ∧
    ((∀ b ∈ untidyBlocks, b.WellFormed) ∧ parse (print untidyBlocks) = .ok untidyBlocks) := by
  have hparse : parse untidyFile = .ok untidyBlocks := by decide +kernel
  exact ⟨hparse, (parse_print_iff_wellFormed untidyBlocks).2 untidyFile hparse⟩

end GemScribe.Block
