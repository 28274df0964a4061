import GemScribe.Proofs.Stat.Cleaning
import GemScribe.Proofs.Stat.Step
import GemScribe.Proofs.Text.Lines

/-!
Rendered lines are in normal form.

Cleaning is the last stage of rendering. Directives go first, marks and quotes next, and what is left is
cut into words, so that neither of them can leave two spaces behind or a space at an end. Words are cut at
every blank, and every character that ends a line is one. Each line of a resolution is one that a template
has rendered: a step keeps some of the lines of its templates and changes none.
-/

namespace GemScribe

/-- A line in normal form: no mark of a condition and no quote, no blank but single spaces, and none of them
at an end. -/
structure Tidy (line : Text) : Prop where
  unmarked : '#' ∉ line
  unquoted : '"' ∉ line
  spaced : ∀ c ∈ line, Text.isBlank c → c = ' '
  single : Text.contains [' ', ' '] line = false
  first : line.head? ≠ some ' '
  last : line.getLast? ≠ some ' '

variable {templates : List Text} {values : List (List Quantity)} {step : ℕ} {line : Text}

/-! ### Templates -/

theorem Template.tidy_clean (t : Text) : Tidy (Template.clean t) := by
  rw [clean_eq]
  generalize undirect t = u
  have hblank : Text.isBlank ' ' := by decide
  have hkept : ∀ c ∈ Text.squeeze ((u.filter (· ≠ '#')).filter (· ≠ '"')),
      c = ' ' ∨ c ≠ '#' ∧ c ≠ '"' := by
    intro c hc
    refine (Text.mem_of_mem_squeeze hc).imp_right fun hmem => ?_
    obtain ⟨hmem, hquote⟩ := List.mem_filter.mp hmem
    exact ⟨of_decide_eq_true (List.mem_filter.mp hmem).2, of_decide_eq_true hquote⟩
  refine ⟨fun h => ?_, fun h => ?_, fun c hc hb => ?_, Text.not_contains_squeeze _, fun h => ?_,
    fun h => ?_⟩
  · exact absurd (hkept _ h) (by decide)
  · exact absurd (hkept _ h) (by decide)
  · exact (Text.eq_space_of_mem_squeeze hc).resolve_right (by rw [hb]; decide)
  · rw [Text.not_isBlank_head?_squeeze h] at hblank
    cases hblank
  · rw [Text.not_isBlank_getLast?_squeeze h] at hblank
    cases hblank

theorem Template.tidy_of_render {template : Text} (h : render template values step = .ok line) :
    Tidy line := by
  obtain ⟨filled, -, h⟩ := bind_eq_ok.mp h
  rw [← Except.ok.inj h]
  exact tidy_clean _

theorem Template.tidy_of_renderAll : ∀ {templates lines : List Text},
    renderAll values step templates = .ok lines → ∀ line ∈ lines, Tidy line
  | [], lines, h => by
      rw [← Except.ok.inj h]
      exact fun line hline => absurd hline List.not_mem_nil
  | template :: templates, lines, h => by
      obtain ⟨first, hfirst, h⟩ := bind_eq_ok.mp h
      obtain ⟨rest, hrest, h⟩ := bind_eq_ok.mp h
      rw [← Except.ok.inj h, List.forall_mem_cons]
      exact ⟨tidy_of_render hfirst, tidy_of_renderAll hrest⟩

/-! ### Steps and resolutions -/

theorem Variant.tidy_of_renderStep {driving : Quantity} {part : List Text}
    (h : renderStep templates values step driving = .ok part) : ∀ line ∈ part, Tidy line := by
  obtain ⟨lines, hlines, hpart⟩ := bind_eq_ok.mp h
  exact fun line hline =>
    Template.tidy_of_renderAll hlines line ((collapse_eq_ok hpart).1.subset hline)

theorem Request.tidy_of_renders {grouped : Grouped} {r : Request} {segment : List Text}
    (h : r.Renders grouped segment) : ∀ line ∈ segment, Tidy line := by
  obtain ⟨parts, hparts, rfl⟩ := h
  intro line hline
  obtain ⟨part, hpart, hline⟩ := List.mem_flatten.mp hline
  obtain ⟨driving, -, hstep⟩ := exists_of_forall₂ hparts hpart
  exact Variant.tidy_of_renderStep hstep line hline

theorem tidy_of_resolve {blocks : List Block} {skip : Bool} {os : List Observation} {lines : List Text}
    (h : (resolve blocks skip os).outcome = .ok lines) : ∀ line ∈ lines, Tidy line := by
  obtain ⟨segments, hsegments, rfl⟩ := resolve_outcome_eq_ok.mp h
  intro line hline
  obtain ⟨segment, hsegment, hline⟩ := List.mem_flatten.mp hline
  obtain ⟨r, -, hr⟩ := exists_of_forall₂ hsegments hsegment
  exact Request.tidy_of_renders hr line hline

/-- A line in normal form is a single line. -/
theorem Tidy.unbroken (h : Tidy line) : ∀ c ∈ line, Text.isLineEnd c = false := by
  intro c hc
  rw [Bool.eq_false_iff]
  intro hend
  rw [h.spaced c hc (Text.isBlank_of_isLineEnd hend)] at hend
  exact absurd hend (by decide)

/-- Whatever a template renders is in normal form. So is every line of a resolution, which is a single line
for that reason, and lines that are joined with line feeds come apart at them again. -/
theorem rendered_lines_tidy :
    (∀ template values step line, Template.render template values step = .ok line → Tidy line) ∧
    ∀ blocks skip os lines, (resolve blocks skip os).outcome = .ok lines →
      (∀ line ∈ lines, Tidy line ∧ ∀ c ∈ line, Text.isLineEnd c = false) ∧
      (lines ≠ [] → Text.pieces (· = '\n') (Text.join ['\n'] lines) = lines) := by
  refine ⟨fun _ _ _ _ => Template.tidy_of_render, fun blocks skip os lines hlines => ?_⟩
  have htidy := tidy_of_resolve hlines
  refine ⟨fun line hline => ⟨htidy line hline, (htidy line hline).unbroken⟩, fun hne => ?_⟩
  refine Text.pieces_join (decide_eq_true rfl) hne fun line hline c hc => decide_eq_false ?_
  rintro rfl
  exact absurd ((htidy line hline).unbroken _ hc) (by decide)

/-- A block whose template has blanks, marks and quotes all over. -/
def untidyBlocks : List Block :=
  [⟨"x".toList, none, [" 1|#\t\"\x7b0\x7d#  \" Fires\u2028".toList]⟩]

def untidyObservations : List Observation :=
  [⟨"x".toList, .ofInt 5⟩, ⟨"x".toList, .ofInt 7⟩]

def tidyLines : List Text :=
  ["1| 5 Fires".toList, "1| 7 Fires".toList]

theorem resolve_untidyBlocks :
    (resolve untidyBlocks true untidyObservations).outcome = .ok tidyLines ∧
    (∀ line ∈ tidyLines, Tidy line) ∧
    Text.pieces (· = '\n') "1| 5 Fires\n1| 7 Fires".toList = tidyLines := by
  have hlines : (resolve untidyBlocks true untidyObservations).outcome = .ok tidyLines := rfl
  obtain ⟨htidy, hpieces⟩ := rendered_lines_tidy.2 _ _ _ _ hlines
  exact ⟨hlines, fun line hline => (htidy line hline).1, hpieces (List.cons_ne_nil _ _)⟩

end GemScribe
