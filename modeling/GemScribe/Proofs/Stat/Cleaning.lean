import GemScribe.Proofs.Text.Parts
import GemScribe.Stat.Template

/-!
Texts that settling and cleaning leave alone.

A text in which no directive is named has none, and cleaning takes only the marks of its condition, its
quotes and its blanks. A text without links is settled already, unless it is one of the conditions that
are listed as they stand, and all of those have a mark behind their beginning.
-/

namespace GemScribe

variable {t : Text}

/-- No directive is named in the text. -/
def Undirected (t : Text) : Prop :=
  ∀ d ∈ Directive.all, Text.contains d.keyword t = false

theorem Directive.find?_eq_none_iff : Directive.find? t = none ↔ Undirected t := by
  simp only [Directive.find?, List.find?_eq_none, Bool.not_eq_true, Undirected]

/-- Every directive has an underscore in its name. -/
theorem underscore_mem_keyword : ∀ d ∈ Directive.all, '_' ∈ d.keyword := by
  decide

theorem undirected_of_not_mem (h : '_' ∉ t) : Undirected t :=
  fun d hd => Text.contains_eq_false_of_not_mem (underscore_mem_keyword d hd) h

/-- A text without links is settled when it has a condition mark at most in front. -/
theorem Phrase.settle_eq_self (hlink : '[' ∉ t) (hmark : '#' ∉ t.tail) (singular : Bool) :
    Phrase.settle singular t = t := by
  have hkept : ∀ {table : List (Text × Text)},
      (∀ entry ∈ table, '[' ∈ entry.1 ∨ '#' ∈ entry.1.tail) → Phrase.replaceTable table t = t := by
    intro table htable
    refine Text.foldl_eq_self fun entry he => ?_
    rcases htable entry he with h | h
    · exact Text.replaceAll_of_not_mem h hlink _
    · exact Text.replaceAll_of_not_contains (Text.contains_eq_false_of_not_mem_tail h hmark)
  have hliterals : ∀ entry ∈ Phrase.literals, '[' ∈ entry.1 ∨ '#' ∈ entry.1.tail := by decide
  have hchosen : ∀ singular, ∀ entry ∈ Phrase.chosen singular, '[' ∈ entry.1 ∨ '#' ∈ entry.1.tail := by
    decide
  have hfixed : ∀ entry ∈ Phrase.fixed, '[' ∈ entry.1 ∨ '#' ∈ entry.1.tail := by decide
  rw [Phrase.settle, hkept hliterals, hkept (hchosen singular), hkept hfixed]

/-- The text without the names of directives. -/
def Template.undirect (t : Text) : Text :=
  (Directive.all.map Directive.keyword).foldl (fun t k => Text.replaceAll k [] t) t

/-- Cleaning takes the marks, the quotes and the blanks after the directives. -/
theorem Template.clean_eq (t : Text) : Template.clean t =
    Text.squeeze (((Template.undirect t).filter (· ≠ '#')).filter (· ≠ '"')) := by
  change Text.squeeze (Text.replaceAll ['"'] [] (Text.replaceAll ['#'] [] (Template.undirect t))) = _
  rw [Text.replaceAll_singleton_nil, Text.replaceAll_singleton_nil]

theorem Template.undirect_of_undirected (h : Undirected t) : Template.undirect t = t := by
  refine Text.foldl_eq_self ?_
  rw [List.forall_mem_map]
  exact fun d hd => Text.replaceAll_of_not_contains (h d hd)

/-- Without directives it is marks, quotes and blanks that are cleaned away. -/
theorem Template.clean_of_undirected (h : Undirected t) :
    Template.clean t = Text.squeeze ((t.filter (· ≠ '#')).filter (· ≠ '"')) := by
  rw [Template.clean_eq, Template.undirect_of_undirected h]

end GemScribe
