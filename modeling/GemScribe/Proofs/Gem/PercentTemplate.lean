import GemScribe.Proofs.Gem.Percent
import GemScribe.Proofs.Stat.Duration
import GemScribe.Proofs.Stat.Simultaneous
import GemScribe.Proofs.Text.Lines

/-!
The template of a percentage.

A template that shows one value as a signed percentage of a stat is followed through every stage: the
value takes the place of the field, no directive and no phrase applies, and the mark, the quotes and the
blank in front go. What is left is the line that a range reads its percentages from.
-/

namespace GemScribe

/-! ### Quoted lines -/

namespace Template

/-- A line in quotes, for any value. -/
def quoted (line : Text) : Text :=
  '#' :: ' ' :: '"' :: (line ++ ['"'])

variable {line : Text}

theorem mem_quoted {c : Char} (h : c ∈ quoted line) : c ∈ "# \"".toList ∨ c ∈ line := by
  have hchars : "# \"".toList = ['#', ' ', '"'] := by decide
  rw [quoted] at h
  rw [hchars]
  simp only [List.mem_cons, List.mem_append, List.not_mem_nil, or_false] at h ⊢
  tauto

/-- No directive is named across a quote. -/
theorem undirected_quoted (h : Undirected line) : Undirected (quoted line) := by
  intro d hd
  have hmark : ∀ d ∈ Directive.all, '#' ∉ d.keyword := by decide
  obtain ⟨hblank, hquote, hline, hne⟩ := Duration.keyword_spec d hd
  rw [quoted, Text.contains_cons_of_not_mem hne (hmark d hd), Text.contains_cons_of_not_mem hne hblank,
    Text.contains_cons_of_not_mem hne hquote, Text.contains_append_cons hquote, h d hd,
    Text.contains_eq_false_of_not_mem hline List.not_mem_nil]
  rfl

theorem settle_quoted (hlink : '[' ∉ line) (hmark : '#' ∉ line) (singular : Bool) :
    Phrase.settle singular (quoted line) = quoted line := by
  refine Phrase.settle_eq_self (fun h => ?_) (fun h => ?_) singular
  · exact (mem_quoted h).elim (by decide) hlink
  · rw [quoted, List.tail_cons] at h
    simp only [List.mem_cons, List.mem_append, List.not_mem_nil, or_false] at h
    rcases h with h | h | h | h
    · exact absurd h (by decide)
    · exact absurd h (by decide)
    · exact hmark h
    · exact absurd h (by decide)

/-- A line of single-spaced words is what is left when its quotes are cleaned away. -/
theorem clean_quoted (hline : Undirected line) (hmark : '#' ∉ line) (hquote : '"' ∉ line)
    (hspaced : Text.squeeze line = line) : clean (quoted line) = line := by
  have hmarks : (quoted line).filter (· ≠ '#') = ' ' :: '"' :: (line ++ ['"']) := by
    have hend : ['"'].filter (· ≠ '#') = ['"'] := by decide
    rw [quoted, List.filter_cons_of_neg (by decide), List.filter_cons_of_pos (by decide),
      List.filter_cons_of_pos (by decide), List.filter_append, Text.filter_ne_of_not_mem hmark, hend]
  have hquotes : (' ' :: '"' :: (line ++ ['"'])).filter (· ≠ '"') = ' ' :: line := by
    have hend : ['"'].filter (· ≠ '"') = [] := by decide
    rw [List.filter_cons_of_pos (by decide), List.filter_cons_of_neg (by decide), List.filter_append,
      Text.filter_ne_of_not_mem hquote, hend, List.append_nil]
  rw [clean_of_undirected (undirected_quoted hline), hmarks, hquotes, Text.squeeze,
    Text.words_cons_of_blank (by decide)]
  exact hspaced

theorem pass_map_char (wordings : List Wording) (t : Text) (as : List Atom) :
    pass wordings (t.map .char ++ as) = t ++ pass wordings as := by
  induction t with
  | nil => rfl
  | cons c t ih => rw [List.map_cons, List.cons_append, pass_char, ih, List.cons_append]

end Template

/-! ### The line of a percentage -/

namespace Range

open Duration (PlainPhrase)
open Template (Atom Wording quoted)

variable {name shown : Text} {x : Binary64} {c : Char}

theorem mem_append_percent (h : c ∈ shown ++ "% to ".toList ++ name) :
    c ∈ shown ∨ c ∈ "% to ".toList ∨ c ∈ name := by
  rw [List.mem_append, List.mem_append, or_assoc] at h
  exact h

theorem undirected_append_percent (hname : PlainPhrase name) (hshown : '_' ∉ shown) :
    Undirected (shown ++ "% to ".toList ++ name) := by
  have hmiddle : "% to ".toList = "% to".toList ++ [' '] := by decide
  have hplain : '_' ∉ shown ++ "% to".toList := by
    rw [List.mem_append, not_or]
    exact ⟨hshown, by decide⟩
  intro d hd
  obtain ⟨hblank, -, hline, -⟩ := Duration.keyword_spec d hd
  rw [hmiddle, ← List.append_assoc, List.append_assoc _ [' '], List.singleton_append,
    Text.contains_append_cons hblank, Text.contains_eq_false_of_not_mem hline hplain,
    hname.unnamed d hd]
  rfl

theorem not_mem_percentLine (hname : PlainPhrase name) (hx : x.isFinite) :
    '[' ∉ percentLine x name ∧ '#' ∉ percentLine x name ∧ '"' ∉ percentLine x name := by
  have hchars : ∀ {c}, c ∉ Text.numeralChars → c ∉ "% to ".toList → c ∉ name →
      c ∉ percentLine x name := by
    intro c hnumeral hmiddle hc h
    rcases mem_append_percent h with h | h | h
    · exact not_mem_displaySigned hx hnumeral h
    · exact hmiddle h
    · exact hc h
  exact ⟨hchars (by decide) (by decide) (hname.not_mem (by decide)),
    hchars (by decide) (by decide) fun h => (hname.wordy _ h).1 rfl,
    hchars (by decide) (by decide) (hname.not_mem (by decide))⟩

theorem squeeze_percentLine (hname : PlainPhrase name) (hx : x.isFinite) :
    Text.squeeze (percentLine x name) = percentLine x name := by
  have hblank : Text.isBlank ' ' := by decide
  have hnumeral : ∀ c ∈ x.displaySigned ++ ['%'], Text.isBlank c = false := by
    have hall : ∀ c ∈ Text.numeralChars, Text.isBlank c = false := Text.forall_mem_of_all (by decide)
    intro c hc
    rcases List.mem_append.mp hc with hc | hc
    · by_contra hne
      exact not_mem_displaySigned hx (fun h => hne (hall c h)) hc
    · rw [List.mem_singleton.mp hc]
      decide
  have hnumber : Text.words (x.displaySigned ++ ['%']) = [x.displaySigned ++ ['%']] :=
    Text.words_of_forall_not (by simp) hnumeral
  have hword : Text.words "to".toList = ["to".toList] := by decide
  have hwords : Text.words ("to".toList ++ ' ' :: name) ≠ [] := by
    rw [Text.words_append_cons hblank, hword]
    exact List.cons_ne_nil _ _
  have hline : percentLine x name =
      (x.displaySigned ++ ['%']) ++ ' ' :: ("to".toList ++ ' ' :: name) := by
    have hto : "to".toList = ['t', 'o'] := by decide
    rw [percentLine_eq, hto]
    simp only [List.append_assoc, List.cons_append, List.nil_append]
  rw [hline, Text.squeeze_append_cons hblank (by rw [hnumber]; exact List.cons_ne_nil _ _) hwords,
    Text.squeeze_append_cons hblank (by rw [hword]; exact List.cons_ne_nil _ _) hname.words_ne_nil,
    Text.squeeze_of_forall_not (by simp) hnumeral, hname.spaced]
  rfl

/-- Plain words are read back as the name of a stat. -/
theorem statName_of_plainPhrase (hname : PlainPhrase name) : StatName name where
  line h := by
    rw [← hname.spaced] at h
    rcases Text.eq_space_of_mem_squeeze h with h | h
    · exact absurd h (by decide)
    · exact absurd h (by decide)
  trimmed := by
    rw [← hname.spaced]
    exact Text.strip_squeeze name
  wordy c hc := (hname.wordy c (List.mem_of_getLast? hc)).2

/-! ### The template -/

/-- The template that shows the first value as a signed percentage of a stat. -/
def percentTemplate (name : Text) : Text :=
  "# \"\x7b0:+d\x7d% to ".toList ++ name ++ ['"']

/-- The template as characters and a field. -/
def percentAtoms (name : Text) : List Atom :=
  "# \"".toList.map .char ++ .field true 0 :: ("% to ".toList ++ name ++ ['"']).map .char

theorem pass_percentAtoms (wordings : List Wording) (name : Text) :
    Template.pass wordings (percentAtoms name) =
      quoted (Atom.text wordings (.field true 0) ++ "% to ".toList ++ name) := by
  have hrest := Template.pass_map_char wordings ("% to ".toList ++ name ++ ['"']) []
  have hnil : Template.pass wordings [] = [] := rfl
  rw [List.append_nil, hnil, List.append_nil] at hrest
  rw [percentAtoms, Template.pass_map_char, Template.pass_field, hrest]
  simp only [← List.append_assoc]
  rfl

theorem percentTemplate_eq (name : Text) : percentTemplate name =
    quoted (Template.signedPlaceholder 0 ++ "% to ".toList ++ name) := by
  have hfront : "# \"\x7b0:+d\x7d% to ".toList =
      '#' :: ' ' :: '"' :: (Template.signedPlaceholder 0 ++ "% to ".toList) := by
    decide
  unfold percentTemplate
  rw [hfront, quoted]
  simp only [List.append_assoc, List.cons_append]

theorem write_percentAtoms (name : Text) : Template.write (percentAtoms name) = percentTemplate name := by
  have hfield : Atom.text [] (.field true 0) = Template.signedPlaceholder 0 := rfl
  rw [Template.write, pass_percentAtoms, hfield, percentTemplate_eq]

theorem unbraced_percentAtoms (hname : PlainPhrase name) : Template.Unbraced (percentAtoms name) := by
  have hbraces : ∀ c ∈ "\x7b\x7d".toList,
      c ∈ Duration.marks ∧ c ∉ "# \"".toList ∧ c ∉ "% to ".toList ∧ c ∉ ['"'] :=
    Text.forall_mem_of_all (by decide)
  intro c hc hbrace
  obtain ⟨hmark, hfront, hmiddle, hend⟩ := hbraces c hbrace
  rw [percentAtoms, List.mem_append, List.mem_cons, List.mem_map, List.mem_map] at hc
  simp only [Atom.char.injEq, exists_eq_right, reduceCtorEq, false_or, List.mem_append] at hc
  rcases hc with hc | (hc | hc) | hc
  · exact hfront hc
  · exact hmiddle hc
  · exact hname.not_mem hmark hc
  · exact hend hc

/-! ### One step -/

variable {sequence : List Quantity} {step : ℕ}

theorem substitute_percentTemplate (hname : PlainPhrase name)
    (hx : Template.valueAt sequence step = .real x) (hmany : x.toInt? ≠ some Template.oneSecond) :
    Template.substitute (percentTemplate name) [sequence] step =
      .ok (quoted (percentLine x name)) := by
  have hplaceholder : '_' ∉ Template.signedPlaceholder 0 ∧ '[' ∉ Template.signedPlaceholder 0 := by
    decide
  have hlink : '[' ∉ percentTemplate name := by
    rw [percentTemplate_eq]
    intro h
    rcases Template.mem_quoted h with h | h
    · exact absurd h (by decide)
    · rcases mem_append_percent h with h | h | h
      · exact hplaceholder.2 h
      · exact absurd h (by decide)
      · exact hname.not_mem (by decide) h
  have hunlinked : Text.contains Template.castTimeLink (Template.write (percentAtoms name)) = false := by
    rw [write_percentAtoms]
    exact Text.contains_eq_false_of_not_mem (by decide) hlink
  have hdirective : Directive.find? (percentTemplate name) = none := by
    rw [Directive.find?_eq_none_iff, percentTemplate_eq]
    exact Template.undirected_quoted (undirected_append_percent hname hplaceholder.1)
  have hequals : (Quantity.real x).equalsInt Template.oneSecond = false := by
    rw [Quantity.equalsInt, beq_eq_false_iff_ne]
    exact hmany
  have hnone : ∀ (P : Directive → Prop), ∀ d ∈ (none : Option Directive), P d := by simp
  have hfill : Template.fillOne none ([] : List Wording).length (.real x)
      (Template.pass [] (percentAtoms name)) =
        .ok (Template.pass ([] ++ [⟨x.displaySigned, x.display⟩]) (percentAtoms name)) :=
    Template.fillOne_pass (unbraced_percentAtoms hname) hunlinked (hnone _) hequals (by simp)
      ⟨.raw (hnone _) rfl, .plain rfl⟩
  rw [← Template.write, write_percentAtoms, List.nil_append, pass_percentAtoms] at hfill
  rw [Template.substitute, hdirective, List.map_cons, hx, List.map_nil, Template.fillFrom, bind_eq_ok]
  exact ⟨_, hfill, rfl⟩

/-- The template shows a finite value as the percentage of a line. -/
theorem render_percentTemplate (hname : PlainPhrase name) (hfinite : x.isFinite)
    (hx : Template.valueAt sequence step = .real x) (hmany : x.toInt? ≠ some Template.oneSecond) :
    Template.render (percentTemplate name) [sequence] step = .ok (percentLine x name) := by
  obtain ⟨hlink, hmark, hquote⟩ := not_mem_percentLine hname hfinite
  have hundirected : Undirected (percentLine x name) :=
    undirected_append_percent hname (not_mem_displaySigned hfinite (by decide))
  rw [Template.render, bind_eq_ok]
  refine ⟨_, substitute_percentTemplate hname hx hmany, ?_⟩
  rw [Template.settle_quoted hlink hmark,
    Template.clean_quoted hundirected hmark hquote (squeeze_percentLine hname hfinite)]
  rfl

/-- One line is kept whatever value drives the step. -/
theorem renderStep_percentTemplate (hname : PlainPhrase name) (hfinite : x.isFinite)
    (hx : Template.valueAt sequence step = .real x) (hmany : x.toInt? ≠ some Template.oneSecond)
    (driving : Quantity) :
    Variant.renderStep [percentTemplate name] [sequence] step driving = .ok [percentLine x name] := by
  have hlines : Template.renderAll [sequence] step [percentTemplate name] = .ok [percentLine x name] := by
    rw [Template.renderAll, bind_eq_ok]
    exact ⟨_, render_percentTemplate hname hfinite hx hmany, rfl⟩
  rw [Variant.renderStep, bind_eq_ok]
  refine ⟨_, hlines, ?_⟩
  have hkept : (if driving.equalsInt Template.oneSecond then [percentLine x name].take 1
      else [percentLine x name]) = [percentLine x name] := by
    split <;> rfl
  rw [Variant.collapse, hkept]

end Range

end GemScribe
