import GemScribe.Proofs.Number.Numeral
import GemScribe.Proofs.Outcome
import GemScribe.Proofs.Stat.Cleaning
import GemScribe.Stat.Variant
import Mathlib.Data.List.Find

/-!
The templates of a duration, and what becomes of them.

A duration is stated by one template for a single second and one for any other number, and its raw
value counts milliseconds. A template is followed here through every stage: the converted count takes
the place of the value, a single second loses its condition, no fixed phrase applies, and the directive,
the marks and the quotes go. What is left is a line of words.
-/

namespace GemScribe.Duration

/-! ### Texts -/

/-- The directive of a duration. -/
def milliseconds : Directive :=
  ⟨"milliseconds_to_seconds_2dp_if_required".toList, 1000, 2, false⟩

/-- A condition, and in quotes a phrase that is so many units. -/
def quoted (condition phrase count unit : Text) : Text :=
  condition ++ ' ' :: '"' ::
    (phrase ++ ' ' :: ("is".toList ++ ' ' :: (count ++ ' ' :: (unit ++ ['"']))))

/-- A quoted phrase with the directive of a duration. -/
def text (condition phrase count unit : Text) : Text :=
  quoted condition phrase count unit ++ ' ' :: milliseconds.keyword

/-- The placeholder of the first value. -/
def slot : Text :=
  Template.placeholder 0

/-- The template of a duration: a condition, and in quotes a phrase with a placeholder and a unit. -/
def template (condition unit phrase : Text) : Text :=
  condition ++ " \"".toList ++ phrase ++ " is \x7b0\x7d ".toList ++ unit ++
    "\" milliseconds_to_seconds_2dp_if_required".toList

/-- The templates for a single second and for any other number of seconds. -/
def templates (phrase : Text) : List Text :=
  [template "1000".toList "second".toList phrase, template "#".toList "seconds".toList phrase]

theorem template_eq (condition unit phrase : Text) :
    template condition unit phrase = text condition phrase slot unit := by
  have hquote : " \"".toList = [' ', '"'] := by decide
  have hslot : " is \x7b0\x7d ".toList = ' ' :: ("is".toList ++ ' ' :: (slot ++ [' '])) := by decide
  have hend : "\" milliseconds_to_seconds_2dp_if_required".toList =
      '"' :: ' ' :: milliseconds.keyword := by decide
  rw [template, hquote, hslot, hend, text, quoted]
  simp only [List.append_assoc, List.cons_append, List.nil_append]

example : templates "P".toList =
    ["1000 \"P is \x7b0\x7d second\" milliseconds_to_seconds_2dp_if_required".toList,
      "# \"P is \x7b0\x7d seconds\" milliseconds_to_seconds_2dp_if_required".toList] := by
  decide

/-! ### Plain parts -/

/-- The marks of links, placeholders and quotes. -/
def marks : Text :=
  "[]\x7b\x7d\"".toList

/-- A text without marks, in which no directive is named. -/
structure Plain (t : Text) : Prop where
  unmarked : ∀ c ∈ t, c ∉ marks
  unnamed : ∀ d ∈ Directive.all, Text.contains d.keyword t = false

theorem Plain.not_mem {t : Text} (h : Plain t) {c : Char} (hc : c ∈ marks) : c ∉ t :=
  fun hmem => h.unmarked c hmem hc

/-- A phrase of words with single spaces between them, without digits and condition marks. -/
structure PlainPhrase (phrase : Text) : Prop extends Plain phrase where
  nonempty : phrase ≠ []
  spaced : Text.squeeze phrase = phrase
  wordy : ∀ c ∈ phrase, c ≠ '#' ∧ Text.isDigit c = false

theorem PlainPhrase.words_ne_nil {phrase : Text} (h : PlainPhrase phrase) : Text.words phrase ≠ [] := by
  refine Text.words_ne_nil ?_
  rw [h.spaced]
  exact h.nonempty

theorem keyword_spec : ∀ d ∈ Directive.all,
    ' ' ∉ d.keyword ∧ '"' ∉ d.keyword ∧ '_' ∈ d.keyword ∧ d.keyword ≠ [] := by
  decide

/-- One plain word without condition marks. -/
structure PlainWord (word : Text) : Prop extends Plain word where
  nonempty : word ≠ []
  unbroken : ∀ c ∈ word, Text.isBlank c = false
  unconditional : '#' ∉ word

theorem plainWord_of_numeral {n : Text} (hne : n ≠ []) (h : ∀ c ∈ n, c ∈ Text.numeralChars) :
    PlainWord n := by
  have hmarks : ∀ c ∈ Text.numeralChars, c ∉ marks := Text.forall_mem_of_all (by decide)
  have hblank : ∀ c ∈ Text.numeralChars, Text.isBlank c = false :=
    Text.forall_mem_of_all (by decide)
  have hline : '_' ∉ Text.numeralChars := by decide
  have hcondition : '#' ∉ Text.numeralChars := by decide
  refine ⟨⟨fun c hc => hmarks c (h c hc), fun d hd => ?_⟩, hne, fun c hc => hblank c (h c hc),
    fun hc => hcondition (h _ hc)⟩
  exact Text.contains_eq_false_of_not_mem (keyword_spec d hd).2.2.1 fun hmem => hline (h _ hmem)

/-- The parts that a duration is composed of besides its count. -/
structure Parts (condition phrase unit : Text) : Prop where
  mark : condition = ['#'] ∨ '#' ∉ condition
  condition : Plain condition
  phrase : PlainPhrase phrase
  unit : PlainWord unit

variable {condition phrase count unit : Text}

/-- The directive of a duration is the only one in its text. -/
theorem contains_text (h : Parts condition phrase unit)
    (hcount : ∀ d ∈ Directive.all, Text.contains d.keyword count = false) {d : Directive}
    (hd : d ∈ Directive.all) :
    Text.contains d.keyword (quoted condition phrase count unit) = false ∧
      Text.contains d.keyword (text condition phrase count unit) =
        Text.contains d.keyword milliseconds.keyword := by
  obtain ⟨hblank, hquote, hline, hne⟩ := keyword_spec d hd
  have hverb : Text.contains d.keyword "is".toList = false :=
    Text.contains_eq_false_of_not_mem hline (by decide)
  have hempty : Text.contains d.keyword [] = false :=
    Text.contains_eq_false_of_not_mem hline (List.not_mem_nil)
  have hquoted : Text.contains d.keyword (quoted condition phrase count unit) = false := by
    rw [quoted, Text.contains_append_cons hblank, Text.contains_cons_of_not_mem hne hquote,
      Text.contains_append_cons hblank, Text.contains_append_cons hblank,
      Text.contains_append_cons hblank, Text.contains_append_cons hquote, hverb, hempty, hcount d hd,
      h.condition.unnamed d hd, h.phrase.unnamed d hd, h.unit.unnamed d hd]
    rfl
  refine ⟨hquoted, ?_⟩
  rw [text, Text.contains_append_cons hblank, hquoted, Bool.false_or]

theorem find?_text (h : Parts condition phrase unit) :
    Directive.find? (text condition phrase slot unit) = some milliseconds := by
  have hslot : ∀ d ∈ Directive.all, Text.contains d.keyword slot = false := by decide
  have hcontains : ∀ d ∈ Directive.all, Text.contains d.keyword (text condition phrase slot unit) =
      Text.contains d.keyword milliseconds.keyword :=
    fun d hd => (contains_text h hslot hd).2
  rw [Directive.find?, List.find?_congr hcontains]
  rfl

/-- Replacement goes through a text part by part, when no part of a text can reach over a blank or a
quote. -/
theorem replaceAll_text {old new : Text} (hne : old ≠ []) (hblank : ' ' ∉ old) (hquote : '"' ∉ old)
    (hverb : Text.replaceAll old new "is".toList = "is".toList) :
    Text.replaceAll old new (text condition phrase count unit) =
      quoted (Text.replaceAll old new condition) (Text.replaceAll old new phrase)
        (Text.replaceAll old new count) (Text.replaceAll old new unit) ++
        ' ' :: Text.replaceAll old new milliseconds.keyword := by
  have hcons : ∀ t, Text.replaceAll old new ('"' :: t) = '"' :: Text.replaceAll old new t :=
    Text.replaceAll_append_cons hquote hne new []
  have hempty : Text.replaceAll old new [] = [] := rfl
  rw [text, Text.replaceAll_append_cons hblank hne, quoted, Text.replaceAll_append_cons hblank hne,
    hcons, Text.replaceAll_append_cons hblank hne, Text.replaceAll_append_cons hblank hne,
    Text.replaceAll_append_cons hblank hne, Text.replaceAll_append_cons hquote hne, hverb, hempty,
    quoted]

theorem not_mem_text {c : Char} (hcondition : c ∉ condition) (hphrase : c ∉ phrase)
    (hcount : c ∉ count) (hunit : c ∉ unit) (hverb : c ∉ "is".toList) (hblank : c ≠ ' ')
    (hquote : c ≠ '"') (hkeyword : c ∉ milliseconds.keyword) :
    c ∉ text condition phrase count unit := by
  rw [text, quoted]
  simp only [List.mem_append, List.mem_cons, List.not_mem_nil, not_or, hcondition, hphrase, hcount,
    hunit, hverb, hblank, hquote, hkeyword, not_false_eq_true, and_self]

/-! ### Filling in -/

/-- A placeholder is replaced where the count stands. -/
theorem replaceAll_brace (h : Parts condition phrase unit) {old : Text} (hblank : ' ' ∉ old)
    (hquote : '"' ∉ old) (hbrace : '\x7b' ∈ old) (new : Text) :
    Text.replaceAll old new (text condition phrase count unit) =
      text condition phrase (Text.replaceAll old new count) unit := by
  have hmark : '\x7b' ∈ marks := by decide
  have hplain : ∀ {t}, Plain t → Text.replaceAll old new t = t := fun ht =>
    Text.replaceAll_of_not_mem hbrace (ht.not_mem hmark) new
  have hverb : '\x7b' ∉ "is".toList := by decide
  have hkeyword : '\x7b' ∉ milliseconds.keyword := by decide
  rw [replaceAll_text (List.ne_nil_of_mem hbrace) hblank hquote
    (Text.replaceAll_of_not_mem hbrace hverb new), hplain h.condition, hplain h.phrase.toPlain,
    hplain h.unit.toPlain, Text.replaceAll_of_not_mem hbrace hkeyword, text]

/-- The text of a duration has no link in it. -/
theorem not_mem_link (h : Parts condition phrase unit) (hcount : PlainWord count) :
    '[' ∉ text condition phrase count unit := by
  have hmark : '[' ∈ marks := by decide
  refine not_mem_text (h.condition.not_mem hmark) (h.phrase.not_mem hmark) (hcount.not_mem hmark)
    (h.unit.not_mem hmark) ?_ ?_ ?_ ?_ <;> decide

theorem replaceAll_link (h : Parts condition phrase unit) (hcount : PlainWord count) {old : Text}
    (hold : '[' ∈ old) (new : Text) :
    Text.replaceAll old new (text condition phrase count unit) = text condition phrase count unit :=
  Text.replaceAll_of_not_mem hold (not_mem_link h hcount) new

theorem fillOne_text (h : Parts condition phrase unit) {v : Quantity} {signed : Text}
    (hsigned : v.displaySigned = .ok signed) {n : Binary64} (hn : milliseconds.convert v = .ok n) :
    Template.fillOne (some milliseconds) 0 v (text condition phrase slot unit) =
      Template.settleCastTime v (text condition phrase n.display unit) := by
  have hshown : Template.shown (some milliseconds) v = .ok (signed, n.display) := by
    rw [Template.shown, bind_eq_ok]
    exact ⟨n, hn, by rw [hsigned]; rfl⟩
  have hkept : Text.replaceAll (Template.signedPlaceholder 0) signed slot = slot :=
    Text.replaceAll_of_not_contains (by decide)
  have hfilled : Text.replaceAll (Template.placeholder 0) n.display slot = n.display :=
    Text.replaceAll_self (by decide) _
  rw [Template.fillOne, hshown]
  change Template.settleCastTime v _ = _
  rw [replaceAll_brace h (by decide) (by decide) (by decide), hkept,
    replaceAll_brace h (by decide) (by decide) (by decide), hfilled]

/-! ### The condition of a single second -/

theorem settleCastTime_of_many (h : Parts condition phrase unit) (hcount : PlainWord count)
    {v : Quantity} {q : Binary64} (hq : v.divBy 1000 = .ok q)
    (hmany : v.equalsInt Template.oneSecond = false) :
    Template.settleCastTime v (text condition phrase count unit) =
      .ok (text condition phrase count unit) := by
  rw [Template.settleCastTime, bind_eq_ok]
  refine ⟨q, hq, ?_⟩
  rw [if_neg (by rw [hmany]; exact Bool.false_ne_true), replaceAll_link h hcount (by decide)]
  rfl

theorem dropFinalOne_append {c : Char} (hone : c ≠ '1') (hfeed : c ≠ '\n') (t : Text) :
    Template.dropFinalOne (t ++ [c]) = t ++ [c] := by
  rw [Template.dropFinalOne, List.reverse_append, List.reverse_singleton, List.singleton_append]
  split
  · next heq => exact absurd (List.cons.inj heq).1 hone
  · next heq => exact absurd (List.cons.inj heq).1 hfeed
  · rfl

/-- At one second the number of the condition is taken out. -/
theorem settleCastTime_of_one (h : Parts "1000".toList phrase unit) (hcount : PlainWord count)
    {v : Quantity} {q : Binary64} (hq : v.divBy 1000 = .ok q)
    (hone : v.equalsInt Template.oneSecond) :
    Template.settleCastTime v (text "1000".toList phrase count unit) =
      .ok (text [] phrase count unit) := by
  have hnumber : intText Template.oneSecond = '1' :: "000".toList := by decide
  have herase : Text.eraseFirst ('1' :: "000".toList) (text "1000".toList phrase count unit) =
      text [] phrase count unit := Text.eraseFirst_append "000".toList _
  have hlast : milliseconds.keyword =
      "milliseconds_to_seconds_2dp_if_require".toList ++ ['d'] := by decide
  have hkept : Template.dropFinalOne (text [] phrase count unit) = text [] phrase count unit := by
    rw [text, hlast, ← List.cons_append, ← List.append_assoc]
    exact dropFinalOne_append (by decide) (by decide) _
  rw [Template.settleCastTime, bind_eq_ok]
  refine ⟨q, hq, ?_⟩
  rw [if_pos hone, replaceAll_link h hcount (by decide), hnumber]
  dsimp only
  rw [herase, hkept]
  rfl

/-! ### Phrases -/

/-- No phrase of the tables is in the text of a duration. -/
theorem settle_text (h : Parts condition phrase unit) (hcount : PlainWord count) (singular : Bool) :
    Phrase.settle singular (text condition phrase count unit) =
      text condition phrase count unit := by
  have hphrase : '#' ∉ phrase := fun hc => (h.phrase.wordy _ hc).1 rfl
  have hmarkless : ∀ {c}, '#' ∉ c → '#' ∉ text c phrase count unit := fun hc =>
    not_mem_text hc hphrase hcount.unconditional h.unit.unconditional (by decide) (by decide)
      (by decide) (by decide)
  have hmark : '#' ∉ (text condition phrase count unit).tail := by
    rcases h.mark with rfl | hcondition
    · exact hmarkless List.not_mem_nil
    · exact fun hmem => hmarkless hcondition (List.mem_of_mem_tail hmem)
  exact Phrase.settle_eq_self (not_mem_link h hcount) hmark singular

/-! ### Cleaning -/

/-- The words of a duration. -/
def line (condition phrase count unit : Text) : Text :=
  Text.join [' '] (Text.words condition ++ Text.words phrase ++ ["is".toList, count, unit])

/-- The directives leave nothing of theirs but the blank before the last of them. -/
theorem removeDirectives_text (h : Parts condition phrase unit) (hcount : PlainWord count) :
    (Directive.all.map Directive.keyword).foldl (fun t k => Text.replaceAll k [] t)
      (text condition phrase count unit) = quoted condition phrase count unit ++ [' '] := by
  have hmem : milliseconds ∈ Directive.all :=
    List.mem_of_getElem? (i := 3) rfl
  have hplain : ∀ {t}, Plain t → Text.replaceAll milliseconds.keyword [] t = t := fun ht =>
    Text.replaceAll_of_not_contains (ht.unnamed _ hmem)
  have hlast : Text.replaceAll milliseconds.keyword [] (text condition phrase count unit) =
      quoted condition phrase count unit ++ [' '] := by
    rw [replaceAll_text (by decide) (by decide) (by decide) (by decide), hplain h.condition,
      hplain h.phrase.toPlain, hplain hcount.toPlain, hplain h.unit.toPlain,
      Text.replaceAll_self (by decide)]
  have hother : ∀ d ∈ Directive.all.take 3,
      Text.replaceAll d.keyword [] (text condition phrase count unit) =
        text condition phrase count unit := by
    have hfalse : ∀ d ∈ Directive.all.take 3,
        Text.contains d.keyword milliseconds.keyword = false := by decide
    intro d hd
    exact Text.replaceAll_of_not_contains
      ((contains_text h hcount.unnamed (List.mem_of_mem_take hd)).2.trans (hfalse d hd))
  have hsplit : Directive.all = Directive.all.take 3 ++ [milliseconds] := rfl
  have hkept : ((Directive.all.take 3).map Directive.keyword).foldl
      (fun t k => Text.replaceAll k [] t) (text condition phrase count unit) =
        text condition phrase count unit := by
    refine Text.foldl_eq_self ?_
    rw [List.forall_mem_map]
    exact hother
  rw [hsplit, List.map_append, List.foldl_append, hkept]
  exact hlast

/-- The marks of the condition and the two quotes are taken out. -/
theorem removeArtifacts_quoted (h : Parts condition phrase unit) (hcount : PlainWord count) :
    Template.artifacts.foldl (fun t a => Text.replaceAll a [] t)
      (quoted condition phrase count unit ++ [' ']) =
        condition.filter (· ≠ '#') ++ ' ' ::
          (phrase ++ ' ' :: ("is".toList ++ ' ' :: (count ++ ' ' :: (unit ++ [' '])))) := by
  have hmark : '"' ∈ marks := by decide
  have hquoted : ∀ {t : Text}, Plain t → t.filter (· ≠ '"') = t := fun ht =>
    Text.filter_ne_of_not_mem (ht.not_mem hmark)
  have hphrase : phrase.filter (· ≠ '#') = phrase :=
    Text.filter_ne_of_not_mem fun hc => (h.phrase.wordy _ hc).1 rfl
  have hcount' : count.filter (· ≠ '#') = count := Text.filter_ne_of_not_mem hcount.unconditional
  have hunit : unit.filter (· ≠ '#') = unit := Text.filter_ne_of_not_mem h.unit.unconditional
  have hverb : "is".toList.filter (· ≠ '#') = "is".toList := by decide
  have hverb' : "is".toList.filter (· ≠ '"') = "is".toList := by decide
  have hcondition : (condition.filter (· ≠ '#')).filter (· ≠ '"') = condition.filter (· ≠ '#') := by
    rw [List.filter_comm, hquoted h.condition]
  change Text.replaceAll ['"'] [] (Text.replaceAll ['#'] [] _) = _
  rw [Text.replaceAll_singleton_nil, Text.replaceAll_singleton_nil, quoted]
  generalize "is".toList = verb at hverb hverb' ⊢
  have hhash : (decide ('"' ≠ '#')) = true ∧ decide (' ' ≠ '#') = true ∧ decide (' ' ≠ '"') = true ∧
      decide ('"' ≠ '"') = false := by decide
  simp only [List.filter_append, List.filter_cons, List.filter_nil, hhash, if_true, hphrase, hverb,
    hverb', hcondition, hcount', hunit, hquoted h.phrase.toPlain, hquoted hcount.toPlain,
    hquoted h.unit.toPlain, List.append_assoc, List.cons_append, List.nil_append,
    Bool.false_eq_true, if_false]

/-- What is left of a text is a line of single-spaced words. -/
theorem clean_text (h : Parts condition phrase unit) (hcount : PlainWord count) :
    Template.clean (text condition phrase count unit) =
      line (condition.filter (· ≠ '#')) phrase count unit := by
  have hblank : Text.isBlank ' ' := by decide
  have hverb : Text.words "is".toList = ["is".toList] := by decide
  rw [Template.clean, removeDirectives_text h hcount, removeArtifacts_quoted h hcount, Text.squeeze,
    Text.words_append_cons hblank, Text.words_append_cons hblank, Text.words_append_cons hblank,
    Text.words_append_cons hblank, Text.words_append_cons hblank, hverb, Text.words_nil, List.append_nil,
    Text.words_of_forall_not hcount.nonempty hcount.unbroken,
    Text.words_of_forall_not h.unit.nonempty h.unit.unbroken, line, Text.join, List.append_assoc]
  rfl

theorem render_eq (h : Parts condition phrase unit) {v : Quantity} {filled : Text}
    (hfill : Template.fillOne (some milliseconds) 0 v (text condition phrase slot unit) = .ok filled) :
    Template.render (text condition phrase slot unit) [[v]] 0 =
      .ok (Template.clean (Phrase.settle (Template.isSingular [[v]] 0) filled)) := by
  have hsubstitute :
      Template.substitute (text condition phrase slot unit) [[v]] 0 = .ok filled := by
    rw [Template.substitute, find?_text h]
    exact bind_eq_ok.mpr ⟨filled, hfill, rfl⟩
  rw [Template.render, bind_eq_ok]
  exact ⟨filled, hsubstitute, rfl⟩

/-- A text that still has the parts of a duration when it is filled in becomes a line of its words. -/
theorem render_text {condition' : Text} (h : Parts condition phrase unit)
    (h' : Parts condition' phrase unit) (hcount : PlainWord count) {v : Quantity}
    (hfill : Template.fillOne (some milliseconds) 0 v (text condition phrase slot unit) =
      .ok (text condition' phrase count unit)) :
    Template.render (text condition phrase slot unit) [[v]] 0 =
      .ok (line (condition'.filter (· ≠ '#')) phrase count unit) := by
  rw [render_eq h hfill, settle_text h' hcount, clean_text h' hcount]

/-! ### Lines -/

/-- A phrase that is so many units. -/
def counted (phrase count unit : Text) : Text :=
  phrase ++ ' ' :: ("is ".toList ++ (count ++ ' ' :: unit))

theorem line_nil (hp : PlainPhrase phrase) (count unit : Text) :
    line [] phrase count unit = counted phrase count unit := by
  have hwords : Text.words phrase ≠ [] := hp.words_ne_nil
  have hspaced : List.intercalate [' '] (Text.words phrase) = phrase := hp.spaced
  have hverb : "is ".toList = "is".toList ++ [' '] := by decide
  rw [line, Text.words_nil, List.nil_append, Text.join,
    Text.intercalate_append [' '] hwords (List.cons_ne_nil _ _), hspaced,
    List.intercalate_cons_cons, List.intercalate_cons_cons, List.intercalate_singleton, counted, hverb]
  simp only [List.append_assoc, List.cons_append, List.nil_append]

/-- A condition that is left over stands before the line. -/
theorem line_of_condition (hp : PlainPhrase phrase) (hne : condition ≠ [])
    (hunbroken : ∀ c ∈ condition, Text.isBlank c = false) (count unit : Text) :
    line condition phrase count unit = condition ++ ' ' :: counted phrase count unit := by
  have hrest : Text.words phrase ++ ["is".toList, count, unit] ≠ [] :=
    List.append_ne_nil_of_right_ne_nil _ (List.cons_ne_nil _ _)
  rw [← line_nil hp, line, line, Text.words_nil, List.nil_append, List.append_assoc,
    Text.words_of_forall_not hne hunbroken, Text.join,
    Text.intercalate_append [' '] (List.cons_ne_nil _ _) hrest, List.intercalate_singleton, Text.join,
    List.append_assoc, List.singleton_append]

end GemScribe.Duration
