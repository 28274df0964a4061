import GemScribe.Proofs.Stat.Cleaning
import GemScribe.Proofs.Outcome
import GemScribe.Proofs.Text.Lines

/-!
Names of directives in rendered lines.

Cleaning cuts the name of each directive out of a text once, and takes the marks and quotes away after that.
A name that a mark or a quote interrupts is not found, and is whole again when they are gone; so are two
halves of a name when the name between them is cut out. Names have no blanks in them, so that all this happens
within one word of the text, and a line has a name in it exactly when one of its words is left with that name.
No name is left of a word that is the name of a directive itself, in quotes or not, or of one that has none
even without marks and quotes.
-/

namespace GemScribe

namespace Template

variable {template line w : Text} {values : List (List Quantity)} {step : ℕ} {d : Directive}

/-- The text without marks and quotes. -/
def unmarked (t : Text) : Text :=
  (t.filter (· ≠ '#')).filter (· ≠ '"')

/-- What is left of a text when the names of directives are cut out of it, one directive after another, and
the marks and quotes after them. -/
def remainder (t : Text) : Text :=
  unmarked (undirect t)

instance (t : Text) : Decidable (Undirected t) :=
  inferInstanceAs (Decidable (∀ d ∈ Directive.all, Text.contains d.keyword t = false))

/-- The word is the name of a directive, perhaps with marks and quotes around it. -/
def NamesDirective (w : Text) : Prop :=
  ∃ d ∈ Directive.all, ∃ front back, w = front ++ (d.keyword ++ back) ∧
    unmarked front = [] ∧ unmarked back = []

theorem mark_of_unmarked_eq_nil {t : Text} (h : unmarked t = []) {c : Char} (hc : c ∈ t) :
    c = '#' ∨ c = '"' := by
  by_contra hne
  rw [not_or] at hne
  have hmem : c ∈ unmarked t := List.mem_filter.mpr
    ⟨List.mem_filter.mpr ⟨hc, decide_eq_true hne.1⟩, decide_eq_true hne.2⟩
  rw [h] at hmem
  cases hmem

theorem unmarked_cons {c : Char} (hmark : c ≠ '#') (hquote : c ≠ '"') (t : Text) :
    unmarked (c :: t) = c :: unmarked t := by
  rw [unmarked, List.filter_cons_of_pos (by simpa using hmark),
    List.filter_cons_of_pos (by simpa using hquote), unmarked]

theorem unmarked_append (s t : Text) : unmarked (s ++ t) = unmarked s ++ unmarked t := by
  rw [unmarked, List.filter_append, List.filter_append, unmarked, unmarked]

/-! ### Names -/

/-- A name has neither blanks nor marks nor quotes. -/
theorem keyword_spec : ∀ d ∈ Directive.all, d.keyword ≠ [] ∧ (∀ c ∈ d.keyword, Text.isBlank c = false) ∧
    '#' ∉ d.keyword ∧ '"' ∉ d.keyword := by
  have hall : ∀ d ∈ Directive.all, d.keyword ≠ [] ∧
      d.keyword.all (fun c => decide (Text.isBlank c = false)) ∧ '#' ∉ d.keyword ∧ '"' ∉ d.keyword := by
    decide +kernel
  intro d hd
  obtain ⟨hne, hblank, hmarks⟩ := hall d hd
  exact ⟨hne, Text.forall_mem_of_all hblank, hmarks⟩

/-- No name is part of another one. -/
theorem keyword_eq_of_contains : ∀ d ∈ Directive.all, ∀ d' ∈ Directive.all,
    Text.contains d'.keyword d.keyword → d'.keyword = d.keyword := by
  decide +kernel

theorem not_mem_keyword {t : Text} (hd : d ∈ Directive.all) (ht : unmarked t = []) :
    ∀ c ∈ t, c ∉ d.keyword := by
  obtain ⟨-, -, hmark, hquote⟩ := keyword_spec d hd
  intro c hc
  rcases mark_of_unmarked_eq_nil ht hc with rfl | rfl
  · exact hmark
  · exact hquote

theorem not_contains_keyword {t : Text} (hd : d ∈ Directive.all) (ht : ∀ c ∈ t, c ∉ d.keyword) :
    Text.contains d.keyword t = false := by
  obtain ⟨c, hc⟩ := List.exists_mem_of_ne_nil _ (keyword_spec d hd).1
  exact Text.contains_eq_false_of_not_mem hc fun hmem => ht c hmem hc

/-! ### Word by word -/

theorem foldl_replaceAll_append_cons {c : Char} : ∀ {names : List Text}, (∀ k ∈ names, k ≠ [] ∧ c ∉ k) →
    ∀ s t : Text, names.foldl (fun t k => Text.replaceAll k [] t) (s ++ c :: t) =
      names.foldl (fun t k => Text.replaceAll k [] t) s ++
        c :: names.foldl (fun t k => Text.replaceAll k [] t) t
  | [], _, _, _ => rfl
  | k :: names, h, s, t => by
      rw [List.forall_mem_cons] at h
      simp only [List.foldl_cons]
      rw [Text.replaceAll_append_cons h.1.2 h.1.1, foldl_replaceAll_append_cons h.2]

theorem remainder_append_cons {c : Char} (hc : Text.isBlank c) (s t : Text) :
    remainder (s ++ c :: t) = remainder s ++ c :: remainder t := by
  have hnames : ∀ k ∈ Directive.all.map Directive.keyword, k ≠ [] ∧ c ∉ k := by
    rw [List.forall_mem_map]
    intro d hd
    obtain ⟨hne, hblank, -⟩ := keyword_spec d hd
    refine ⟨hne, fun hmem => ?_⟩
    rw [hblank c hmem] at hc
    cases hc
  have hmark : c ≠ '#' := by
    rintro rfl
    exact absurd hc (by decide)
  have hquote : c ≠ '"' := by
    rintro rfl
    exact absurd hc (by decide)
  rw [remainder, undirect, foldl_replaceAll_append_cons hnames, unmarked_append,
    unmarked_cons hmark hquote]
  rfl

/-! ### Single words -/

theorem remainder_of_undirected (h : Undirected w) : remainder w = unmarked w := by
  rw [remainder, undirect_of_undirected h]

/-- A text that has no name without its marks and quotes has none with them. -/
theorem undirected_of_unmarked (h : Undirected (unmarked w)) : Undirected w := by
  intro d hd
  obtain ⟨-, -, hmark, hquote⟩ := keyword_spec d hd
  rw [Bool.eq_false_iff, ne_eq, Text.contains_iff]
  rintro ⟨front, back, rfl⟩
  have hkept : unmarked d.keyword = d.keyword := by
    rw [unmarked, Text.filter_ne_of_not_mem hmark, Text.filter_ne_of_not_mem hquote]
  have hname : Text.contains d.keyword (unmarked (front ++ d.keyword ++ back)) := by
    rw [unmarked_append, unmarked_append, hkept, Text.contains_iff]
    exact ⟨_, _, rfl⟩
  rw [h d hd] at hname
  cases hname

/-- A name between marks and quotes is cut out, and nothing else is. -/
theorem replaceAll_keyword {d' : Directive} (hd : d ∈ Directive.all) (hd' : d' ∈ Directive.all)
    {front back : Text} (hfront : unmarked front = []) (hback : unmarked back = []) :
    Text.replaceAll d'.keyword [] (front ++ (d.keyword ++ back)) =
      if d'.keyword = d.keyword then front ++ back else front ++ (d.keyword ++ back) := by
  obtain ⟨c, rest, hname⟩ := List.exists_cons_of_ne_nil (keyword_spec d' hd').1
  have hc : c ∉ front := fun hmem => not_mem_keyword hd' hfront c hmem (hname ▸ List.mem_cons_self)
  rw [hname, Text.replaceAll_append_of_not_mem rest [] hc, ← hname]
  split
  · next heq =>
    rw [heq, Text.replaceAll_append (keyword_spec d hd).1, List.nil_append,
      Text.replaceAll_of_not_contains (not_contains_keyword hd (not_mem_keyword hd hback))]
  · next hne =>
    have hnot : Text.contains d'.keyword d.keyword = false := by
      rw [Bool.eq_false_iff]
      exact fun h => hne (keyword_eq_of_contains d hd d' hd' h)
    refine congrArg (front ++ ·) (Text.replaceAll_of_not_contains ?_)
    have hmarks := not_mem_keyword hd' hback
    cases back with
    | nil => rwa [List.append_nil]
    | cons m back =>
      rw [List.forall_mem_cons] at hmarks
      rw [Text.contains_append_cons hmarks.1, hnot, Bool.false_or]
      exact not_contains_keyword hd' hmarks.2

theorem foldl_replaceAll_keyword (hd : d ∈ Directive.all) {front back : Text}
    (hfront : unmarked front = []) (hback : unmarked back = []) : ∀ {ds : List Directive},
    (∀ d' ∈ ds, d' ∈ Directive.all) → d ∈ ds →
    (ds.map Directive.keyword).foldl (fun t k => Text.replaceAll k [] t)
      (front ++ (d.keyword ++ back)) = front ++ back
  | [], _, h => by cases h
  | d' :: ds, hds, h => by
      rw [List.forall_mem_cons] at hds
      rw [List.map_cons, List.foldl_cons, replaceAll_keyword hd hds.1 hfront hback]
      split
      · have hmarks : unmarked (front ++ back) = [] := by
          rw [unmarked_append, hfront, hback, List.append_nil]
        refine Text.foldl_eq_self ?_
        rw [List.forall_mem_map]
        exact fun d'' hd'' => Text.replaceAll_of_not_contains
          (not_contains_keyword (hds.2 d'' hd'') (not_mem_keyword (hds.2 d'' hd'') hmarks))
      · next hne =>
        refine foldl_replaceAll_keyword hd hfront hback hds.2 ((List.mem_cons.mp h).resolve_left ?_)
        rintro rfl
        exact hne rfl

theorem NamesDirective.remainder_eq_nil (h : NamesDirective w) : remainder w = [] := by
  obtain ⟨d, hd, front, back, rfl, hfront, hback⟩ := h
  rw [remainder, undirect, foldl_replaceAll_keyword hd hfront hback (fun _ => id) hd, unmarked_append,
    hfront, hback, List.append_nil]

/-! ### Lines -/

/-- A cleaned text has a name in it when a word of the text is left with that name. -/
theorem contains_clean (hd : d ∈ Directive.all) (t : Text) : Text.contains d.keyword (clean t) =
    (Text.words t).any fun w => Text.contains d.keyword (remainder w) := by
  obtain ⟨hne, hblank, -⟩ := keyword_spec d hd
  rw [clean_eq]
  exact (Text.contains_squeeze hne hblank _).trans
    (Text.contains_eq_any_words hne hblank rfl (fun _ => remainder_append_cons) t)

theorem undirected_clean_iff (t : Text) :
    Undirected (clean t) ↔ ∀ w ∈ Text.words t, Undirected (remainder w) := by
  constructor
  · intro h w hw d hd
    have hnone := h d hd
    rw [contains_clean hd, List.any_eq_false] at hnone
    exact Bool.eq_false_iff.mpr (hnone w hw)
  · intro h d hd
    rw [contains_clean hd, List.any_eq_false]
    exact fun w hw => Bool.eq_false_iff.mp (h w hw d hd)

theorem NamesDirective.undirected_remainder (h : NamesDirective w) : Undirected (remainder w) := by
  intro d hd
  rw [h.remainder_eq_nil, Text.contains_nil (keyword_spec d hd).1]

theorem undirected_remainder_of_unmarked (h : Undirected (unmarked w)) : Undirected (remainder w) := by
  rwa [remainder_of_undirected (undirected_of_unmarked h)]

/-- No directive is named in a line exactly when no word of the text that is cleaned is left with a name, once
names, marks and quotes have been cut out of it in this order. None is left in a text in which each word is the
name of a directive itself, or has no name even without its marks and quotes. -/
theorem render_undirected_iff (h : render template values step = .ok line) :
    ∃ filled, substitute template values step = .ok filled ∧
      (Undirected line ↔ ∀ w ∈ Text.words (Phrase.settle (isSingular values step) filled),
        Undirected (remainder w)) ∧
      ((∀ w ∈ Text.words (Phrase.settle (isSingular values step) filled),
        NamesDirective w ∨ Undirected (unmarked w)) → Undirected line) := by
  obtain ⟨filled, hfilled, h⟩ := bind_eq_ok.mp h
  obtain rfl := Except.ok.inj h
  refine ⟨filled, hfilled, undirected_clean_iff _, fun hwords => ?_⟩
  refine (undirected_clean_iff _).mpr fun w hw => ?_
  rcases hwords w hw with hdirective | hplain
  · exact hdirective.undirected_remainder
  · exact undirected_remainder_of_unmarked hplain

/-- A template of the usual form: a quoted line and a directive. -/
def fasterTemplate : Text :=
  "\"\x7b0\x7d% faster\" divide_by_one_hundred".toList

theorem render_fasterTemplate :
    render fasterTemplate [[.whole 200]] 0 = .ok "+2% faster".toList ∧
    Undirected "+2% faster".toList := by
  have hline : render fasterTemplate [[.whole 200]] 0 = .ok "+2% faster".toList := by
    decide +kernel
  have hfilled : substitute fasterTemplate [[.whole 200]] 0 =
      .ok "\"+2% faster\" divide_by_one_hundred".toList := by
    decide +kernel
  obtain ⟨filled, hsame, hiff, -⟩ := render_undirected_iff hline
  rw [hfilled] at hsame
  rw [← Except.ok.inj hsame] at hiff
  exact ⟨hline, hiff.mpr (by decide +kernel)⟩

/-- A name that a mark interrupts and a name around the same name. -/
theorem render_joins_keyword :
    render "\x7b0\x7d divide_by_#one_hundred".toList [[.whole 5]] 0 =
      .ok "5 divide_by_one_hundred".toList ∧
    render "\x7b0\x7d divide_by_divide_by_one_hundredone_hundred".toList [[.whole 500]] 0 =
      .ok "+5 divide_by_one_hundred".toList ∧
    Text.contains "divide_by_one_hundred".toList "5 divide_by_one_hundred".toList ∧
    Text.contains "divide_by_one_hundred".toList "+5 divide_by_one_hundred".toList := by
  refine ⟨?_, ?_, ?_, ?_⟩
  all_goals decide +kernel

end Template

end GemScribe
