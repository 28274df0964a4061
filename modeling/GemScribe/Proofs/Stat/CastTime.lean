import GemScribe.Proofs.Stat.Filling
import GemScribe.Proofs.Stat.Seconds

/-!
Added cast time.

What a gem adds to the cast time is written in links, one for a single second and one for any other
number of seconds, and a block has a template for the second of them, or one for each. A value of one
second settles only the link for a single second; in the other template it takes the number of the link
itself for a condition. And of two lines that state an added time none is left out, since their counts
do not follow an `is`. `renderStep_addedCastTime` says which lines come of both blocks at every value.
-/

namespace GemScribe.CastTime

/-- The template for a single second. -/
def singular : Text :=
  "1000 \"[AddedAttackCastTime|+1000 second] to Cast Time\"".toList

/-- The template for any number of seconds. -/
def plural : Text :=
  "# \"[AddedAttackCastTime|+1000 seconds] to Cast Time\"".toList

/-- The line that adds a number of units to the cast time. -/
def added (n : Binary64) (unit : Text) : Text :=
  '+' :: (n.display ++ ' ' :: (unit ++ " to Cast Time".toList))

/-- The line in the wording of the value `v`, which is `n` seconds. -/
def worded (v : Quantity) (n : Binary64) : Text :=
  added n (if v.toRat = 1000 then "second".toList else "seconds".toList)

variable {v : Quantity} {n : Binary64} {t unit : Text}

/-! ### Texts without phrases -/

/-- Letters of which every phrase of the tables has one. -/
def phraseLetters : Text :=
  "hlF".toList

theorem settle_of_not_mem (h : ∀ c ∈ phraseLetters, c ∉ t) (one : Bool) : Phrase.settle one t = t := by
  have hkept : ∀ {table : List (Text × Text)},
      (∀ entry ∈ table, phraseLetters.any fun c => decide (c ∈ entry.1)) →
        Phrase.replaceTable table t = t := by
    intro table htable
    refine Text.foldl_eq_self fun entry he => ?_
    obtain ⟨c, hc, hmem⟩ := List.any_eq_true.mp (htable entry he)
    exact Text.replaceAll_of_not_mem (of_decide_eq_true hmem) (h c hc) _
  have hliterals : ∀ entry ∈ Phrase.literals,
      phraseLetters.any fun c => decide (c ∈ entry.1) := by decide
  have hchosen : ∀ one, ∀ entry ∈ Phrase.chosen one,
      phraseLetters.any fun c => decide (c ∈ entry.1) := by decide
  have hfixed : ∀ entry ∈ Phrase.fixed, phraseLetters.any fun c => decide (c ∈ entry.1) := by decide
  rw [Phrase.settle, hkept hliterals, hkept (hchosen one), hkept hfixed]

/-- A template without directives and placeholders is rendered by settling its links, when what they are
settled to has no phrase in it. -/
theorem render_of_settled (hplain : '_' ∉ t) (hbrace : '\x7b' ∉ t) {s : Text}
    (hs : v.display = .ok s) {settled : Text} (hsettled : Template.settleCastTime v t = .ok settled)
    (hwords : ∀ c ∈ '_' :: phraseLetters, c ∉ settled) :
    Template.render t [[v]] 0 =
      .ok (Text.squeeze ((settled.filter (· ≠ '#')).filter (· ≠ '"'))) := by
  have hopen : '\x7b' ∈ Template.placeholder 0 ∧ '\x7b' ∈ Template.signedPlaceholder 0 := by decide
  rw [List.forall_mem_cons] at hwords
  obtain ⟨signed, hfill⟩ := Template.fillOne_eq hs 0 t
  rw [Text.replaceAll_of_not_mem hopen.2 hbrace, Text.replaceAll_of_not_mem hopen.1 hbrace,
    hsettled] at hfill
  have hsubstitute : Template.substitute t [[v]] 0 = .ok settled := by
    rw [Template.substitute, Directive.find?_eq_none_iff.mpr (undirected_of_not_mem hplain)]
    exact bind_eq_ok.mpr ⟨settled, hfill, rfl⟩
  rw [Template.render, bind_eq_ok]
  refine ⟨settled, hsubstitute, ?_⟩
  rw [settle_of_not_mem hwords.2, Template.clean_of_undirected (undirected_of_not_mem hwords.1)]
  rfl

/-! ### The line that is stated -/

theorem mem_of_mem_added (hn : n.isFinite) (hunit : ∀ c ∈ unit, c ∈ "seconds".toList) {c : Char}
    (h : c ∈ added n unit) : c ∈ Text.numeralChars ++ " seconds to Cast Time".toList := by
  have hseconds : ∀ c ∈ "seconds".toList, c ∈ " seconds to Cast Time".toList :=
    Text.forall_mem_of_all (by decide)
  have hrest : ∀ c ∈ " to Cast Time".toList, c ∈ " seconds to Cast Time".toList :=
    Text.forall_mem_of_all (by decide)
  rw [added, List.mem_cons, List.mem_append, List.mem_cons, List.mem_append] at h
  rcases h with rfl | h | rfl | h | h
  · decide
  · exact List.mem_append_left _ (Binary64.mem_numeralChars_of_mem_display hn h)
  · decide
  · exact List.mem_append_right _ (hseconds c (hunit c h))
  · exact List.mem_append_right _ (hrest c h)

theorem not_mem_added (hn : n.isFinite) (hunit : ∀ c ∈ unit, c ∈ "seconds".toList) {c : Char}
    (hc : c ∉ Text.numeralChars ++ " seconds to Cast Time".toList) : c ∉ added n unit :=
  fun h => hc (mem_of_mem_added hn hunit h)

theorem bracket_not_mem_worded (hn : n.isFinite) : '[' ∉ worded v n := by
  rw [worded]
  split
  · exact not_mem_added hn (Text.forall_mem_of_all (by decide)) (by decide)
  · exact not_mem_added hn (fun _ h => h) (by decide)

/-- The words of the line are single-spaced already. -/
theorem squeeze_added (hn : n.isFinite) :
    Text.squeeze (' ' :: added n "seconds".toList) = added n "seconds".toList := by
  have hblank : Text.isBlank ' ' := by decide
  have hnumeral : ∀ c ∈ Text.numeralChars, Text.isBlank c = false := Text.forall_mem_of_all (by decide)
  have hcount : ∀ c ∈ '+' :: n.display, Text.isBlank c = false := by
    rw [List.forall_mem_cons]
    exact ⟨by decide, fun c hc => hnumeral c (Binary64.mem_numeralChars_of_mem_display hn hc)⟩
  have hrest : Text.words ("seconds".toList ++ " to Cast Time".toList) =
      ["seconds".toList, "to".toList, "Cast".toList, "Time".toList] := by decide
  have hjoined : "seconds".toList ++ " to Cast Time".toList =
      List.intercalate [' '] ["seconds".toList, "to".toList, "Cast".toList, "Time".toList] := by decide
  have hfront := Text.words_append_cons hblank [] (added n "seconds".toList)
  rw [List.nil_append, Text.words_nil, List.nil_append] at hfront
  rw [Text.squeeze, hfront, added, ← List.cons_append, Text.words_append_cons hblank,
    Text.words_of_forall_not (List.cons_ne_nil _ _) hcount, hrest, hjoined,
    Text.intercalate_append [' '] (List.cons_ne_nil _ _) (List.cons_ne_nil _ _),
    List.intercalate_singleton, List.append_assoc]
  rfl

/-! ### The two templates -/

/-- A finite value in milliseconds that can be shown, and its quotient in seconds. -/
structure Adds (v : Quantity) (n : Binary64) : Prop where
  value : v.isFinite
  shown : ∃ s, v.display = .ok s
  quotient : v.divBy 1000 = .ok n
  seconds : n.isFinite

theorem exists_adds (hv : v.isFinite) (hbound : |v.toRat| ≤ 10 ^ 12) : ∃ n, Adds v n := by
  have hlarge : |v.toRat| < 2 ^ 1023 :=
    calc |v.toRat| ≤ 10 ^ 12 := hbound
      _ < 2 ^ 40 := by norm_num
      _ < 2 ^ 1023 := pow_lt_pow_right₀ one_lt_two (by decide)
  obtain ⟨n, hn, hfinite, -⟩ := Quantity.divBy_spec hv hlarge (d := 1000) (by decide)
  exact ⟨n, hv, Quantity.exists_display hlarge, hn, hfinite⟩

theorem Adds.eq_one (h : Adds v n) (hone : v.toRat = 1000) : n = Binary64.ofRat false 1 :=
  Except.ok.inj (h.quotient.symm.trans (Duration.divBy_of_oneSecond h.value hone))

theorem Adds.settled_of_one (h : Adds v n) (hone : v.toRat = 1000) (t : Text) :
    Template.settleCastTime v t = .ok (Template.dropFinalOne (Text.eraseFirst "1000".toList
      (Text.replaceAll Template.castTimeSingular "+1 second".toList t))) := by
  have hnumber : intText Template.oneSecond = "1000".toList := by decide
  have hcount : '+' :: (Binary64.ofRat false 1).display ++ " second".toList = "+1 second".toList := by
    decide +kernel
  rw [Template.settleCastTime_eq h.quotient,
    if_pos ((Duration.equalsInt_oneSecond_iff h.value).mpr hone), h.eq_one hone, hnumber, hcount]

theorem Adds.settled_of_many (h : Adds v n) (hmany : v.toRat ≠ 1000) (t : Text) :
    Template.settleCastTime v t = .ok (Text.replaceAll Template.castTimePlural
      ('+' :: n.display ++ " seconds".toList) t) := by
  rw [Template.settleCastTime_eq h.quotient,
    if_neg (mt (Duration.equalsInt_oneSecond_iff h.value).mp hmany)]

theorem plain_singular : '_' ∉ singular ∧ '\x7b' ∉ singular := by
  decide

theorem plain_plural : '_' ∉ plural ∧ '\x7b' ∉ plural := by
  decide

/-- At one second the link for a single second is settled, and the number of the condition goes. -/
theorem Adds.render_singular_of_one (h : Adds v n) (hone : v.toRat = 1000) :
    Template.render singular [[v]] 0 = .ok "+1 second to Cast Time".toList := by
  have hsettled : Template.dropFinalOne (Text.eraseFirst "1000".toList
      (Text.replaceAll Template.castTimeSingular "+1 second".toList singular)) =
        " \"+1 second to Cast Time\"".toList := by
    decide +kernel
  obtain ⟨s, hs⟩ := h.shown
  rw [render_of_settled plain_singular.1 plain_singular.2 hs (h.settled_of_one hone _), hsettled]
  · decide +kernel
  · rw [hsettled]
    exact Text.forall_mem_of_all (by decide)

/-- At any other value the template for a single second stays as it is. -/
theorem Adds.render_singular_of_many (h : Adds v n) (hmany : v.toRat ≠ 1000) :
    Template.render singular [[v]] 0 =
      .ok "1000 [AddedAttackCastTime|+1000 second] to Cast Time".toList := by
  have hkept : ∀ new, Text.replaceAll Template.castTimePlural new singular = singular :=
    fun new => Text.replaceAll_of_not_contains (by decide +kernel)
  obtain ⟨s, hs⟩ := h.shown
  rw [render_of_settled plain_singular.1 plain_singular.2 hs (h.settled_of_many hmany _), hkept]
  · decide +kernel
  · rw [hkept]
    exact Text.forall_mem_of_all (by decide)

/-- At one second the number that goes is that of the link, which is not settled. -/
theorem Adds.render_plural_of_one (h : Adds v n) (hone : v.toRat = 1000) :
    Template.render plural [[v]] 0 = .ok "[AddedAttackCastTime|+ seconds] to Cast Time".toList := by
  have hsettled : Template.dropFinalOne (Text.eraseFirst "1000".toList
      (Text.replaceAll Template.castTimeSingular "+1 second".toList plural)) =
        "# \"[AddedAttackCastTime|+ seconds] to Cast Time\"".toList := by
    decide +kernel
  obtain ⟨s, hs⟩ := h.shown
  rw [render_of_settled plain_plural.1 plain_plural.2 hs (h.settled_of_one hone _), hsettled]
  · decide +kernel
  · rw [hsettled]
    exact Text.forall_mem_of_all (by decide)

theorem replaceAll_plural (n : Binary64) :
    Text.replaceAll Template.castTimePlural ('+' :: n.display ++ " seconds".toList) plural =
      "# \"".toList ++ (added n "seconds".toList ++ ['"']) := by
  have hlink : Template.castTimePlural = '[' :: "AddedAttackCastTime|+1000 seconds]".toList := by decide
  have hplural : plural =
      "# \"".toList ++ (Template.castTimePlural ++ (" to Cast Time".toList ++ ['"'])) := by decide
  have hunit : " seconds".toList = ' ' :: "seconds".toList := by decide
  have hrest : ∀ new, Text.replaceAll Template.castTimePlural new (" to Cast Time".toList ++ ['"']) =
      " to Cast Time".toList ++ ['"'] :=
    fun new => Text.replaceAll_of_not_mem (c := '[') (by decide) (by decide) new
  rw [hplural]
  nth_rewrite 1 [hlink]
  rw [Text.replaceAll_append_of_not_mem _ _ (by decide), ← hlink,
    Text.replaceAll_append (by decide), hrest, added, hunit]
  simp only [List.append_assoc, List.cons_append]

/-- At any other value the link is settled by the number of seconds. -/
theorem Adds.render_plural_of_many (h : Adds v n) (hmany : v.toRat ≠ 1000) :
    Template.render plural [[v]] 0 = .ok (added n "seconds".toList) := by
  have hnot : ∀ {c : Char}, c ∉ Text.numeralChars ++ " seconds to Cast Time".toList →
      c ∉ added n "seconds".toList := fun hc => not_mem_added h.seconds (fun _ h => h) hc
  have hforeign : ∀ c ∈ '_' :: phraseLetters,
      c ∉ Text.numeralChars ++ " seconds to Cast Time".toList ∧ c ∉ "# \"".toList ++ ['"'] :=
    Text.forall_mem_of_all (by decide)
  have hwords : ∀ c ∈ '_' :: phraseLetters,
      c ∉ "# \"".toList ++ (added n "seconds".toList ++ ['"']) := by
    intro c hc
    obtain ⟨hline, hmark⟩ := hforeign c hc
    rw [List.mem_append, not_or] at hmark
    rw [List.mem_append, List.mem_append, not_or, not_or]
    exact ⟨hmark.1, hnot hline, hmark.2⟩
  have hmarks : (("# \"".toList ++ (added n "seconds".toList ++ ['"'])).filter (· ≠ '#')).filter
      (· ≠ '"') = ' ' :: added n "seconds".toList := by
    have hfront : ("# \"".toList.filter (· ≠ '#')).filter (· ≠ '"') = [' '] := by decide
    have hend : (['"'].filter (· ≠ '#')).filter (· ≠ '"') = [] := by decide
    rw [List.filter_append, List.filter_append, List.filter_append, List.filter_append,
      Text.filter_ne_of_not_mem (hnot (c := '#') (by decide)),
      Text.filter_ne_of_not_mem (hnot (c := '"') (by decide)), hfront, hend, List.append_nil]
    rfl
  obtain ⟨s, hs⟩ := h.shown
  have hsettled := h.settled_of_many hmany plural
  rw [replaceAll_plural] at hsettled
  rw [render_of_settled plain_plural.1 plain_plural.2 hs hsettled hwords, hmarks,
    squeeze_added h.seconds]

/-! ### One step -/

theorem Adds.collapse_of_one (h : Adds v n) (hone : v.toRat = 1000) (lines : List Text) :
    Variant.collapse lines v = Variant.collapse (lines.take 1) v := by
  have hequals := (Duration.equalsInt_oneSecond_iff h.value).mpr hone
  rw [Variant.collapse, Variant.collapse, if_pos hequals, if_pos hequals, List.take_take]
  rfl

theorem collapse_singleton (line : Text) (v : Quantity) : Variant.collapse [line] v = .ok [line] := by
  rw [Variant.collapse]
  cases v.equalsInt Template.oneSecond <;> rfl

theorem renderStep_single {template line : Text} (h : Template.render template [[v]] 0 = .ok line) :
    Variant.renderStep [template] [[v]] 0 v = .ok [line] := by
  have hlines : Template.renderAll [[v]] 0 [template] = .ok [line] :=
    bind_eq_ok.mpr ⟨line, h, rfl⟩
  rw [Variant.renderStep, hlines]
  exact collapse_singleton line v

theorem renderStep_pair {first second line line' : Text}
    (h : Template.render first [[v]] 0 = .ok line) (h' : Template.render second [[v]] 0 = .ok line') :
    Variant.renderStep [first, second] [[v]] 0 v = Variant.collapse [line, line'] v := by
  rw [Variant.renderStep, Duration.renderAll_pair h h']
  rfl

/-- No count is read from the line that the template for a single second leaves. -/
theorem Adds.collapse_of_many (h : Adds v n) (hmany : v.toRat ≠ 1000) (line : Text) :
    Variant.collapse ["1000 [AddedAttackCastTime|+1000 second] to Cast Time".toList, line] v =
      .ok ["1000 [AddedAttackCastTime|+1000 second] to Cast Time".toList, line] := by
  have hcount : Variant.singularCount?
      "1000 [AddedAttackCastTime|+1000 second] to Cast Time".toList = none := by decide
  rw [Variant.collapse, if_neg (mt (Duration.equalsInt_oneSecond_iff h.value).mp hmany)]
  dsimp only
  rw [Variant.choosePair, hcount]

/-- The one line that names the added time comes of the template for any number of seconds at every value
but one second, and of both templates at one second alone. At one second the first of these blocks gives
a link without its number; at every other value the second gives its other template as a line, too. -/
theorem renderStep_addedCastTime {v : Quantity} (hv : v.isFinite) (hbound : |v.toRat| ≤ 10 ^ 12) :
    ∃ n, v.divBy 1000 = .ok n ∧ '[' ∉ worded v n ∧
      (Variant.renderStep [plural] [[v]] 0 v = .ok [added n "seconds".toList] ↔ v.toRat ≠ 1000) ∧
      (v.toRat = 1000 → Variant.renderStep [plural] [[v]] 0 v =
        .ok ["[AddedAttackCastTime|+ seconds] to Cast Time".toList]) ∧
      (Variant.renderStep [singular, plural] [[v]] 0 v = .ok [worded v n] ↔ v.toRat = 1000) ∧
      (v.toRat ≠ 1000 → Variant.renderStep [singular, plural] [[v]] 0 v =
        .ok ["1000 [AddedAttackCastTime|+1000 second] to Cast Time".toList, worded v n]) := by
  obtain ⟨n, h⟩ := exists_adds hv hbound
  refine ⟨n, h.quotient, bracket_not_mem_worded h.seconds, ?_⟩
  by_cases hone : v.toRat = 1000
  · have hsingle := renderStep_single (h.render_plural_of_one hone)
    have hpair := renderStep_pair (h.render_singular_of_one hone) (h.render_plural_of_one hone)
    have hshown : worded v n = "+1 second to Cast Time".toList := by
      rw [worded, if_pos hone, h.eq_one hone]
      decide +kernel
    rw [h.collapse_of_one hone, List.take_one, List.head?_cons, Option.toList_some,
      collapse_singleton] at hpair
    rw [hshown]
    refine ⟨iff_of_false ?_ (not_not_intro hone), fun _ => hsingle, iff_of_true hpair hone,
      fun hmany => absurd hone hmany⟩
    rw [hsingle, Except.ok.injEq, List.cons.injEq, added]
    exact fun heq => absurd (List.cons.inj heq.1).1 (by decide)
  · have hsingle := renderStep_single (h.render_plural_of_many hone)
    have hpair := renderStep_pair (h.render_singular_of_many hone) (h.render_plural_of_many hone)
    have hshown : worded v n = added n "seconds".toList := by rw [worded, if_neg hone]
    rw [h.collapse_of_many hone] at hpair
    rw [hshown]
    refine ⟨iff_of_true hsingle hone, fun h => absurd h hone, iff_of_false ?_ hone, fun _ => hpair⟩
    rw [hpair]
    intro hsame
    exact absurd (congrArg List.length (Except.ok.inj hsame)) (by simp)

/-- Two and a half seconds, in milliseconds. -/
def twoAndAHalf : Quantity :=
  .real (.ofInt 2500)

theorem renderStep_twoAndAHalf_added :
    twoAndAHalf.isFinite ∧ |twoAndAHalf.toRat| ≤ 10 ^ 12 ∧
      ∃ n, twoAndAHalf.divBy 1000 = .ok n ∧ '[' ∉ worded twoAndAHalf n ∧
        (Variant.renderStep [plural] [[twoAndAHalf]] 0 twoAndAHalf =
          .ok [added n "seconds".toList] ↔ twoAndAHalf.toRat ≠ 1000) ∧
        (twoAndAHalf.toRat = 1000 → Variant.renderStep [plural] [[twoAndAHalf]] 0 twoAndAHalf =
          .ok ["[AddedAttackCastTime|+ seconds] to Cast Time".toList]) ∧
        (Variant.renderStep [singular, plural] [[twoAndAHalf]] 0 twoAndAHalf =
          .ok [worded twoAndAHalf n] ↔ twoAndAHalf.toRat = 1000) ∧
        (twoAndAHalf.toRat ≠ 1000 →
          Variant.renderStep [singular, plural] [[twoAndAHalf]] 0 twoAndAHalf =
            .ok ["1000 [AddedAttackCastTime|+1000 second] to Cast Time".toList,
              worded twoAndAHalf n]) := by
  have hbound : |twoAndAHalf.toRat| ≤ 10 ^ 12 := by decide +kernel
  exact ⟨rfl, hbound, renderStep_addedCastTime rfl hbound⟩

/-- The link for several seconds loses its number at one second, and two and a half seconds are stated in
two lines, the first of which has a link left. -/
theorem renderStep_leaves_link :
    Variant.renderStep [plural] [[.real (.ofInt 1000)]] 0 (.real (.ofInt 1000)) =
        .ok ["[AddedAttackCastTime|+ seconds] to Cast Time".toList] ∧
      Variant.renderStep [plural] [[.real (.ofInt 1000)]] 0 (.real (.ofInt 1000)) ≠
        .ok ["+1 seconds to Cast Time".toList] ∧
      Variant.renderStep [singular, plural] [[twoAndAHalf]] 0 twoAndAHalf =
        .ok ["1000 [AddedAttackCastTime|+1000 second] to Cast Time".toList,
          "+2.5 seconds to Cast Time".toList] ∧
      Variant.renderStep [singular, plural] [[twoAndAHalf]] 0 twoAndAHalf ≠
        .ok ["+2.5 seconds to Cast Time".toList] := by
  have hone : Variant.renderStep [plural] [[.real (.ofInt 1000)]] 0 (.real (.ofInt 1000)) =
      .ok ["[AddedAttackCastTime|+ seconds] to Cast Time".toList] := by decide +kernel
  have hmany : Variant.renderStep [singular, plural] [[twoAndAHalf]] 0 twoAndAHalf =
      .ok ["1000 [AddedAttackCastTime|+1000 second] to Cast Time".toList,
        "+2.5 seconds to Cast Time".toList] := by decide +kernel
  refine ⟨hone, ?_, hmany, ?_⟩
  · rw [hone]
    decide
  · rw [hmany]
    decide

end GemScribe.CastTime
