import GemScribe.Proofs.Stat.Count
import GemScribe.Proofs.Stat.Duration
import GemScribe.Proofs.Stat.Limits

/-!
Durations of one second, of several, and of parts of a second.

The two lines of a duration show the same count, and the line in the plural is kept when that count is
read again from both. A natural number of seconds is. A negative number or one with a fraction is shown
with a character that is no digit, is not read again, and leaves both lines.
-/

namespace GemScribe.Duration

variable {phrase condition count unit : Text}

/-! ### Counts -/

/-- The phrase of a line is passed over when its count is read. -/
theorem countBefore?_counted (hp : PlainPhrase phrase) (sought : Text) :
    Variant.countBefore? sought (counted phrase count unit) =
      Variant.countBefore? sought ("is ".toList ++ (count ++ ' ' :: unit)) :=
  Variant.countBefore?_append fun c hc => (hp.wordy c hc).2

theorem countBefore?_counted_of_digits (hp : PlainPhrase phrase) (hne : count ≠ [])
    (hdigits : ∀ c ∈ count, Text.isDigit c) :
    Variant.countBefore? (' ' :: unit) (counted phrase count unit) = some count := by
  have hfound := Variant.countBefore?_digits (t := []) (u := unit) hne hdigits
  rw [List.append_nil] at hfound
  rw [countBefore?_counted hp, hfound]

theorem countBefore?_counted_of_not_digits (hp : PlainPhrase phrase) {n : Binary64}
    (hn : n.isFinite) (hdigits : ¬∀ c ∈ n.display, Text.isDigit c) (hunit : 'i' ∉ unit) :
    Variant.countBefore? (' ' :: unit) (counted phrase n.display unit) = none := by
  have hblank : ' ' ∉ Text.numeralChars := by decide
  have hletter : 'i' ∉ Text.numeralChars := by decide
  rw [countBefore?_counted hp]
  refine Variant.countBefore?_of_not_digits ?_
    (fun hc => hblank (Binary64.mem_numeralChars_of_mem_display hn hc))
    (fun hc => hletter (Binary64.mem_numeralChars_of_mem_display hn hc)) hunit
  simpa using hdigits

/-- Whatever the value is, the number of the condition is left before the first line. -/
theorem singularCount?_left (phrase count : Text) :
    Variant.singularCount? ("1000".toList ++ ' ' :: counted phrase count "second".toList) =
      Variant.singularCount? (counted phrase count "second".toList) := by
  have hcondition : 'i' ∉ "1000 ".toList := by decide
  exact Variant.countBefore?_append_of_not_mem hcondition _

/-! ### Values -/

/-- A finite value in milliseconds, and the number of seconds that it is converted to. -/
structure Converts (v : Quantity) (n : Binary64) : Prop where
  value : v.isFinite
  converted : milliseconds.convert v = .ok n
  seconds : n.isFinite
  signed : ∃ t, v.displaySigned = .ok t
  quotient : ∃ q, v.divBy 1000 = .ok q

/-- Up to `10^12` milliseconds the conversion keeps within the digits of a rounded number. -/
theorem exists_converts {v : Quantity} (hv : v.isFinite) (hbound : |v.toRat| ≤ 10 ^ 12) :
    ∃ n, Converts v n := by
  have hlarge : |v.toRat| < 2 ^ 1023 :=
    calc |v.toRat| ≤ 10 ^ 12 := hbound
      _ < 2 ^ 40 := by norm_num
      _ < 2 ^ 1023 := pow_lt_pow_right₀ one_lt_two (by decide)
  obtain ⟨q, hq, hfinite, herror⟩ := Quantity.divBy_spec hv hlarge (d := 1000) (by decide)
  have hquotient : |v.toRat / (1000 : ℕ)| ≤ 10 ^ 9 := by
    rw [abs_div, Nat.abs_cast, div_le_iff₀ (by norm_num)]
    calc |v.toRat| ≤ 10 ^ 12 := hbound
      _ = 10 ^ 9 * (1000 : ℕ) := by norm_num
  have hsize : |q.toRat| ≤ 10 ^ 10 := by
    have hmax : max |v.toRat / (1000 : ℕ)| 1 / 2 ^ 53 ≤ 10 ^ 9 := by
      rw [div_le_iff₀ (by norm_num), max_le_iff]
      constructor <;> linarith
    have htriangle := abs_sub_abs_le_abs_sub q.toRat (v.toRat / (1000 : ℕ))
    linarith
  have hfits : milliseconds.Fits v := by
    refine ⟨q, hq, ?_⟩
    change |q.toRat| * 10 ^ (2 : ℤ) + 1 / 2 < 10 ^ roundingDigits
    rw [roundingDigits]
    norm_num
    linarith
  obtain ⟨n, hn⟩ := (Directive.exists_convert_iff rfl).mpr hfits
  obtain ⟨q', hq', hround⟩ := bind_eq_ok.mp hn
  obtain rfl : q = q' := Except.ok.inj (hq.symm.trans hq')
  exact ⟨n, hv, hn, Binary64.isFinite_roundHalfUp (by decide) hfinite hround,
    Quantity.exists_displaySigned hlarge, q, hq⟩

/-- One thousand milliseconds are one second. -/
theorem divBy_of_oneSecond {v : Quantity} (hv : v.isFinite) (hone : v.toRat = 1000) :
    v.divBy 1000 = .ok (Binary64.ofRat false 1) := by
  cases v with
  | whole i =>
    have hi : (i : ℚ) = 1000 := hone
    obtain rfl : i = 1000 := by exact_mod_cast hi
    decide +kernel
  | real x =>
    cases x with
    | finite s m e hc =>
      have hdiv : (Binary64.finite s m e hc).toRat / (1000 : ℕ) = 1 := by
        rw [show (Binary64.finite s m e hc).toRat = 1000 from hone]
        norm_num
      rw [Quantity.divBy, Binary64.divBy, hdiv]
      rfl
    | infinite s => cases hv
    | nan => cases hv

theorem display_of_oneSecond {v : Quantity} (hv : v.isFinite) (hone : v.toRat = 1000) {n : Binary64}
    (hn : milliseconds.convert v = .ok n) : n.display = ['1'] := by
  have hshown : ((Binary64.ofRat false 1).roundHalfUp 2).map Binary64.display = .ok ['1'] := by
    decide +kernel
  obtain ⟨q, hq, hround⟩ := bind_eq_ok.mp hn
  obtain rfl : Binary64.ofRat false 1 = q :=
    Except.ok.inj ((divBy_of_oneSecond hv hone).symm.trans hq)
  change (Binary64.ofRat false 1).roundHalfUp 2 = .ok n at hround
  rw [hround] at hshown
  exact Except.ok.inj hshown

theorem equalsInt_oneSecond_iff {v : Quantity} (hv : v.isFinite) :
    v.equalsInt Template.oneSecond ↔ v.toRat = 1000 := by
  have hcast : ((Template.oneSecond : ℤ) : ℚ) = 1000 := by
    rw [Template.oneSecond]
    norm_num
  rw [Quantity.equalsInt_iff hv, hcast]

variable {v : Quantity} {n : Binary64}

theorem Converts.plainWord (h : Converts v n) : PlainWord n.display :=
  plainWord_of_numeral (Binary64.display_ne_nil h.seconds)
    fun _ => Binary64.mem_numeralChars_of_mem_display h.seconds

/-! ### The two lines -/

theorem plainWord_second : PlainWord "second".toList :=
  ⟨⟨Text.forall_mem_of_all (by decide), by decide⟩, by decide, Text.forall_mem_of_all (by decide),
    by decide⟩

theorem plainWord_seconds : PlainWord "seconds".toList :=
  ⟨⟨Text.forall_mem_of_all (by decide), by decide⟩, by decide, Text.forall_mem_of_all (by decide),
    by decide⟩

theorem parts_singular (hp : PlainPhrase phrase) : Parts "1000".toList phrase "second".toList :=
  ⟨Or.inr (by decide), ⟨Text.forall_mem_of_all (by decide), by decide⟩, hp, plainWord_second⟩

theorem parts_plural (hp : PlainPhrase phrase) : Parts ['#'] phrase "seconds".toList :=
  ⟨Or.inl rfl, ⟨Text.forall_mem_of_all (by decide), by decide⟩, hp, plainWord_seconds⟩

/-- Unless the value is one second, a template keeps its condition. -/
theorem render_of_many (hp : Parts condition phrase unit) (h : Converts v n)
    (hmany : v.toRat ≠ 1000) :
    Template.render (template condition unit phrase) [[v]] 0 =
      .ok (line (condition.filter (· ≠ '#')) phrase n.display unit) := by
  obtain ⟨signed, hsigned⟩ := h.signed
  obtain ⟨q, hq⟩ := h.quotient
  have hequals : v.equalsInt Template.oneSecond = false := by
    rw [Bool.eq_false_iff, ne_eq, equalsInt_oneSecond_iff h.value]
    exact hmany
  rw [template_eq]
  refine render_text hp hp h.plainWord ?_
  rw [fillOne_text hp hsigned h.converted]
  exact settleCastTime_of_many hp h.plainWord hq hequals

/-- At one second the template in the singular loses its condition. -/
theorem render_of_one (hp : PlainPhrase phrase) (h : Converts v n) (hone : v.toRat = 1000) :
    Template.render (template "1000".toList "second".toList phrase) [[v]] 0 =
      .ok (line [] phrase n.display "second".toList) := by
  obtain ⟨signed, hsigned⟩ := h.signed
  obtain ⟨q, hq⟩ := h.quotient
  have hsettled : Parts [] phrase "second".toList :=
    ⟨Or.inr List.not_mem_nil, ⟨Text.forall_mem_of_all (by decide), by decide⟩, hp, plainWord_second⟩
  rw [template_eq]
  refine render_text (parts_singular hp) hsettled h.plainWord ?_
  rw [fillOne_text (parts_singular hp) hsigned h.converted]
  exact settleCastTime_of_one (parts_singular hp) h.plainWord hq
    ((equalsInt_oneSecond_iff h.value).mpr hone)

theorem renderAll_pair {values : List (List Quantity)} {step : Nat} {first second line line' : Text}
    (h : Template.render first values step = .ok line)
    (h' : Template.render second values step = .ok line') :
    Template.renderAll values step [first, second] = .ok [line, line'] := by
  rw [Template.renderAll, bind_eq_ok]
  refine ⟨line, h, ?_⟩
  rw [bind_eq_ok]
  refine ⟨[line'], ?_, rfl⟩
  rw [Template.renderAll, bind_eq_ok]
  exact ⟨line', h', rfl⟩

/-- The template for a single second at another value leaves the number of its condition behind. -/
def leftover (phrase : Text) (n : Binary64) : Text :=
  "1000".toList ++ ' ' :: counted phrase n.display "second".toList

theorem renderAll_of_many (hp : PlainPhrase phrase) (h : Converts v n) (hmany : v.toRat ≠ 1000) :
    Template.renderAll [[v]] 0 (templates phrase) =
      .ok [leftover phrase n, counted phrase n.display "seconds".toList] := by
  have hnumber : "1000".toList.filter (· ≠ '#') = "1000".toList := by decide
  have hmark : ['#'].filter (· ≠ '#') = [] := by decide
  have hfirst := render_of_many (parts_singular hp) h hmany
  have hsecond := render_of_many (parts_plural hp) h hmany
  rw [hnumber, line_of_condition hp (by decide) (Text.forall_mem_of_all (by decide))] at hfirst
  rw [hmark, line_nil hp] at hsecond
  exact renderAll_pair hfirst hsecond

/-! ### One step -/

theorem renderStep_of_one (hp : PlainPhrase phrase) (h : Converts v n) (hone : v.toRat = 1000) :
    Variant.renderStep (templates phrase) [[v]] 0 v =
      .ok [counted phrase ['1'] "second".toList] := by
  have hfirst := render_of_one hp h hone
  rw [line_nil hp, display_of_oneSecond h.value hone h.converted] at hfirst
  obtain ⟨signed, hsigned⟩ := h.signed
  -- the second line is rendered as well, but not kept
  obtain ⟨filled, hfilled⟩ := Template.exists_settleCastTime h.quotient
    (text ['#'] phrase n.display "seconds".toList)
  rw [← fillOne_text (parts_plural hp) hsigned h.converted] at hfilled
  have hsecond := render_eq (parts_plural hp) hfilled
  rw [← template_eq] at hsecond
  rw [Variant.renderStep, bind_eq_ok]
  refine ⟨_, renderAll_pair hfirst hsecond, ?_⟩
  rw [Variant.collapse, if_pos ((equalsInt_oneSecond_iff h.value).mpr hone)]
  rfl

theorem renderStep_of_many (hp : PlainPhrase phrase) (h : Converts v n) (hmany : v.toRat ≠ 1000) :
    Variant.renderStep (templates phrase) [[v]] 0 v =
      Variant.choosePair (leftover phrase n) (counted phrase n.display "seconds".toList) := by
  have hequals : ¬v.equalsInt Template.oneSecond := by
    rw [equalsInt_oneSecond_iff h.value]
    exact hmany
  rw [Variant.renderStep, renderAll_of_many hp h hmany]
  change Variant.collapse _ _ = _
  rw [Variant.collapse, if_neg hequals]

/-- A natural number of seconds is read again from both lines, and the plural is kept. -/
theorem choosePair_of_natural (hp : PlainPhrase phrase) (h : Converts v n)
    (hnatural : ∃ k : ℕ, n.toRat = k) :
    Variant.choosePair (leftover phrase n) (counted phrase n.display "seconds".toList) =
      .ok [counted phrase n.display "seconds".toList] := by
  have hdigits := (Binary64.forall_isDigit_display_iff h.seconds).mpr hnatural
  obtain ⟨k, hk⟩ := hnatural
  have hfirst : Variant.singularCount? (leftover phrase n) = some n.display :=
    (singularCount?_left phrase n.display).trans
      (countBefore?_counted_of_digits hp h.plainWord.nonempty hdigits)
  have hsecond : Variant.pluralCount? (counted phrase n.display "seconds".toList) =
      some n.display := countBefore?_counted_of_digits hp h.plainWord.nonempty hdigits
  rw [Variant.choosePair, hfirst, hsecond]
  dsimp only
  rw [Variant.firstFits_self (Binary64.length_display_le h.seconds hk)]
  rfl

/-- Any other number of seconds is not read again from the first line, and both lines are kept. -/
theorem choosePair_of_not_natural (hp : PlainPhrase phrase) (h : Converts v n)
    (hnatural : ¬∃ k : ℕ, n.toRat = k) :
    Variant.choosePair (leftover phrase n) (counted phrase n.display "seconds".toList) =
      .ok [leftover phrase n, counted phrase n.display "seconds".toList] := by
  have hdigits : ¬∀ c ∈ n.display, Text.isDigit c := by
    rw [Binary64.forall_isDigit_display_iff h.seconds]
    exact hnatural
  have hfirst : Variant.singularCount? (leftover phrase n) = none :=
    (singularCount?_left phrase n.display).trans
      (countBefore?_counted_of_not_digits hp h.seconds hdigits (by decide))
  rw [Variant.choosePair, hfirst]

/-- The line that states a duration: `n` is the number of seconds that the value `v` is converted to. -/
def stated (phrase : Text) (v : Quantity) (n : Binary64) : Text :=
  if v.toRat = 1000 then phrase ++ " is 1 second".toList
  else phrase ++ " is ".toList ++ n.display ++ " seconds".toList

theorem append_eq_counted (phrase count unit : Text) :
    phrase ++ " is ".toList ++ count ++ ' ' :: unit = counted phrase count unit := by
  have hverb : " is ".toList = ' ' :: "is ".toList := by decide
  rw [counted, hverb]
  simp only [List.append_assoc, List.cons_append]

theorem stated_of_one (hone : v.toRat = 1000) :
    stated phrase v n = counted phrase ['1'] "second".toList := by
  have hend : " is 1 second".toList = " is ".toList ++ (['1'] ++ ' ' :: "second".toList) := by decide
  rw [stated, if_pos hone, hend, ← append_eq_counted, List.append_assoc, List.append_assoc]

theorem stated_of_many (hmany : v.toRat ≠ 1000) :
    stated phrase v n = counted phrase n.display "seconds".toList := by
  have hunit : " seconds".toList = ' ' :: "seconds".toList := by decide
  rw [stated, if_neg hmany, hunit, append_eq_counted]

theorem leftover_eq (phrase : Text) (n : Binary64) :
    leftover phrase n =
      "1000 ".toList ++ phrase ++ " is ".toList ++ n.display ++ " second".toList := by
  have hnumber : "1000 ".toList = "1000".toList ++ [' '] := by decide
  have hunit : " second".toList = ' ' :: "second".toList := by decide
  rw [leftover, ← append_eq_counted, hnumber, hunit]
  simp only [List.append_assoc, List.cons_append, List.nil_append]

/-- A duration is stated in one line exactly when it is a single second or a natural number of seconds.
Any other number is not read again as a count, and then the line in the singular stays too, with the
number of its condition. -/
theorem renderStep_templates {phrase : Text} (hp : PlainPhrase phrase) {v : Quantity}
    (hv : v.isFinite) (hbound : |v.toRat| ≤ 10 ^ 12) :
    ∃ n, milliseconds.convert v = .ok n ∧
      (Variant.renderStep (templates phrase) [[v]] 0 v = .ok [stated phrase v n] ↔
        v.toRat = 1000 ∨ ∃ k : ℕ, n.toRat = k) ∧
      (¬(v.toRat = 1000 ∨ ∃ k : ℕ, n.toRat = k) →
        Variant.renderStep (templates phrase) [[v]] 0 v =
          .ok ["1000 ".toList ++ phrase ++ " is ".toList ++ n.display ++ " second".toList,
            stated phrase v n]) := by
  obtain ⟨n, h⟩ := exists_converts hv hbound
  refine ⟨n, h.converted, ?_⟩
  rw [← leftover_eq]
  by_cases hone : v.toRat = 1000
  · rw [stated_of_one hone]
    exact ⟨iff_of_true (renderStep_of_one hp h hone) (Or.inl hone),
      fun hneither => absurd (Or.inl hone) hneither⟩
  · rw [stated_of_many hone, renderStep_of_many hp h hone, or_iff_right hone]
    by_cases hnatural : ∃ k : ℕ, n.toRat = k
    · exact ⟨iff_of_true (choosePair_of_natural hp h hnatural) hnatural,
        fun hneither => absurd hnatural hneither⟩
    · have hboth := choosePair_of_not_natural hp h hnatural
      refine ⟨iff_of_false ?_ hnatural, fun _ => hboth⟩
      rw [hboth]
      intro hsingle
      have hlength := congrArg List.length (Except.ok.inj hsingle)
      exact absurd hlength (by simp)

theorem renderStep_baseDuration :
    PlainPhrase "Base duration".toList ∧ (Quantity.real (.ofInt 2500)).isFinite ∧
      |(Quantity.real (.ofInt 2500)).toRat| ≤ 10 ^ 12 ∧
      ∃ n, milliseconds.convert (.real (.ofInt 2500)) = .ok n ∧
        (Variant.renderStep (templates "Base duration".toList) [[.real (.ofInt 2500)]] 0
            (.real (.ofInt 2500)) =
              .ok [stated "Base duration".toList (.real (.ofInt 2500)) n] ↔
          (Quantity.real (.ofInt 2500)).toRat = 1000 ∨ ∃ k : ℕ, n.toRat = k) ∧
        (¬((Quantity.real (.ofInt 2500)).toRat = 1000 ∨ ∃ k : ℕ, n.toRat = k) →
          Variant.renderStep (templates "Base duration".toList) [[.real (.ofInt 2500)]] 0
            (.real (.ofInt 2500)) =
              .ok ["1000 ".toList ++ "Base duration".toList ++ " is ".toList ++ n.display ++
                  " second".toList,
                stated "Base duration".toList (.real (.ofInt 2500)) n]) := by
  have hp : PlainPhrase "Base duration".toList :=
    ⟨⟨Text.forall_mem_of_all (by decide), by decide⟩, by decide, by decide,
      Text.forall_mem_of_all (by decide)⟩
  have hbound : |(Quantity.real (.ofInt 2500)).toRat| ≤ 10 ^ 12 := by decide +kernel
  exact ⟨hp, rfl, hbound, renderStep_templates hp rfl hbound⟩

/-- Two and a half seconds are stated in two lines, the first of which begins with the number of its
condition. -/
theorem renderStep_twoAndAHalf :
    Variant.renderStep (templates "P".toList) [[.real (.ofInt 2500)]] 0 (.real (.ofInt 2500)) =
        .ok ["1000 P is 2.5 second".toList, "P is 2.5 seconds".toList] ∧
      Variant.renderStep (templates "P".toList) [[.real (.ofInt 2500)]] 0 (.real (.ofInt 2500)) ≠
        .ok ["P is 2.5 seconds".toList] := by
  decide +kernel

end GemScribe.Duration
