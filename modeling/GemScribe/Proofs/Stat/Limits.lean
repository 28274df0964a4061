import GemScribe.Proofs.Number.Numeral
import GemScribe.Proofs.Stat.Request

/-!
When a resolution returns.

Two limits can end a resolution without a result, and nothing else can. A converted value is rounded to
at most 28 digits, and a count of seconds is read from at most 4300. `resolve_returns_iff` says that a
resolution returns exactly when every step of every request keeps within both.
-/

namespace GemScribe

/-! ### Values and conversions -/

/-- What fills a placeholder of a block: an observed number, or zero where a stat has none. -/
def Quantity.Filling (value : Quantity) : Prop :=
  value = .whole 0 ∨ ∃ x, value = .real x

namespace Quantity

theorem nearest_zero : nearest 0 = .ok (.zero false) := by
  simp [nearest, Binary64.ofRat, Binary64.zero]

variable {value : Quantity}

theorem Filling.divBy (h : value.Filling) (d : Nat) : ∃ q, value.divBy d = .ok q := by
  rcases h with rfl | ⟨x, rfl⟩
  · exact ⟨_, by rw [Quantity.divBy, Rat.zero_mkRat, nearest_zero]⟩
  · exact ⟨_, rfl⟩

theorem Filling.display (h : value.Filling) : ∃ t, value.display = .ok t := by
  rcases h with rfl | ⟨x, rfl⟩
  · exact ⟨_, by rw [Quantity.display, Int.cast_zero, nearest_zero]⟩
  · exact ⟨_, rfl⟩

theorem Filling.displaySigned (h : value.Filling) : ∃ t, value.displaySigned = .ok t := by
  rcases h with rfl | ⟨x, rfl⟩
  · exact ⟨_, by rw [Quantity.displaySigned, Quantity.display, Int.cast_zero, nearest_zero]⟩
  · exact ⟨_, rfl⟩

end Quantity

namespace Directive

/-- The quotient of a value can be rounded to the places of the directive with the digits that are
kept. -/
def Fits (d : Directive) (value : Quantity) : Prop :=
  ∃ q, value.divBy d.divisor = .ok q ∧ |q.toRat| * 10 ^ d.places + 1 / 2 < 10 ^ roundingDigits

theorem checkPlaces_of_find? {template : Text} {d : Directive} (h : find? template = some d) :
    checkPlaces d.places = .ok () := by
  have hall : ∀ d ∈ all, checkPlaces d.places = .ok () := by
    simp [all, checkPlaces]
  exact hall d (List.mem_of_find?_eq_some h)

theorem exists_convert_iff {d : Directive} {value : Quantity}
    (hplaces : checkPlaces d.places = .ok ()) :
    (∃ x, d.convert value = .ok x) ↔ d.Fits value := by
  simp only [convert, bind_eq_ok, Fits, ← Binary64.exists_roundHalfUp_iff hplaces]
  constructor
  · rintro ⟨x, q, hq, hx⟩
    exact ⟨q, hq, x, hx⟩
  · rintro ⟨q, hq, x, hx⟩
    exact ⟨x, q, hq, hx⟩

theorem convert_eq_error {d : Directive} {value : Quantity} {cause : NumberFault}
    (hplaces : checkPlaces d.places = .ok ()) (hvalue : value.Filling)
    (h : d.convert value = .error cause) : cause = .tooManyDigits := by
  obtain ⟨q, hq⟩ := hvalue.divBy d.divisor
  rw [convert, hq] at h
  exact Binary64.roundHalfUp_eq_error hplaces h

end Directive

/-! ### Templates -/

namespace Template

/-- A directive of a template converts a value with the digits that are kept. -/
def Converts (template : Text) (value : Quantity) : Prop :=
  ∀ d, Directive.find? template = some d → d.Fits value

variable {template : Text} {value : Quantity}

theorem exists_shown_iff (h : value.Filling) :
    (∃ p, shown (Directive.find? template) value = .ok p) ↔ Converts template value := by
  obtain ⟨signed, hsigned⟩ := h.displaySigned
  obtain ⟨plain, hplain⟩ := h.display
  unfold Converts
  cases hd : Directive.find? template with
  | none => simp [shown, hsigned, hplain, bind_eq_ok, pure, Except.pure]
  | some d =>
    simp only [Option.some.injEq, forall_eq',
      ← Directive.exists_convert_iff (Directive.checkPlaces_of_find? hd)]
    rw [shown]
    constructor
    · rintro ⟨p, hp⟩
      obtain ⟨x, hx, -⟩ := bind_eq_ok.mp hp
      exact ⟨x, hx⟩
    · rintro ⟨x, hx⟩
      simp only [hx, bind_eq_ok]
      cases d.signed
      · exact ⟨(signed, x.display), x, rfl, by simp [hsigned, bind_eq_ok, pure, Except.pure]⟩
      · exact ⟨(x.displaySigned, x.displaySigned), x, rfl, rfl⟩

theorem exists_settleCastTime (h : ∃ q, value.divBy 1000 = .ok q) (t : Text) :
    ∃ t', settleCastTime value t = .ok t' := by
  obtain ⟨q, hq⟩ := h
  simp only [settleCastTime, bind_eq_ok]
  split
  · exact ⟨_, q, hq, rfl⟩
  · exact ⟨_, q, hq, rfl⟩

theorem exists_fillOne_iff (h : value.Filling) (i : Nat) (t : Text) :
    (∃ t', fillOne (Directive.find? template) i value t = .ok t') ↔ Converts template value := by
  rw [← exists_shown_iff h]
  simp only [fillOne, bind_eq_ok]
  constructor
  · rintro ⟨_, p, hp, -⟩
    exact ⟨p, hp⟩
  · rintro ⟨p, hp⟩
    obtain ⟨t', ht'⟩ := exists_settleCastTime (h.divBy 1000) _
    exact ⟨t', p, hp, ht'⟩

/-- Filling in returns exactly when the directive converts every value, whatever the text is by then. -/
theorem exists_fillFrom_iff : ∀ {values : List Quantity}, (∀ v ∈ values, v.Filling) →
    ∀ (i : Nat) (t : Text), (∃ t', fillFrom (Directive.find? template) i values t = .ok t') ↔
      ∀ v ∈ values, Converts template v
  | [], _, _, _ => by simp [fillFrom]
  | v :: values, hvalues, i, t => by
      rw [List.forall_mem_cons] at hvalues ⊢
      simp only [fillFrom, bind_eq_ok]
      constructor
      · rintro ⟨t', t₁, h₁, h⟩
        exact ⟨(exists_fillOne_iff hvalues.1 i t).mp ⟨t₁, h₁⟩,
          (exists_fillFrom_iff hvalues.2 (i + 1) t₁).mp ⟨t', h⟩⟩
      · rintro ⟨hv, hrest⟩
        obtain ⟨t₁, h₁⟩ := (exists_fillOne_iff hvalues.1 i t).mpr hv
        obtain ⟨t', h⟩ := (exists_fillFrom_iff hvalues.2 (i + 1) t₁).mpr hrest
        exact ⟨t', t₁, h₁, h⟩

/-- The values of a step, when the sequences hold observed numbers. -/
theorem filling_valueAt {sequence : List Quantity} (h : ∀ v ∈ sequence, v.Filling) (step : Nat) :
    (valueAt sequence step).Filling := by
  rw [valueAt]
  cases hv : sequence[step]? with
  | none => exact Or.inl rfl
  | some v => exact h v (List.mem_of_getElem? hv)

variable {values : List (List Quantity)}

theorem exists_render_iff (hvalues : ∀ sequence ∈ values, ∀ v ∈ sequence, v.Filling) (step : Nat) :
    (∃ line, render template values step = .ok line) ↔
      ∀ sequence ∈ values, Converts template (valueAt sequence step) := by
  have hstep : ∀ v ∈ values.map (valueAt · step), v.Filling := by
    rw [List.forall_mem_map]
    exact fun sequence hs => filling_valueAt (hvalues sequence hs) step
  rw [← List.forall_mem_map (P := Converts template), ← exists_fillFrom_iff hstep 0 template]
  simp only [render, substitute, bind_eq_ok]
  constructor
  · rintro ⟨_, filled, h, -⟩
    exact ⟨filled, h⟩
  · rintro ⟨filled, h⟩
    exact ⟨_, filled, h, rfl⟩

theorem exists_renderAll_iff (hvalues : ∀ sequence ∈ values, ∀ v ∈ sequence, v.Filling)
    (step : Nat) : ∀ {templates : List Text},
    (∃ lines, renderAll values step templates = .ok lines) ↔
      ∀ template ∈ templates, ∀ sequence ∈ values, Converts template (valueAt sequence step)
  | [] => by simp [renderAll]
  | template :: templates => by
      rw [List.forall_mem_cons, ← exists_render_iff hvalues step,
        ← exists_renderAll_iff hvalues step]
      simp only [renderAll, bind_eq_ok]
      constructor
      · rintro ⟨_, line, hline, lines, hlines, -⟩
        exact ⟨⟨line, hline⟩, lines, hlines⟩
      · rintro ⟨⟨line, hline⟩, lines, hlines⟩
        exact ⟨_, line, hline, lines, hlines, rfl⟩

/-! ### The fault of a template -/

theorem shown_eq_error {cause : NumberFault} (h : value.Filling)
    (herror : shown (Directive.find? template) value = .error cause) : cause = .tooManyDigits := by
  obtain ⟨signed, hsigned⟩ := h.displaySigned
  obtain ⟨plain, hplain⟩ := h.display
  cases hd : Directive.find? template with
  | none =>
    rw [hd, shown, hsigned, hplain] at herror
    cases herror
  | some d =>
    rw [hd, shown, bind_eq_error] at herror
    rcases herror with herror | ⟨x, -, herror⟩
    · exact Directive.convert_eq_error (Directive.checkPlaces_of_find? hd) h herror
    · rw [hsigned] at herror
      split at herror <;> cases herror

theorem fillFrom_eq_error {cause : NumberFault} : ∀ {values : List Quantity},
    (∀ v ∈ values, v.Filling) → ∀ {i : Nat} {t : Text},
      fillFrom (Directive.find? template) i values t = .error cause → cause = .tooManyDigits
  | [], _, _, _, herror => by cases herror
  | v :: values, hvalues, i, t, herror => by
      rw [List.forall_mem_cons] at hvalues
      rw [fillFrom, bind_eq_error] at herror
      rcases herror with herror | ⟨t₁, -, herror⟩
      · rw [fillOne, bind_eq_error] at herror
        rcases herror with herror | ⟨⟨signed, plain⟩, -, herror⟩
        · exact shown_eq_error hvalues.1 herror
        · obtain ⟨t', ht'⟩ := exists_settleCastTime (hvalues.1.divBy 1000)
            (Text.replaceAll (placeholder i) plain (Text.replaceAll (signedPlaceholder i) signed t))
          exact nomatch ht'.symm.trans herror
      · exact fillFrom_eq_error hvalues.2 herror

theorem renderAll_eq_error {cause : NumberFault}
    (hvalues : ∀ sequence ∈ values, ∀ v ∈ sequence, v.Filling) {step : Nat} :
    ∀ {templates : List Text}, renderAll values step templates = .error cause →
      cause = .tooManyDigits
  | [], herror => by cases herror
  | template :: templates, herror => by
      rw [renderAll, bind_eq_error] at herror
      rcases herror with herror | ⟨line, -, herror⟩
      · rw [render, bind_eq_error] at herror
        rcases herror with herror | ⟨filled, -, herror⟩
        · refine fillFrom_eq_error ?_ herror
          rw [List.forall_mem_map]
          exact fun sequence hs => filling_valueAt (hvalues sequence hs) step
        · cases herror
      · rcases bind_eq_error.mp herror with herror | ⟨lines, -, herror⟩
        · exact renderAll_eq_error hvalues herror
        · cases herror

end Template

/-! ### Counts of seconds -/

namespace Variant

/-- The counts of two lines are short enough to be read; the second is read only after a one. -/
def CountsReadable (one many : Text) : Prop :=
  one.length ≤ longestNumeral ∧ (Text.digitsValue one = 1 → many.length ≤ longestNumeral)

/-- The lines of a step can be compared by their counts, where they are compared at all. -/
def Readable (lines : List Text) (driving : Quantity) : Prop :=
  driving.equalsInt Template.oneSecond = false → ∀ first second, lines = [first, second] →
    ∀ one many, singularCount? first = some one → pluralCount? second = some many →
      CountsReadable one many

theorem exists_firstFits_iff {one many : Text} :
    (∃ b, firstFits one many = .ok b) ↔ CountsReadable one many := by
  simp only [firstFits, bind_eq_ok, readNat_eq_ok, CountsReadable]
  constructor
  · rintro ⟨b, _, ⟨hone, rfl⟩, h⟩
    refine ⟨hone, fun hvalue => ?_⟩
    rw [if_pos hvalue, bind_eq_ok] at h
    obtain ⟨_, hmany, -⟩ := h
    exact (readNat_eq_ok.mp hmany).1
  · rintro ⟨hone, hmany⟩
    by_cases hvalue : Text.digitsValue one = 1
    · refine ⟨decide (Text.digitsValue many ≠ 1), Text.digitsValue one, ⟨hone, rfl⟩, ?_⟩
      rw [if_pos hvalue, bind_eq_ok]
      exact ⟨_, readNat_eq_ok.mpr ⟨hmany hvalue, rfl⟩, rfl⟩
    · exact ⟨false, Text.digitsValue one, ⟨hone, rfl⟩, if_neg hvalue⟩

theorem exists_choosePair_iff {first second : Text} :
    (∃ kept, choosePair first second = .ok kept) ↔
      ∀ one many, singularCount? first = some one → pluralCount? second = some many →
        CountsReadable one many := by
  rw [choosePair]
  split
  · next one many hone hmany =>
    simp only [hone, hmany, Option.some.injEq, ← exists_firstFits_iff, bind_eq_ok]
    constructor
    · rintro ⟨_, b, hb, -⟩ _ _ rfl rfl
      exact ⟨b, hb⟩
    · intro h
      obtain ⟨b, hb⟩ := h one many rfl rfl
      cases b
      · exact ⟨[second], false, hb, rfl⟩
      · exact ⟨[first], true, hb, rfl⟩
  · next h =>
    exact ⟨fun _ one many hone hmany => absurd hmany (h one many hone), fun _ => ⟨_, rfl⟩⟩

/-- Lines are collapsed exactly when their counts can be read. -/
theorem exists_collapse_iff {lines : List Text} {driving : Quantity} :
    (∃ kept, collapse lines driving = .ok kept) ↔ Readable lines driving := by
  rw [collapse, Readable]
  cases hdriving : driving.equalsInt Template.oneSecond
  · rw [if_neg Bool.false_ne_true]
    split
    · next first second =>
      rw [exists_choosePair_iff]
      constructor
      · rintro h - first' second' heq
        obtain ⟨rfl, rfl⟩ : first = first' ∧ second = second' := by simpa using heq
        exact h
      · exact fun h => h rfl first second rfl
    · next h => exact ⟨fun _ _ first second heq => absurd heq (h first second), fun _ => ⟨_, rfl⟩⟩
  · rw [if_pos rfl]
    refine ⟨fun _ h => absurd h (by decide), fun _ => ?_⟩
    -- at one second at most one line is left, and a single line is not compared
    rcases lines with _ | ⟨line, lines⟩ <;> exact ⟨_, rfl⟩

theorem collapse_eq_error {lines : List Text} {driving : Quantity} {cause : NumberFault}
    (h : collapse lines driving = .error cause) : cause = .numeralTooLong := by
  rw [collapse] at h
  split at h
  · rw [choosePair] at h
    split at h
    · rw [bind_eq_error] at h
      rcases h with h | ⟨b, -, h⟩
      · rw [firstFits, bind_eq_error] at h
        rcases h with h | ⟨n, -, h⟩
        · exact readNat_eq_error h
        · split at h
          · rcases bind_eq_error.mp h with h | ⟨m, -, h⟩
            · exact readNat_eq_error h
            · cases h
          · cases h
      · split at h <;> cases h
    · cases h
  · cases h

/-- What one step needs in order to render. -/
structure StepFits (templates : List Text) (values : List (List Quantity)) (step : Nat)
    (driving : Quantity) : Prop where
  converts : ∀ template ∈ templates, ∀ sequence ∈ values,
    Template.Converts template (Template.valueAt sequence step)
  readable : ∀ lines, Template.renderAll values step templates = .ok lines → Readable lines driving

theorem exists_renderStep_iff {templates : List Text} {values : List (List Quantity)}
    (hvalues : ∀ sequence ∈ values, ∀ v ∈ sequence, v.Filling) {step : Nat} {driving : Quantity} :
    (∃ lines, renderStep templates values step driving = .ok lines) ↔
      StepFits templates values step driving := by
  simp only [renderStep, bind_eq_ok]
  constructor
  · rintro ⟨kept, lines, hlines, hkept⟩
    refine ⟨(Template.exists_renderAll_iff hvalues step).mp ⟨lines, hlines⟩, fun lines' h => ?_⟩
    rw [hlines, Except.ok.injEq] at h
    exact exists_collapse_iff.mp ⟨kept, h ▸ hkept⟩
  · rintro ⟨hconverts, hreadable⟩
    obtain ⟨lines, hlines⟩ := (Template.exists_renderAll_iff hvalues step).mpr hconverts
    obtain ⟨kept, hkept⟩ := exists_collapse_iff.mpr (hreadable lines hlines)
    exact ⟨kept, lines, hlines, hkept⟩

theorem renderStep_eq_error {templates : List Text} {values : List (List Quantity)}
    (hvalues : ∀ sequence ∈ values, ∀ v ∈ sequence, v.Filling) {step : Nat} {driving : Quantity}
    {cause : NumberFault} (h : renderStep templates values step driving = .error cause) :
    cause = .tooManyDigits ∨ cause = .numeralTooLong := by
  rcases bind_eq_error.mp h with h | ⟨lines, -, h⟩
  · exact Or.inl (Template.renderAll_eq_error hvalues h)
  · exact Or.inr (collapse_eq_error h)

end Variant

/-! ### Resolutions -/

theorem Request.filling_aligned (grouped : Grouped) (r : Request) :
    ∀ sequence ∈ r.aligned grouped, ∀ v ∈ sequence, v.Filling := by
  rw [Request.aligned, List.forall_mem_map]
  intro sequence _
  rw [List.forall_mem_map]
  exact fun x _ => Or.inr ⟨x, rfl⟩

theorem exists_segments_iff {α β : Type} {R : α → β → Prop} : ∀ {as : List α},
    (∃ bs, List.Forall₂ R as bs) ↔ ∀ a ∈ as, ∃ b, R a b
  | [] => by simp
  | a :: as => by
      rw [List.forall_mem_cons, ← exists_segments_iff]
      simp only [List.forall₂_cons_left_iff]
      constructor
      · rintro ⟨_, b, bs, hb, hbs, rfl⟩
        exact ⟨⟨b, hb⟩, bs, hbs⟩
      · rintro ⟨⟨b, hb⟩, bs, hbs⟩
        exact ⟨b :: bs, b, bs, hb, hbs, rfl⟩

theorem Request.exists_renders_iff {grouped : Grouped} {r : Request} :
    (∃ segment, r.Renders grouped segment) ↔ ∀ driving ∈ r.values.zipIdx,
      Variant.StepFits r.block.templates (r.aligned grouped) driving.2 (.real driving.1) := by
  simp only [← Variant.exists_renderStep_iff (r.filling_aligned grouped)]
  rw [← exists_segments_iff]
  constructor
  · rintro ⟨_, parts, h, -⟩
    exact ⟨parts, h⟩
  · rintro ⟨parts, h⟩
    exact ⟨_, parts, h, rfl⟩

/-- A resolution returns exactly when every step of every request keeps within the limits of digits, and
a fault of it is one of the two that those limits make. -/
theorem resolve_returns_iff (blocks : List Block) (skip : Bool) (os : List Observation) :
    ((∃ lines, (resolve blocks skip os).outcome = .ok lines) ↔
      ∀ r ∈ requests blocks skip os, ∀ driving ∈ r.values.zipIdx,
        Variant.StepFits r.block.templates (r.aligned (Grouped.ofObservations os)) driving.2
          (.real driving.1)) ∧
    ∀ fault, (resolve blocks skip os).outcome = .error fault →
      fault = .number .tooManyDigits ∨ fault = .number .numeralTooLong := by
  constructor
  · simp only [← Request.exists_renders_iff]
    rw [← exists_segments_iff]
    simp only [resolve_outcome_eq_ok]
    constructor
    · rintro ⟨_, segments, h, -⟩
      exact ⟨segments, h⟩
    · rintro ⟨segments, h⟩
      exact ⟨_, segments, h, rfl⟩
  · intro fault h
    obtain ⟨r, -, d, -, cause, hstep, rfl⟩ := exists_of_resolve_outcome_eq_error h
    rcases Variant.renderStep_eq_error (r.filling_aligned _) hstep with rfl | rfl
    · exact Or.inl rfl
    · exact Or.inr rfl

/-- A block that shows the hundredth part of a value. -/
def dividedBlocks : List Block :=
  [⟨"x".toList, none, ["\x7b0\x7d divide_by_one_hundred".toList]⟩]

/-- A value of `10^29`. -/
def largeObservations : List Observation :=
  [⟨"x".toList, .ofInt 100000000000000000000000000000⟩]

/-- The hundredth part of `10^29` has 28 digits before its two places, two more than are kept. -/
theorem resolve_fails_on_large :
    (resolve dividedBlocks true largeObservations).outcome.toOption = none ∧
      (turns dividedBlocks true (Grouped.ofObservations largeObservations)).map
        (Turn.lines (Grouped.ofObservations largeObservations)) = [.error .tooManyDigits] := by
  decide +kernel

end GemScribe
