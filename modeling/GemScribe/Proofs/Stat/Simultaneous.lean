import GemScribe.Proofs.Stat.Settling

/-!
Filling a template at once.

Values are filled in one number after another, and each of them is followed by a look for links of added
cast time. A template is read here as characters and fields, where a field asks for a value with or
without its sign. A number that is filled in has no braces, so it neither makes a field nor hides one, and
it is no part of a link. Hence the whole run does what one pass from left to right does:
`substitute_eq_ok_iff` says that every field gets its own text, that nothing else is touched, and that the
run fails only when a value cannot be shown.
-/

namespace GemScribe.Template

/-! ### Fields -/

/-- A character of a template, or a field for the value of a number. -/
inductive Atom where
  | char (c : Char)
  | field (signed : Bool) (i : Nat)
  deriving DecidableEq

/-- The placeholder of a field. -/
def fieldText (signed : Bool) (i : Nat) : Text :=
  if signed then signedPlaceholder i else placeholder i

/-- The texts that a value has for its two kinds of field. -/
structure Wording where
  withSign : Text
  plain : Text

def Wording.text (w : Wording) (signed : Bool) : Text :=
  if signed then w.withSign else w.plain

/-- What stands for an atom when the first values have their wordings. -/
def Atom.text (wordings : List Wording) : Atom → Text
  | .char c => [c]
  | .field signed i =>
    match wordings[i]? with
    | some w => w.text signed
    | none => fieldText signed i

/-- One pass over a template, from left to right. -/
def pass (wordings : List Wording) (as : List Atom) : Text :=
  as.flatMap (Atom.text wordings)

/-- The text of a template. -/
def write (as : List Atom) : Text :=
  pass [] as

/-- No character of a template is a brace. -/
def Unbraced (as : List Atom) : Prop :=
  ∀ c, .char c ∈ as → c ∉ "\x7b\x7d".toList

/-- The text of a field for a value under a directive. -/
inductive Shows : Option Directive → Quantity → Bool → Text → Prop
  /-- A directive with a sign shows the converted value in both kinds of field. -/
  | signed {d : Directive} {v : Quantity} {x : Binary64} (hd : d.signed) (hx : d.convert v = .ok x)
      (signed : Bool) : Shows (some d) v signed x.displaySigned
  /-- Without such a directive a field with a sign shows the value as it is. -/
  | raw {directive : Option Directive} {v : Quantity} {t : Text}
      (hd : ∀ d ∈ directive, d.signed = false) (ht : v.displaySigned = .ok t) : Shows directive v true t
  | converted {d : Directive} {v : Quantity} {x : Binary64} (hd : d.signed = false)
      (hx : d.convert v = .ok x) : Shows (some d) v false x.display
  | plain {v : Quantity} {t : Text} (ht : v.display = .ok t) : Shows none v false t

/-- The wording is that of a value under a directive. -/
structure Suits (directive : Option Directive) (v : Quantity) (w : Wording) : Prop where
  withSign : Shows directive v true w.withSign
  plain : Shows directive v false w.plain

variable {as : List Atom} {wordings : List Wording} {w : Wording} {t : Text} {v : Quantity}
  {directive : Option Directive} {i j : Nat}

@[simp] theorem pass_char (c : Char) : pass wordings (.char c :: as) = c :: pass wordings as :=
  rfl

@[simp] theorem pass_field (signed : Bool) (i : Nat) : pass wordings (.field signed i :: as) =
    Atom.text wordings (.field signed i) ++ pass wordings as :=
  rfl

theorem unbraced_cons {a : Atom} :
    Unbraced (a :: as) ↔ (∀ c, a = .char c → c ∉ "\x7b\x7d".toList) ∧ Unbraced as := by
  simp only [Unbraced, List.mem_cons, or_imp, forall_and, eq_comm]

/-! ### Replacing one number -/

/-- Both placeholders of a number are replaced, the one with a sign first. -/
def fillNumber (i : Nat) (w : Wording) (t : Text) : Text :=
  Text.replaceAll (placeholder i) w.plain (Text.replaceAll (signedPlaceholder i) w.withSign t)

/-- What has no brace is passed over. -/
theorem fillNumber_append (i : Nat) (w : Wording) {s : Text} (hs : '\x7b' ∉ s) (t : Text) :
    fillNumber i w (s ++ t) = s ++ fillNumber i w t := by
  rw [fillNumber, signedPlaceholder, List.cons_append, Text.replaceAll_append_of_not_mem _ _ hs,
    placeholder, List.cons_append, Text.replaceAll_append_of_not_mem _ _ hs]
  rfl

/-- A placeholder is followed by nothing that could belong to its number. -/
theorem exists_fieldText (signed : Bool) (i : Nat) : ∃ c rest, fieldText signed i =
    '\x7b' :: (natText i ++ c :: rest) ∧ c = (if signed then ':' else '\x7d') ∧ '\x7b' ∉ c :: rest := by
  cases signed
  · exact ⟨_, _, rfl, rfl, by decide⟩
  · exact ⟨_, _, rfl, rfl, by decide⟩

theorem startsWith_fieldText_append {signed signed' : Bool} (h : ¬(signed' = signed ∧ j = i)) (r : Text) :
    Text.startsWith (fieldText signed i) (fieldText signed' j ++ r) = false := by
  obtain ⟨c, s, hs, hc, -⟩ := exists_fieldText signed i
  obtain ⟨d, s', hs', hd, -⟩ := exists_fieldText signed' j
  have hend : ∀ b : Bool, (if b then ':' else '\x7d') ∉ "0123456789".toList := by decide
  rw [Bool.eq_false_iff, ne_eq, Text.startsWith_iff]
  rintro ⟨u, hu⟩
  rw [hs, hs', List.cons_append, List.cons_append, List.append_assoc, List.append_assoc,
    List.cons_append, List.cons_append] at hu
  obtain ⟨hij, hcd⟩ := natText_append_cons_inj (hc ▸ hend signed) (hd ▸ hend signed')
    (List.cons.inj hu).2
  rw [hc, hd] at hcd
  refine h ⟨?_, hij.symm⟩
  cases signed <;> cases signed' <;> simp_all

/-- A placeholder is passed over when another one is replaced. -/
theorem replaceAll_fieldText_of_ne {signed signed' : Bool} (h : ¬(signed' = signed ∧ j = i))
    (new t : Text) : Text.replaceAll (fieldText signed i) new (fieldText signed' j ++ t) =
      fieldText signed' j ++ Text.replaceAll (fieldText signed i) new t := by
  obtain ⟨c, s, hs, -⟩ := exists_fieldText signed i
  obtain ⟨d, s', hs', -, hbrace⟩ := exists_fieldText signed' j
  have hdigits : '\x7b' ∉ "0123456789".toList := by decide
  have hrest : '\x7b' ∉ natText j ++ d :: s' := by
    rw [List.mem_append, not_or]
    exact ⟨fun hmem => hdigits (mem_digits_of_mem_natText hmem), hbrace⟩
  have hstart := startsWith_fieldText_append h t
  rw [hs, hs', List.cons_append] at hstart ⊢
  rw [Text.replaceAll, Text.replaceFrom, hstart]
  exact congrArg ('\x7b' :: ·) (Text.replaceAll_append_of_not_mem _ new hrest t)

theorem replaceAll_fieldText (signed : Bool) (i : Nat) (new t : Text) :
    Text.replaceAll (fieldText signed i) new (fieldText signed i ++ t) =
      new ++ Text.replaceAll (fieldText signed i) new t := by
  obtain ⟨c, s, hs, -⟩ := exists_fieldText signed i
  exact Text.replaceAll_append (hs ▸ List.cons_ne_nil _ _)

theorem fillNumber_field_of_ne (h : j ≠ i) (w : Wording) (signed : Bool) (t : Text) :
    fillNumber i w (fieldText signed j ++ t) = fieldText signed j ++ fillNumber i w t := by
  have hne : ∀ signed', ¬(signed = signed' ∧ j = i) := fun _ hboth => h hboth.2
  change Text.replaceAll (fieldText false i) _ (Text.replaceAll (fieldText true i) _ _) = _
  rw [replaceAll_fieldText_of_ne (hne true), replaceAll_fieldText_of_ne (hne false)]
  rfl

theorem fillNumber_field (i : Nat) (hw : '\x7b' ∉ w.withSign) (signed : Bool) (t : Text) :
    fillNumber i w (fieldText signed i ++ t) = w.text signed ++ fillNumber i w t := by
  change Text.replaceAll (fieldText false i) _ (Text.replaceAll (fieldText true i) _ _) = _
  cases signed with
  | true =>
    obtain ⟨c, s, hs, -⟩ := exists_fieldText false i
    rw [replaceAll_fieldText, hs, Text.replaceAll_append_of_not_mem _ _ hw, ← hs]
    rfl
  | false =>
    have hne : ¬(false = true ∧ i = i) := by simp
    rw [replaceAll_fieldText_of_ne hne, replaceAll_fieldText]
    rfl

/-! ### Texts of numbers -/

/-- A text made of the characters of shown numbers, among them one that a link does not have. -/
structure Numeric (t : Text) : Prop where
  shown : ∀ c ∈ t, c ∈ Text.shownChars
  solid : ∃ c ∈ t, c ∈ Text.solidChars

theorem Numeric.not_mem_brace (h : Numeric t) : '\x7b' ∉ t :=
  fun hmem => absurd (h.shown _ hmem) (by decide)

theorem Numeric.cuts (h : Numeric t) : Cuts t where
  bracketless hmem := absurd (h.shown _ hmem) (by decide)
  barless hmem := absurd (h.shown _ hmem) (by decide)
  foreign := by
    have hsolid : ∀ c ∈ Text.solidChars, c ∉ castTimeLink := Text.forall_mem_of_all (by decide)
    obtain ⟨c, hc, hmem⟩ := h.solid
    exact ⟨c, hc, hsolid c hmem⟩

theorem Numeric.plus (h : Numeric t) : Numeric ('+' :: t) where
  shown := List.forall_mem_cons.mpr ⟨by decide, h.shown⟩
  solid := by
    obtain ⟨c, hc, hmem⟩ := h.solid
    exact ⟨c, List.mem_cons_of_mem _ hc, hmem⟩

theorem numeric_display (h : v.display = .ok t) : Numeric t :=
  ⟨Quantity.mem_shownChars_of_display h, Quantity.exists_mem_solidChars_of_display h⟩

/-- A text with a sign is a shown text, perhaps with a plus sign in front. -/
theorem exists_display_of_displaySigned (h : v.displaySigned = .ok t) :
    ∃ s, v.display = .ok s ∧ (t = s ∨ t = '+' :: s) := by
  cases v with
  | whole i =>
    rw [Quantity.displaySigned] at h
    split at h
    · cases h
    · next s hs =>
      refine ⟨s, hs, ?_⟩
      rw [← Except.ok.inj h]
      split
      · exact .inr rfl
      · exact .inl rfl
  | real x =>
    refine ⟨x.display, rfl, ?_⟩
    rw [← Except.ok.inj h, Binary64.displaySigned]
    split
    · exact .inr rfl
    · exact .inl rfl

theorem numeric_displaySigned (h : v.displaySigned = .ok t) : Numeric t := by
  obtain ⟨s, hs, rfl | rfl⟩ := exists_display_of_displaySigned h
  · exact numeric_display hs
  · exact (numeric_display hs).plus

theorem Shows.numeric {signed : Bool} (h : Shows directive v signed t) : Numeric t := by
  cases h with
  | @signed d v x _ _ signed => exact numeric_displaySigned (v := .real x) rfl
  | raw _ ht => exact numeric_displaySigned ht
  | @converted d v x => exact numeric_display (v := .real x) rfl
  | plain ht => exact numeric_display ht

/-- Both texts of a wording are texts of numbers. -/
def Wording.IsNumeric (w : Wording) : Prop :=
  ∀ signed, Numeric (w.text signed)

theorem Suits.isNumeric (h : Suits directive v w) : w.IsNumeric
  | true => h.withSign.numeric
  | false => h.plain.numeric

theorem suits_none_iff :
    Suits none v w ↔ v.displaySigned = .ok w.withSign ∧ v.display = .ok w.plain := by
  constructor
  · rintro ⟨hsign, hplain⟩
    refine ⟨?_, ?_⟩
    · generalize w.withSign = t at hsign ⊢
      cases hsign with
      | raw _ ht => exact ht
    · generalize w.plain = t at hplain ⊢
      cases hplain with
      | plain ht => exact ht
  · exact fun h => ⟨.raw nofun h.1, .plain h.2⟩

theorem shows_signed_iff {d : Directive} (hd : d.signed) {signed : Bool} :
    Shows (some d) v signed t ↔ ∃ x, d.convert v = .ok x ∧ t = x.displaySigned := by
  constructor
  · intro h
    cases h with
    | signed _ hx => exact ⟨_, hx, rfl⟩
    | raw hraw _ => exact absurd (hd.symm.trans (hraw d rfl)) (by decide)
    | converted hraw _ => exact absurd (hd.symm.trans hraw) (by decide)
  · rintro ⟨x, hx, rfl⟩
    exact .signed hd hx signed

theorem shows_unsigned_iff {d : Directive} (hd : d.signed = false) {signed : Bool} :
    Shows (some d) v signed t ↔
      if signed then v.displaySigned = .ok t else ∃ x, d.convert v = .ok x ∧ t = x.display := by
  constructor
  · intro h
    cases h with
    | signed hsign _ => exact absurd (hd.symm.trans hsign) (by decide)
    | raw _ ht => exact ht
    | converted _ hx => exact ⟨_, hx, rfl⟩
  · intro h
    cases signed with
    | true => exact .raw (fun _ h => Option.some.inj h ▸ hd) h
    | false =>
      obtain ⟨x, hx, rfl⟩ := h
      exact .converted hd hx

/-- The texts that are filled in for a value are its wording. -/
theorem shown_eq_ok_iff : shown directive v = .ok (w.withSign, w.plain) ↔ Suits directive v w := by
  cases directive with
  | none =>
    rw [shown, suits_none_iff, bind_eq_ok]
    constructor
    · rintro ⟨s, hs, h⟩
      obtain ⟨p, hp, h⟩ := bind_eq_ok.mp h
      obtain ⟨rfl, rfl⟩ := Prod.mk.inj (Except.ok.inj h)
      exact ⟨hs, hp⟩
    · exact fun ⟨hs, hp⟩ => ⟨_, hs, bind_eq_ok.mpr ⟨_, hp, rfl⟩⟩
  | some d =>
    rw [shown, bind_eq_ok]
    cases hd : d.signed with
    | true =>
      constructor
      · rintro ⟨x, hx, h⟩
        obtain ⟨hs, hp⟩ := Prod.mk.inj (Except.ok.inj h)
        exact ⟨(shows_signed_iff hd).mpr ⟨x, hx, hs.symm⟩, (shows_signed_iff hd).mpr ⟨x, hx, hp.symm⟩⟩
      · rintro ⟨hs, hp⟩
        obtain ⟨x, hx, hs⟩ := (shows_signed_iff hd).mp hs
        obtain ⟨y, hy, hp⟩ := (shows_signed_iff hd).mp hp
        obtain rfl := Except.ok.inj (hx.symm.trans hy)
        exact ⟨x, hx, by rw [hs, hp]; rfl⟩
    | false =>
      constructor
      · rintro ⟨x, hx, h⟩
        obtain ⟨s, hs, h⟩ := bind_eq_ok.mp h
        obtain ⟨rfl, hp⟩ := Prod.mk.inj (Except.ok.inj h)
        exact ⟨(shows_unsigned_iff hd).mpr hs, (shows_unsigned_iff hd).mpr ⟨x, hx, hp.symm⟩⟩
      · rintro ⟨hs, hp⟩
        obtain ⟨x, hx, hp⟩ := (shows_unsigned_iff hd).mp hp
        have hs : v.displaySigned = .ok w.withSign := (shows_unsigned_iff hd).mp hs
        exact ⟨x, hx, bind_eq_ok.mpr ⟨_, hs, by rw [hp]; rfl⟩⟩

/-- What can be shown under a directive of the list can be counted in seconds. -/
theorem Suits.exists_divBy (h : Suits directive v w) (hdirective : ∀ d ∈ directive, d ∈ Directive.all) :
    ∃ q, v.divBy 1000 = .ok q := by
  have hdivisor : ∀ d ∈ Directive.all, d.signed → d.divisor = 100 := by decide
  cases v with
  | real x => exact ⟨_, rfl⟩
  | whole i =>
    obtain ⟨hs, -⟩ := h
    generalize w.withSign = s at hs
    cases hs with
    | raw _ ht =>
      obtain ⟨s, hs, -⟩ := exists_display_of_displaySigned ht
      exact Quantity.exists_divBy_of_display hs
    | @signed d _ _ hd hx =>
      obtain ⟨q, hq, -⟩ := bind_eq_ok.mp hx
      rw [hdivisor d (hdirective d rfl) hd, Quantity.divBy, Rat.mkRat_eq_div] at hq
      have hlarge := Quantity.abs_lt_of_nearest_eq_ok hq
      have hlt : |(i : ℚ) / (1000 : ℕ)| < 2 ^ 1023 := by
        rw [abs_div, Nat.abs_cast, div_lt_iff₀ (by norm_num)] at hlarge ⊢
        calc |(i : ℚ)| < 2 ^ 1024 * (100 : ℕ) := hlarge
          _ = 2 ^ 1023 * (200 : ℕ) := by rw [pow_succ 2 1023, mul_assoc]; norm_num
          _ ≤ 2 ^ 1023 * (1000 : ℕ) := by gcongr; norm_num
      rw [Quantity.divBy, Rat.mkRat_eq_div]
      exact ⟨_, Quantity.nearest_eq_ok hlt⟩

/-! ### The run over the values -/

theorem getElem?_concat_of_ne {α : Type} {xs : List α} {x : α} (h : i ≠ xs.length) :
    (xs ++ [x])[i]? = xs[i]? := by
  rcases Nat.lt_or_gt_of_ne h with hlt | hgt
  · exact List.getElem?_append_left hlt
  · rw [List.getElem?_eq_none (by simp; omega), List.getElem?_eq_none (by omega)]

/-- Replacing the next number goes one wording further in every field of the pass. -/
theorem fillNumber_pass (hbraces : Unbraced as) (hnumeric : ∀ w ∈ wordings, w.IsNumeric)
    (hw : w.IsNumeric) :
    fillNumber wordings.length w (pass wordings as) = pass (wordings ++ [w]) as := by
  induction as with
  | nil => rfl
  | cons a as ih =>
    obtain ⟨hbrace, hrest⟩ := unbraced_cons.mp hbraces
    have ih := ih hrest
    cases a with
    | char c =>
      have hc : '\x7b' ∉ [c] := by
        rw [List.mem_singleton]
        rintro rfl
        exact hbrace _ rfl (by decide)
      have hover := fillNumber_append wordings.length w hc (pass wordings as)
      rw [ih] at hover
      exact hover
    | field signed i =>
      rw [pass_field, pass_field, ← ih, Atom.text, Atom.text]
      by_cases hi : i = wordings.length
      · subst hi
        rw [List.getElem?_eq_none le_rfl, List.getElem?_concat_length]
        exact fillNumber_field _ (hw true).not_mem_brace signed _
      · rw [getElem?_concat_of_ne hi]
        cases hget : wordings[i]? with
        | none => exact fillNumber_field_of_ne hi w signed _
        | some w' =>
          have hmem := hnumeric w' (List.mem_of_getElem? hget)
          exact fillNumber_append _ w (hmem signed).not_mem_brace _

theorem mem_fieldText {signed : Bool} {c : Char} (h : c ∈ fieldText signed i) :
    c ∈ "\x7b:+d\x7d0123456789".toList := by
  have hmarks : ∀ c ∈ "\x7b:+d\x7d".toList, c ∈ "\x7b:+d\x7d0123456789".toList :=
    Text.forall_mem_of_all (by decide)
  have hdigits : ∀ c ∈ "0123456789".toList, c ∈ "\x7b:+d\x7d0123456789".toList :=
    Text.forall_mem_of_all (by decide)
  have hends : ∀ c ∈ (if signed then ":+d\x7d".toList else ['\x7d']), c ∈ "\x7b:+d\x7d".toList := by
    cases signed <;> exact Text.forall_mem_of_all (by decide)
  have htext : fieldText signed i =
      '\x7b' :: natText i ++ (if signed then ":+d\x7d".toList else ['\x7d']) := by
    cases signed <;> rfl
  rw [htext, List.cons_append, List.mem_cons, List.mem_append] at h
  rcases h with rfl | h | h
  · decide
  · exact hdigits c (mem_digits_of_mem_natText h)
  · exact hmarks c (hends c h)

/-- A placeholder is no part of a link. -/
theorem cuts_fieldText (signed : Bool) (i : Nat) : Cuts (fieldText signed i) where
  bracketless h := absurd (mem_fieldText h) (by decide)
  barless h := absurd (mem_fieldText h) (by decide)
  foreign := by
    obtain ⟨c, s, hs, -⟩ := exists_fieldText signed i
    exact ⟨'\x7b', hs ▸ List.mem_cons_self, by decide⟩

/-- No link for added cast time comes about in a pass. -/
theorem contains_castTimeLink_pass (hnumeric : ∀ w ∈ wordings, w.IsNumeric) :
    Text.contains castTimeLink (pass wordings as) = Text.contains castTimeLink (write as) := by
  -- `l` holds the characters since the last field
  suffices h : ∀ l, Text.contains castTimeLink (l ++ pass wordings as) =
      Text.contains castTimeLink (l ++ write as) from h []
  induction as with
  | nil => exact fun _ => rfl
  | cons a as ih =>
    intro l
    cases a with
    | char c =>
      have hwrite : write (.char c :: as) = c :: write as := rfl
      rw [pass_char, hwrite, List.append_cons, ih, List.append_cons l c (write as)]
    | field signed i =>
      have hrest := ih []
      rw [List.nil_append, List.nil_append] at hrest
      have htext : Cuts (Atom.text wordings (.field signed i)) := by
        rw [Atom.text]
        cases hget : wordings[i]? with
        | none => exact cuts_fieldText signed i
        | some w => exact (hnumeric w (List.mem_of_getElem? hget) signed).cuts
      have hwrite : write (.field signed i :: as) = fieldText signed i ++ write as := rfl
      rw [pass_field, contains_castTimeLink_append htext, hrest, hwrite,
        contains_castTimeLink_append (cuts_fieldText signed i)]

theorem isNumeric_concat (hnumeric : ∀ w ∈ wordings, w.IsNumeric) (hw : w.IsNumeric) :
    ∀ w' ∈ wordings ++ [w], w'.IsNumeric := by
  intro w' hw'
  rcases List.mem_append.mp hw' with hw' | hw'
  · exact hnumeric w' hw'
  · exact List.mem_singleton.mp hw' ▸ hw

/-- A value that is not one second goes one wording further in every field. -/
theorem fillOne_pass (hbraces : Unbraced as) (hlink : Text.contains castTimeLink (write as) = false)
    (hdirective : ∀ d ∈ directive, d ∈ Directive.all) (hmany : v.equalsInt oneSecond = false)
    (hnumeric : ∀ w ∈ wordings, w.IsNumeric) (hw : Suits directive v w) :
    fillOne directive wordings.length v (pass wordings as) = .ok (pass (wordings ++ [w]) as) := by
  have hpass := fillNumber_pass hbraces hnumeric hw.isNumeric
  have hunlinked : Text.contains castTimeLink (pass (wordings ++ [w]) as) = false :=
    (contains_castTimeLink_pass (isNumeric_concat hnumeric hw.isNumeric)).trans hlink
  rw [fillOne, shown_eq_ok_iff.mpr hw]
  change settleCastTime v (fillNumber wordings.length w (pass wordings as)) = _
  rw [hpass]
  exact settleCastTime_of_not_marked (hw.exists_divBy hdirective) hunlinked
    fun hone => absurd hone (by simp [hmany])

/-- Filling in the remaining values makes the pass with all their wordings. -/
theorem fillFrom_pass_eq_ok_iff (hbraces : Unbraced as)
    (hlink : Text.contains castTimeLink (write as) = false)
    (hdirective : ∀ d ∈ directive, d ∈ Directive.all) :
    ∀ {rest : List Quantity} {wordings : List Wording},
      (∀ v ∈ rest, v.equalsInt oneSecond = false) → (∀ w ∈ wordings, w.IsNumeric) →
      (fillFrom directive wordings.length rest (pass wordings as) = .ok t ↔
        ∃ later, List.Forall₂ (Suits directive) rest later ∧ t = pass (wordings ++ later) as)
  | [], wordings, _, _ => by
      rw [fillFrom, Except.ok.injEq]
      simp [List.forall₂_nil_left_iff, eq_comm]
  | v :: rest, wordings, hmany, hnumeric => by
      rw [List.forall_mem_cons] at hmany
      have hrest : ∀ {w : Wording}, Suits directive v w →
          (fillFrom directive (wordings.length + 1) rest (pass (wordings ++ [w]) as) = .ok t ↔
            ∃ later, List.Forall₂ (Suits directive) rest later ∧
              t = pass (wordings ++ w :: later) as) := by
        intro w hw
        have hlater : fillFrom directive (wordings ++ [w]).length rest (pass (wordings ++ [w]) as) =
            .ok t ↔ ∃ later, List.Forall₂ (Suits directive) rest later ∧
              t = pass (wordings ++ [w] ++ later) as :=
          fillFrom_pass_eq_ok_iff hbraces hlink hdirective hmany.2
            (isNumeric_concat hnumeric hw.isNumeric)
        simpa only [List.length_append, List.length_singleton, List.append_assoc,
          List.singleton_append] using hlater
      rw [fillFrom, bind_eq_ok]
      constructor
      · rintro ⟨t', ht', h⟩
        obtain ⟨⟨s, p⟩, hshown, -⟩ := bind_eq_ok.mp ht'
        have hw : Suits directive v ⟨s, p⟩ := shown_eq_ok_iff.mp hshown
        rw [fillOne_pass hbraces hlink hdirective hmany.1 hnumeric hw] at ht'
        obtain rfl := Except.ok.inj ht'
        obtain ⟨later, hlater, rfl⟩ := (hrest hw).mp h
        exact ⟨⟨s, p⟩ :: later, .cons hw hlater, rfl⟩
      · rintro ⟨_, hall, rfl⟩
        obtain ⟨w, later, hw, hlater, rfl⟩ := List.forall₂_cons_left_iff.mp hall
        exact ⟨_, fillOne_pass hbraces hlink hdirective hmany.1 hnumeric hw,
          (hrest hw).mpr ⟨later, hlater, rfl⟩⟩

theorem mem_all_of_mem_find? {d : Directive} (h : d ∈ Directive.find? t) : d ∈ Directive.all :=
  List.mem_of_find?_eq_some h

variable {sequences : List (List Quantity)} {step : Nat}

/-- Where no value is one second, a template without braces in its characters and without links for added
cast time is filled exactly when every value has a wording, and then in one pass. -/
theorem substitute_eq_ok_iff (hbraces : Unbraced as)
    (hlink : Text.contains "AddedAttackCastTime".toList (write as) = false)
    (hmany : ∀ sequence ∈ sequences, (valueAt sequence step).equalsInt oneSecond = false) :
    substitute (write as) sequences step = .ok t ↔
      ∃ wordings, List.Forall₂ (fun sequence w =>
          Suits (Directive.find? (write as)) (valueAt sequence step) w) sequences wordings ∧
        t = pass wordings as := by
  have hname : "AddedAttackCastTime".toList <:+: castTimeLink := by decide
  have hunlinked : Text.contains castTimeLink (write as) = false := by
    rw [Bool.eq_false_iff, ne_eq, Text.contains_iff] at hlink ⊢
    exact fun hinfix => hlink (hname.trans hinfix)
  have hvalues : ∀ v ∈ sequences.map (valueAt · step), v.equalsInt oneSecond = false := by
    rwa [List.forall_mem_map]
  have hrun : fillFrom (Directive.find? (write as)) ([] : List Wording).length
      (sequences.map (valueAt · step)) (pass [] as) = .ok t ↔
        ∃ later, List.Forall₂ (Suits (Directive.find? (write as)))
          (sequences.map (valueAt · step)) later ∧ t = pass ([] ++ later) as :=
    fillFrom_pass_eq_ok_iff hbraces hunlinked (fun _ => mem_all_of_mem_find?) hvalues nofun
  simp only [List.forall₂_map_left_iff, List.nil_append] at hrun
  exact hrun

/-- A template with fields of two-digit numbers, of which the values reach the first two. -/
def crowded : List Atom :=
  [.field false 1, .char ' ', .field true 0, .char ' ', .field false 11, .char ' ', .field true 1]

/-- The number of a field is not taken for the beginning of another one, and a field without a value is
left alone. -/
theorem substitute_crowded :
    Unbraced crowded ∧ Text.contains "AddedAttackCastTime".toList (write crowded) = false ∧
      (∀ sequence ∈ [[.whole 7], [.whole 1, .whole (-2)]],
        (valueAt sequence 1).equalsInt oneSecond = false) ∧
      substitute "{1} {0:+d} {11} {1:+d}".toList
        [[.whole 7], [.whole 1, .whole (-2)]] 1 = .ok "-2 +0 {11} -2".toList := by
  have hbraces : Unbraced crowded := by
    intro c hc
    have hall : ∀ a ∈ crowded, a = .char c → c = ' ' := by
      intro a ha
      simp only [crowded, List.mem_cons, List.not_mem_nil, or_false] at ha
      rcases ha with rfl | rfl | rfl | rfl | rfl | rfl | rfl <;> simp [eq_comm]
    rw [hall _ hc rfl]
    decide
  have hlink : Text.contains "AddedAttackCastTime".toList (write crowded) = false := by decide
  have hmany : ∀ sequence ∈ [[Quantity.whole 7], [.whole 1, .whole (-2)]],
      (valueAt sequence 1).equalsInt oneSecond = false := by decide
  have hfind : Directive.find? (write crowded) = none := by decide
  have hzero : Suits none (.whole 0) ⟨"+0".toList, ['0']⟩ :=
    ⟨.raw nofun (by decide +kernel), .plain (by decide +kernel)⟩
  have htwo : Suits none (.whole (-2)) ⟨"-2".toList, "-2".toList⟩ :=
    ⟨.raw nofun (by decide +kernel), .plain (by decide +kernel)⟩
  refine ⟨hbraces, hlink, hmany, (substitute_eq_ok_iff hbraces hlink hmany).mpr ?_⟩
  rw [hfind]
  exact ⟨_, .cons hzero (.cons htwo .nil), by decide⟩

end GemScribe.Template
