import GemScribe.Proofs.Stat.Settling

/-!
What filling in values deletes.

A template without directives and links is filled with the texts of its values. But at every value of one
second the condition of such a template is looked for in the text as it is by then, and a number that was
filled in can be taken for it: the first `1000` goes, and a final digit one. `substitute_eq_filled_iff`
says that the filled text is returned exactly when no value of one second meets either of them.
-/

namespace GemScribe.Template

variable {ts : List Token} {t s : Text} {f : Nat → Option Text} {v : Quantity} {i : Nat}

/-! ### Filling in -/

/-- A text that shows some number. -/
def Shown (s : Text) : Prop :=
  ∃ v : Quantity, v.display = .ok s

/-- The text of a template with texts in its first slots. -/
def filled (texts : List Text) (ts : List Token) : Text :=
  spell (fill (texts[·]?) ts)

/-- A template without braces in its characters, links for added cast time and directives. -/
structure Plain (ts : List Token) : Prop where
  braceless : Braceless ts
  unlinked : Text.contains "AddedAttackCastTime".toList (spell ts) = false
  undirected : Directive.find? (spell ts) = none

/-- Wherever a value is one second, nothing looks like a condition in the text filled so far. -/
def Undisturbed (values : List Quantity) (texts : List Text) (ts : List Token) : Prop :=
  ∀ i v, values[i]? = some v → v.equalsInt oneSecond → ¬Marked (filled (texts.take (i + 1)) ts)

theorem undisturbed_concat {values : List Quantity} {texts : List Text}
    (hlength : values.length = texts.length) : Undisturbed (values ++ [v]) (texts ++ [s]) ts ↔
      Undisturbed values texts ts ∧ (v.equalsInt oneSecond → ¬Marked (filled (texts ++ [s]) ts)) := by
  have hlast : (texts ++ [s]).take (values.length + 1) = texts ++ [s] :=
    List.take_of_length_le (by simp [hlength])
  constructor
  · refine fun h => ⟨fun i w hw hone => ?_, fun hone => ?_⟩
    · obtain ⟨hi, -⟩ := List.getElem?_eq_some_iff.mp hw
      have := h i w (by simp [List.getElem?_append_left hi, hw]) hone
      rwa [List.take_append_of_le_length (by omega)] at this
    · have := h values.length v (by simp) hone
      rwa [hlast] at this
  · rintro ⟨hvalues, hv⟩ i w hw hone
    rcases lt_trichotomy i values.length with hi | rfl | hi
    · rw [List.getElem?_append_left hi] at hw
      rw [List.take_append_of_le_length (by omega)]
      exact hvalues i w hw hone
    · rw [List.getElem?_concat_length] at hw
      obtain rfl := Option.some.inj hw
      rw [hlast]
      exact hv hone
    · rw [List.getElem?_eq_none (by simp; omega)] at hw
      cases hw

/-- What is put into a slot is found in the text. -/
theorem infix_spell_fill (hi : i ∈ slots ts) (hs : f i = some s) : s <:+: spell (fill f ts) := by
  induction ts with
  | nil => cases hi
  | cons tok ts ih =>
    cases tok with
    | char c => exact (ih hi).trans (List.suffix_cons c _).isInfix
    | slot j =>
      by_cases hij : i = j
      · subst hij
        rw [fill_slot_of_some hs, spell_append, spell_literal]
        exact (List.prefix_append s _).isInfix
      · rw [slots_slot, List.mem_cons] at hi
        rw [← List.singleton_append, fill_append, spell_append]
        exact (ih (hi.resolve_left hij)).trans (List.suffix_append _ _).isInfix

/-- A value of one second that has a slot is disturbed by its own number. -/
theorem not_undisturbed_of_slot {values : List Quantity} {texts : List Text} (hi : i ∈ slots ts)
    (hv : values[i]? = some v) (hone : v.equalsInt oneSecond) (hs : texts[i]? = some s)
    (hdisplay : v.display = .ok s) : ¬Undisturbed values texts ts := by
  have htake : (texts.take (i + 1))[i]? = some s := by simp [hs]
  have hinfix := infix_spell_fill (f := ((texts.take (i + 1))[·]?)) hi htake
  rw [Quantity.display_of_equalsInt hone hdisplay] at hinfix
  exact fun h => h i v hv hone (.inl (Text.contains_iff.mpr hinfix))

theorem braceless_of_display (h : v.display = .ok s) : ∀ c ∈ s, c ∉ "\x7b\x7d".toList := by
  have hshown : ∀ c ∈ Text.shownChars, c ∉ "\x7b\x7d".toList := Text.forall_mem_of_all (by decide)
  exact fun c hc => hshown c (Quantity.mem_shownChars_of_display h c hc)

theorem fillOne_eq (hs : v.display = .ok s) (i : Nat) (t : Text) :
    ∃ signed, fillOne none i v t = settleCastTime v
      (Text.replaceAll (placeholder i) s (Text.replaceAll (signedPlaceholder i) signed t)) := by
  obtain ⟨signed, hsigned⟩ := Quantity.exists_displaySigned_of_display hs
  exact ⟨signed, by rw [fillOne, shown, hsigned, hs]; rfl⟩

theorem fillOne_spell (hs : v.display = .ok s) (hts : Braceless ts) (i : Nat) :
    fillOne none i v (spell ts) = settleCastTime v (spell (fill (only i s) ts)) := by
  obtain ⟨signed, hfill⟩ := fillOne_eq hs i (spell ts)
  rw [hfill, replaceAll_signedPlaceholder_spell hts, replaceAll_placeholder_spell hts]

theorem exists_fillOne_of_display (hs : v.display = .ok s) (i : Nat) (t : Text) :
    ∃ t', fillOne none i v t = .ok t' := by
  obtain ⟨q, hq⟩ := Quantity.exists_divBy_of_display hs
  obtain ⟨signed, hfill⟩ := fillOne_eq hs i t
  exact ⟨_, hfill.trans (settleCastTime_eq hq _)⟩

variable {values : List Quantity} {texts : List Text}

theorem Plain.braceless_fill (h : Plain ts) (htexts : ∀ s ∈ texts, Shown s) :
    Braceless (fill (texts[·]?) ts) := by
  refine h.braceless.fill fun i s hs => ?_
  obtain ⟨w, hw⟩ := htexts s (List.mem_of_getElem? hs)
  exact braceless_of_display hw

theorem Plain.unlinked_filled (h : Plain ts) (htexts : ∀ s ∈ texts, Shown s) :
    Text.contains castTimeLink (filled texts ts) = false := by
  have hcuts : ∀ (i : Nat) s, texts[i]? = some s → Cuts s := by
    intro i s hs
    obtain ⟨w, hw⟩ := htexts s (List.mem_of_getElem? hs)
    exact cuts_of_display hw
  have hname : "AddedAttackCastTime".toList <:+: castTimeLink := by decide
  have hunlinked := h.unlinked
  rw [filled, contains_castTimeLink_fill hcuts]
  rw [Bool.eq_false_iff, ne_eq, Text.contains_iff] at hunlinked ⊢
  exact fun hinfix => hunlinked (hname.trans hinfix)

theorem Unmistakable.fill (h : Unmistakable ts) (f : Nat → Option Text) : Unmistakable (fill f ts) := by
  intro i hi
  rw [slots_fill] at hi
  exact h i (List.mem_of_mem_filter hi)

/-! ### The run over the values -/

/-- The text after some values: it is the filled template as long as no value was disturbed by it, and
has lost something from then on. -/
structure Follows (values : List Quantity) (texts : List Text) (ts : List Token) (t : Text) : Prop where
  shown : ∀ s ∈ texts, Shown s
  kept : Undisturbed values texts ts → t = filled texts ts
  lost : Unmistakable ts → ¬Undisturbed values texts ts →
    ∃ us, t = spell us ∧ Braceless us ∧ Lighter us (fill (texts[·]?) ts)

theorem follows_nil (ts : List Token) : Follows [] [] ts (spell ts) where
  shown := nofun
  kept _ := (congrArg spell (fill_eq_self fun _ => rfl)).symm
  lost _ h := absurd (fun i v hv => by cases hv) h

/-- The step keeps to the invariant when one value is filled in. -/
theorem Follows.fillOne (h : Follows values texts ts t) (hplain : Plain ts)
    (hlength : values.length = texts.length) (hs : v.display = .ok s) :
    ∃ t', fillOne none values.length v t = .ok t' ∧ Follows (values ++ [v]) (texts ++ [s]) ts t' := by
  have hv := Quantity.exists_divBy_of_display hs
  have hshown : ∀ s' ∈ texts ++ [s], Shown s' := by
    intro s' hs'
    rcases List.mem_append.mp hs' with hs' | hs'
    · exact h.shown s' hs'
    · exact ⟨v, by rw [List.mem_singleton.mp hs', hs]⟩
  have hfilled : Template.fillOne none values.length v (filled texts ts) =
      settleCastTime v (filled (texts ++ [s]) ts) := by
    rw [filled, fillOne_spell hs (hplain.braceless_fill h.shown), hlength, fill_only_length, filled]
  have hlink := hplain.unlinked_filled hshown
  obtain ⟨t', ht'⟩ := exists_fillOne_of_display hs values.length t
  refine ⟨t', ht', hshown, fun hundisturbed => ?_, fun hslots hdisturbed => ?_⟩
  · obtain ⟨hbefore, hlast⟩ := (undisturbed_concat hlength).mp hundisturbed
    rw [h.kept hbefore, hfilled, settleCastTime_of_not_marked hv hlink hlast] at ht'
    exact (Except.ok.inj ht').symm
  · by_cases hbefore : Undisturbed values texts ts
    · -- the value that is disturbed is this one
      have hlast : v.equalsInt oneSecond ∧ Marked (filled (texts ++ [s]) ts) := by
        by_contra hlast
        exact hdisturbed ((undisturbed_concat hlength).mpr
          ⟨hbefore, fun hone hmarked => hlast ⟨hone, hmarked⟩⟩)
      rw [h.kept hbefore, hfilled] at ht'
      obtain ⟨us, hus, hweakens, hlighter⟩ :=
        exists_settleCastTime_spell hv (hplain.braceless_fill hshown) (hslots.fill _)
      exact ⟨us, Except.ok.inj (ht'.symm.trans hus), hweakens.braceless,
        hlighter hlast.1 hlast.2 hlink⟩
    · -- what was lost before stays lost
      obtain ⟨us, rfl, hus, hlighter⟩ := h.lost hslots hbefore
      have hnext : Lighter (fill (only values.length s) us) (fill ((texts ++ [s])[·]?) ts) := by
        rw [← fill_only_length, hlength]
        exact hlighter.fill _
      have hbraceless : Braceless (fill (only values.length s) us) := by
        refine hus.fill fun i s' hs' => ?_
        rw [only, Option.ite_none_right_eq_some] at hs'
        obtain rfl := Option.some.inj hs'.2
        exact braceless_of_display hs
      have hunmistakable : Unmistakable (fill (only values.length s) us) := by
        rw [Unmistakable, hnext.1]
        exact hslots.fill _
      obtain ⟨vs, hvs, hweakens, -⟩ := exists_settleCastTime_spell hv hbraceless hunmistakable
      rw [fillOne_spell hs hus] at ht'
      refine ⟨vs, Except.ok.inj (ht'.symm.trans hvs), hweakens.braceless, ?_⟩
      rcases hweakens.weight with rfl | hlighter'
      · exact hnext
      · exact hlighter'.trans hnext

/-- Filling in the remaining values keeps to the invariant. -/
theorem Follows.fillFrom (hplain : Plain ts) {rest : List Quantity} {texts' : List Text}
    (hrest : List.Forall₂ (fun v s => v.display = .ok s) rest texts') :
    ∀ {values texts t}, values.length = texts.length → Follows values texts ts t →
      ∃ t', fillFrom none values.length rest t = .ok t' ∧
        Follows (values ++ rest) (texts ++ texts') ts t' := by
  induction hrest with
  | nil =>
    intro values texts t _ h
    rw [List.append_nil, List.append_nil]
    exact ⟨t, rfl, h⟩
  | @cons v s rest texts' hs _ ih =>
    intro values texts t hlength h
    obtain ⟨t₁, ht₁, h₁⟩ := h.fillOne hplain hlength hs
    have hlength₁ : (values ++ [v]).length = (texts ++ [s]).length := by simp [hlength]
    obtain ⟨t', ht', h'⟩ := ih hlength₁ h₁
    rw [List.append_assoc, List.append_assoc] at h'
    rw [List.length_append] at ht'
    exact ⟨t', by rw [Template.fillFrom, bind_eq_ok]; exact ⟨t₁, ht₁, ht'⟩, h'⟩

variable {sequences : List (List Quantity)} {step : Nat}

theorem exists_follows_substitute (hplain : Plain ts)
    (hshown : List.Forall₂ (fun v s => v.display = .ok s) (sequences.map (valueAt · step)) texts) :
    ∃ t, substitute (spell ts) sequences step = .ok t ∧
      Follows (sequences.map (valueAt · step)) texts ts t := by
  obtain ⟨t, ht, h⟩ := Follows.fillFrom hplain hshown rfl (follows_nil ts)
  rw [List.nil_append, List.nil_append] at h
  exact ⟨t, by rw [substitute, hplain.undirected]; exact ht, h⟩

theorem Follows.undisturbed (h : Follows values texts ts t) (hslots : Unmistakable ts)
    (hkept : t = filled texts ts) : Undisturbed values texts ts := by
  by_contra hdisturbed
  obtain ⟨us, hus, -, hlighter⟩ := h.lost hslots hdisturbed
  exact hlighter.spell_ne (hus.symm.trans hkept)

/-- A plain template is filled with the texts of its values if no value of one second is disturbed, and,
unless the number of a slot can be taken for a condition, only if. -/
theorem substitute_eq_filled_iff (hplain : Plain ts)
    (hshown : List.Forall₂ (fun v s => v.display = .ok s) (sequences.map (valueAt · step)) texts) :
    ∃ t, substitute (spell ts) sequences step = .ok t ∧
      (Undisturbed (sequences.map (valueAt · step)) texts ts → t = filled texts ts) ∧
      (Unmistakable ts → t = filled texts ts →
        Undisturbed (sequences.map (valueAt · step)) texts ts) := by
  obtain ⟨t, ht, h⟩ := exists_follows_substitute hplain hshown
  exact ⟨t, ht, h.kept, h.undisturbed⟩

/-- A value of one second that has a slot is never shown in full. -/
theorem substitute_ne_filled_of_slot (hplain : Plain ts)
    (hshown : List.Forall₂ (fun v s => v.display = .ok s) (sequences.map (valueAt · step)) texts)
    (hslots : Unmistakable ts) (hi : i ∈ slots ts) (hv : (sequences.map (valueAt · step))[i]? = some v)
    (hone : v.equalsInt oneSecond) : substitute (spell ts) sequences step ≠ .ok (filled texts ts) := by
  obtain ⟨t, ht, h⟩ := exists_follows_substitute hplain hshown
  obtain ⟨hvalues, rfl⟩ := List.getElem?_eq_some_iff.mp hv
  have htexts : i < texts.length := hshown.length_eq ▸ hvalues
  have hdisplay := hshown.get hvalues htexts
  intro hkept
  have hundisturbed := h.undisturbed hslots (Except.ok.inj (ht.symm.trans hkept))
  exact not_undisturbed_of_slot hi hv hone (List.getElem?_eq_getElem htexts) hdisplay hundisturbed

/-! ### Two templates -/

/-- A template that shows its first value. -/
def damage : List Token :=
  .slot 0 :: literal " damage".toList

/-- A template that shows its first value at the end. -/
def level : List Token :=
  literal "Level ".toList ++ [.slot 0]

theorem plain_damage : Plain damage :=
  ⟨Text.forall_mem_of_all (by decide), by decide, by decide⟩

theorem plain_level : Plain level :=
  ⟨Text.forall_mem_of_all (by decide), by decide, by decide⟩

/-- A value of one second that is not shown leaves the template alone. -/
theorem substitute_sevenDamage :
    Undisturbed [.whole 7, .whole 1000] [['7'], "1000".toList] damage ∧
      substitute "\x7b0\x7d damage".toList [[.whole 7], [.whole 1000]] 0 = .ok "7 damage".toList := by
  have hundisturbed : Undisturbed [.whole 7, .whole 1000] [['7'], "1000".toList] damage := by
    intro i v hv hone
    match i with
    | 0 =>
      obtain rfl := Option.some.inj hv
      exact absurd hone (by decide)
    | 1 =>
      have hnumber : ¬Text.contains (intText oneSecond) (filled [['7'], "1000".toList] damage) := by
        decide
      have hlast : ¬(['1'] <:+ filled [['7'], "1000".toList] damage ∨
        ['1', '\n'] <:+ filled [['7'], "1000".toList] damage) := by decide
      exact not_or.mpr ⟨hnumber, hlast⟩
    | i + 2 => cases hv
  have hshown : List.Forall₂ (fun v s => v.display = .ok s)
      ([[.whole 7], [.whole 1000]].map (valueAt · 0)) [['7'], "1000".toList] :=
    .cons (by decide +kernel) (.cons (by decide +kernel) .nil)
  obtain ⟨t, ht, hkept, -⟩ := substitute_eq_filled_iff plain_damage hshown
  rw [hkept hundisturbed] at ht
  exact ⟨hundisturbed, ht⟩

/-- One second of damage loses its number, and a level of 21 its last digit where the next value is one
second. -/
theorem substitute_loses_thousand :
    (Plain damage ∧ (∀ c ∈ chars damage, Text.isDigit c = false) ∧
      substitute (spell damage) [[.whole 1000]] 0 = .ok " damage".toList ∧
      filled ["1000".toList] damage = "1000 damage".toList) ∧
    (Plain level ∧ (∀ c ∈ chars level, Text.isDigit c = false) ∧
      substitute (spell level) [[.whole 21], [.whole 1000]] 0 = .ok "Level 2".toList ∧
      filled ["21".toList, "1000".toList] level = "Level 21".toList) := by
  refine ⟨⟨plain_damage, Text.forall_mem_of_all (by decide), ?_, by decide⟩,
    ⟨plain_level, Text.forall_mem_of_all (by decide), ?_, by decide⟩⟩
  · decide +kernel
  · decide +kernel

end GemScribe.Template
