import GemScribe.Proofs.Number.Shown
import GemScribe.Proofs.Outcome
import GemScribe.Proofs.Stat.Reduced

/-!
Settling the wording for added cast time.

A text without a link for added cast time is settled only at a value of one second, and only when it
looks as if it had a condition: the number of one second, or a digit one at its end. Then it loses
something. Links do not come about by filling, since no shown number is a part of one.
-/

namespace GemScribe.Template

variable {ts us : List Token} {t s : Text} {f : Nat → Option Text} {v : Quantity}

/-! ### Links for added cast time -/

/-- How the links for added cast time begin. -/
def castTimeLink : Text :=
  "[AddedAttackCastTime|".toList

/-- A text that no link for added cast time reaches into or over. -/
structure Cuts (t : Text) : Prop where
  bracketless : '[' ∉ t
  barless : '|' ∉ t
  foreign : ∃ c ∈ t, c ∉ castTimeLink

theorem cuts_placeholder (i : Nat) : Cuts (placeholder i) where
  bracketless h := absurd (mem_placeholder h) (by decide)
  barless h := absurd (mem_placeholder h) (by decide)
  foreign := ⟨'\x7b', List.mem_cons_self, by decide⟩

theorem cuts_of_display (h : v.display = .ok t) : Cuts t where
  bracketless hmem := absurd (Quantity.mem_shownChars_of_display h _ hmem) (by decide)
  barless hmem := absurd (Quantity.mem_shownChars_of_display h _ hmem) (by decide)
  foreign := by
    have hsolid : ∀ c ∈ Text.solidChars, c ∉ castTimeLink := Text.forall_mem_of_all (by decide)
    obtain ⟨c, hc, hmem⟩ := Quantity.exists_mem_solidChars_of_display h
    exact ⟨c, hc, hsolid c hmem⟩

theorem contains_castTimeLink_append (h : Cuts s) (l r : Text) :
    Text.contains castTimeLink (l ++ (s ++ r)) =
      (Text.contains castTimeLink l || Text.contains castTimeLink r) := by
  have hlink : castTimeLink = '[' :: ("AddedAttackCastTime".toList ++ ['|']) := by decide
  obtain ⟨c, hs, hc⟩ := h.foreign
  rw [hlink] at hc ⊢
  exact Text.contains_append_of_cut h.bracketless h.barless hs hc l r

/-- No link for added cast time comes about by filling. -/
theorem contains_castTimeLink_fill (hf : ∀ i t, f i = some t → Cuts t) :
    Text.contains castTimeLink (spell (fill f ts)) = Text.contains castTimeLink (spell ts) := by
  -- `l` holds the characters since the last slot
  suffices h : ∀ l, Text.contains castTimeLink (l ++ spell (fill f ts)) =
      Text.contains castTimeLink (l ++ spell ts) from h []
  induction ts with
  | nil => exact fun _ => rfl
  | cons tok ts ih =>
    intro l
    cases tok with
    | char c =>
      rw [fill_char, spell_char, spell_char, List.append_cons, ih, List.append_cons l c (spell ts)]
    | slot i =>
      have hrest := ih []
      rw [List.nil_append, List.nil_append] at hrest
      rw [spell_slot, contains_castTimeLink_append (cuts_placeholder i), ← hrest]
      cases hi : f i with
      | some t =>
        rw [fill_slot_of_some hi, spell_append, spell_literal, contains_castTimeLink_append (hf i t hi)]
      | none =>
        rw [fill_slot_of_none hi, spell_slot, contains_castTimeLink_append (cuts_placeholder i)]

theorem replaceAll_castTime {old : Text} (hold : castTimeLink <:+: old)
    (h : Text.contains castTimeLink t = false) (new : Text) : Text.replaceAll old new t = t := by
  refine Text.replaceAll_of_not_contains ?_
  rw [Bool.eq_false_iff, ne_eq, Text.contains_iff] at h ⊢
  exact fun hinfix => h (hold.trans hinfix)

/-! ### Settling -/

/-- What a value of one second takes for a condition: its number, or a final digit one. -/
def Marked (t : Text) : Prop :=
  Text.contains (intText oneSecond) t ∨ HasFinalOne t

theorem settleCastTime_eq {q : Binary64} (hq : v.divBy 1000 = .ok q) (t : Text) :
    settleCastTime v t = .ok (if v.equalsInt oneSecond then
      dropFinalOne (Text.eraseFirst (intText oneSecond)
        (Text.replaceAll castTimeSingular ('+' :: q.display ++ " second".toList) t))
      else Text.replaceAll castTimePlural ('+' :: q.display ++ " seconds".toList) t) := by
  rw [settleCastTime, bind_eq_ok]
  refine ⟨q, hq, ?_⟩
  split_ifs <;> rfl

/-- Without a link and without what looks like a condition, a text stays as it is. -/
theorem settleCastTime_of_not_marked (hv : ∃ q, v.divBy 1000 = .ok q)
    (hlink : Text.contains castTimeLink t = false) (h : v.equalsInt oneSecond → ¬Marked t) :
    settleCastTime v t = .ok t := by
  obtain ⟨q, hq⟩ := hv
  have hsingular : castTimeLink <:+: castTimeSingular := by decide
  have hplural : castTimeLink <:+: castTimePlural := by decide
  rw [settleCastTime_eq hq, replaceAll_castTime hsingular hlink, replaceAll_castTime hplural hlink]
  split_ifs with hone
  · obtain ⟨hnumber, hlast⟩ := not_or.mp (h hone)
    rw [Text.eraseFirst_of_not_contains (Bool.eq_false_iff.mpr hnumber), dropFinalOne_of_not hlast]
  · rfl

/-- No slot has the number of one second in its own number. -/
def Unmistakable (ts : List Token) : Prop :=
  ∀ i ∈ slots ts, Text.contains (intText oneSecond) (natText i) = false

/-- The same tokens, or lighter ones without braces. -/
structure Weakens (us ts : List Token) : Prop where
  braceless : Braceless us
  weight : us = ts ∨ Lighter us ts

theorem Weakens.refl (h : Braceless ts) : Weakens ts ts :=
  ⟨h, .inl rfl⟩

theorem Weakens.trans {vs : List Token} (h : Weakens us ts) (h' : Weakens ts vs) : Weakens us vs := by
  refine ⟨h.braceless, ?_⟩
  rcases h.weight with rfl | hlighter
  · exact h'.weight
  · rcases h'.weight with rfl | hlighter'
    · exact .inr hlighter
    · exact .inr (hlighter.trans hlighter')

theorem Weakens.slots (h : Weakens us ts) : slots us = slots ts := by
  rcases h.weight with rfl | hlighter
  · rfl
  · exact hlighter.1

theorem exists_replaceAll_castTime {old unit : Text} (hold : ∀ c ∈ old, c ∉ "\x7b\x7d".toList)
    (hcapital : 'A' ∈ old) (hunit : ∀ c ∈ unit, c ∈ " seconds".toList) (x : Binary64)
    (hts : Braceless ts) :
    ∃ us, Text.replaceAll old ('+' :: x.display ++ unit) (spell ts) = spell us ∧ Weakens us ts := by
  have hnew : ∀ c ∈ '+' :: x.display ++ unit, c ∉ 'A' :: "\x7b\x7d".toList := by
    have hshown : ∀ c ∈ Text.shownChars, c ∉ 'A' :: "\x7b\x7d".toList :=
      Text.forall_mem_of_all (by decide)
    have hwords : ∀ c ∈ " seconds".toList, c ∉ 'A' :: "\x7b\x7d".toList :=
      Text.forall_mem_of_all (by decide)
    intro c hc
    rw [List.cons_append, List.mem_cons, List.mem_append] at hc
    rcases hc with rfl | hc | hc
    · decide
    · exact hshown c (Binary64.mem_shownChars_of_mem_display hc)
    · exact hwords c (hunit c hc)
  have hless : ('+' :: x.display ++ unit).count 'A' < old.count 'A' := by
    rw [List.count_eq_zero.mpr fun hmem => hnew _ hmem List.mem_cons_self]
    exact List.count_pos_iff.mpr hcapital
  obtain ⟨us, k, hus, htraded, hkept⟩ :=
    exists_replaceAll_spell hold hcapital ('+' :: x.display ++ unit) ts []
  have hbraceless : Braceless us :=
    htraded.braceless (fun c hc hbrace => hnew c hc (List.mem_cons_of_mem _ hbrace)) hts
  refine ⟨us, hus, hbraceless, ?_⟩
  rcases Nat.eq_zero_or_pos k with hzero | hpos
  · exact .inl (hkept hzero)
  · exact .inr (htraded.lighter hpos (.inl hless))

/-- Taking out what looks like a condition. -/
theorem exists_unmark (hts : Braceless ts) (hslots : Unmistakable ts) :
    ∃ us, dropFinalOne (Text.eraseFirst (intText oneSecond) (spell ts)) = spell us ∧
      Weakens us ts ∧ (Marked (spell ts) → Lighter us ts) := by
  have hnumber : ∀ c ∈ intText oneSecond, c ∉ "\x7b\x7d".toList := Text.forall_mem_of_all (by decide)
  have herase : ∃ us, Text.eraseFirst (intText oneSecond) (spell ts) = spell us ∧ Weakens us ts ∧
      (Text.contains (intText oneSecond) (spell ts) → Lighter us ts) ∧
      (Text.contains (intText oneSecond) (spell ts) = false → us = ts) := by
    cases hfound : Text.contains (intText oneSecond) (spell ts) with
    | true =>
      obtain ⟨us, hus, htraded⟩ :=
        exists_eraseFirst_spell hnumber (by decide) hslots (l := []) hfound
      have hlighter : Lighter us ts := htraded.lighter Nat.one_pos (.inr (by decide))
      exact ⟨us, hus, ⟨htraded.braceless nofun hts, .inr hlighter⟩, fun _ => hlighter, nofun⟩
    | false =>
      exact ⟨ts, Text.eraseFirst_of_not_contains hfound, .refl hts, nofun, fun _ => rfl⟩
  obtain ⟨us, hus, hweakens, hlighter, hsame⟩ := herase
  rw [hus]
  by_cases hlast : HasFinalOne (spell us)
  · obtain ⟨vs, hvs, htraded⟩ := exists_dropFinalOne_spell hlast
    have hlast : Lighter vs us := htraded.lighter Nat.one_pos (.inr (by decide))
    have hdropped : Weakens vs us := ⟨htraded.braceless nofun hweakens.braceless, .inr hlast⟩
    refine ⟨vs, hvs, hdropped.trans hweakens, fun _ => ?_⟩
    rcases hweakens.weight with rfl | herased
    · exact hlast
    · exact hlast.trans herased
  · refine ⟨us, dropFinalOne_of_not hlast, hweakens, fun hmarked => ?_⟩
    cases hfound : Text.contains (intText oneSecond) (spell ts) with
    | true => exact hlighter hfound
    | false =>
      rw [Marked, hfound, ← hsame hfound] at hmarked
      exact absurd (hmarked.resolve_left Bool.false_ne_true) hlast

/-- Settling takes nothing away or makes lighter, and makes lighter where it takes something for a
condition. -/
theorem exists_settleCastTime_spell (hv : ∃ q, v.divBy 1000 = .ok q) (hts : Braceless ts)
    (hslots : Unmistakable ts) : ∃ us, settleCastTime v (spell ts) = .ok (spell us) ∧ Weakens us ts ∧
      (v.equalsInt oneSecond → Marked (spell ts) → Text.contains castTimeLink (spell ts) = false →
        Lighter us ts) := by
  obtain ⟨q, hq⟩ := hv
  rw [settleCastTime_eq hq]
  split_ifs with hone
  · have hold : ∀ c ∈ castTimeSingular, c ∉ "\x7b\x7d".toList := Text.forall_mem_of_all (by decide)
    have hunit : ∀ c ∈ " second".toList, c ∈ " seconds".toList := Text.forall_mem_of_all (by decide)
    obtain ⟨us, hus, hweakens⟩ := exists_replaceAll_castTime hold (by decide) hunit q hts
    have hunmistakable : Unmistakable us := by rwa [Unmistakable, hweakens.slots]
    obtain ⟨vs, hvs, hunmarked, hlighter⟩ := exists_unmark hweakens.braceless hunmistakable
    refine ⟨vs, by rw [hus, hvs], hunmarked.trans hweakens, fun _ hmarked hlink => ?_⟩
    rw [replaceAll_castTime (by decide) hlink] at hus
    obtain rfl := hweakens.weight.resolve_right fun h => h.spell_ne hus.symm
    exact hlighter hmarked
  · have hold : ∀ c ∈ castTimePlural, c ∉ "\x7b\x7d".toList := Text.forall_mem_of_all (by decide)
    obtain ⟨us, hus, hweakens⟩ := exists_replaceAll_castTime hold (by decide) (fun _ hc => hc) q hts
    exact ⟨us, by rw [hus], hweakens, fun h => absurd h hone⟩

end GemScribe.Template
