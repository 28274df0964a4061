import GemScribe.Text.Sign

/-!
The signs of a text.

A spelling of two characters begins with the mark, and what follows the mark in it tells the sign. So signs are read
off their spellings, one after another, and a text that spells some signs spells no others. A character that neither
is the mark nor can follow it keeps the signs on its two sides apart.
-/

namespace GemScribe

variable {c : Char} {s t : Text}

namespace Sign

theorem ofTrail?_half (h : Half) : ofTrail? (Char.ofNat (h.unit + trailOffset)) = some (half h) := by
  obtain ⟨unit, hlow, hhigh⟩ := h
  have hvalid : (unit + trailOffset).isValidChar := by
    right
    simp only [trailOffset]
    omega
  have hunit : (Char.ofNat (unit + trailOffset)).toNat = unit + trailOffset := by
    rw [Char.ofNat, dif_pos hvalid]
    rfl
  have hne : Char.ofNat (unit + trailOffset) ≠ markTrail := by
    intro heq
    have hnat : unit + trailOffset = 0x10FFFE := hunit ▸ congrArg Char.toNat heq
    simp only [trailOffset] at hnat
    omega
  simp [ofTrail?, hne, hunit, hlow, hhigh]

/-- The character neither is the mark nor goes on after it. -/
def Separates (c : Char) : Prop :=
  c ≠ mark ∧ ofTrail? c = none

instance : DecidablePred Separates :=
  fun c => inferInstanceAs (Decidable (c ≠ mark ∧ ofTrail? c = none))

end Sign

namespace Text

/-! ### Reading signs -/

theorem signs_cons_of_ne (hc : c ≠ Sign.mark) (t : Text) : signs (c :: t) = .char c :: signs t := by
  cases t with
  | nil => rfl
  | cons d rest => rw [signs, if_neg hc]

theorem signs_mark_cons {sign : Sign} (hc : Sign.ofTrail? c = some sign) (t : Text) :
    signs (Sign.mark :: c :: t) = sign :: signs t := by
  rw [signs, if_pos rfl, hc]

theorem signs_spelling_append (sign : Sign) (t : Text) : signs (sign.spelling ++ t) = sign :: signs t := by
  cases sign with
  | half h => exact signs_mark_cons (Sign.ofTrail?_half h) t
  | char c =>
    rw [Sign.spelling]
    split
    · next hc =>
      rw [hc]
      exact signs_mark_cons (if_pos rfl) t
    · next hc => exact signs_cons_of_ne hc t

/-- The signs that a text spells are read off it. -/
theorem signs_spell : ∀ ss : List Sign, signs (spell ss) = ss
  | [] => rfl
  | sign :: ss => by
      rw [spell, List.flatMap_cons, signs_spelling_append]
      exact congrArg (sign :: ·) (signs_spell ss)

theorem toString_ofString (s : String) : toString (ofString s) = s := by
  have hchars : ∀ cs : List Char, (cs.map Sign.char).filterMap Sign.char? = cs := by
    intro cs
    rw [List.filterMap_map]
    exact List.filterMap_some
  rw [toString, ofString, signs_spell, hchars, String.ofList_toList]

/-! ### Two sides -/

theorem signs_append_cons (hc : Sign.Separates c) (t : Text) : ∀ s : Text,
    signs (s ++ c :: t) = signs s ++ .char c :: signs t
  | [] => signs_cons_of_ne hc.1 t
  | [d] => by
      have hnone : (if d = Sign.mark then Sign.ofTrail? c else none) = none := by
        split
        · exact hc.2
        · rfl
      simp only [List.singleton_append, signs, hnone]
      rw [signs_cons_of_ne hc.1]
  | d :: e :: rest => by
      rw [List.cons_append, List.cons_append, signs, signs]
      split
      · rw [signs_append_cons hc t rest]
        rfl
      · rw [← List.cons_append, signs_append_cons hc t (e :: rest)]
        rfl

theorem hasHalf_append_cons (hc : Sign.Separates c) (s t : Text) :
    hasHalf (s ++ c :: t) = (hasHalf s || hasHalf t) := by
  rw [hasHalf, signs_append_cons hc, List.any_append, List.any_cons, Sign.isHalf, Bool.false_or]
  rfl

/-- A text without marks has no half. -/
theorem hasHalf_eq_false_of_not_mem : ∀ {t : Text}, Sign.mark ∉ t → hasHalf t = false
  | [], _ => rfl
  | c :: t, h => by
      rw [List.mem_cons, not_or] at h
      rw [hasHalf, signs_cons_of_ne (Ne.symm h.1), List.any_cons, Sign.isHalf, Bool.false_or]
      exact hasHalf_eq_false_of_not_mem h.2

end Text

end GemScribe
