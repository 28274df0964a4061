import GemScribe.Text.Split

/-!
Finding and replacing parts of a text.

Occurrences are taken from left to right and do not overlap. `replaceAll` walks the text once: at an
occurrence it writes the new text and then skips the characters that the occurrence covers.
-/

namespace GemScribe.Text

/-- What follows `start` at the beginning of a text, when the text begins so. -/
def dropStart? : Text → Text → Option Text
  | [], t => some t
  | _ :: _, [] => none
  | a :: start, c :: t => if a = c then dropStart? start t else none

/-- The text begins with `start`. -/
def startsWith (start t : Text) : Bool :=
  (dropStart? start t).isSome

/-- The text has `part` somewhere in it. -/
def contains (part : Text) : Text → Bool
  | [] => startsWith part []
  | c :: t => startsWith part (c :: t) || contains part t

/-- What follows the first occurrence of `part`, when there is one. -/
def after? (part : Text) : Text → Option Text
  | [] => dropStart? part []
  | c :: t =>
    match dropStart? part (c :: t) with
    | some rest => some rest
    | none => after? part t

/-- Replacement at work: the first `skip` characters belong to an occurrence already replaced. -/
def replaceFrom (old new : Text) : Nat → Text → Text
  | _, [] => []
  | skip + 1, _ :: t => replaceFrom old new skip t
  | 0, c :: t =>
    if startsWith old (c :: t) then new ++ replaceFrom old new (old.length - 1) t
    else c :: replaceFrom old new 0 t

/-- The text with `new` in place of every occurrence of `old`, which is not empty. -/
def replaceAll (old new t : Text) : Text :=
  replaceFrom old new 0 t

/-- Expansion at work: the first `skip` characters belong to a match already expanded. -/
def expandFrom (at? : Text → Option (Text × Nat)) : Nat → Text → Text
  | _, [] => []
  | skip + 1, _ :: t => expandFrom at? skip t
  | 0, c :: t =>
    match at? (c :: t) with
    | some (new, length) => new ++ expandFrom at? (length - 1) t
    | none => c :: expandFrom at? 0 t

/-- The text with every match expanded: `at?` gives the new text and the length of a match at the
beginning of a text. -/
def expandAll (at? : Text → Option (Text × Nat)) (t : Text) : Text :=
  expandFrom at? 0 t

/-- The text without the first occurrence of `part`. -/
def eraseFirst (part : Text) : Text → Text
  | [] => []
  | c :: t =>
    match dropStart? part (c :: t) with
    | some rest => rest
    | none => c :: eraseFirst part t

/-! ### Beginnings -/

theorem dropStart?_append (start t : Text) : dropStart? start (start ++ t) = some t := by
  induction start with
  | nil => rfl
  | cons a start ih => simp [dropStart?, ih]

theorem dropStart?_eq_some_iff {start t rest : Text} :
    dropStart? start t = some rest ↔ t = start ++ rest := by
  constructor
  · intro h
    induction start generalizing t with
    | nil => simpa [dropStart?] using h
    | cons a start ih =>
      cases t with
      | nil => simp [dropStart?] at h
      | cons c t =>
        rw [dropStart?] at h
        split at h
        · next hac => rw [ih h, hac]; rfl
        · cases h
  · rintro rfl
    exact dropStart?_append start rest

theorem startsWith_iff {start t : Text} : startsWith start t ↔ start <+: t := by
  simp only [startsWith, Option.isSome_iff_exists, dropStart?_eq_some_iff]
  exact ⟨fun ⟨r, h⟩ => ⟨r, h.symm⟩, fun ⟨r, h⟩ => ⟨r, h.symm⟩⟩

theorem contains_iff {part t : Text} : contains part t ↔ part <:+: t := by
  induction t with
  | nil => simp [contains, startsWith_iff]
  | cons c t ih => simp [contains, startsWith_iff, ih, List.infix_cons_iff]

/-! ### Replacement -/

/-- A text without the old part stays as it is. -/
theorem replaceAll_of_not_contains {old new t : Text} (h : contains old t = false) :
    replaceAll old new t = t := by
  induction t with
  | nil => rfl
  | cons c t ih =>
    simp only [contains, Bool.or_eq_false_iff] at h
    simp only [replaceAll, replaceFrom, h.1]
    exact congrArg (c :: ·) (ih h.2)

/-- At an occurrence the new part is written and the text after it is treated alike. -/
theorem replaceAll_append {old new t : Text} (h : old ≠ []) :
    replaceAll old new (old ++ t) = new ++ replaceAll old new t := by
  have skip : ∀ (s : Text), replaceFrom old new s.length (s ++ t) = replaceAll old new t := by
    intro s
    induction s with
    | nil => rfl
    | cons _ s ih => simpa [replaceFrom] using ih
  cases hold : old with
  | nil => exact absurd hold h
  | cons a s =>
    have hs : startsWith (a :: s) (a :: (s ++ t)) :=
      startsWith_iff.2 ⟨t, rfl⟩
    have := skip s
    simp only [hold] at this
    simp [replaceAll, replaceFrom, hs, this]

end GemScribe.Text
