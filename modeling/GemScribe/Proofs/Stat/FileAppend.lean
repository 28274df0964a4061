import GemScribe.Proofs.Stat.Reading

/-!
Description files one behind another.

A marker ends the block before it, whatever that block holds by then, and what stands before the first
marker of a file is left out. So a file that begins with a marker reads the same behind any other file:
the blocks of the first file come first, the last of them as it stands, and then those of the second.
Where a line ends is settled by single characters, so that a carriage return at the end of the first
file and a line feed behind it make no line of their own.
-/

namespace GemScribe.Block

/-- A file whose first line is a marker, or that has no line at all. -/
def Opens (text : Text) : Prop :=
  ∀ line ∈ (Text.statements text).head?, isMarker line

theorem sections_fst_of_opens {rest : List Text} (h : ∀ l ∈ rest.head?, isMarker l) :
    (sections rest).1 = [] := by
  cases rest with
  | nil => rfl
  | cons l rest => rw [sections_cons_of_marker (h l rfl)]

/-- Lines that begin with a marker make sections of their own. -/
theorem sections_append_of_opens {front rest : List Text} (h : ∀ l ∈ rest.head?, isMarker l) :
    sections (front ++ rest) = ((sections front).1, (sections front).2 ++ (sections rest).2) := by
  induction front with
  | nil => exact Prod.ext (sections_fst_of_opens h) rfl
  | cons l front ih =>
    by_cases hl : isMarker l
    · rw [List.cons_append, sections_cons_of_marker hl, sections_cons_of_marker hl, ih,
        List.cons_append]
    · rw [Bool.not_eq_true] at hl
      rw [List.cons_append, sections_cons_of_not_marker hl, sections_cons_of_not_marker hl, ih]

theorem ofSections_append (parts parts' : List (List Text)) :
    ofSections (parts ++ parts') = (do
      let first ← ofSections parts
      let rest ← ofSections parts'
      pure (first ++ rest)) := by
  induction parts with
  | nil => exact (bind_pure (ofSections parts')).symm
  | cons lines parts ih =>
    rw [List.cons_append, ofSections_cons, ofSections_cons, ih, bind_assoc]
    refine bind_congr fun b => ?_
    simp only [bind_assoc]
    refine bind_congr fun first => ?_
    exact bind_congr fun rest => rfl

/-- A file that begins with a marker can be put behind any other file, on a new line: what is read is
the blocks of the first file and then those of the second, and the fault of the first where both have
one. -/
theorem parse_append_of_opens (s t : Text) (c : Char) (hc : Text.isLineEnd c) (ht : Opens t) :
    parse (s ++ c :: t) = (do
      let first ← parse s
      let rest ← parse t
      pure (first ++ rest)) := by
  rw [parse, Text.statements_append_cons hc, sections_append_of_opens ht, ofSections_append]
  rfl

/-- A file that stops in a block which has no template yet, with a carriage return at its end. -/
def brokenOffFile : Text :=
  "stray\ndescription\r\n1 x\u202802\r".toList

/-- A file with a blank line before its first marker. -/
def laterFile : Text :=
  "\t\x0cdescription of y\r\n\ty\n\x7b0\x7d\n7\n".toList

theorem parse_brokenOffFile_laterFile :
    Text.isLineEnd '\n' ∧ Opens laterFile ∧
    parse brokenOffFile = .ok [⟨"1 x".toList, some 2, []⟩] ∧
    parse laterFile = .ok [⟨"y".toList, some 7, ["\x7b0\x7d".toList]⟩] ∧
    parse (brokenOffFile ++ '\n' :: laterFile) =
      .ok [⟨"1 x".toList, some 2, []⟩, ⟨"y".toList, some 7, ["\x7b0\x7d".toList]⟩] := by
  have hend : Text.isLineEnd '\n' := by decide
  have hopens : Opens laterFile := by
    unfold Opens
    decide +kernel
  have hfirst : parse brokenOffFile = .ok [⟨"1 x".toList, some 2, []⟩] := by decide +kernel
  have hrest : parse laterFile = .ok [⟨"y".toList, some 7, ["\x7b0\x7d".toList]⟩] := by decide +kernel
  refine ⟨hend, hopens, hfirst, hrest, ?_⟩
  rw [parse_append_of_opens _ _ _ hend hopens, hfirst, hrest]
  rfl

end GemScribe.Block
