import GemScribe.Text.Blank

/-!
Texts, and the pieces they fall into.

A text is a list of characters. `pieces` cuts at every separator, and words and lines are pieces of
a text. The small lemmas say what one separator does to the pieces around it.
-/

namespace GemScribe

abbrev Text := List Char

namespace Text

/-- Puts a character in front of the first piece. -/
def attach (c : Char) : List Text → List Text
  | [] => [[c]]
  | w :: ws => (c :: w) :: ws

/-- The pieces of a text between its separators, empty ones included. -/
def pieces (separator : Char → Bool) : Text → List Text
  | [] => [[]]
  | c :: rest =>
    if separator c then [] :: pieces separator rest
    else attach c (pieces separator rest)

/-- The words of a text: its non-empty pieces between blanks. -/
def words (t : Text) : List Text :=
  (pieces isBlank t).filter (!·.isEmpty)

/-- The text without the given characters at its two ends. -/
def trim (drops : Char → Bool) (t : Text) : Text :=
  ((t.dropWhile drops).reverse.dropWhile drops).reverse

/-- The text without blanks at its two ends. -/
def strip (t : Text) : Text :=
  trim isBlank t

/-- The lines of a text that hold more than blanks, each without the blanks around it. -/
def statements (t : Text) : List Text :=
  ((pieces isLineEnd t).map strip).filter (!·.isEmpty)

/-- One space between words and none elsewhere. -/
def squeeze (t : Text) : Text :=
  List.intercalate [' '] (words t)

/-- The texts one after another with `separator` between them. -/
def join (separator : Text) (ts : List Text) : Text :=
  List.intercalate separator ts

/-! ### Pieces -/

theorem attach_append (c : Char) {ps : List Text} (h : ps ≠ []) (qs : List Text) :
    attach c (ps ++ qs) = attach c ps ++ qs := by
  cases ps with
  | nil => exact absurd rfl h
  | cons w ws => rfl

theorem attach_ne_nil (c : Char) (ps : List Text) : attach c ps ≠ [] := by
  cases ps <;> simp [attach]

theorem pieces_ne_nil (p : Char → Bool) (t : Text) : pieces p t ≠ [] := by
  cases t with
  | nil => simp [pieces]
  | cons c rest =>
    rw [pieces]
    split
    · simp
    · exact attach_ne_nil c _

/-- A separator cuts a text in two, whatever stands on its sides. -/
theorem pieces_append_cons {p : Char → Bool} {c : Char} (hc : p c) (s t : Text) :
    pieces p (s ++ c :: t) = pieces p s ++ pieces p t := by
  induction s with
  | nil => simp [pieces, hc]
  | cons d s ih =>
    simp only [List.cons_append, pieces, ih]
    split
    · rfl
    · exact attach_append d (pieces_ne_nil p s) _

/-- A text without separators is one piece. -/
theorem pieces_of_forall_not {p : Char → Bool} {t : Text} (h : ∀ c ∈ t, p c = false) :
    pieces p t = [t] := by
  induction t with
  | nil => rfl
  | cons c rest ih =>
    rw [pieces, ih fun d hd => h d (List.mem_cons_of_mem _ hd)]
    simp [h c List.mem_cons_self, attach]

/-- Words on the two sides of a blank are the words of the two sides. -/
theorem words_append_cons {c : Char} (hc : isBlank c) (s t : Text) :
    words (s ++ c :: t) = words s ++ words t := by
  simp [words, pieces_append_cons hc]

/-- Lines on the two sides of a line end are the lines of the two sides. -/
theorem statements_append_cons {c : Char} (hc : isLineEnd c) (s t : Text) :
    statements (s ++ c :: t) = statements s ++ statements t := by
  simp [statements, pieces_append_cons hc]

end Text

end GemScribe
