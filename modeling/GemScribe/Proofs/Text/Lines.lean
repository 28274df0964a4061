import GemScribe.Proofs.Text.Parts
import Mathlib.Data.List.DropRight

/-!
The lines that a text is read as.

A line is *clean* when reading leaves it as it is: it is not empty, has no blanks around it and no line
end in it. Every line that is read is clean, and clean lines that are written one after another are read
again as they were written.
-/

namespace GemScribe.Text

/-- A line that is read as it stands. -/
structure Clean (l : Text) : Prop where
  nonempty : l ≠ []
  trimmed : strip l = l
  unbroken : ∀ c ∈ l, isLineEnd c = false

/-! ### Trimming -/

section Trim

variable {drops : Char → Bool} {t : Text}

theorem trim_eq_rdropWhile (drops : Char → Bool) (t : Text) :
    trim drops t = (t.dropWhile drops).rdropWhile drops :=
  rfl

theorem mem_of_mem_trim {c : Char} (h : c ∈ trim drops t) : c ∈ t := by
  rw [trim_eq_rdropWhile] at h
  exact (List.dropWhile_sublist drops).subset ((List.rdropWhile_prefix drops _).subset h)

theorem dropWhile_of_forall_not (h : ∀ c ∈ t, drops c = false) : t.dropWhile drops = t := by
  cases t with
  | nil => rfl
  | cons c t => simp [h c]

theorem trim_of_forall_not (h : ∀ c ∈ t, drops c = false) : trim drops t = t := by
  rw [trim_eq_rdropWhile, dropWhile_of_forall_not h, List.rdropWhile_eq_self_iff]
  intro hne
  simp [h _ (List.getLast_mem hne)]

/-- What surrounds a text is trimmed away, and nothing of the text. -/
theorem trim_surrounded {before after : Text} (hbefore : ∀ c ∈ before, drops c) (hafter : ∀ c ∈ after, drops c)
    (h : ∀ c ∈ t, drops c = false) : trim drops (before ++ (t ++ after)) = t := by
  have hback : ∀ c ∈ after.reverse, drops c := fun c hc => hafter c (List.mem_reverse.mp hc)
  rw [trim, List.dropWhile_append_of_pos hbefore]
  cases t with
  | nil =>
    rw [List.nil_append, List.dropWhile_eq_nil_iff.mpr hafter]
    rfl
  | cons c t =>
    have hc : ¬drops c := by simp [h c]
    rw [List.cons_append, List.dropWhile_cons_of_neg hc, ← List.cons_append, List.reverse_append,
      List.dropWhile_append_of_pos hback, dropWhile_of_forall_not fun d hd => h d (List.mem_reverse.mp hd),
      List.reverse_reverse]

/-- A text is what is left when it has been filled up and is trimmed. -/
theorem trim_append_replicate {c : Char} (hc : drops c) (h : ∀ d ∈ t, drops d = false) (n : Nat) :
    trim drops (t ++ List.replicate n c) = t := by
  have hfill : ∀ d ∈ List.replicate n c, drops d := by
    intro d hd
    rw [List.eq_of_mem_replicate hd]
    exact hc
  have hnone : ∀ d ∈ ([] : Text), drops d := fun _ hd => absurd hd List.not_mem_nil
  exact trim_surrounded hnone hfill h

/-- A text is not trimmed where neither of its ends is to be dropped. -/
theorem trim_of_ends (hfirst : ∀ c, t.head? = some c → drops c = false)
    (hlast : ∀ c, t.getLast? = some c → drops c = false) : trim drops t = t := by
  have hfront : t.dropWhile drops = t := by
    cases t with
    | nil => rfl
    | cons c t => exact List.dropWhile_cons_of_neg (by simp [hfirst c rfl])
  rw [trim_eq_rdropWhile, hfront, List.rdropWhile_eq_self_iff]
  intro hne
  simp [hlast _ (List.getLast?_eq_getLast_of_ne_nil hne)]

/-- A text without the given characters in front keeps its front when they are taken off its end. -/
theorem dropWhile_rdropWhile (h : t.dropWhile drops = t) :
    (t.rdropWhile drops).dropWhile drops = t.rdropWhile drops := by
  have hprefix : t.rdropWhile drops <+: t := List.rdropWhile_prefix drops t
  cases hr : t.rdropWhile drops with
  | nil => rfl
  | cons c rest =>
    rw [hr] at hprefix
    obtain ⟨s, rfl⟩ := hprefix
    by_cases hc : drops c
    · have hlength := (List.dropWhile_sublist drops (l := rest ++ s)).length_le
      rw [List.cons_append, List.dropWhile_cons_of_pos hc] at h
      rw [h, List.length_cons] at hlength
      omega
    · exact List.dropWhile_cons_of_neg hc

theorem trim_trim (drops : Char → Bool) (t : Text) : trim drops (trim drops t) = trim drops t := by
  rw [trim_eq_rdropWhile drops t, trim_eq_rdropWhile,
    dropWhile_rdropWhile (List.dropWhile_idempotent drops t), List.rdropWhile_idempotent]

end Trim

/-! ### Pieces and lines -/

theorem not_of_mem_attach {p : Char → Bool} {c : Char} {ps : List Text} (hc : p c = false)
    (h : ∀ w ∈ ps, ∀ d ∈ w, p d = false) : ∀ w ∈ attach c ps, ∀ d ∈ w, p d = false := by
  cases ps with
  | nil => simpa [attach] using hc
  | cons w ws =>
    simp only [attach, List.forall_mem_cons] at h ⊢
    exact ⟨⟨hc, h.1⟩, h.2⟩

theorem mem_of_mem_attach {c d : Char} {w : Text} : ∀ {ps : List Text}, w ∈ attach c ps → d ∈ w →
    d = c ∨ ∃ v ∈ ps, d ∈ v
  | [], hw, hd => by
      rw [attach, List.mem_singleton] at hw
      subst hw
      exact .inl (List.mem_singleton.mp hd)
  | v :: ps, hw, hd => by
      rw [attach, List.mem_cons] at hw
      rcases hw with rfl | hw
      · exact (List.mem_cons.mp hd).imp_right fun hd => ⟨v, List.mem_cons_self, hd⟩
      · exact .inr ⟨w, List.mem_cons_of_mem v hw, hd⟩

/-- Pieces are made of the characters of the text. -/
theorem mem_of_mem_pieces {p : Char → Bool} {d : Char} {w : Text} : ∀ {t : Text}, w ∈ pieces p t → d ∈ w →
    d ∈ t
  | [], hw, hd => by
      rw [pieces, List.mem_singleton] at hw
      rwa [hw] at hd
  | c :: t, hw, hd => by
      rw [pieces] at hw
      split at hw
      · rcases List.mem_cons.mp hw with rfl | hw
        · cases hd
        · exact List.mem_cons_of_mem c (mem_of_mem_pieces hw hd)
      · rcases mem_of_mem_attach hw hd with rfl | ⟨v, hv, hd⟩
        · exact List.mem_cons_self
        · exact List.mem_cons_of_mem c (mem_of_mem_pieces hv hd)

/-- No piece has a separator in it. -/
theorem not_of_mem_pieces {p : Char → Bool} (t : Text) :
    ∀ w ∈ pieces p t, ∀ c ∈ w, p c = false := by
  induction t with
  | nil => simp [pieces]
  | cons c t ih =>
    rw [pieces]
    split
    · simpa using ih
    · next hc => exact not_of_mem_attach (Bool.not_eq_true _ ▸ hc) ih

theorem clean_of_mem_statements {t l : Text} (h : l ∈ statements t) : Clean l := by
  obtain ⟨hmem, hne⟩ := List.mem_filter.mp h
  obtain ⟨w, hw, rfl⟩ := List.mem_map.mp hmem
  refine ⟨by simpa using hne, trim_trim isBlank w, fun c hc => ?_⟩
  exact not_of_mem_pieces t w hw c (mem_of_mem_trim hc)

theorem statements_of_clean {l : Text} (h : Clean l) : statements l = [l] := by
  have hne : l.isEmpty = false := by simpa using h.nonempty
  simp [statements, pieces_of_forall_not h.unbroken, h.trimmed, hne]

theorem join_cons_cons (c : Char) (l l' : Text) (ls : List Text) :
    join [c] (l :: l' :: ls) = l ++ c :: join [c] (l' :: ls) := by
  rw [join, List.intercalate_cons_cons, List.append_assoc, List.singleton_append, join]

/-- Lines without the separator that joins them are the pieces of the whole. -/
theorem pieces_join {p : Char → Bool} {c : Char} (hc : p c) : ∀ {ls : List Text}, ls ≠ [] →
    (∀ l ∈ ls, ∀ d ∈ l, p d = false) → pieces p (join [c] ls) = ls
  | [], hne, _ => absurd rfl hne
  | [l], _, h => by
      rw [join, List.intercalate_singleton]
      exact pieces_of_forall_not (h l (List.mem_singleton_self l))
  | l :: l' :: ls, _, h => by
      rw [List.forall_mem_cons] at h
      rw [join_cons_cons, pieces_append_cons hc, pieces_of_forall_not h.1,
        pieces_join hc (List.cons_ne_nil l' ls) h.2, List.singleton_append]

/-- Clean lines are read as they were written. -/
theorem statements_join {ls : List Text} (h : ∀ l ∈ ls, Clean l) :
    statements (join ['\n'] ls) = ls := by
  induction ls with
  | nil => rfl
  | cons l ls ih =>
    rw [List.forall_mem_cons] at h
    cases ls with
    | nil =>
      rw [join, List.intercalate_singleton]
      exact statements_of_clean h.1
    | cons l' ls =>
      rw [join_cons_cons, statements_append_cons (by decide), statements_of_clean h.1, ih h.2]
      rfl

/-- A text without blanks is clean. -/
theorem clean_of_forall_not {t : Text} (hne : t ≠ []) (h : ∀ c ∈ t, isBlank c = false) : Clean t where
  nonempty := hne
  trimmed := trim_of_forall_not h
  unbroken c hc := by
    by_contra hend
    rw [Bool.not_eq_false] at hend
    exact absurd (isBlank_of_isLineEnd hend) (by simp [h c hc])

/-! ### Squeezed texts -/

theorem head?_intercalate (separator : Text) {w : Text} (hw : w ≠ []) (ws : List Text) :
    (List.intercalate separator (w :: ws)).head? = w.head? := by
  cases ws with
  | nil => rw [List.intercalate_singleton]
  | cons w' ws =>
    rw [List.intercalate_cons_cons, List.append_assoc, List.head?_append_of_ne_nil _ hw]

theorem getLast?_intercalate (separator : Text) {w : Text} (hw : w ≠ []) (ws : List Text) :
    (List.intercalate separator (ws ++ [w])).getLast? = w.getLast? := by
  cases ws with
  | nil => rw [List.nil_append, List.intercalate_singleton]
  | cons w' ws =>
    rw [intercalate_append separator (List.cons_ne_nil _ _) (List.cons_ne_nil _ _),
      List.intercalate_singleton, List.getLast?_append_of_ne_nil _ hw]

theorem mem_of_mem_intercalate {separator : Text} {c : Char} : ∀ {ws : List Text},
    c ∈ List.intercalate separator ws → c ∈ separator ∨ ∃ w ∈ ws, c ∈ w
  | [], h => by simp at h
  | [w], h => by
      rw [List.intercalate_singleton] at h
      exact .inr ⟨w, List.mem_singleton_self w, h⟩
  | w :: w' :: ws, h => by
      rw [List.intercalate_cons_cons, List.mem_append, List.mem_append] at h
      rcases h with (h | h) | h
      · exact .inr ⟨w, List.mem_cons_self, h⟩
      · exact .inl h
      · rcases mem_of_mem_intercalate h with h | ⟨v, hv, h⟩
        · exact .inl h
        · exact .inr ⟨v, List.mem_cons_of_mem w hv, h⟩

theorem not_of_mem_words {t w : Text} (h : w ∈ words t) : w ≠ [] ∧ ∀ c ∈ w, isBlank c = false := by
  obtain ⟨hmem, hne⟩ := List.mem_filter.mp h
  exact ⟨by simpa using hne, not_of_mem_pieces t w hmem⟩

/-- The only blanks of a squeezed text are spaces. -/
theorem eq_space_of_mem_squeeze {t : Text} {c : Char} (h : c ∈ squeeze t) :
    c = ' ' ∨ isBlank c = false := by
  rcases mem_of_mem_intercalate h with h | ⟨w, hw, h⟩
  · exact .inl (List.mem_singleton.mp h)
  · exact .inr ((not_of_mem_words hw).2 c h)

/-- A squeezed text is made of the characters of the text, and of spaces. -/
theorem mem_of_mem_squeeze {t : Text} {c : Char} (h : c ∈ squeeze t) : c = ' ' ∨ c ∈ t := by
  rcases mem_of_mem_intercalate h with h | ⟨w, hw, h⟩
  · exact .inl (List.mem_singleton.mp h)
  · exact .inr (mem_of_mem_pieces (List.mem_filter.mp hw).1 h)

section Words

variable {ws : List Text} (hws : ∀ w ∈ ws, w ≠ [] ∧ ∀ c ∈ w, isBlank c = false)
include hws

/-- Words with one space between them begin and end with words. -/
theorem not_isBlank_head?_words {c : Char} (h : (List.intercalate [' '] ws).head? = some c) :
    isBlank c = false := by
  cases ws with
  | nil => simp at h
  | cons w ws =>
    obtain ⟨hne, hblank⟩ := hws w List.mem_cons_self
    rw [head?_intercalate _ hne] at h
    exact hblank c (List.mem_of_head? h)

theorem not_isBlank_getLast?_words {c : Char} (h : (List.intercalate [' '] ws).getLast? = some c) :
    isBlank c = false := by
  rcases List.eq_nil_or_concat' ws with rfl | ⟨vs, w, rfl⟩
  · simp at h
  · obtain ⟨hne, hblank⟩ := hws w (by simp)
    rw [getLast?_intercalate _ hne] at h
    exact hblank c (List.mem_of_getLast? h)

end Words

theorem not_isBlank_head?_squeeze {t : Text} {c : Char} (h : (squeeze t).head? = some c) :
    isBlank c = false :=
  not_isBlank_head?_words (fun _ => not_of_mem_words) h

theorem not_isBlank_getLast?_squeeze {t : Text} {c : Char} (h : (squeeze t).getLast? = some c) :
    isBlank c = false :=
  not_isBlank_getLast?_words (fun _ => not_of_mem_words) h

/-- A squeezed text has no blanks around it. -/
theorem strip_squeeze (t : Text) : strip (squeeze t) = squeeze t :=
  trim_of_ends (fun _ => not_isBlank_head?_squeeze) fun _ => not_isBlank_getLast?_squeeze

/-- Words with one space between them have no two spaces in a row. -/
theorem not_contains_words : ∀ {ws : List Text}, (∀ w ∈ ws, w ≠ [] ∧ ∀ c ∈ w, isBlank c = false) →
    contains [' ', ' '] (List.intercalate [' '] ws) = false
  | [], _ => rfl
  | [w], hws => by
      have hspace : ' ' ∉ w := fun h => absurd ((hws w (List.mem_singleton_self w)).2 ' ' h) (by decide)
      rw [List.intercalate_singleton]
      exact contains_eq_false_of_not_mem List.mem_cons_self hspace
  | w :: w' :: ws, hws => by
      rw [List.forall_mem_cons] at hws
      have hspace : ' ' ∉ w := fun h => absurd (hws.1.2 ' ' h) (by decide)
      have hrest := not_contains_words hws.2
      have hhead : ∀ c, (List.intercalate [' '] (w' :: ws)).head? = some c → isBlank c = false :=
        fun _ => not_isBlank_head?_words hws.2
      rw [List.intercalate_cons_cons, List.append_assoc, contains_append_of_not_mem_head _ hspace,
        List.singleton_append, contains, hrest, Bool.or_false]
      generalize List.intercalate [' '] (w' :: ws) = rest at hhead
      -- what follows the space is the beginning of a word
      cases rest with
      | nil => rfl
      | cons c rest =>
        have hc := hhead c rfl
        rw [startsWith, dropStart?, if_pos rfl, ← startsWith]
        refine startsWith_cons_of_ne ?_ [] rest
        rintro rfl
        exact absurd hc (by decide)

/-- A squeezed text has no two spaces in a row. -/
theorem not_contains_squeeze (t : Text) : contains [' ', ' '] (squeeze t) = false :=
  not_contains_words fun _ => not_of_mem_words

/-! ### Parts of words -/

/-- A text has no blank, or a first one. -/
theorem blank_cases : ∀ t : Text, (∀ c ∈ t, isBlank c = false) ∨
    ∃ s c u, (∀ d ∈ s, isBlank d = false) ∧ isBlank c ∧ t = s ++ c :: u
  | [] => .inl fun _ h => absurd h List.not_mem_nil
  | c :: t => by
      by_cases hc : isBlank c
      · exact .inr ⟨[], c, t, fun _ h => absurd h List.not_mem_nil, hc, rfl⟩
      · rw [Bool.not_eq_true] at hc
        rcases blank_cases t with h | ⟨s, d, u, hs, hd, rfl⟩
        · exact .inl (List.forall_mem_cons.mpr ⟨hc, h⟩)
        · exact .inr ⟨c :: s, d, u, List.forall_mem_cons.mpr ⟨hc, hs⟩, hd, rfl⟩

section

variable {part : Text} (hne : part ≠ []) (hpart : ∀ c ∈ part, isBlank c = false)
include hne hpart

/-- Where a text is changed word by word, a part without blanks is found in one of the changed words. -/
theorem contains_eq_any_words {f : Text → Text} (hnil : f [] = [])
    (hf : ∀ c, isBlank c → ∀ s t, f (s ++ c :: t) = f s ++ c :: f t) (t : Text) :
    contains part (f t) = (words t).any fun w => contains part (f w) := by
  have hword : ∀ {s : Text}, (∀ c ∈ s, isBlank c = false) →
      contains part (f s) = (words s).any fun w => contains part (f w) := by
    intro s hs
    rcases eq_or_ne s [] with rfl | hs'
    · rw [hnil, contains_nil hne, words_nil, List.any_nil]
    · rw [words_of_forall_not hs' hs, List.any_cons, List.any_nil, Bool.or_false]
  induction hn : t.length using Nat.strongRecOn generalizing t with
  | _ n ih =>
    rcases blank_cases t with ht | ⟨s, c, u, hs, hc, rfl⟩
    · exact hword ht
    · have hmem : c ∉ part := fun hmem => absurd hc (by rw [hpart c hmem]; decide)
      have hu : u.length < n := by
        rw [← hn, List.length_append, List.length_cons]
        omega
      rw [hf c hc, contains_append_cons hmem, hword hs, ih _ hu u rfl, words_append_cons hc,
        List.any_append]

theorem contains_intercalate : ∀ ws : List Text,
    contains part (List.intercalate [' '] ws) = ws.any (contains part)
  | [] => by rw [List.intercalate_nil, contains_nil hne, List.any_nil]
  | [w] => by rw [List.intercalate_singleton, List.any_cons, List.any_nil, Bool.or_false]
  | w :: w' :: ws => by
      have hspace : ' ' ∉ part := fun hmem => absurd (hpart ' ' hmem) (by decide)
      rw [List.intercalate_cons_cons, List.append_assoc, List.singleton_append,
        contains_append_cons hspace, contains_intercalate (w' :: ws)]
      rfl

/-- Squeezing neither takes such a part away nor brings it about. -/
theorem contains_squeeze (t : Text) : contains part (squeeze t) = contains part t := by
  rw [squeeze, contains_intercalate hne hpart]
  exact (contains_eq_any_words hne hpart (f := id) rfl (fun _ _ _ _ => rfl) t).symm

end

end GemScribe.Text
