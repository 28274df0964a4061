import GemScribe.Text.Replace
import Mathlib.Tactic.SplitIfs

/-!
Parts of composed texts.

A character that a part does not have cuts a text in two where that part is concerned: the part is
found, and replaced, on the two sides of it alone. A text without the first character of a part is
passed over. Words behave in the same way at a blank.
-/

namespace GemScribe.Text

/-- A property of all characters of a text is checked one character after another. -/
theorem forall_mem_of_all {P : Char → Prop} [DecidablePred P] {t : Text}
    (h : t.all (fun c => decide (P c)) = true) : ∀ c ∈ t, P c :=
  fun c hc => of_decide_eq_true (List.all_eq_true.mp h c hc)

/-- A run of characters ends at the first one that has not got their property. -/
theorem span_append {p : Char → Bool} {s t : Text} (hs : ∀ c ∈ s, p c)
    (ht : ∀ c, t.head? = some c → p c = false) :
    (s ++ t).takeWhile p = s ∧ (s ++ t).dropWhile p = t := by
  rw [List.takeWhile_append_of_pos hs, List.dropWhile_append_of_pos hs]
  cases t with
  | nil => exact ⟨List.append_nil s, rfl⟩
  | cons c t =>
    have hc : ¬p c := by simp [ht c rfl]
    rw [List.takeWhile_cons_of_neg hc, List.dropWhile_cons_of_neg hc, List.append_nil]
    exact ⟨rfl, rfl⟩

/-! ### Finding -/

/-- A part is not in a text that lacks one of its characters. -/
theorem contains_eq_false_of_not_mem {c : Char} {part t : Text} (hpart : c ∈ part) (ht : c ∉ t) :
    contains part t = false := by
  rw [Bool.eq_false_iff, ne_eq, contains_iff]
  intro h
  exact ht (h.subset hpart)

/-- Where a text has a character at most in front, no part has it behind its own front. -/
theorem contains_eq_false_of_not_mem_tail {c : Char} {part : Text} (hpart : c ∈ part.tail) : ∀ {t : Text},
    c ∉ t.tail → contains part t = false
  | [], _ => contains_eq_false_of_not_mem (List.mem_of_mem_tail hpart) List.not_mem_nil
  | d :: t, ht => by
      have hrest : contains part t = false :=
        contains_eq_false_of_not_mem (List.mem_of_mem_tail hpart) ht
      rw [contains, hrest, Bool.or_false, Bool.eq_false_iff, ne_eq, startsWith_iff]
      rintro ⟨rest, hrest⟩
      cases part with
      | nil => cases hpart
      | cons a part =>
        obtain ⟨-, rfl⟩ := List.cons.inj hrest
        exact ht (List.mem_append_left rest hpart)

theorem dropStart?_append_cons {c : Char} : ∀ {part : Text}, c ∉ part → ∀ (s t : Text),
    dropStart? part (s ++ c :: t) = (dropStart? part s).map (· ++ c :: t)
  | [], _, _, _ => rfl
  | a :: part, h, [], t => by
      have hne : a ≠ c := fun hac => h (hac ▸ List.mem_cons_self)
      rw [List.nil_append, dropStart?, dropStart?, if_neg hne, Option.map_none]
  | a :: part, h, d :: s, t => by
      rw [List.cons_append, dropStart?, dropStart?]
      split_ifs
      · exact dropStart?_append_cons (fun hc => h (List.mem_cons_of_mem a hc)) s t
      · rfl

theorem startsWith_append_cons {c : Char} {part : Text} (h : c ∉ part) (s t : Text) :
    startsWith part (s ++ c :: t) = startsWith part s := by
  rw [startsWith, dropStart?_append_cons h, Option.isSome_map, startsWith]

theorem startsWith_cons_of_ne {a c : Char} (h : a ≠ c) (part t : Text) :
    startsWith (a :: part) (c :: t) = false := by
  rw [startsWith, dropStart?, if_neg h, Option.isSome_none]

/-- A part is not across a character that it does not have. -/
theorem contains_append_cons {c : Char} {part : Text} (h : c ∉ part) : ∀ (s t : Text),
    contains part (s ++ c :: t) = (contains part s || contains part t)
  | [], t => by
      have hstart := startsWith_append_cons h [] t
      rw [List.nil_append] at hstart ⊢
      rw [contains, contains, hstart]
  | d :: s, t => by
      have hstart := startsWith_append_cons h (d :: s) t
      rw [List.cons_append] at hstart ⊢
      rw [contains, hstart, contains_append_cons h s t, contains, Bool.or_assoc]

theorem contains_nil {part : Text} (hne : part ≠ []) : contains part [] = false := by
  rw [Bool.eq_false_iff, ne_eq, contains_iff, List.infix_nil]
  exact hne

theorem contains_cons_of_not_mem {c : Char} {part : Text} (hne : part ≠ []) (h : c ∉ part)
    (t : Text) : contains part (c :: t) = contains part t := by
  have hcons := contains_append_cons h [] t
  rwa [List.nil_append, contains_nil hne, Bool.false_or] at hcons

/-- A text without the first character of a part is passed over. -/
theorem contains_append_of_not_mem_head {a : Char} (part : Text) : ∀ {s : Text}, a ∉ s →
    ∀ (t : Text), contains (a :: part) (s ++ t) = contains (a :: part) t
  | [], _, _ => rfl
  | c :: s, h, t => by
      rw [List.mem_cons, not_or] at h
      rw [List.cons_append, contains, startsWith_cons_of_ne h.1, Bool.false_or]
      exact contains_append_of_not_mem_head part h.2 t

/-- A text without the last character of a part adds nothing at the end. -/
theorem contains_append_of_not_mem_last {b : Char} (part : Text) {s : Text} (h : b ∉ s) (t : Text) :
    contains (part ++ [b]) (t ++ s) = contains (part ++ [b]) t := by
  have hhead := contains_append_of_not_mem_head part.reverse (mt List.mem_reverse.mp h) t.reverse
  rw [Bool.eq_iff_iff, contains_iff, contains_iff] at hhead ⊢
  have hreverse : ∀ u, part ++ [b] <:+: u ↔ b :: part.reverse <:+: u.reverse := by
    intro u
    rw [← List.reverse_infix, List.reverse_append]
    rfl
  rw [hreverse, hreverse, List.reverse_append, hhead]

/-- No occurrence of a part reaches over a text that has a character which the part does not have, nor
into it when the text lacks the first and the last character of the part. -/
theorem contains_append_of_cut {a b c : Char} {middle s : Text} (ha : a ∉ s) (hb : b ∉ s) (hs : c ∈ s)
    (hc : c ∉ a :: (middle ++ [b])) (l r : Text) :
    contains (a :: (middle ++ [b])) (l ++ (s ++ r)) =
      (contains (a :: (middle ++ [b])) l || contains (a :: (middle ++ [b])) r) := by
  obtain ⟨s₁, s₂, rfl⟩ := List.append_of_mem hs
  rw [List.mem_append, not_or] at ha hb
  have hleft : contains (a :: (middle ++ [b])) (l ++ s₁) = contains (a :: (middle ++ [b])) l := by
    rw [← List.cons_append]
    exact contains_append_of_not_mem_last (a :: middle) hb.1 l
  have hright : contains (a :: (middle ++ [b])) (s₂ ++ r) = contains (a :: (middle ++ [b])) r :=
    contains_append_of_not_mem_head _ (fun h => ha.2 (List.mem_cons_of_mem c h)) r
  rw [List.append_assoc, List.cons_append, ← List.append_assoc, contains_append_cons hc, hleft, hright]

/-! ### Replacing -/

theorem replaceAll_of_not_mem {c : Char} {old t : Text} (hold : c ∈ old) (ht : c ∉ t) (new : Text) :
    replaceAll old new t = t :=
  replaceAll_of_not_contains (contains_eq_false_of_not_mem hold ht)

theorem replaceAll_self {old : Text} (h : old ≠ []) (new : Text) : replaceAll old new old = new := by
  have happend : replaceAll old new (old ++ []) = new ++ replaceAll old new [] := replaceAll_append h
  rw [List.append_nil] at happend
  rw [happend, replaceAll, replaceFrom, List.append_nil]

/-- A text without the first character of a part is passed over. -/
theorem replaceAll_append_of_not_mem {a : Char} (old new : Text) : ∀ {s : Text}, a ∉ s →
    ∀ (t : Text), replaceAll (a :: old) new (s ++ t) = s ++ replaceAll (a :: old) new t
  | [], _, _ => rfl
  | c :: s, h, t => by
      rw [List.mem_cons, not_or] at h
      rw [List.cons_append, replaceAll, replaceFrom, startsWith_cons_of_ne h.1]
      exact congrArg (c :: ·) (replaceAll_append_of_not_mem old new h.2 t)

theorem replaceFrom_append_cons {c : Char} {old : Text} (hold : c ∉ old) (hne : old ≠ [])
    (new t : Text) : ∀ {skip : Nat} {s : Text}, skip ≤ s.length →
      replaceFrom old new skip (s ++ c :: t) =
        replaceFrom old new skip s ++ c :: replaceFrom old new 0 t
  | 0, [], _ => by
      have hstart : startsWith old (c :: t) = false := by
        rw [← List.nil_append (c :: t), startsWith_append_cons hold, Bool.eq_false_iff, ne_eq,
          startsWith_iff, List.prefix_nil]
        exact hne
      rw [List.nil_append, replaceFrom, replaceFrom, hstart]
      rfl
  | 0, d :: s, _ => by
      have hstart := startsWith_append_cons hold (d :: s) t
      rw [List.cons_append] at hstart ⊢
      rw [replaceFrom, replaceFrom, hstart]
      split_ifs with h
      · have hlength := (startsWith_iff.mp h).length_le
        rw [List.length_cons] at hlength
        rw [replaceFrom_append_cons hold hne new t (by omega), List.append_assoc]
      · rw [replaceFrom_append_cons hold hne new t (Nat.zero_le _), List.cons_append]
  | skip + 1, [], h => by simp at h
  | skip + 1, d :: s, h => by
      rw [List.cons_append, replaceFrom, replaceFrom]
      exact replaceFrom_append_cons hold hne new t (Nat.le_of_succ_le_succ h)

/-- Replacement on the two sides of a character that the part does not have. -/
theorem replaceAll_append_cons {c : Char} {old : Text} (hold : c ∉ old) (hne : old ≠ [])
    (new s t : Text) :
    replaceAll old new (s ++ c :: t) = replaceAll old new s ++ c :: replaceAll old new t :=
  replaceFrom_append_cons hold hne new t (Nat.zero_le _)

/-- Every occurrence of a single character is taken out. -/
theorem replaceAll_singleton_nil (c : Char) : ∀ (t : Text),
    replaceAll [c] [] t = t.filter (· ≠ c)
  | [] => rfl
  | d :: t => by
      have ih := replaceAll_singleton_nil c t
      rw [replaceAll] at ih
      by_cases h : c = d
      · subst h
        simp [replaceAll, replaceFrom, startsWith, dropStart?, ih]
      · simp [replaceAll, replaceFrom, startsWith, dropStart?, h, Ne.symm h, ih]

theorem filter_ne_of_not_mem {c : Char} {t : Text} (h : c ∉ t) : t.filter (· ≠ c) = t :=
  List.filter_eq_self.mpr fun _ hd => decide_eq_true fun heq => h (heq ▸ hd)

/-- Replacements one after another leave a text that each of them leaves. -/
theorem foldl_eq_self {α : Type} {f : Text → α → Text} {t : Text} : ∀ {as : List α},
    (∀ a ∈ as, f t a = t) → as.foldl f t = t
  | [], _ => rfl
  | a :: as, h => by
      rw [List.forall_mem_cons] at h
      rw [List.foldl_cons, h.1]
      exact foldl_eq_self h.2

/-- Replacement trades the characters of some occurrences of the old part for those of as many new
ones. -/
theorem exists_count_replaceAll {old : Text} (hne : old ≠ []) (new t : Text) :
    ∃ k, (∀ c, (replaceAll old new t).count c + k * old.count c = t.count c + k * new.count c) ∧
      (k = 0 → replaceAll old new t = t) := by
  induction hn : t.length using Nat.strongRecOn generalizing t with
  | _ n ih =>
    cases hstart : startsWith old t with
    | true =>
      obtain ⟨rest, rfl⟩ := startsWith_iff.mp hstart
      have hlength := List.length_pos_iff.mpr hne
      rw [List.length_append] at hn
      obtain ⟨k, hcount, -⟩ := ih rest.length (by omega) rest rfl
      refine ⟨k + 1, fun c => ?_, nofun⟩
      have := hcount c
      rw [replaceAll_append hne, List.count_append, List.count_append, Nat.succ_mul, Nat.succ_mul]
      omega
    | false =>
      cases t with
      | nil => exact ⟨0, fun c => by rw [Nat.zero_mul, Nat.zero_mul]; rfl, fun _ => rfl⟩
      | cons d t =>
        rw [List.length_cons] at hn
        have hcons : replaceAll old new (d :: t) = d :: replaceAll old new t := by
          rw [replaceAll, replaceFrom, hstart]
          rfl
        obtain ⟨k, hcount, hkept⟩ := ih t.length (by omega) t rfl
        refine ⟨k, fun c => ?_, fun hk => by rw [hcons, hkept hk]⟩
        have := hcount c
        rw [hcons, List.count_cons, List.count_cons]
        omega

/-! ### Expanding -/

section Expand

variable {at? : Text → Option (Text × Nat)}

theorem expandFrom_append : ∀ s t : Text, expandFrom at? s.length (s ++ t) = expandAll at? t
  | [], _ => rfl
  | _ :: s, t => expandFrom_append s t

/-- At a match the new text is written and the text after the match is treated alike. -/
theorem expandAll_append_of_match {s new : Text} (hne : s ≠ []) {t : Text}
    (h : at? (s ++ t) = some (new, s.length)) : expandAll at? (s ++ t) = new ++ expandAll at? t := by
  cases s with
  | nil => exact absurd rfl hne
  | cons c s =>
    rw [List.cons_append] at h ⊢
    rw [expandAll, expandFrom, h]
    exact congrArg (new ++ ·) (expandFrom_append s t)

theorem expandAll_cons_of_none {c : Char} {t : Text} (h : at? (c :: t) = none) :
    expandAll at? (c :: t) = c :: expandAll at? t := by
  rw [expandAll, expandFrom, h]
  rfl

/-- A text at none of whose characters a match begins is passed over. -/
theorem expandAll_append_of_none : ∀ {s : Text}, (∀ c ∈ s, ∀ u, at? (c :: u) = none) → ∀ t : Text,
    expandAll at? (s ++ t) = s ++ expandAll at? t
  | [], _, _ => rfl
  | c :: s, h, t => by
      rw [List.forall_mem_cons] at h
      rw [List.cons_append, expandAll_cons_of_none (h.1 _), expandAll_append_of_none h.2 t,
        List.cons_append]

end Expand

/-! ### Erasing -/

theorem eraseFirst_of_not_contains {part : Text} : ∀ {t : Text}, contains part t = false →
    eraseFirst part t = t
  | [], _ => rfl
  | c :: t, h => by
      rw [contains, Bool.or_eq_false_iff, startsWith, Option.isSome_eq_false_iff,
        Option.isNone_iff_eq_none] at h
      rw [eraseFirst, h.1]
      exact congrArg (c :: ·) (eraseFirst_of_not_contains h.2)

/-- A part that is in a text is taken out of it once. -/
theorem exists_eraseFirst {part : Text} : ∀ {t : Text}, contains part t →
    ∃ before rest, t = before ++ (part ++ rest) ∧ eraseFirst part t = before ++ rest
  | [], h => by
      rw [contains, startsWith_iff, List.prefix_nil] at h
      exact ⟨[], [], by rw [h]; rfl, rfl⟩
  | c :: t, h => by
      rw [eraseFirst]
      cases hstart : dropStart? part (c :: t) with
      | some rest =>
        have ht := dropStart?_eq_some_iff.mp hstart
        exact ⟨[], rest, ht, rfl⟩
      | none =>
        rw [contains, startsWith, hstart, Option.isSome_none, Bool.false_or] at h
        obtain ⟨before, rest, ht, herased⟩ := exists_eraseFirst h
        exact ⟨c :: before, rest, congrArg (c :: ·) ht, congrArg (c :: ·) herased⟩

/-- A part is taken out on the left of a character that it does not have, when it is there. -/
theorem eraseFirst_append_cons_of_contains {c : Char} {part : Text} (hc : c ∉ part) :
    ∀ {s : Text}, contains part s → ∀ (t : Text),
      eraseFirst part (s ++ c :: t) = eraseFirst part s ++ c :: t
  | [], h, t => by
      rw [contains, startsWith_iff, List.prefix_nil] at h
      rw [h]
      rfl
  | d :: s, h, t => by
      have hdrop := dropStart?_append_cons hc (d :: s) t
      rw [List.cons_append] at hdrop ⊢
      rw [contains, startsWith] at h
      rw [eraseFirst, hdrop, eraseFirst]
      cases hstart : dropStart? part (d :: s) with
      | some rest => rfl
      | none =>
        rw [hstart, Option.isSome_none, Bool.false_or] at h
        exact congrArg (d :: ·) (eraseFirst_append_cons_of_contains hc h t)

/-- A part is taken out on the right of a character that it does not have, when it is not on the
left. -/
theorem eraseFirst_append_cons_of_not_contains {c : Char} {part : Text} (hc : c ∉ part)
    (hne : part ≠ []) : ∀ {s : Text}, contains part s = false → ∀ (t : Text),
      eraseFirst part (s ++ c :: t) = s ++ c :: eraseFirst part t
  | [], _, t => by
      obtain ⟨a, part, rfl⟩ := List.exists_cons_of_ne_nil hne
      rw [List.nil_append, eraseFirst, dropStart?, if_neg (List.ne_of_not_mem_cons hc).symm,
        List.nil_append]
  | d :: s, h, t => by
      rw [contains, Bool.or_eq_false_iff, startsWith, Option.isSome_eq_false_iff,
        Option.isNone_iff_eq_none] at h
      have hdrop := dropStart?_append_cons hc (d :: s) t
      rw [List.cons_append] at hdrop ⊢
      rw [eraseFirst, hdrop, h.1]
      exact congrArg (d :: ·) (eraseFirst_append_cons_of_not_contains hc hne h.2 t)

theorem eraseFirst_append {a : Char} (part t : Text) :
    eraseFirst (a :: part) (a :: part ++ t) = t := by
  have h := dropStart?_append (a :: part) t
  rw [List.cons_append] at h ⊢
  rw [eraseFirst, h]

/-! ### Words -/

theorem words_nil : words [] = [] :=
  rfl

/-- A text without blanks is one word. -/
theorem words_of_forall_not {t : Text} (hne : t ≠ []) (h : ∀ c ∈ t, isBlank c = false) :
    words t = [t] := by
  rw [words, pieces_of_forall_not h]
  cases t with
  | nil => exact absurd rfl hne
  | cons c t => rfl

theorem words_cons_of_blank {c : Char} (hc : isBlank c) (t : Text) : words (c :: t) = words t :=
  words_append_cons hc [] t

theorem intercalate_append (separator : Text) {ws : List Text} : ∀ {vs : List Text}, vs ≠ [] →
    ws ≠ [] → List.intercalate separator (vs ++ ws) =
      List.intercalate separator vs ++ separator ++ List.intercalate separator ws
  | [], h, _ => absurd rfl h
  | [v], _, hws => by
      rw [List.singleton_append, List.intercalate_cons_of_ne_nil hws, List.intercalate_singleton]
  | v :: v' :: vs, _, hws => by
      have ih := intercalate_append separator (List.cons_ne_nil v' vs) hws
      rw [List.cons_append, List.intercalate_cons_of_ne_nil (by simp), ih,
        List.intercalate_cons_of_ne_nil (List.cons_ne_nil v' vs)]
      simp only [List.append_assoc]

/-- Squeezing goes on behind a blank between words. -/
theorem squeeze_append_cons {c : Char} (hc : isBlank c) {s t : Text} (hs : words s ≠ [])
    (ht : words t ≠ []) : squeeze (s ++ c :: t) = squeeze s ++ ' ' :: squeeze t := by
  rw [squeeze, words_append_cons hc, intercalate_append [' '] hs ht, List.append_assoc,
    List.singleton_append]
  rfl

/-- One word is left as it is. -/
theorem squeeze_of_forall_not {t : Text} (hne : t ≠ []) (h : ∀ c ∈ t, isBlank c = false) :
    squeeze t = t := by
  rw [squeeze, words_of_forall_not hne h, List.intercalate_singleton]

/-- A text that is not empty when it is squeezed has a word. -/
theorem words_ne_nil {t : Text} (h : squeeze t ≠ []) : words t ≠ [] := by
  intro hwords
  rw [squeeze, hwords] at h
  exact h rfl

end GemScribe.Text
