import GemScribe.Proofs.Stat.Token

/-!
Texts that have lost characters.

Settling the wording for added cast time replaces a link, or erases digits, in a text that may still have
slots. Its tokens keep the slots and trade characters for others. They are lighter afterwards, by their
capitals first and then by their ones, and what is filled in later weighs the same in both. So a text
that has once become lighter never becomes the same again.
-/

namespace GemScribe.Template

variable {ts us vs : List Token} {t part old new : Text} {k : Nat}

/-! ### Weight -/

/-- The same slots, and fewer capitals, or as many capitals and fewer ones. -/
def Lighter (us ts : List Token) : Prop :=
  slots us = slots ts ∧ ((chars us).count 'A' < (chars ts).count 'A' ∨
    (chars us).count 'A' = (chars ts).count 'A' ∧ (chars us).count '1' < (chars ts).count '1')

theorem Lighter.trans (h : Lighter us ts) (h' : Lighter ts vs) : Lighter us vs := by
  obtain ⟨hslots, h⟩ := h
  obtain ⟨hslots', h'⟩ := h'
  exact ⟨hslots.trans hslots', by omega⟩

/-- Filling keeps the balance. -/
theorem Lighter.fill (h : Lighter us ts) (f : Nat → Option Text) : Lighter (fill f us) (fill f ts) := by
  obtain ⟨hslots, h⟩ := h
  refine ⟨by rw [slots_fill, slots_fill, hslots], ?_⟩
  simp only [count_chars_fill, hslots]
  omega

theorem Lighter.spell_ne (h : Lighter us ts) : spell us ≠ spell ts := by
  intro heq
  obtain ⟨hslots, h⟩ := h
  have hcount : ∀ c, (chars us).count c = (chars ts).count c := by
    intro c
    have hspell := congrArg (List.count c) heq
    rw [count_spell, count_spell, hslots] at hspell
    omega
  have := hcount 'A'
  have := hcount '1'
  omega

/-! ### Trading characters -/

/-- The same slots, and the characters of `old` traded `k` times for those of `new`. -/
structure Traded (old new : Text) (k : Nat) (us ts : List Token) : Prop where
  slots : slots us = slots ts
  count : ∀ c, (chars us).count c + k * old.count c = (chars ts).count c + k * new.count c

theorem Traded.refl (old new : Text) (ts : List Token) : Traded old new 0 ts ts :=
  ⟨rfl, fun c => by rw [Nat.zero_mul, Nat.zero_mul]⟩

theorem Traded.append {us' ts' : List Token} {k' : Nat} (h : Traded old new k us ts)
    (h' : Traded old new k' us' ts') : Traded old new (k + k') (us ++ us') (ts ++ ts') := by
  refine ⟨by rw [slots_append, slots_append, h.slots, h'.slots], fun c => ?_⟩
  have := h.count c
  have := h'.count c
  simp only [chars_append, List.count_append, Nat.add_mul]
  omega

theorem Traded.append_left (h : Traded old new k us ts) (vs : List Token) :
    Traded old new k (vs ++ us) (vs ++ ts) := by
  have happend := (Traded.refl old new vs).append h
  rwa [Nat.zero_add] at happend

theorem Traded.braceless (h : Traded old new k us ts) (hnew : ∀ c ∈ new, c ∉ "\x7b\x7d".toList)
    (hts : Braceless ts) : Braceless us := by
  intro c hc hbrace
  have hus : 0 < (chars us).count c := List.count_pos_iff.mpr hc
  have hzero : (chars ts).count c = 0 := List.count_eq_zero.mpr fun hmem => hts c hmem hbrace
  have hcount := h.count c
  rw [hzero, List.count_eq_zero.mpr fun hmem => hnew c hmem hbrace] at hcount
  omega

theorem Traded.lighter (h : Traded old new k us ts) (hk : 0 < k)
    (hless : new.count 'A' < old.count 'A' ∨
      new.count 'A' = old.count 'A' ∧ new.count '1' < old.count '1') : Lighter us ts := by
  refine ⟨h.slots, ?_⟩
  have hcapital := h.count 'A'
  have hone := h.count '1'
  rcases hless with hless | ⟨hsame, hless⟩
  · have := Nat.mul_lt_mul_of_pos_left hless hk
    omega
  · have := Nat.mul_lt_mul_of_pos_left hless hk
    rw [hsame] at hcapital
    omega

/-! ### Parts without braces -/

theorem spell_literal_append (l : Text) (ts : List Token) : spell (literal l ++ ts) = l ++ spell ts := by
  rw [spell_append, spell_literal]

theorem literal_append_char (l : Text) (c : Char) (ts : List Token) :
    literal l ++ .char c :: ts = literal (l ++ [c]) ++ ts := by
  rw [literal_append, List.append_assoc]
  rfl

theorem append_placeholder_append (l : Text) (i : Nat) (r : Text) :
    l ++ (placeholder i ++ r) = l ++ '\x7b' :: (natText i ++ '\x7d' :: r) := by
  rw [placeholder, List.cons_append, List.cons_append, List.append_assoc]
  rfl

/-- Erasing a part that is not in the number of a slot takes its characters away. -/
theorem exists_eraseFirst_spell (hpart : ∀ c ∈ part, c ∉ "\x7b\x7d".toList) (hne : part ≠ []) :
    ∀ {ts : List Token}, (∀ i ∈ slots ts, Text.contains part (natText i) = false) → ∀ {l : Text},
      Text.contains part (l ++ spell ts) → ∃ us, Text.eraseFirst part (l ++ spell ts) = spell us ∧
        Traded part [] 1 us (literal l ++ ts) := by
  have hopen : '\x7b' ∉ part := fun hmem => hpart _ hmem (by decide)
  have hclose : '\x7d' ∉ part := fun hmem => hpart _ hmem (by decide)
  have hrun : ∀ {l : Text}, Text.contains part l →
      Traded part [] 1 (literal (Text.eraseFirst part l)) (literal l) := by
    intro l h
    obtain ⟨before, rest, hl, herased⟩ := Text.exists_eraseFirst h
    refine ⟨by rw [slots_literal, slots_literal], fun c => ?_⟩
    rw [herased, hl]
    simp only [chars_literal, List.count_append, List.count_nil]
    omega
  intro ts
  -- `l` holds the characters since the last slot
  induction ts with
  | nil =>
    intro _ l h
    rw [spell_nil, List.append_nil] at h ⊢
    rw [List.append_nil]
    exact ⟨_, spell_literal.symm, hrun h⟩
  | cons tok ts ih =>
    intro hslots l h
    cases tok with
    | char c =>
      rw [spell_char, List.append_cons] at h ⊢
      rw [literal_append_char]
      exact ih hslots h
    | slot i =>
      rw [slots_slot, List.forall_mem_cons] at hslots
      rw [spell_slot, append_placeholder_append] at h ⊢
      cases hfound : Text.contains part l with
      | true =>
        refine ⟨literal (Text.eraseFirst part l) ++ .slot i :: ts, ?_, (hrun hfound).append (.refl ..)⟩
        rw [Text.eraseFirst_append_cons_of_contains hopen hfound, spell_literal_append, spell_slot,
          append_placeholder_append]
      | false =>
        rw [Text.contains_append_cons hopen, Text.contains_append_cons hclose, hfound, hslots.1,
          Bool.false_or, Bool.false_or] at h
        obtain ⟨us, hus, htraded⟩ := ih hslots.2 (l := []) h
        refine ⟨literal l ++ .slot i :: us, ?_, ?_⟩
        · rw [Text.eraseFirst_append_cons_of_not_contains hopen hne hfound,
            Text.eraseFirst_append_cons_of_not_contains hclose hne hslots.1, spell_literal_append,
            spell_slot, append_placeholder_append]
          exact congrArg (fun r => l ++ '\x7b' :: (natText i ++ '\x7d' :: r)) hus
        · exact (htraded.append_left [.slot i]).append_left (literal l)

/-- Replacing a part that is not in a number trades its characters. -/
theorem exists_replaceAll_spell (hold : ∀ c ∈ old, c ∉ "\x7b\x7d".toList) (hcapital : 'A' ∈ old)
    (new : Text) : ∀ (ts : List Token) (l : Text), ∃ us k,
      Text.replaceAll old new (l ++ spell ts) = spell us ∧
        Traded old new k us (literal l ++ ts) ∧ (k = 0 → us = literal l ++ ts) := by
  have hopen : '\x7b' ∉ old := fun hmem => hold _ hmem (by decide)
  have hclose : '\x7d' ∉ old := fun hmem => hold _ hmem (by decide)
  have hne : old ≠ [] := List.ne_nil_of_mem hcapital
  have hdigits : 'A' ∉ "0123456789".toList := by decide
  have hrun : ∀ l : Text, ∃ k, Traded old new k (literal (Text.replaceAll old new l)) (literal l) ∧
      (k = 0 → Text.replaceAll old new l = l) := by
    intro l
    obtain ⟨k, hk, hkept⟩ := Text.exists_count_replaceAll hne new l
    exact ⟨k, ⟨by rw [slots_literal, slots_literal], fun c => by simpa only [chars_literal] using hk c⟩,
      hkept⟩
  intro ts
  induction ts with
  | nil =>
    intro l
    obtain ⟨k, htraded, hkept⟩ := hrun l
    rw [spell_nil, List.append_nil, List.append_nil]
    exact ⟨_, k, spell_literal.symm, htraded, fun hk => congrArg literal (hkept hk)⟩
  | cons tok ts ih =>
    intro l
    cases tok with
    | char c =>
      rw [spell_char, List.append_cons, literal_append_char]
      exact ih (l ++ [c])
    | slot i =>
      have hnumber : Text.replaceAll old new (natText i) = natText i :=
        Text.replaceAll_of_not_mem hcapital (fun hmem => hdigits (mem_digits_of_mem_natText hmem)) new
      obtain ⟨k, htraded, hkept⟩ := hrun l
      obtain ⟨us, k', hus, htraded', hkept'⟩ := ih []
      refine ⟨literal (Text.replaceAll old new l) ++ .slot i :: us, k + k', ?_, ?_, fun hk => ?_⟩
      · rw [spell_slot, append_placeholder_append, Text.replaceAll_append_cons hopen hne,
          Text.replaceAll_append_cons hclose hne, hnumber, spell_literal_append, spell_slot,
          append_placeholder_append, ← hus]
        rfl
      · exact htraded.append (htraded'.append_left [.slot i])
      · obtain ⟨hk, hk'⟩ := Nat.add_eq_zero_iff.mp hk
        rw [hkept hk, hkept' hk']
        rfl

/-! ### A digit one at the end -/

/-- The text ends with a digit one, or with one before a line feed. -/
def HasFinalOne (t : Text) : Prop :=
  ['1'] <:+ t ∨ ['1', '\n'] <:+ t

theorem dropFinalOne_of_not (h : ¬HasFinalOne t) : dropFinalOne t = t := by
  rw [dropFinalOne]
  split
  · next rest hrest =>
    refine absurd (.inl ⟨rest.reverse, ?_⟩) h
    rw [← List.reverse_reverse t, hrest, List.reverse_cons]
  · next rest hrest =>
    refine absurd (.inr ⟨rest.reverse, ?_⟩) h
    rw [← List.reverse_reverse t, hrest, List.reverse_cons, List.reverse_cons, List.append_assoc]
    rfl
  · rfl

/-- The last character of a spelled text, when it is no brace, is a token of its own. -/
theorem exists_of_spell_eq_concat {s : Text} {c : Char} (h : spell ts = s ++ [c]) (hc : c ≠ '\x7d') :
    ∃ us, ts = us ++ [.char c] ∧ spell us = s := by
  induction ts using List.reverseRecOn with
  | nil => exact absurd h.symm (List.append_ne_nil_of_right_ne_nil s (List.cons_ne_nil c []))
  | append_singleton us tok _ =>
    rw [spell_append] at h
    cases tok with
    | char d =>
      obtain ⟨hus, hd⟩ := List.append_inj' h rfl
      exact ⟨us, by rw [(List.cons.inj hd).1], hus⟩
    | slot i =>
      rw [spell_slot, spell_nil, List.append_nil, placeholder, ← List.append_assoc] at h
      exact absurd (List.cons.inj (List.append_inj' h rfl).2).1.symm hc

/-- Dropping the digit one at the end takes it away. -/
theorem exists_dropFinalOne_spell (h : HasFinalOne (spell ts)) :
    ∃ us, dropFinalOne (spell ts) = spell us ∧ Traded ['1'] [] 1 us ts := by
  rcases h with ⟨s, h⟩ | ⟨s, h⟩
  · obtain ⟨us, rfl, rfl⟩ := exists_of_spell_eq_concat h.symm (by decide)
    refine ⟨us, by rw [← h, dropFinalOne, List.reverse_append]; exact List.reverse_reverse _, ?_⟩
    have hone : Traded ['1'] [] 1 [] [.char '1'] := ⟨rfl, fun c => by simp⟩
    have htraded := hone.append_left us
    rwa [List.append_nil] at htraded
  · have hfeed : spell ts = (s ++ ['1']) ++ ['\n'] := by rw [← h, List.append_assoc]; rfl
    obtain ⟨us, rfl, hus⟩ := exists_of_spell_eq_concat hfeed (by decide)
    obtain ⟨vs, rfl, rfl⟩ := exists_of_spell_eq_concat hus (by decide)
    refine ⟨vs ++ [.char '\n'], ?_, ?_⟩
    · rw [← h, dropFinalOne, List.reverse_append, spell_append]
      exact (List.reverse_cons).trans (congrArg (· ++ ['\n']) (List.reverse_reverse _))
    · have hone : Traded ['1'] [] 1 [.char '\n'] [.char '1', .char '\n'] :=
        ⟨rfl, fun c => by simp [List.count_cons]⟩
      rw [List.append_assoc]
      exact hone.append_left vs

end GemScribe.Template
