import GemScribe.Proofs.Number.Numeral
import GemScribe.Proofs.Text.Parts
import GemScribe.Stat.Template

/-!
Templates as tokens.

A template is spelled out of characters and slots. When its characters are no braces, replacing the
placeholder of a number in the text fills the slots of that number, and a search or a replacement of
anything else without braces leaves the slots as they are. So a text that is filled step by step has
its tokens beside it all the way.
-/

namespace GemScribe.Template

/-! ### Tokens -/

/-- A character of a template, or the place of a value. -/
inductive Token where
  | char (c : Char)
  | slot (i : Nat)
  deriving DecidableEq

def Token.text : Token → Text
  | .char c => [c]
  | .slot i => placeholder i

/-- The text of tokens. -/
def spell (ts : List Token) : Text :=
  ts.flatMap Token.text

def literal (t : Text) : List Token :=
  t.map .char

/-- The characters among tokens. -/
def chars (ts : List Token) : Text :=
  ts.filterMap fun | .char c => some c | .slot _ => none

/-- The numbers of the slots among tokens. -/
def slots (ts : List Token) : List Nat :=
  ts.filterMap fun | .char _ => none | .slot i => some i

def Token.filled (f : Nat → Option Text) : Token → List Token
  | .char c => [.char c]
  | .slot i => match f i with
    | some t => literal t
    | none => [.slot i]

/-- The tokens with a text in every slot for which there is one. -/
def fill (f : Nat → Option Text) (ts : List Token) : List Token :=
  ts.flatMap (Token.filled f)

/-- A text for the slots of one number. -/
def only (i : Nat) (t : Text) : Nat → Option Text :=
  fun j => if j = i then some t else none

/-- No character is a brace. -/
def Braceless (ts : List Token) : Prop :=
  ∀ c ∈ chars ts, c ∉ "\x7b\x7d".toList

variable {ts us : List Token} {t : Text} {f g : Nat → Option Text} {c : Char} {i : Nat}

@[simp] theorem spell_nil : spell [] = [] := rfl

@[simp] theorem spell_char : spell (.char c :: ts) = c :: spell ts := rfl

@[simp] theorem spell_slot : spell (.slot i :: ts) = placeholder i ++ spell ts := rfl

@[simp] theorem spell_append : spell (ts ++ us) = spell ts ++ spell us :=
  List.flatMap_append

@[simp] theorem spell_literal : spell (literal t) = t := by
  induction t with
  | nil => rfl
  | cons c t ih => exact congrArg (c :: ·) ih

@[simp] theorem literal_append {s : Text} : literal (s ++ t) = literal s ++ literal t :=
  List.map_append

@[simp] theorem chars_nil : chars [] = [] := rfl

@[simp] theorem chars_char : chars (.char c :: ts) = c :: chars ts := rfl

@[simp] theorem chars_slot : chars (.slot i :: ts) = chars ts := rfl

@[simp] theorem chars_append : chars (ts ++ us) = chars ts ++ chars us :=
  List.filterMap_append

@[simp] theorem chars_literal : chars (literal t) = t := by
  induction t with
  | nil => rfl
  | cons c t ih => exact congrArg (c :: ·) ih

@[simp] theorem slots_nil : slots [] = [] := rfl

@[simp] theorem slots_char : slots (.char c :: ts) = slots ts := rfl

@[simp] theorem slots_slot : slots (.slot i :: ts) = i :: slots ts := rfl

@[simp] theorem slots_append : slots (ts ++ us) = slots ts ++ slots us :=
  List.filterMap_append

@[simp] theorem slots_literal : slots (literal t) = [] := by
  induction t with
  | nil => rfl
  | cons c t ih => exact ih

@[simp] theorem fill_char : fill f (.char c :: ts) = .char c :: fill f ts := rfl

theorem fill_slot_of_some (h : f i = some t) : fill f (.slot i :: ts) = literal t ++ fill f ts := by
  rw [fill, List.flatMap_cons, Token.filled, h, fill]

theorem fill_slot_of_none (h : f i = none) : fill f (.slot i :: ts) = .slot i :: fill f ts := by
  rw [fill, List.flatMap_cons, Token.filled, h, fill]
  rfl

@[simp] theorem fill_append : fill f (ts ++ us) = fill f ts ++ fill f us :=
  List.flatMap_append

@[simp] theorem fill_literal : fill f (literal t) = literal t := by
  induction t with
  | nil => rfl
  | cons c t ih => exact congrArg (.char c :: ·) ih

/-- Slots that are filled one after another could have been filled at once. -/
theorem fill_fill : fill g (fill f ts) = fill (fun i => (f i).or (g i)) ts := by
  induction ts with
  | nil => rfl
  | cons tok ts ih =>
    cases tok with
    | char c => rw [fill_char, fill_char, fill_char, ih]
    | slot i =>
      cases hf : f i with
      | some t =>
        have hor : (f i).or (g i) = some t := by simp [hf]
        rw [fill_slot_of_some hf, fill_append, fill_literal, ih, fill_slot_of_some hor]
      | none =>
        have hor : (f i).or (g i) = g i := by simp [hf]
        rw [fill_slot_of_none hf]
        cases hg : g i with
        | some t => rw [fill_slot_of_some hg, ih, fill_slot_of_some (hor.trans hg)]
        | none => rw [fill_slot_of_none hg, ih, fill_slot_of_none (hor.trans hg)]

/-- The next text goes into the slots of the next number. -/
theorem fill_only_length (texts : List Text) (t : Text) :
    fill (only texts.length t) (fill (texts[·]?) ts) = fill ((texts ++ [t])[·]?) ts := by
  rw [fill_fill]
  congr 1
  funext i
  rcases lt_trichotomy i texts.length with h | rfl | h
  · simp [List.getElem?_append_left h, h]
  · simp [only]
  · simp [only, h.le, h.ne', List.getElem?_append_right h.le]
    omega

theorem fill_eq_self (h : ∀ i, f i = none) : fill f ts = ts := by
  induction ts with
  | nil => rfl
  | cons tok ts ih =>
    cases tok with
    | char c => rw [fill_char, ih]
    | slot i => rw [fill_slot_of_none (h i), ih]

theorem slots_fill : slots (fill f ts) = (slots ts).filter fun i => (f i).isNone := by
  induction ts with
  | nil => rfl
  | cons tok ts ih =>
    cases tok with
    | char c => exact ih
    | slot i =>
      rw [slots_slot]
      cases hf : f i with
      | some t => simp [fill_slot_of_some hf, hf, ih]
      | none => simp [fill_slot_of_none hf, hf, ih]

/-- Filling adds to the characters what it puts into the slots. -/
theorem count_chars_fill (c : Char) : (chars (fill f ts)).count c =
    (chars ts).count c + ((slots ts).map fun i => ((f i).getD []).count c).sum := by
  induction ts with
  | nil => rfl
  | cons tok ts ih =>
    cases tok with
    | char d =>
      simp only [fill_char, chars_char, slots_char, List.count_cons, ih]
      omega
    | slot i =>
      cases hf : f i with
      | some t =>
        simp [fill_slot_of_some hf, hf, ih]
        omega
      | none => simp [fill_slot_of_none hf, hf, ih]

theorem count_spell (c : Char) : (spell ts).count c =
    (chars ts).count c + ((slots ts).map fun i => (placeholder i).count c).sum := by
  induction ts with
  | nil => rfl
  | cons tok ts ih =>
    cases tok with
    | char d =>
      simp only [spell_char, chars_char, slots_char, List.count_cons, ih]
      omega
    | slot i =>
      simp [ih]
      omega

theorem Braceless.append (ht : Braceless ts) (hu : Braceless us) : Braceless (ts ++ us) := by
  intro c hc
  rcases List.mem_append.mp (chars_append ▸ hc) with hc | hc
  · exact ht c hc
  · exact hu c hc

theorem braceless_literal (h : ∀ c ∈ t, c ∉ "\x7b\x7d".toList) : Braceless (literal t) := by
  rwa [Braceless, chars_literal]

theorem Braceless.fill (h : Braceless ts)
    (hf : ∀ i t, f i = some t → ∀ c ∈ t, c ∉ "\x7b\x7d".toList) : Braceless (fill f ts) := by
  induction ts with
  | nil => exact h
  | cons tok ts ih =>
    cases tok with
    | char c =>
      rw [Braceless, chars_char, List.forall_mem_cons] at h
      rw [fill_char, Braceless, chars_char, List.forall_mem_cons]
      exact ⟨h.1, ih h.2⟩
    | slot i =>
      cases hi : f i with
      | some t =>
        rw [fill_slot_of_some hi]
        exact (braceless_literal (hf i t hi)).append (ih h)
      | none =>
        rw [fill_slot_of_none hi]
        exact ih h

/-! ### Placeholders -/

theorem mem_placeholder (h : c ∈ placeholder i) : c ∈ "\x7b\x7d0123456789".toList := by
  have hdigits : ∀ c ∈ "0123456789".toList, c ∈ "\x7b\x7d0123456789".toList :=
    Text.forall_mem_of_all (by decide)
  rw [placeholder, List.cons_append, List.mem_cons, List.mem_append, List.mem_singleton] at h
  rcases h with rfl | h | rfl
  · decide
  · exact hdigits c (mem_digits_of_mem_natText h)
  · decide

theorem startsWith_placeholder_append {i j : Nat} (h : j ≠ i) (r : Text) :
    Text.startsWith (placeholder i) (placeholder j ++ r) = false := by
  rw [Bool.eq_false_iff, ne_eq, Text.startsWith_iff]
  rintro ⟨s, hs⟩
  rw [placeholder, placeholder, List.cons_append, List.cons_append, List.cons_append,
    List.cons_append, List.append_assoc, List.append_assoc] at hs
  have hinj := natText_append_cons_inj (by decide) (by decide) (List.cons.inj hs).2
  exact h hinj.1.symm

theorem startsWith_signedPlaceholder_append (i j : Nat) (r : Text) :
    Text.startsWith (signedPlaceholder i) (placeholder j ++ r) = false := by
  rw [Bool.eq_false_iff, ne_eq, Text.startsWith_iff]
  rintro ⟨s, hs⟩
  rw [signedPlaceholder, placeholder, List.cons_append, List.cons_append, List.cons_append,
    List.cons_append, List.append_assoc, List.append_assoc] at hs
  have hinj := natText_append_cons_inj (c := ':') (by decide) (by decide) (List.cons.inj hs).2
  exact absurd hinj.2 (by decide)

variable {old new : Text}

/-- What begins with a brace is not found at another character. -/
theorem replaceAll_char (hopen : ∃ rest, old = '\x7b' :: rest) (hc : c ∉ "\x7b\x7d".toList) (t : Text) :
    Text.replaceAll old new (c :: t) = c :: Text.replaceAll old new t := by
  obtain ⟨rest, rfl⟩ := hopen
  have hne : '\x7b' ∉ [c] := by
    rw [List.mem_singleton]
    rintro rfl
    exact hc (by decide)
  exact Text.replaceAll_append_of_not_mem rest new hne t

/-- What begins with a brace, and not with this placeholder, is not found in it. -/
theorem replaceAll_placeholder_append (hopen : ∃ rest, old = '\x7b' :: rest)
    (hstart : ∀ r, Text.startsWith old (placeholder i ++ r) = false) (t : Text) :
    Text.replaceAll old new (placeholder i ++ t) = placeholder i ++ Text.replaceAll old new t := by
  obtain ⟨rest, rfl⟩ := hopen
  have hdigits : '\x7b' ∉ "0123456789".toList := by decide
  have hbrace : '\x7b' ∉ natText i ++ ['\x7d'] := by
    rw [List.mem_append, not_or]
    exact ⟨fun hmem => hdigits (mem_digits_of_mem_natText hmem), by decide⟩
  have hstart := hstart t
  rw [placeholder, List.cons_append, List.cons_append] at hstart ⊢
  rw [Text.replaceAll, Text.replaceFrom, hstart]
  exact congrArg ('\x7b' :: ·) (Text.replaceAll_append_of_not_mem rest new hbrace t)

/-- Replacing a placeholder fills its slots. -/
theorem replaceAll_placeholder_spell (h : Braceless ts) (i : Nat) (t : Text) :
    Text.replaceAll (placeholder i) t (spell ts) = spell (fill (only i t) ts) := by
  have hopen : ∃ rest, placeholder i = '\x7b' :: rest := ⟨_, rfl⟩
  induction ts with
  | nil => rfl
  | cons tok ts ih =>
    cases tok with
    | char c =>
      rw [Braceless, chars_char, List.forall_mem_cons] at h
      rw [spell_char, replaceAll_char hopen h.1, ih h.2, fill_char, spell_char]
    | slot j =>
      rw [spell_slot]
      by_cases hij : j = i
      · have hne : placeholder i ≠ [] := List.cons_ne_nil _ _
        rw [hij, Text.replaceAll_append hne, ih h, fill_slot_of_some (if_pos rfl), spell_append,
          spell_literal]
      · rw [replaceAll_placeholder_append hopen (startsWith_placeholder_append hij), ih h,
          fill_slot_of_none (if_neg hij), spell_slot]

/-- A placeholder for a value with its sign is none of the slots. -/
theorem replaceAll_signedPlaceholder_spell (h : Braceless ts) (i : Nat) (t : Text) :
    Text.replaceAll (signedPlaceholder i) t (spell ts) = spell ts := by
  have hopen : ∃ rest, signedPlaceholder i = '\x7b' :: rest := ⟨_, rfl⟩
  induction ts with
  | nil => rfl
  | cons tok ts ih =>
    cases tok with
    | char c =>
      rw [Braceless, chars_char, List.forall_mem_cons] at h
      rw [spell_char, replaceAll_char hopen h.1, ih h.2]
    | slot j =>
      rw [spell_slot, replaceAll_placeholder_append hopen (startsWith_signedPlaceholder_append i j),
        ih h]

end GemScribe.Template
