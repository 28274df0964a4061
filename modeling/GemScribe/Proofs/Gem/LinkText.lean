import GemScribe.Gem.Link
import GemScribe.Proofs.Text.Parts

/-!
What game text shows.

Game text is made of runs without brackets, of links that show their target, and of links that show words
of their own. The links with words are expanded in one walk over the text, and the other links in a second
walk over the result. A match begins at an opening bracket, and every such bracket in the text opens a link.
The first walk finds that link whole when it has words, and finds nothing when it has none, since then the
target ends at a closing bracket where a bar is asked for. What takes the place of a link has no brackets, so
that the second walk passes over it like over any run.
-/

namespace GemScribe.Link

/-! ### Parts of game text -/

/-- A part of game text: a run outside of links, a link that shows its target, or one that shows words. -/
inductive Part where
  | run (t : Text)
  | link (target : Text)
  | aliased (target words : Text)

/-- There are no brackets in the text. -/
def Unbracketed (t : Text) : Prop :=
  ∀ c ∈ t, isBracket c = false

/-- The text can be the target of a link. -/
def IsTarget (t : Text) : Prop :=
  Unbracketed t ∧ '|' ∉ t

instance (t : Text) : Decidable (Unbracketed t) :=
  decidable_of_iff (t.all fun c => !isBracket c) (by simp [Unbracketed])

instance (t : Text) : Decidable (IsTarget t) :=
  inferInstanceAs (Decidable (Unbracketed t ∧ '|' ∉ t))

namespace Part

/-- The part as it is written. -/
def text : Part → Text
  | run t => t
  | link target => '[' :: (target ++ [']'])
  | aliased target words => '[' :: (target ++ '|' :: (words ++ [']']))

def shown : Part → Text
  | run t => t
  | link target => target
  | aliased _ words => words

/-- There are no brackets but those of the link, and no bar but the one before its words or in them. -/
def WellFormed : Part → Prop
  | run t => Unbracketed t
  | link target => IsTarget target
  | aliased target words => IsTarget target ∧ Unbracketed words

instance : (p : Part) → Decidable p.WellFormed
  | run t => inferInstanceAs (Decidable (Unbracketed t))
  | link target => inferInstanceAs (Decidable (IsTarget target))
  | aliased target words => inferInstanceAs (Decidable (IsTarget target ∧ Unbracketed words))

/-- What becomes of the part when links with words are expanded. -/
def expanded : Part → Part
  | run t => run t
  | link target => link target
  | aliased _ words => run words

end Part

/-- The text that parts make up. -/
def write (parts : List Part) : Text :=
  parts.flatMap Part.text

variable {p : Part} {parts : List Part} {t target words : Text} {c : Char}

theorem write_append (parts others : List Part) : write (parts ++ others) = write parts ++ write others :=
  List.flatMap_append

/-! ### Matches -/

theorem ne_of_not_isBracket (h : isBracket c = false) : c ≠ '[' := by
  rintro rfl
  exact absurd h (by decide)

theorem aliased?_eq_none (h : c ≠ '[') (t : Text) : aliased? (c :: t) = none := by
  unfold aliased?
  split
  · next heq => exact absurd (List.cons.inj heq).1 h
  · rfl

theorem plain?_eq_none (h : c ≠ '[') (t : Text) : plain? (c :: t) = none := by
  unfold plain?
  split
  · next heq => exact absurd (List.cons.inj heq).1 h
  · rfl

/-- A target ends at a bracket or a bar. -/
theorem span_target (h : IsTarget target) (hc : isBracket c ∨ c = '|') (t : Text) :
    ((target ++ c :: t).takeWhile fun c => !isBracket c && decide (c ≠ '|')) = target ∧
      ((target ++ c :: t).dropWhile fun c => !isBracket c && decide (c ≠ '|')) = c :: t := by
  refine Text.span_append (fun d hd => ?_) fun d hd => ?_
  · rw [h.1 d hd, decide_eq_true (ne_of_mem_of_not_mem hd h.2)]
    rfl
  · obtain rfl := Option.some.inj hd
    rcases hc with hc | rfl
    · rw [hc]
      rfl
    · rfl

/-- Words end at the bracket that closes the link. -/
theorem span_words (h : Unbracketed words) (t : Text) :
    ((words ++ ']' :: t).takeWhile (!isBracket ·)) = words ∧
      ((words ++ ']' :: t).dropWhile (!isBracket ·)) = ']' :: t := by
  refine Text.span_append (fun c hc => by rw [h c hc]; rfl) fun d hd => ?_
  obtain rfl := Option.some.inj hd
  rfl

theorem Part.text_link_append (target t : Text) :
    (Part.link target).text ++ t = '[' :: (target ++ ']' :: t) := by
  rw [Part.text, List.cons_append, List.append_assoc, List.singleton_append]

theorem aliased?_aliased (h : (Part.aliased target words).WellFormed) (t : Text) :
    aliased? ((Part.aliased target words).text ++ t) =
      some (words, (Part.aliased target words).text.length) := by
  obtain ⟨htake, hdrop⟩ := span_target h.1 (.inr rfl) (words ++ ']' :: t)
  obtain ⟨hwords, hclose⟩ := span_words h.2 t
  have htext : (Part.aliased target words).text ++ t = '[' :: (target ++ '|' :: (words ++ ']' :: t)) := by
    simp only [Part.text, List.cons_append, List.append_assoc, List.nil_append]
  have hlength : (Part.aliased target words).text.length = target.length + words.length + 3 := by
    simp only [Part.text, List.length_cons, List.length_append, List.length_nil]
    omega
  rw [htext, hlength, aliased?]
  simp only [htake, hdrop, hwords, hclose]

theorem aliased?_link (h : (Part.link target).WellFormed) (t : Text) :
    aliased? ((Part.link target).text ++ t) = none := by
  have hdrop := (span_target (c := ']') h (.inl rfl) t).2
  rw [Part.text_link_append, aliased?]
  simp only [hdrop]
  rfl

theorem plain?_link (h : (Part.link target).WellFormed) (t : Text) :
    plain? ((Part.link target).text ++ t) = some (target, (Part.link target).text.length) := by
  obtain ⟨htake, hdrop⟩ := span_target (c := ']') h (.inl rfl) t
  have hlength : (Part.link target).text.length = target.length + 2 := by
    simp only [Part.text, List.length_cons, List.length_append, List.length_nil]
  rw [Part.text_link_append, hlength, plain?]
  simp only [htake, hdrop]

/-! ### Walks -/

theorem expandAll_aliased_part (h : p.WellFormed) (t : Text) :
    Text.expandAll aliased? (p.text ++ t) = p.expanded.text ++ Text.expandAll aliased? t := by
  cases p with
  | run s =>
    exact Text.expandAll_append_of_none (fun c hc => aliased?_eq_none (ne_of_not_isBracket (h c hc))) t
  | aliased target words =>
    exact Text.expandAll_append_of_match (List.cons_ne_nil _ _) (aliased?_aliased h t)
  | link target =>
    -- no match begins at the bracket of the link, and there is no other opening bracket in it
    have hopen := aliased?_link h t
    have hrest : ∀ c ∈ target ++ [']'], ∀ u, aliased? (c :: u) = none := by
      rw [List.forall_mem_append, List.forall_mem_singleton]
      exact ⟨fun c hc => aliased?_eq_none (ne_of_not_isBracket (h.1 c hc)),
        aliased?_eq_none (by decide)⟩
    rw [Part.text, List.cons_append] at hopen
    rw [Part.expanded, Part.text, List.cons_append, Text.expandAll_cons_of_none hopen,
      Text.expandAll_append_of_none hrest, List.cons_append]

theorem expandAll_plain_part (h : p.WellFormed) (t : Text) :
    Text.expandAll plain? (p.expanded.text ++ t) = p.shown ++ Text.expandAll plain? t := by
  have hrun : ∀ {s : Text}, Unbracketed s →
      Text.expandAll plain? (s ++ t) = s ++ Text.expandAll plain? t := fun hs =>
    Text.expandAll_append_of_none (fun c hc => plain?_eq_none (ne_of_not_isBracket (hs c hc))) t
  cases p with
  | run s => exact hrun h
  | aliased target words => exact hrun h.2
  | link target => exact Text.expandAll_append_of_match (List.cons_ne_nil _ _) (plain?_link h t)

theorem expandAll_aliased_write : ∀ {parts : List Part}, (∀ p ∈ parts, p.WellFormed) →
    Text.expandAll aliased? (write parts) = write (parts.map Part.expanded)
  | [], _ => rfl
  | p :: parts, h => by
      rw [List.forall_mem_cons] at h
      have ih := expandAll_aliased_write h.2
      rw [write] at ih
      rw [write, List.flatMap_cons, expandAll_aliased_part h.1, ih, List.map_cons, write, write,
        List.flatMap_cons]

theorem expandAll_plain_write : ∀ {parts : List Part}, (∀ p ∈ parts, p.WellFormed) →
    Text.expandAll plain? (write (parts.map Part.expanded)) = parts.flatMap Part.shown
  | [], _ => rfl
  | p :: parts, h => by
      rw [List.forall_mem_cons] at h
      have ih := expandAll_plain_write h.2
      rw [write] at ih
      rw [write, List.map_cons, List.flatMap_cons, expandAll_plain_part h.1, ih, List.flatMap_cons]

theorem Part.WellFormed.unbracketed_shown (h : p.WellFormed) : Unbracketed p.shown := by
  cases p with
  | run t => exact h
  | link target => exact h.1
  | aliased target words => exact h.2

/-- Every part of game text shows what it shows by itself. -/
theorem unlink_eq_shown (h : ∀ p ∈ parts, p.WellFormed) :
    unlink (write parts) = parts.flatMap Part.shown := by
  rw [unlink, expandAll_aliased_write h, expandAll_plain_write h]

theorem unlink_of_unbracketed (h : Unbracketed t) : unlink t = t := by
  have hrun : ∀ p ∈ [Part.run t], p.WellFormed := List.forall_mem_singleton.mpr h
  have hshown := unlink_eq_shown hrun
  rwa [write, List.flatMap_singleton, List.flatMap_singleton] at hshown

/-- Links are resolved one by one: game text shows what its parts show, in their order. So no bracket is
left, the text that is shown shows itself, and of two texts one after the other each shows what it shows
alone. -/
theorem unlink_write (h : ∀ p ∈ parts, p.WellFormed) :
    unlink (write parts) = parts.flatMap Part.shown ∧
    Unbracketed (unlink (write parts)) ∧
    unlink (unlink (write parts)) = unlink (write parts) ∧
    ∀ others : List Part, (∀ p ∈ others, p.WellFormed) →
      unlink (write parts ++ write others) = unlink (write parts) ++ unlink (write others) := by
  have hshown := unlink_eq_shown h
  have hbare : Unbracketed (unlink (write parts)) := by
    intro c hc
    rw [hshown, List.mem_flatMap] at hc
    obtain ⟨p, hp, hc⟩ := hc
    exact (h p hp).unbracketed_shown c hc
  refine ⟨hshown, hbare, unlink_of_unbracketed hbare, fun others hothers => ?_⟩
  rw [← write_append, unlink_eq_shown (List.forall_mem_append.mpr ⟨h, hothers⟩), hshown,
    unlink_eq_shown hothers, List.flatMap_append]

/-- Links of both kinds side by side, empty ones, and bars and line breaks outside and inside. -/
def mixedParts : List Part := [
  .run "Fires | ".toList, .aliased "Projectile".toList "Projec|tiles\n".toList, .link "Fire".toList,
  .aliased [] [], .link [], .run " Damage".toList]

theorem unlink_mixedParts : (∀ p ∈ mixedParts, p.WellFormed) ∧
    write mixedParts = "Fires | [Projectile|Projec|tiles\n][Fire][|][] Damage".toList ∧
    unlink (write mixedParts) = "Fires | Projec|tiles\nFire Damage".toList := by
  have hparts : ∀ p ∈ mixedParts, p.WellFormed := by decide
  exact ⟨hparts, rfl, (unlink_write hparts).1⟩

end GemScribe.Link
