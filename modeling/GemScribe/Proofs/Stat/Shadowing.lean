import GemScribe.Proofs.Stat.Cover
import GemScribe.Proofs.Stat.FileAppend

/-!
Blocks that no stat ever asks for.

A stat is described by the first block with templates that names it. A block is dead when it is first for
no stat: it has no template, or names no stat, or each stat that it names stands in a block with
templates before it. That block may be dead for itself, but the first one for the stat is not, so all
the dead blocks can be taken out at once. Of the list of blocks a resolution sees only which block is
first for each stat; the place of that block is recorded and not looked at.
-/

namespace GemScribe

/-- The block at a place is first for no stat. -/
def Block.DeadAt (blocks : List Block) (place : Nat) : Prop :=
  ∀ block, blocks[place]? = some block → block.templates = [] ∨ block.ids = [] ∨
    ∀ id ∈ block.ids, ∃ earlier before, earlier < place ∧ blocks[earlier]? = some before ∧
      before.templates ≠ [] ∧ id ∈ before.ids

/-- The blocks without those at some of the places. -/
def Block.without (removed : Nat → Bool) (blocks : List Block) : List Block :=
  (blocks.zipIdx.filter fun entry => !removed entry.2).map Prod.fst

variable {blocks blocks' : List Block} {skip : Bool} {grouped : Grouped} {os : List Observation}

/-! ### The same first blocks -/

/-- The same block is first for every stat; it may stand at different places. -/
def SameFirst (blocks blocks' : List Block) : Prop :=
  ∀ id, (Block.describing? blocks id).map Prod.fst = (Block.describing? blocks' id).map Prod.fst

/-- With the same first blocks a stat has the same fate, up to the place of its block. -/
theorem fateOf_of_sameFirst (h : SameFirst blocks blocks') (shown : List Text) (id : Text) :
    fateOf blocks skip shown id = fateOf blocks' skip shown id ∨
      ∃ block place place', fateOf blocks skip shown id = .rendered block place ∧
        fateOf blocks' skip shown id = .rendered block place' := by
  have hid := h id
  rw [fateOf, fateOf]
  split
  · exact Or.inl rfl
  · cases hd : Block.describing? blocks id with
    | none =>
      rw [hd, Option.map_none, eq_comm, Option.map_eq_none_iff] at hid
      rw [hid]
      exact Or.inl rfl
    | some entry =>
      obtain ⟨block, place⟩ := entry
      rw [hd, Option.map_some, eq_comm, Option.map_eq_some_iff] at hid
      obtain ⟨⟨_, place'⟩, hd', rfl⟩ := hid
      rw [hd']
      exact Or.inr ⟨_, place, place', rfl, rfl⟩

theorem each_play_of_sameFirst (h : SameFirst blocks blocks') :
    ∀ (shown : List Text) (entries : List (Text × List Binary64)),
      Journal.each (Turn.play grouped) (turnsFrom blocks skip grouped shown entries) =
        Journal.each (Turn.play grouped) (turnsFrom blocks' skip grouped shown entries)
  | _, [] => rfl
  | shown, (id, values) :: rest => by
      rw [turnsFrom_cons, turnsFrom_cons, Journal.each, Journal.each]
      rcases fateOf_of_sameFirst h shown id with hfate | ⟨block, place, place', hfate, hfate'⟩
      · rw [hfate, each_play_of_sameFirst h]
      · rw [hfate, hfate', each_play_of_sameFirst h]
        rfl

/-- A resolution depends on its blocks only through the first block for each stat. -/
theorem resolve_of_sameFirst (h : SameFirst blocks blocks') (skip : Bool) (os : List Observation) :
    resolve blocks skip os = resolve blocks' skip os := by
  rw [resolve, resolve]
  split
  · rfl
  · refine bind_congr fun grouped => ?_
    rw [turns, turns, each_play_of_sameFirst h]

/-! ### Without dead blocks -/

/-- What a search finds first is found among some of the items, if it is one of them. -/
theorem find?_filter_of_kept {α : Type} {kept wanted : α → Bool} : ∀ {xs : List α},
    (∀ x, xs.find? wanted = some x → kept x) → (xs.filter kept).find? wanted = xs.find? wanted
  | [], _ => rfl
  | x :: xs, h => by
      by_cases hwanted : wanted x
      · have hx : (x :: xs).find? wanted = some x := List.find?_cons_of_pos hwanted
        rw [List.filter_cons_of_pos (h x hx), hx, List.find?_cons_of_pos hwanted]
      · rw [List.find?_cons_of_neg hwanted] at h ⊢
        rw [List.filter_cons]
        split
        · rw [List.find?_cons_of_neg hwanted, find?_filter_of_kept h]
        · exact find?_filter_of_kept h

/-- The block that describes a stat is not dead. -/
theorem Block.not_deadAt_of_describing? {id : Text} {block : Block} {place : Nat}
    (h : Block.describing? blocks id = some (block, place)) : ¬Block.DeadAt blocks place := by
  intro hdead
  obtain ⟨hplace, hid⟩ := Block.describing?_eq_some h
  rcases hdead block hplace with htemplates | hids | hearlier
  · have hdescribes := List.find?_some h
    simp [Block.describes, htemplates] at hdescribes
  · rw [hids] at hid
    cases hid
  · obtain ⟨earlier, before, hlt, hbefore, htemplates, hid'⟩ := hearlier id hid
    obtain ⟨-, i, hi, hentry, hfirst⟩ := List.find?_eq_some_iff_getElem.mp h
    rw [List.getElem_zipIdx, Prod.mk.injEq] at hentry
    obtain rfl : i = place := by omega
    have hnot := hfirst earlier hlt
    obtain ⟨hlt', rfl⟩ := List.getElem?_eq_some_iff.mp hbefore
    simp [Block.describes, htemplates, hid'] at hnot

theorem Block.map_fst_describing? (blocks : List Block) (id : Text) :
    (Block.describing? blocks id).map Prod.fst = blocks.find? (·.describes id) := by
  conv_rhs => rw [← List.zipIdx_map_fst 0 blocks, List.find?_map]
  rfl

theorem sameFirst_without {removed : Nat → Bool}
    (hdead : ∀ place, removed place → Block.DeadAt blocks place) :
    SameFirst (Block.without removed blocks) blocks := by
  intro id
  have hkept : ∀ entry, blocks.zipIdx.find? (fun entry => entry.1.describes id) = some entry →
      (!removed entry.2) = true := by
    intro entry hd
    rw [Bool.not_eq_true', ← Bool.not_eq_true]
    exact fun hremoved => Block.not_deadAt_of_describing? hd (hdead _ hremoved)
  rw [Block.map_fst_describing?, Block.without, List.find?_map]
  exact congrArg (Option.map Prod.fst) (find?_filter_of_kept hkept)

/-! ### Blocks that are listed twice -/

/-- In a list of blocks behind itself the second half is dead. -/
theorem Block.deadAt_append_self {place : Nat} (h : blocks.length ≤ place) :
    Block.DeadAt (blocks ++ blocks) place := by
  intro block hblock
  rw [List.getElem?_append_right h] at hblock
  obtain ⟨hlt, -⟩ := List.getElem?_eq_some_iff.mp hblock
  by_cases htemplates : block.templates = []
  · exact Or.inl htemplates
  · refine Or.inr (Or.inr fun id hid => ?_)
    refine ⟨place - blocks.length, block, by omega, ?_, htemplates, hid⟩
    rw [List.getElem?_append_left hlt, hblock]

theorem Block.without_append_self (blocks : List Block) :
    Block.without (fun place => decide (blocks.length ≤ place)) (blocks ++ blocks) = blocks := by
  have hfirst : ∀ entry ∈ blocks.zipIdx, (!decide (blocks.length ≤ entry.2)) = true := by
    intro entry hentry
    have := (List.mem_zipIdx hentry).2.1
    simp
    omega
  have hsecond : ∀ entry ∈ blocks.zipIdx blocks.length,
      ¬(!decide (blocks.length ≤ entry.2)) = true := by
    intro entry hentry
    simp [(List.mem_zipIdx hentry).1]
  rw [Block.without, List.zipIdx_append, Nat.zero_add, List.filter_append,
    List.filter_eq_self.mpr hfirst, List.filter_eq_nil_iff.mpr hsecond, List.append_nil,
    List.zipIdx_map_fst]

theorem resolve_append_self (blocks : List Block) (skip : Bool) (os : List Observation) :
    resolve (blocks ++ blocks) skip os = resolve blocks skip os := by
  have hdead : ∀ place, decide (blocks.length ≤ place) = true →
      Block.DeadAt (blocks ++ blocks) place := by
    intro place hplace
    exact Block.deadAt_append_self (of_decide_eq_true hplace)
  have hsame := sameFirst_without hdead
  rw [Block.without_append_self] at hsame
  exact (resolve_of_sameFirst hsame skip os).symm

/-- A file that begins with a marker gives its blocks twice when it stands behind itself. -/
theorem Block.parse_append_self {text : Text} (h : Block.Opens text) :
    Block.parse (text ++ '\n' :: text) = (Block.parse text).map fun blocks => blocks ++ blocks := by
  rw [Block.parse, Text.statements_append_cons (by decide), Block.sections_append_of_opens h,
    Block.ofSections_append, ← Block.parse]
  cases Block.parse text <;> rfl

/-- Dead blocks do not matter: without any of them a resolution notes and returns the same. So it does
with every block listed twice, and with a description file that stands behind itself. -/
theorem resolve_without_dead (skip : Bool) (os : List Observation) :
    (∀ (blocks : List Block) (removed : Nat → Bool),
      (∀ place, removed place → Block.DeadAt blocks place) →
        resolve (Block.without removed blocks) skip os = resolve blocks skip os) ∧
    (∀ blocks, resolve (blocks ++ blocks) skip os = resolve blocks skip os) ∧
    ∀ text, Block.Opens text →
      (Journal.ofNumber (Block.parse (text ++ '\n' :: text)) >>= (resolve · skip os)) =
        (Journal.ofNumber (Block.parse text) >>= (resolve · skip os)) := by
  refine ⟨fun blocks removed hdead => resolve_of_sameFirst (sameFirst_without hdead) skip os,
    fun blocks => resolve_append_self blocks skip os, fun text htext => ?_⟩
  rw [Block.parse_append_self htext]
  cases Block.parse text with
  | error cause => rfl
  | ok blocks =>
    have htwice : Journal.ofNumber ((Except.ok blocks : Except NumberFault _).map
        fun blocks => blocks ++ blocks) = pure (blocks ++ blocks) := rfl
    have honce : Journal.ofNumber (.ok blocks) = pure blocks := rfl
    rw [htwice, honce, pure_bind, pure_bind, resolve_append_self]

/-- A block without templates, one that is first for `x` and `y`, one without stats, one whose two stats
are described before it, and one that is first for `z` alone. -/
def partlyDeadBlocks : List Block :=
  [⟨"x".toList, none, []⟩, ⟨"2 x y".toList, none, ["\x7b0\x7d and \x7b1\x7d".toList]⟩,
    ⟨"7".toList, none, ["\x7b0\x7d".toList]⟩, ⟨"y x".toList, some 1, ["\x7b1\x7d".toList]⟩,
    ⟨"z y".toList, none, ["\x7b0\x7d more".toList]⟩]

/-- The places of the blocks that are first for no stat. -/
def deadPlaces : List Nat :=
  [0, 2, 3]

theorem deadAt_deadPlaces :
    ∀ place, deadPlaces.contains place → Block.DeadAt partlyDeadBlocks place := by
  intro place hplace block hblock
  have hcases : place = 0 ∨ place = 2 ∨ place = 3 := by simpa [deadPlaces] using hplace
  rcases hcases with rfl | rfl | rfl
  · obtain rfl := Option.some.inj hblock
    exact Or.inl rfl
  · obtain rfl := Option.some.inj hblock
    exact Or.inr (Or.inl (by decide))
  · obtain rfl := Option.some.inj hblock
    have hshown : ∀ id ∈ Block.ids ⟨"y x".toList, some 1, ["\x7b1\x7d".toList]⟩,
        id ∈ Block.ids ⟨"2 x y".toList, none, ["\x7b0\x7d and \x7b1\x7d".toList]⟩ := by
      decide
    exact Or.inr (Or.inr fun id hid => ⟨1, _, by decide, rfl, by simp, hshown id hid⟩)

theorem resolve_without_deadPlaces :
    (∀ place, deadPlaces.contains place → Block.DeadAt partlyDeadBlocks place) ∧
    (Block.without deadPlaces.contains partlyDeadBlocks).length = 2 ∧
    (resolve partlyDeadBlocks false overlappingObservations).outcome =
      .ok ["1 more".toList, "2 and 3".toList, "2 and 3".toList] ∧
    resolve (Block.without deadPlaces.contains partlyDeadBlocks) false overlappingObservations =
      resolve partlyDeadBlocks false overlappingObservations ∧
    Block.Opens Block.laterFile ∧
    (Journal.ofNumber (Block.parse (Block.laterFile ++ '\n' :: Block.laterFile)) >>=
      (resolve · false overlappingObservations)) =
        (Journal.ofNumber (Block.parse Block.laterFile) >>= (resolve · false overlappingObservations)) := by
  have hopens : Block.Opens Block.laterFile := by
    unfold Block.Opens
    decide +kernel
  have htheorem := resolve_without_dead false overlappingObservations
  exact ⟨deadAt_deadPlaces, by decide, rfl, htheorem.1 _ _ deadAt_deadPlaces, hopens,
    htheorem.2.2 _ hopens⟩

end GemScribe
