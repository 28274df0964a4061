import GemScribe.Proofs.Stat.Skipping
import GemScribe.Proofs.Stat.Step
import Mathlib.Data.List.Perm.Basic

/-!
What the order of arrival changes.

Which of the stats of a block asks for it depends on which is seen first, and with the stat that asks
change the steps and the values that drive them. Where no two blocks share a stat, the same blocks are
rendered in any order; where, besides, the stats of a block have equally many values and none of them is
one second, a block renders the same lines whichever of its stats asks. So the lines only change places.
-/

namespace GemScribe

open Observation

/-- The same values for every stat, in the same order; the stats themselves may come in any order. -/
def SameValues (os os' : List Observation) : Prop :=
  ∀ id, id ≠ [] → valuesFor os id = valuesFor os' id

/-- No stat stands in two of the blocks that have templates. -/
def Unshared (blocks : List Block) : Prop :=
  blocks.Pairwise fun b b' => b.templates ≠ [] → b'.templates ≠ [] → ∀ id ∈ b.ids, id ∉ b'.ids

/-- At most one of the blocks that have templates names the stat. -/
def NamedOnce (blocks : List Block) (id : Text) : Prop :=
  blocks.Pairwise fun b b' => b.templates ≠ [] → b'.templates ≠ [] → id ∈ b.ids → id ∉ b'.ids

/-- Observations that make a block render the same lines whichever of its stats asks. -/
structure Uniform (blocks : List Block) (os : List Observation) : Prop where
  even : ∀ block ∈ blocks, block.templates ≠ [] → ∀ id ∈ block.ids, ∀ other ∈ block.ids,
    id ∈ seenIds os → other ∈ seenIds os → (valuesFor os id).length = (valuesFor os other).length
  noSecond : ∀ id ∈ seenIds os, ∀ v ∈ valuesFor os id,
    (Quantity.real v).equalsInt Template.oneSecond = false

/-- Observations that may arrive in another order with no effect but on the order of lines. -/
structure Interchangeable (blocks : List Block) (os : List Observation) : Prop
    extends Uniform blocks os where
  unshared : Unshared blocks

variable {blocks : List Block} {os os' : List Observation}

/-! ### The same values -/

theorem mem_seenIds_iff_valuesFor {id : Text} : id ∈ seenIds os ↔ id ≠ [] ∧ valuesFor os id ≠ [] := by
  constructor
  · exact fun h => ⟨(mem_seenIds.mp h).1, valuesFor_ne_nil h⟩
  · rintro ⟨hid, hvalues⟩
    by_contra hseen
    exact hvalues (valuesFor_eq_nil hid hseen)

theorem SameValues.symm (h : SameValues os os') : SameValues os' os :=
  fun id hid => (h id hid).symm

theorem SameValues.mem_seenIds (h : SameValues os os') {id : Text} :
    id ∈ seenIds os ↔ id ∈ seenIds os' := by
  rw [mem_seenIds_iff_valuesFor, mem_seenIds_iff_valuesFor]
  exact and_congr_right fun hid => by rw [h id hid]

theorem SameValues.valuesFor_eq (h : SameValues os os') {id : Text} (hseen : id ∈ seenIds os) :
    valuesFor os id = valuesFor os' id :=
  h id (Observation.mem_seenIds.mp hseen).1

theorem SameValues.values_eq (h : SameValues os os') (id : Text) :
    (Grouped.ofObservations os).values id = (Grouped.ofObservations os').values id := by
  rw [Grouped.ofObservations_eq, Grouped.ofObservations_eq, Grouped.values_map, Grouped.values_map]
  by_cases hseen : id ∈ seenIds os
  · rw [if_pos hseen, if_pos (h.mem_seenIds.mp hseen), h.valuesFor_eq hseen]
  · rw [if_neg hseen, if_neg (mt h.mem_seenIds.mpr hseen)]

theorem Uniform.of_sameValues (hsame : SameValues os os') (h : Uniform blocks os) :
    Uniform blocks os' where
  even := by
    intro block hblock htemplates id hid other hother hseen hseen'
    rw [← hsame.mem_seenIds] at hseen hseen'
    rw [← hsame.valuesFor_eq hseen, ← hsame.valuesFor_eq hseen']
    exact h.even block hblock htemplates id hid other hother hseen hseen'
  noSecond := by
    intro id hseen v hv
    rw [← hsame.mem_seenIds] at hseen
    rw [← hsame.valuesFor_eq hseen] at hv
    exact h.noSecond id hseen v hv

theorem Interchangeable.of_sameValues (hsame : SameValues os os') (h : Interchangeable blocks os) :
    Interchangeable blocks os' :=
  ⟨h.toUniform.of_sameValues hsame, h.unshared⟩

/-! ### The same blocks -/

theorem Unshared.namedOnce (h : Unshared blocks) (id : Text) : NamedOnce blocks id :=
  h.imp fun hapart ht ht' => hapart ht ht' id

theorem NamedOnce.place_eq {b b' : Block} {place place' : Nat} {id : Text} (h : NamedOnce blocks id)
    (hb : blocks[place]? = some b) (hb' : blocks[place']? = some b') (ht : b.templates ≠ [])
    (ht' : b'.templates ≠ []) (hid : id ∈ b.ids) (hid' : id ∈ b'.ids) : place = place' := by
  obtain ⟨hlt, rfl⟩ := List.getElem?_eq_some_iff.mp hb
  obtain ⟨hlt', rfl⟩ := List.getElem?_eq_some_iff.mp hb'
  have happart := List.pairwise_iff_getElem.mp h
  rcases Nat.lt_trichotomy place place' with hless | heq | hless
  · exact absurd hid' (happart place place' hlt hlt' hless ht ht' hid)
  · exact heq
  · exact absurd hid (happart place' place hlt' hlt hless ht' ht hid')

/-- Without repetition the places of the blocks that are rendered are distinct. -/
theorem nodup_places : ((requests blocks true os).map Request.place).Nodup :=
  (List.Nodup.of_map _ ((nodup_seenIds os).sublist requests_sublist)).map_on
    fun _ hr _ hr' => eq_of_place_eq hr hr'

/-- A block that is rendered in one order is rendered in the other: its stat either asks again, or was
shown by a block before, which is the same one. -/
theorem exists_request_of_place (hsame : SameValues os os')
    (h : ∀ id ∈ seenIds os, NamedOnce blocks id) {r : Request} (hr : r ∈ requests blocks true os) :
    ∃ r' ∈ requests blocks true os', r'.place = r.place := by
  have hseen := seenIds_of_mem_requests hr
  have hd := (describing?_of_mem_requests hr).1
  obtain ⟨hblock, hid⟩ := Block.describing?_eq_some hd
  obtain ⟨r', hr', hid'⟩ := exists_request_covering (hsame.mem_seenIds.mp hseen) ⟨_, hd⟩
  have hd' := (describing?_of_mem_requests hr').1
  refine ⟨r', hr', (h r.id hseen).place_eq (Block.describing?_eq_some hd').1 hblock ?_ ?_ hid' hid⟩
  · exact Block.templates_ne_nil_of_describing? hd'
  · exact Block.templates_ne_nil_of_describing? hd

theorem places_perm (hsame : SameValues os os') (h : ∀ id ∈ seenIds os, NamedOnce blocks id) :
    ((requests blocks true os).map Request.place).Perm
      ((requests blocks true os').map Request.place) := by
  have h' : ∀ id ∈ seenIds os', NamedOnce blocks id :=
    fun id hseen => h id (hsame.mem_seenIds.mpr hseen)
  rw [List.perm_ext_iff_of_nodup nodup_places nodup_places]
  intro place
  simp only [List.mem_map]
  constructor
  · rintro ⟨r, hr, rfl⟩
    exact exists_request_of_place hsame h hr
  · rintro ⟨r, hr, rfl⟩
    exact exists_request_of_place hsame.symm h' hr

/-! ### The same lines -/

/-- Requests with equally many steps, each of which gives the same lines, render alike. -/
theorem Request.Renders.of_steps {grouped grouped' : Grouped} {r r' : Request} {segment : List Text}
    (hlength : r.values.length = r'.values.length)
    (hstep : ∀ v ∈ r.values, ∀ v' ∈ r'.values, ∀ step,
      r.stepLines grouped (v, step) = r'.stepLines grouped' (v', step))
    (h : r.Renders grouped segment) : r'.Renders grouped' segment := by
  obtain ⟨parts, hparts, rfl⟩ := h
  have hparts' := List.forall₂_iff_get.mp hparts
  simp only [List.length_zipIdx, List.get_eq_getElem, List.getElem_zipIdx, Nat.zero_add] at hparts'
  refine ⟨parts, List.forall₂_iff_get.mpr ?_, rfl⟩
  simp only [List.length_zipIdx, List.get_eq_getElem, List.getElem_zipIdx, Nat.zero_add]
  refine ⟨hlength ▸ hparts'.1, fun i hi hpart => ?_⟩
  rw [← hparts'.2 i (hlength ▸ hi) hpart]
  exact (hstep _ (List.getElem_mem _) _ (List.getElem_mem _) i).symm

/-- A block renders the same lines whichever of its stats asks. -/
theorem Request.Renders.of_place_eq (hsame : SameValues os os') (h : Uniform blocks os)
    {r r' : Request} {segment : List Text} (hr : r ∈ requests blocks true os)
    (hr' : r' ∈ requests blocks true os') (hplace : r.place = r'.place)
    (hrenders : r.Renders (Grouped.ofObservations os) segment) :
    r'.Renders (Grouped.ofObservations os') segment := by
  obtain ⟨hd, hvalues⟩ := describing?_of_mem_requests hr
  obtain ⟨hd', hvalues'⟩ := describing?_of_mem_requests hr'
  obtain ⟨hb, hid⟩ := Block.describing?_eq_some hd
  obtain ⟨hb', hid'⟩ := Block.describing?_eq_some hd'
  have hblock : r.block = r'.block := by
    rw [hplace, hb'] at hb
    exact (Option.some.inj hb).symm
  have hseen := seenIds_of_mem_requests hr
  have hseen' := hsame.mem_seenIds.mpr (seenIds_of_mem_requests hr')
  rw [← hsame.valuesFor_eq hseen'] at hvalues'
  have hlength : r.values.length = r'.values.length := by
    rw [hvalues, hvalues']
    exact h.even r.block (List.mem_of_getElem? hb) (Block.templates_ne_nil_of_describing? hd)
      r.id hid r'.id (hblock ▸ hid') hseen hseen'
  have haligned : r.aligned (Grouped.ofObservations os) = r'.aligned (Grouped.ofObservations os') := by
    rw [Request.aligned, Request.aligned, hblock]
    exact congrArg _ (Block.alignedValues_congr fun id _ => hsame.values_eq id)
  refine hrenders.of_steps hlength fun v hv v' hv' step => ?_
  rw [Request.stepLines, Request.stepLines, hblock, haligned]
  refine Variant.renderStep_congr_driving ?_
  rw [h.noSecond r.id hseen v (hvalues ▸ hv), h.noSecond r'.id hseen' v' (hvalues' ▸ hv')]

/-- Two lists that go with a third, item by item, go with each other. -/
theorem forall₂_of_common {α β γ : Type} {R : α → β → Prop} {S : α → γ → Prop} {T : β → γ → Prop} :
    ∀ {as : List α} {bs : List β} {cs : List γ}, List.Forall₂ R as bs → List.Forall₂ S as cs →
      (∀ a ∈ as, ∀ b ∈ bs, R a b → ∀ c, S a c → T b c) → List.Forall₂ T bs cs
  | [], _, _, .nil, .nil, _ => .nil
  | a :: as, b :: bs, c :: cs, .cons hb hbs, .cons hc hcs, h => by
      rw [List.forall_mem_cons] at h
      refine .cons (h.1 b List.mem_cons_self hb c hc) (forall₂_of_common hbs hcs fun a' ha' b' hb' => ?_)
      exact h.2 a' ha' b' (List.mem_cons_of_mem b hb')

/-- The segments of one order are those of the other, in another order. -/
theorem exists_resolve_perm_of_namedOnce (hsame : SameValues os os')
    (hnamed : ∀ id ∈ seenIds os, NamedOnce blocks id) (h : Uniform blocks os) {lines : List Text}
    (hlines : (resolve blocks true os).outcome = .ok lines) :
    ∃ lines', (resolve blocks true os').outcome = .ok lines' ∧ lines.Perm lines' := by
  obtain ⟨segments, hsegments, rfl⟩ := resolve_outcome_eq_ok.mp hlines
  set rs := requests blocks true os
  set rs' := requests blocks true os'
  -- the requests of the second order, put in the order of the first
  have hown : List.Forall₂ (fun place r => place = Request.place r) (rs'.map Request.place) rs' := by
    rw [List.forall₂_map_left_iff, List.forall₂_same]
    exact fun _ _ => rfl
  obtain ⟨sorted, hsorted, hperm⟩ := List.perm_comp_forall₂ (places_perm hsame hnamed) hown
  rw [List.forall₂_map_left_iff] at hsorted
  have hrenders : List.Forall₂ (Request.Renders (Grouped.ofObservations os')) sorted segments := by
    refine forall₂_of_common hsorted hsegments fun r hr r' hr' hplace segment hsegment => ?_
    exact hsegment.of_place_eq hsame h hr (hperm.subset hr') hplace
  obtain ⟨segments', hsegments', hperm'⟩ := List.perm_comp_forall₂ hperm.symm hrenders
  exact ⟨_, resolve_outcome_eq_ok.mpr ⟨segments', hsegments', rfl⟩, hperm'.symm.flatten⟩

theorem exists_resolve_perm (hsame : SameValues os os') (h : Interchangeable blocks os)
    {lines : List Text} (hlines : (resolve blocks true os).outcome = .ok lines) :
    ∃ lines', (resolve blocks true os').outcome = .ok lines' ∧ lines.Perm lines' :=
  exists_resolve_perm_of_namedOnce hsame (fun id _ => h.unshared.namedOnce id) h.toUniform hlines

/-- Arrival in another order only permutes the lines: one order returns exactly when the other does, and
then with the same lines in some order. -/
theorem resolve_arrival_perm (blocks : List Block) (os os' : List Observation)
    (hsame : SameValues os os') (h : Interchangeable blocks os) :
    (∀ lines, (resolve blocks true os).outcome = .ok lines →
      ∃ lines', (resolve blocks true os').outcome = .ok lines' ∧ lines.Perm lines') ∧
    ∀ lines', (resolve blocks true os').outcome = .ok lines' →
      ∃ lines, (resolve blocks true os).outcome = .ok lines ∧ lines'.Perm lines :=
  ⟨fun _ hlines => exists_resolve_perm hsame h hlines,
    fun _ hlines => exists_resolve_perm hsame.symm (h.of_sameValues hsame) hlines⟩

/-- A block for the two stats `x` and `y`, and one for the stat `z`. -/
def levelBlocks : List Block :=
  [⟨"x y".toList, none, ["\x7b0\x7d to \x7b1\x7d".toList]⟩,
    ⟨"z".toList, none, ["\x7b0\x7d more".toList]⟩]

/-- Two levels of `x` and `y`, and `z` once. -/
def levelObservations : List Observation :=
  [⟨"x".toList, .ofInt 1⟩, ⟨"y".toList, .ofInt 2⟩, ⟨"z".toList, .ofInt 5⟩,
    ⟨"x".toList, .ofInt 3⟩, ⟨"y".toList, .ofInt 4⟩]

/-- The same levels with `z` first, and `y` before `x`. -/
def shuffledObservations : List Observation :=
  [⟨"z".toList, .ofInt 5⟩, ⟨"y".toList, .ofInt 2⟩, ⟨"y".toList, .ofInt 4⟩,
    ⟨"x".toList, .ofInt 1⟩, ⟨"x".toList, .ofInt 3⟩]

theorem sameValues_shuffled : SameValues levelObservations shuffledObservations := by
  intro id _
  by_cases hx : "x".toList = id
  · subst hx
    decide
  · by_cases hy : "y".toList = id
    · subst hy
      decide
    · simp only [valuesFor, levelObservations, shuffledObservations, List.filter_cons, hx, hy,
        decide_false, Bool.false_eq_true, if_false, List.filter_nil]

/-- With `x` first the levels come before `z`, with `z` first after it. -/
theorem resolve_shuffled :
    SameValues levelObservations shuffledObservations ∧
    Interchangeable levelBlocks levelObservations ∧
    (resolve levelBlocks true levelObservations).outcome =
      .ok ["1 to 2".toList, "3 to 4".toList, "5 more".toList] ∧
    (resolve levelBlocks true shuffledObservations).outcome =
      .ok ["5 more".toList, "1 to 2".toList, "3 to 4".toList] ∧
    ∃ lines', (resolve levelBlocks true shuffledObservations).outcome = .ok lines' ∧
      ["1 to 2".toList, "3 to 4".toList, "5 more".toList].Perm lines' := by
  have hlevels : Interchangeable levelBlocks levelObservations :=
    ⟨⟨by decide, by decide⟩, by unfold Unshared; decide⟩
  exact ⟨sameValues_shuffled, hlevels, rfl, rfl,
    (resolve_arrival_perm _ _ _ sameValues_shuffled hlevels).1 _ rfl⟩

end GemScribe
