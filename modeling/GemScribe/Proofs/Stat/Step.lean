import GemScribe.Proofs.Stat.Request

/-!
The lines of one step.

A step renders every template of its block and keeps some of the lines, in their order. `renderStep_kept`
says that a block with templates gives each step at least one line, and at most one for each template.
What a step reads is the values of the stats of its block and, of the value that drives it, only whether
that is one second; so two groupings that agree on those stats render alike.
-/

namespace GemScribe

theorem Template.length_renderAll {values : List (List Quantity)} {step : Nat} :
    ∀ {templates lines : List Text}, renderAll values step templates = .ok lines →
      lines.length = templates.length
  | [], lines, h => by rw [← Except.ok.inj h]
  | template :: templates, lines, h => by
      rw [renderAll] at h
      obtain ⟨line, -, h⟩ := bind_eq_ok.mp h
      obtain ⟨rest, hrest, h⟩ := bind_eq_ok.mp h
      rw [← Except.ok.inj h, List.length_cons, List.length_cons, length_renderAll hrest]

namespace Variant

variable {templates : List Text} {values : List (List Quantity)} {step : Nat}
  {driving driving' : Quantity}

/-- Of two lines both are kept, or one of them. -/
theorem choosePair_eq_ok {first second : Text} {kept : List Text}
    (h : choosePair first second = .ok kept) :
    kept = [first] ∨ kept = [second] ∨ kept = [first, second] := by
  rw [choosePair] at h
  split at h
  · obtain ⟨fits, -, h⟩ := bind_eq_ok.mp h
    cases fits with
    | true => exact Or.inl (Except.ok.inj h).symm
    | false => exact Or.inr (Or.inl (Except.ok.inj h).symm)
  · exact Or.inr (Or.inr (Except.ok.inj h).symm)

/-- The lines that are kept are some of the lines, in their order, and not none of them. -/
theorem collapse_eq_ok {lines kept : List Text} (h : collapse lines driving = .ok kept) :
    kept.Sublist lines ∧ (lines ≠ [] → kept ≠ []) := by
  rw [collapse] at h
  generalize hleft : (if driving.equalsInt Template.oneSecond then lines.take 1 else lines) = left at h
  have hsublist : left.Sublist lines := by
    rw [← hleft]
    split
    · exact List.take_sublist 1 lines
    · exact List.Sublist.refl lines
  have hnonempty : lines ≠ [] → left ≠ [] := by
    rw [← hleft]
    split
    · exact fun hlines htake => hlines ((List.take_eq_nil_iff.mp htake).resolve_left Nat.one_ne_zero)
    · exact id
  split at h
  · next first second =>
    have hkept : kept.Sublist [first, second] ∧ kept ≠ [] := by
      rcases choosePair_eq_ok h with rfl | rfl | rfl <;> simp
    exact ⟨hkept.1.trans hsublist, fun _ => hkept.2⟩
  · rw [← Except.ok.inj h]
    exact ⟨hsublist, hnonempty⟩

/-- A block with templates gives a step at least one line, and at most one for each template. -/
theorem renderStep_kept {part : List Text} (htemplates : templates ≠ [])
    (h : renderStep templates values step driving = .ok part) :
    1 ≤ part.length ∧ part.length ≤ templates.length := by
  obtain ⟨lines, hlines, hpart⟩ := bind_eq_ok.mp h
  obtain ⟨hsublist, hnonempty⟩ := collapse_eq_ok hpart
  rw [← Template.length_renderAll hlines]
  refine ⟨List.length_pos_iff.mpr (hnonempty ?_), hsublist.length_le⟩
  rw [← List.length_pos_iff, Template.length_renderAll hlines]
  exact List.length_pos_iff.mpr htemplates

/-- Of the driving value it matters only whether it is one second. -/
theorem renderStep_congr_driving
    (h : driving.equalsInt Template.oneSecond = driving'.equalsInt Template.oneSecond) :
    renderStep templates values step driving = renderStep templates values step driving' := by
  simp only [renderStep, collapse, h]

end Variant

/-! ### The steps of a request -/

/-- A block reads the values of its own stats alone. -/
theorem Block.alignedValues_congr {block : Block} {grouped grouped' : Grouped}
    (h : ∀ id ∈ block.ids, grouped.values id = grouped'.values id) :
    block.alignedValues grouped = block.alignedValues grouped' :=
  List.map_congr_left fun id hid => by rw [valuesOf, valuesOf, h id hid]

/-- Groupings that agree on the stats of the block of a turn give it the same lines. -/
theorem Turn.play_congr {turn : Turn} {grouped grouped' : Grouped}
    (h : ∀ block place, turn.fate = .rendered block place →
      ∀ id ∈ block.ids, grouped.values id = grouped'.values id) :
    turn.play grouped = turn.play grouped' := by
  obtain ⟨id, values, fate⟩ := turn
  cases fate with
  | rendered block place =>
    simp only [Turn.play, Turn.lines, Turn.events, Block.alignedValues_congr (h block place rfl)]
  | alreadyRendered => rfl
  | undescribed => rfl

namespace Request

variable {grouped : Grouped} {r : Request}

/-- The lines of each step of a request, from step zero to the last value of the stat that asked. -/
def Steps (grouped : Grouped) (r : Request) (parts : List (List Text)) : Prop :=
  List.Forall₂ (fun driving part => r.stepLines grouped driving = .ok part) r.values.zipIdx parts

theorem Steps.length_eq {parts : List (List Text)} (h : r.Steps grouped parts) :
    parts.length = r.values.length := by
  rw [← List.Forall₂.length_eq h, List.length_zipIdx]

theorem Steps.kept {parts : List (List Text)} (h : r.Steps grouped parts)
    (htemplates : r.block.templates ≠ []) :
    ∀ part ∈ parts, 1 ≤ part.length ∧ part.length ≤ r.block.templates.length := by
  intro part hpart
  obtain ⟨driving, -, hstep⟩ := exists_of_forall₂ h hpart
  exact Variant.renderStep_kept htemplates hstep

end Request

end GemScribe
