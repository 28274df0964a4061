import GemScribe.Proofs.Stat.Cover
import GemScribe.Proofs.Stat.Limits
import GemScribe.Proofs.Stat.Step

/-!
Blocks that always render.

A number is rounded where a directive asks for it, and counts are read where two lines of a step are
compared. Blocks that do neither keep within every limit, so that a resolution by them returns whatever
has been observed. This needs only a look at the file.
-/

namespace GemScribe

/-- No template asks for a rounding, and there are not two templates to compare. -/
def Block.IsPlain (block : Block) : Prop :=
  block.templates.length ≠ 2 ∧ ∀ template ∈ block.templates, Directive.find? template = none

instance (block : Block) : Decidable block.IsPlain := by
  unfold Block.IsPlain
  infer_instance

variable {blocks : List Block}

theorem Block.IsPlain.stepFits {block : Block} (h : block.IsPlain) (values : List (List Quantity))
    (step : Nat) (driving : Quantity) :
    Variant.StepFits block.templates values step driving where
  converts template htemplate sequence _ d hd := by
    rw [h.2 template htemplate] at hd
    cases hd
  readable lines hlines _ first second hpair := by
    have hlength := Template.length_renderAll hlines
    rw [hpair] at hlength
    exact absurd hlength.symm h.1

theorem block_mem_of_mem_requests {skip : Bool} {os : List Observation} {r : Request}
    (hr : r ∈ requests blocks skip os) : r.block ∈ blocks :=
  List.mem_of_getElem? (Block.describing?_eq_some (describing?_of_mem_requests hr).1).1

theorem resolve_returns_of_isPlain (h : ∀ block ∈ blocks, block.IsPlain) (skip : Bool)
    (os : List Observation) : (resolve blocks skip os).Returns := by
  cases houtcome : (resolve blocks skip os).outcome with
  | ok lines => exact ⟨lines, houtcome⟩
  | error fault =>
    obtain ⟨r, hr, d, -, cause, hstep, -⟩ := exists_of_resolve_outcome_eq_error houtcome
    have hfits := (h r.block (block_mem_of_mem_requests hr)).stepFits
      (r.aligned (Grouped.ofObservations os)) d.2 (.real d.1)
    obtain ⟨lines, hlines⟩ := (Variant.exists_renderStep_iff (r.filling_aligned _)).mpr hfits
    rw [Request.stepLines, hlines] at hstep
    cases hstep

end GemScribe
