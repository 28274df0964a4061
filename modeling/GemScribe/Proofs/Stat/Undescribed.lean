import GemScribe.Proofs.Stat.Cover
import GemScribe.Proofs.Stat.Step

/-!
Observations that no block describes.

Such an observation changes the journal of a resolution, and nothing else. Its stat has a turn that gives
no lines and shows nothing, and it is a partner in no block that is rendered, for a rendered block has
templates and describes all the stats that it names. What is left of the observations keeps the order of
the stats and the values of each, so that the other turns are what they were.
-/

namespace GemScribe

open Observation (seenIds valuesFor mem_seenIds seenIds_concat)

/-- A stat that some block describes. -/
def isDescribed (blocks : List Block) (id : Text) : Bool :=
  (Block.describing? blocks id).isSome

/-- An observation that has an id, and one that some block describes. -/
def Observation.hasBlock (blocks : List Block) (o : Observation) : Bool :=
  !o.id.isEmpty && isDescribed blocks o.id

/-- The observations without those that have no id or no block. -/
def describedOnly (blocks : List Block) (os : List Observation) : List Observation :=
  os.filter (Observation.hasBlock blocks)

variable {blocks : List Block} {skip : Bool} {os : List Observation}

/-! ### Grouping what is left -/

/-- The stats that are left keep the order in which they are first seen. -/
theorem seenIds_describedOnly (blocks : List Block) (os : List Observation) :
    seenIds (describedOnly blocks os) = (seenIds os).filter (isDescribed blocks) := by
  induction os using List.reverseRecOn with
  | nil => rfl
  | append_singleton os o ih =>
    rw [describedOnly, List.filter_append, ← describedOnly, seenIds_concat]
    by_cases hkept : o.hasBlock blocks = true
    · rw [List.filter_cons_of_pos hkept, List.filter_nil, seenIds_concat, ih]
      rw [Observation.hasBlock, Bool.and_eq_true] at hkept
      simp only [List.mem_filter, hkept.2, and_true]
      split
      · rfl
      · rw [List.filter_append, List.filter_cons_of_pos hkept.2, List.filter_nil]
    · rw [List.filter_cons_of_neg hkept, List.filter_nil, List.append_nil, ih]
      split
      · rfl
      · next hnew =>
        rw [not_or] at hnew
        have hplain : ¬isDescribed blocks o.id = true := by
          simpa [Observation.hasBlock, hnew.1] using hkept
        rw [List.filter_append, List.filter_cons_of_neg hplain, List.filter_nil, List.append_nil]

/-- The values of a described stat are all left. -/
theorem valuesFor_describedOnly {id : Text} (hid : id ≠ []) (h : isDescribed blocks id) :
    valuesFor (describedOnly blocks os) id = valuesFor os id := by
  rw [valuesFor, describedOnly, List.filter_filter, valuesFor]
  refine congrArg (List.map Observation.value) (List.filter_congr fun o _ => ?_)
  by_cases ho : o.id = id
  · simp [Observation.hasBlock, ho, hid, h]
  · simp [ho]

theorem values_describedOnly {id : Text} (h : isDescribed blocks id) :
    (Grouped.ofObservations (describedOnly blocks os)).values id =
      (Grouped.ofObservations os).values id := by
  rcases eq_or_ne id [] with rfl | hid
  · have hnone : ∀ os : List Observation, (Grouped.ofObservations os).values [] = [] := fun os =>
      Grouped.values_eq_nil fun hseen => (mem_seenIds.mp hseen).1 rfl
    rw [hnone, hnone]
  · rw [Grouped.values_ofObservations hid, Grouped.values_ofObservations hid,
      valuesFor_describedOnly hid h]

theorem ofObservations_describedOnly (blocks : List Block) (os : List Observation) :
    Grouped.ofObservations (describedOnly blocks os) =
      (Grouped.ofObservations os).filter fun entry => isDescribed blocks entry.1 := by
  rw [Grouped.ofObservations_eq, Grouped.ofObservations_eq, seenIds_describedOnly, List.filter_map]
  refine List.map_congr_left fun id hid => ?_
  obtain ⟨hseen, hdescribed⟩ := List.mem_filter.mp hid
  rw [valuesFor_describedOnly (mem_seenIds.mp hseen).1 hdescribed]

/-! ### The other turns -/

/-- Every stat of a block that describes one is described. -/
theorem isDescribed_of_mem_ids {id other : Text} {block : Block} {place : Nat}
    (h : Block.describing? blocks id = some (block, place)) (hother : other ∈ block.ids) :
    isDescribed blocks other := by
  rw [isDescribed, Option.isSome_iff_ne_none, Ne, Block.describing?_eq_none_iff]
  intro hnone
  have hfound := List.find?_some h
  rw [Block.describes, Bool.and_eq_true] at hfound
  exact hnone block (List.mem_of_getElem? (Block.describing?_eq_some h).1) (by simpa using hfound.1)
    hother

/-- A stat that no block describes has no request, whatever was shown before. -/
theorem fateOf_ne_rendered {id : Text} (h : isDescribed blocks id = false) (shown : List Text)
    (block : Block) (place : Nat) : fateOf blocks skip shown id ≠ .rendered block place := by
  intro hfate
  rw [isDescribed, (fateOf_eq_rendered.mp hfate).1] at h
  cases h

theorem Turn.shown_of_ne_rendered {turn : Turn} {grouped : Grouped}
    (h : ∀ block place, turn.fate ≠ .rendered block place) : turn.shown grouped = [] := by
  obtain ⟨id, values, fate⟩ := turn
  cases fate with
  | rendered block place => exact absurd rfl (h block place)
  | alreadyRendered => rfl
  | undescribed => rfl

/-- Without the stats that no block describes the other stats have the same turns. -/
theorem turnsFrom_filter {grouped : Grouped} : ∀ (shown : List Text)
    (entries : List (Text × List Binary64)),
    turnsFrom blocks skip grouped shown (entries.filter fun entry => isDescribed blocks entry.1) =
      (turnsFrom blocks skip grouped shown entries).filter fun turn => isDescribed blocks turn.id
  | _, [] => rfl
  | shown, (id, values) :: rest => by
      rw [turnsFrom_cons, List.filter_cons, List.filter_cons]
      by_cases hid : isDescribed blocks id = true
      · rw [if_pos hid, if_pos hid, turnsFrom_cons, turnsFrom_filter]
      · have hsilent : Turn.shown grouped ⟨id, values, fateOf blocks skip shown id⟩ = [] :=
          Turn.shown_of_ne_rendered fun block place =>
            fateOf_ne_rendered (Bool.not_eq_true _ ▸ hid) shown block place
        rw [if_neg hid, if_neg hid, hsilent, List.append_nil, turnsFrom_filter]

theorem mem_observedIds_describedOnly {id other : Text} {block : Block} {place : Nat}
    (h : Block.describing? blocks id = some (block, place)) :
    other ∈ block.observedIds (Grouped.ofObservations (describedOnly blocks os)) ↔
      other ∈ block.observedIds (Grouped.ofObservations os) := by
  rw [Block.mem_observedIds, Block.mem_observedIds, seenIds_describedOnly, List.mem_filter]
  refine and_congr_right fun hother => and_iff_left ?_
  exact isDescribed_of_mem_ids h hother

/-- What is left has the turns of the stats that some block describes. -/
theorem turns_describedOnly (blocks : List Block) (skip : Bool) (os : List Observation) :
    turns blocks skip (Grouped.ofObservations (describedOnly blocks os)) =
      (turns blocks skip (Grouped.ofObservations os)).filter fun turn =>
        isDescribed blocks turn.id := by
  rw [turns, turns, ← turnsFrom_filter, ← ofObservations_describedOnly]
  refine turnsFrom_congr (fun _ _ => Iff.rfl) fun entry _ block place hd other _ => ?_
  exact mem_observedIds_describedOnly hd

/-- A rendered block reads the same values from what is left. -/
theorem play_describedOnly {turn : Turn}
    (h : turn ∈ turns blocks skip (Grouped.ofObservations (describedOnly blocks os))) :
    turn.play (Grouped.ofObservations (describedOnly blocks os)) =
      turn.play (Grouped.ofObservations os) := by
  refine Turn.play_congr fun block place hfate other hother => values_describedOnly ?_
  exact isDescribed_of_mem_ids (describing?_of_mem_turns h hfate).2 hother

/-- A turn of a stat that no block describes gives no lines. -/
theorem outcome_play_of_not_described {grouped : Grouped} {turn : Turn}
    (h : turn ∈ turns blocks skip (Grouped.ofObservations os))
    (hid : isDescribed blocks turn.id = false) : (turn.play grouped).outcome = .ok [] := by
  have hnone : turn.request? = none := by
    cases hr : turn.request? with
    | none => rfl
    | some r =>
      rw [isDescribed, (describing?_of_mem_turns h (request?_eq_some.mp hr).1).2] at hid
      cases hid
  rw [outcome_play, Turn.lines_of_request_none hnone]
  rfl

/-! ### The same lines -/

namespace Journal

variable {α β : Type} {run : β → Journal (List α)}

/-- The results of a run over a list, put together: those of the first item and then the others. -/
theorem outcome_each_cons_flatten (b : β) (bs : List β) :
    (each run (b :: bs) >>= fun parts => pure parts.flatten).outcome =
      (do
        let first ← (run b).outcome
        let rest ← (each run bs >>= fun parts => pure parts.flatten).outcome
        pure (first ++ rest)) := by
  simp only [each, outcome_bind, outcome_pure, bind_assoc, pure_bind, List.flatten_cons]

/-- Items that add nothing can be left out of a run whose results are put together. -/
theorem outcome_each_filter_flatten {p : β → Bool} : ∀ {bs : List β},
    (∀ b ∈ bs, p b = false → (run b).outcome = .ok []) →
      (each run (bs.filter p) >>= fun parts => pure parts.flatten).outcome =
        (each run bs >>= fun parts => pure parts.flatten).outcome
  | [], _ => rfl
  | b :: bs, h => by
      rw [List.forall_mem_cons] at h
      have ih := outcome_each_filter_flatten h.2
      rw [outcome_each_cons_flatten]
      by_cases hb : p b = true
      · rw [List.filter_cons_of_pos hb, outcome_each_cons_flatten, ih]
      · rw [List.filter_cons_of_neg hb, ih, h.1 (Bool.not_eq_true _ ▸ hb)]
        exact (bind_pure _).symm

end Journal

/-- Observations that have no id or no block do not matter to the lines: without them a resolution ends
as it does with them, wherever they stand and whatever their values are. -/
theorem resolve_describedOnly (blocks : List Block) (skip : Bool) (os : List Observation) :
    (resolve blocks skip (describedOnly blocks os)).outcome = (resolve blocks skip os).outcome := by
  rw [resolve_outcome_eq_each, resolve_outcome_eq_each,
    Journal.each_congr fun _ => play_describedOnly, turns_describedOnly]
  exact Journal.outcome_each_filter_flatten fun _ => outcome_play_of_not_described

/-- A stat without a block between two steps of `x`, and an observation without an id. -/
example : describedOnly [⟨"x y".toList, none, ["\x7b1\x7d".toList]⟩]
    [⟨"x".toList, .ofInt 1⟩, ⟨"z".toList, .ofInt 3⟩, ⟨[], .ofInt 9⟩, ⟨"x".toList, .ofInt 4⟩] =
      [⟨"x".toList, .ofInt 1⟩, ⟨"x".toList, .ofInt 4⟩] := by
  decide

end GemScribe
