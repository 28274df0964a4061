import GemScribe.Stat.Resolution
import GemScribe.Proofs.Outcome
import GemScribe.Proofs.Stat.Grouping

/-!
The requests of a resolution.

A stat that gets its block on its turn has made a request. What a resolution returns is the lines of its
requests, one request after another and each of them step by step. The fate of a turn depends on what
came before it only through the stats that were already shown, so that turns can be cut anywhere.
-/

namespace GemScribe

/-- A stat that asked for the block that describes it. The block stands at `place` in the list, and the
values of the stat drive its steps. -/
structure Request where
  id : Text
  values : List Binary64
  block : Block
  place : Nat

namespace Request

/-- The value sequences that fill the placeholders of the block. -/
def aligned (grouped : Grouped) (r : Request) : List (List Quantity) :=
  (r.block.alignedValues grouped).map (·.map .real)

/-- The lines of one step of the request, which is given with its driving value. -/
def stepLines (grouped : Grouped) (r : Request) (driving : Binary64 × Nat) :
    Except NumberFault (List Text) :=
  Variant.renderStep r.block.templates (r.aligned grouped) driving.2 (.real driving.1)

/-- A request renders as its steps do, from step zero to the last value of the stat that asked. -/
def Renders (grouped : Grouped) (r : Request) (segment : List Text) : Prop :=
  ∃ parts, List.Forall₂ (fun driving part => r.stepLines grouped driving = .ok part)
    r.values.zipIdx parts ∧ segment = parts.flatten

end Request

namespace Turn

/-- The request made on a turn, if any. -/
def request? (turn : Turn) : Option Request :=
  match turn.fate with
  | .rendered block place => some ⟨turn.id, turn.values, block, place⟩
  | _ => none

/-- The observed stats that a turn shows. -/
def shown (grouped : Grouped) (turn : Turn) : List Text :=
  match turn.fate with
  | .rendered block _ => block.observedIds grouped
  | _ => []

end Turn

/-- The fate of a stat on its turn, when those in `shown` have already been shown. -/
def fateOf (blocks : List Block) (skip : Bool) (shown : List Text) (id : Text) : Fate :=
  if skip && shown.contains id then .alreadyRendered
  else
    match Block.describing? blocks id with
    | none => .undescribed
    | some (block, place) => .rendered block place

/-- The requests of a resolution, in the order in which they are made. -/
def requests (blocks : List Block) (skip : Bool) (os : List Observation) : List Request :=
  (turns blocks skip (Grouped.ofObservations os)).filterMap Turn.request?

section Turns

variable {blocks : List Block} {skip : Bool} {grouped : Grouped}

/-- One turn: its fate is settled, and what it shows is shown from then on. -/
theorem turnsFrom_cons (shown : List Text) (id : Text) (values : List Binary64)
    (rest : List (Text × List Binary64)) :
    turnsFrom blocks skip grouped shown ((id, values) :: rest) =
      ⟨id, values, fateOf blocks skip shown id⟩ ::
        turnsFrom blocks skip grouped
          (shown ++ Turn.shown grouped ⟨id, values, fateOf blocks skip shown id⟩) rest := by
  rw [turnsFrom, fateOf]
  by_cases h : (skip && shown.contains id) = true
  · rw [if_pos h, if_pos h]
    simp only [Turn.shown, List.append_nil]
  · rw [if_neg h, if_neg h]
    cases Block.describing? blocks id with
    | none => simp only [Turn.shown, List.append_nil]
    | some entry => rfl

/-- A list of turns can be cut anywhere: the later turns see what the earlier ones have shown. -/
theorem turnsFrom_append : ∀ (shown : List Text) (earlier later : List (Text × List Binary64)),
    turnsFrom blocks skip grouped shown (earlier ++ later) =
      turnsFrom blocks skip grouped shown earlier ++
        turnsFrom blocks skip grouped
          (shown ++ (turnsFrom blocks skip grouped shown earlier).flatMap (Turn.shown grouped)) later
  | shown, [], later => by simp [turnsFrom]
  | shown, (id, values) :: earlier, later => by
      rw [List.cons_append, turnsFrom_cons, turnsFrom_cons, turnsFrom_append _ earlier later,
        List.flatMap_cons, List.append_assoc, List.cons_append]

/-- The turns around that of one stat, whose fate depends on what the turns before it have shown. -/
theorem turnsFrom_cut (blocks : List Block) (skip : Bool) (grouped : Grouped)
    (earlier later : List (Text × List Binary64)) (id : Text) (values : List Binary64) :
    ∃ shown, turnsFrom blocks skip grouped [] (earlier ++ (id, values) :: later) =
      turnsFrom blocks skip grouped [] earlier ++
        ([⟨id, values, fateOf blocks skip
          ((turnsFrom blocks skip grouped [] earlier).flatMap (Turn.shown grouped)) id⟩] ++
          turnsFrom blocks skip grouped shown later) := by
  rw [turnsFrom_append, turnsFrom_cons, List.nil_append]
  exact ⟨_, rfl⟩

/-- The fate of a stat is settled by what the turns before its own have shown. -/
theorem fate_of_cut : ∀ {shown : List Text} {entries : List (Text × List Binary64)}
    {earlier later : List Turn} {turn : Turn},
    turnsFrom blocks skip grouped shown entries = earlier ++ turn :: later →
      turn.fate = fateOf blocks skip (shown ++ earlier.flatMap (Turn.shown grouped)) turn.id
  | _, [], earlier, _, _, h => by
      cases earlier <;> cases h
  | shown, (id, values) :: rest, [], _, turn, h => by
      rw [turnsFrom_cons, List.nil_append, List.cons.injEq] at h
      rw [← h.1, List.flatMap_nil, List.append_nil]
  | shown, (id, values) :: rest, first :: earlier, _, turn, h => by
      rw [turnsFrom_cons, List.cons_append, List.cons.injEq] at h
      rw [fate_of_cut h.2, h.1, List.flatMap_cons, List.append_assoc]

/-- Every stat has one turn, with its own values. -/
theorem map_turnsFrom (blocks : List Block) (skip : Bool) (grouped : Grouped) :
    ∀ (shown : List Text) (entries : List (Text × List Binary64)),
    (turnsFrom blocks skip grouped shown entries).map (fun t => (t.id, t.values)) = entries
  | _, [] => rfl
  | shown, (id, values) :: rest => by
      rw [turnsFrom_cons, List.map_cons, map_turnsFrom]

/-- A request is for the block that describes its stat, which was not shown before. -/
theorem fateOf_eq_rendered {shown : List Text} {id : Text} {block : Block} {place : Nat} :
    fateOf blocks skip shown id = .rendered block place ↔
      Block.describing? blocks id = some (block, place) ∧ (skip = true → id ∉ shown) := by
  unfold fateOf
  by_cases h : (skip && shown.contains id) = true
  · rw [if_pos h]
    simp only [Bool.and_eq_true, List.contains_iff_mem] at h
    simp [h.1, h.2]
  · rw [if_neg h]
    simp only [Bool.and_eq_true, List.contains_iff_mem, not_and] at h
    cases Block.describing? blocks id with
    | none => simp
    | some entry =>
      simp only [Fate.rendered.injEq, Option.some.injEq, Prod.ext_iff]
      exact ⟨fun he => ⟨he, h⟩, fun he => he.1⟩

theorem fateOf_eq_alreadyRendered {shown : List Text} {id : Text} :
    fateOf blocks skip shown id = .alreadyRendered ↔ skip = true ∧ id ∈ shown := by
  rw [← List.contains_iff_mem, ← Bool.and_eq_true, fateOf]
  by_cases h : (skip && shown.contains id) = true
  · rw [if_pos h]
    exact iff_of_true rfl h
  · rw [if_neg h]
    refine iff_of_false ?_ h
    cases Block.describing? blocks id with
    | none => nofun
    | some entry => nofun

theorem describing?_of_fateOf_eq_undescribed {shown : List Text} {id : Text}
    (h : fateOf blocks skip shown id = .undescribed) : Block.describing? blocks id = none := by
  rw [fateOf] at h
  split at h
  · cases h
  · split at h
    · assumption
    · cases h

/-- A fate depends on what was shown before only through the stat itself. -/
theorem fateOf_congr {shown shown' : List Text} {id : Text} (h : id ∈ shown ↔ id ∈ shown') :
    fateOf blocks skip shown id = fateOf blocks skip shown' id := by
  have hcontains : shown.contains id = shown'.contains id := by
    rw [Bool.eq_iff_iff, List.contains_iff_mem, List.contains_iff_mem, h]
  rw [fateOf, fateOf, hcontains]

theorem Turn.mem_shown {turn : Turn} {id : Text} :
    id ∈ turn.shown grouped ↔
      ∃ block place, turn.fate = .rendered block place ∧ id ∈ block.observedIds grouped := by
  obtain ⟨_, _, fate⟩ := turn
  cases fate <;> simp [Turn.shown]

/-- Turns depend on what was shown before, and on what their own blocks show, only through the stats
whose turns they are. -/
theorem turnsFrom_congr {grouped' : Grouped} : ∀ {entries : List (Text × List Binary64)}
    {shown shown' : List Text},
    (∀ entry ∈ entries, entry.1 ∈ shown ↔ entry.1 ∈ shown') →
    (∀ entry ∈ entries, ∀ block place, Block.describing? blocks entry.1 = some (block, place) →
      ∀ other ∈ entries, other.1 ∈ block.observedIds grouped ↔ other.1 ∈ block.observedIds grouped') →
    turnsFrom blocks skip grouped shown entries = turnsFrom blocks skip grouped' shown' entries
  | [], _, _, _, _ => rfl
  | (id, values) :: rest, shown, shown', hshown, hblocks => by
      have hfate : fateOf blocks skip shown id = fateOf blocks skip shown' id :=
        fateOf_congr (hshown _ List.mem_cons_self)
      rw [turnsFrom_cons, turnsFrom_cons, ← hfate]
      congr 1
      refine turnsFrom_congr (fun entry hentry => ?_) fun entry hentry block place hd other hother => ?_
      · rw [List.mem_append, List.mem_append, hshown entry (List.mem_cons_of_mem _ hentry),
          Turn.mem_shown, Turn.mem_shown]
        refine or_congr_right (exists_congr fun block => exists_congr fun place => ?_)
        refine and_congr_right fun hrendered => ?_
        exact hblocks _ List.mem_cons_self block place (fateOf_eq_rendered.mp hrendered).1 entry
          (List.mem_cons_of_mem _ hentry)
      · exact hblocks entry (List.mem_cons_of_mem _ hentry) block place hd other
          (List.mem_cons_of_mem _ hother)

theorem request?_eq_some {turn : Turn} {r : Request} :
    turn.request? = some r ↔
      turn.fate = .rendered r.block r.place ∧ turn.id = r.id ∧ turn.values = r.values := by
  obtain ⟨id, values, fate⟩ := turn
  obtain ⟨id', values', block, place⟩ := r
  cases fate <;> simp [Turn.request?, and_assoc, and_comm, and_left_comm]

/-- A request has the stat and the values of one of the entries. -/
theorem mem_of_mem_requests {shown : List Text} {entries : List (Text × List Binary64)} {r : Request}
    (h : r ∈ (turnsFrom blocks skip grouped shown entries).filterMap Turn.request?) :
    (r.id, r.values) ∈ entries := by
  obtain ⟨t, ht, hr⟩ := List.mem_filterMap.mp h
  obtain ⟨-, hid, hvalues⟩ := request?_eq_some.mp hr
  rw [← map_turnsFrom blocks skip grouped shown entries, ← hid, ← hvalues]
  exact List.mem_map_of_mem ht

/-- The stats that asked, in the order of their turns. -/
theorem map_filterMap_request? : ∀ ts : List Turn,
    List.Sublist ((ts.filterMap Turn.request?).map Request.id) (ts.map Turn.id)
  | [] => List.Sublist.slnil
  | t :: ts => by
      cases h : t.request? with
      | none =>
        rw [List.filterMap_cons_none h]
        exact (map_filterMap_request? ts).cons _
      | some r =>
        rw [List.filterMap_cons_some h, List.map_cons, List.map_cons,
          ← (request?_eq_some.mp h).2.1]
        exact (map_filterMap_request? ts).cons_cons _

/-- What turns show is what the blocks of their requests show. -/
theorem mem_flatMap_shown {ts : List Turn} {id : Text} :
    id ∈ ts.flatMap (Turn.shown grouped) ↔
      ∃ r ∈ ts.filterMap Turn.request?, id ∈ r.block.observedIds grouped := by
  have one : ∀ t : Turn, id ∈ t.shown grouped ↔
      ∃ r, t.request? = some r ∧ id ∈ r.block.observedIds grouped := by
    rintro ⟨_, _, fate⟩
    cases fate <;> simp [Turn.shown, Turn.request?]
  simp only [List.mem_flatMap, List.mem_filterMap, one]
  constructor
  · rintro ⟨t, ht, r, hr, hid⟩
    exact ⟨r, ⟨t, ht, hr⟩, hid⟩
  · rintro ⟨r, ⟨t, ht, hr⟩, hid⟩
    exact ⟨t, ht, r, hr, hid⟩

end Turns

/-! ### Lines -/

section Lines

variable {blocks : List Block} {skip : Bool} {grouped : Grouped}

/-- The lines of the steps from `start` on are those of each step, one after another. -/
theorem Turn.stepLines_eq_ok {templates : List Text} {values : List (List Quantity)} :
    ∀ {start : Nat} {drivings : List Binary64} {segment : List Text},
      Turn.stepLines templates values start drivings = .ok segment ↔
        ∃ parts, List.Forall₂
          (fun d part => Variant.renderStep templates values d.2 (.real d.1) = .ok part)
          (drivings.zipIdx start) parts ∧ segment = parts.flatten
  | start, [], segment => by
      rw [Turn.stepLines, List.zipIdx_nil]
      simp [List.forall₂_nil_left_iff, eq_comm]
  | start, driving :: rest, segment => by
      rw [Turn.stepLines, List.zipIdx_cons, bind_eq_ok]
      simp only [List.forall₂_cons_left_iff]
      constructor
      · rintro ⟨part, hpart, h⟩
        obtain ⟨later, hlater, h⟩ := bind_eq_ok.mp h
        obtain ⟨parts, hparts, rfl⟩ := Turn.stepLines_eq_ok.mp hlater
        exact ⟨part :: parts, ⟨part, parts, hpart, hparts, rfl⟩, (Except.ok.inj h).symm⟩
      · rintro ⟨_, ⟨part, parts, hpart, hparts, rfl⟩, rfl⟩
        exact ⟨part, hpart, bind_eq_ok.mpr
          ⟨parts.flatten, Turn.stepLines_eq_ok.mpr ⟨parts, hparts, rfl⟩, rfl⟩⟩

/-- A fault in the steps of a block is the fault of one step. -/
theorem Turn.exists_of_stepLines_eq_error {templates : List Text} {values : List (List Quantity)}
    {cause : NumberFault} : ∀ {start : Nat} {drivings : List Binary64},
      Turn.stepLines templates values start drivings = .error cause →
        ∃ d ∈ drivings.zipIdx start,
          Variant.renderStep templates values d.2 (.real d.1) = .error cause
  | _, [], h => by cases h
  | start, driving :: rest, h => by
      rw [Turn.stepLines, bind_eq_error] at h
      rw [List.zipIdx_cons]
      rcases h with h | ⟨part, -, h⟩
      · exact ⟨(driving, start), List.mem_cons_self, h⟩
      · rcases bind_eq_error.mp h with h | ⟨later, -, h⟩
        · obtain ⟨d, hd, h⟩ := Turn.exists_of_stepLines_eq_error h
          exact ⟨d, List.mem_cons_of_mem _ hd, h⟩
        · cases h

/-- The lines of a turn are those of its request. -/
theorem Turn.lines_eq_ok_of_request {turn : Turn} {r : Request} (h : turn.request? = some r)
    {segment : List Text} : turn.lines grouped = .ok segment ↔ r.Renders grouped segment := by
  obtain ⟨hfate, -, hvalues⟩ := request?_eq_some.mp h
  rw [Turn.lines, hfate, hvalues]
  exact Turn.stepLines_eq_ok

theorem Turn.lines_of_request_none {turn : Turn} (h : turn.request? = none) :
    turn.lines grouped = .ok [] := by
  obtain ⟨_, _, fate⟩ := turn
  cases fate with
  | rendered block place => cases h
  | alreadyRendered => rfl
  | undescribed => rfl

/-- Turns without a request add no lines. -/
theorem exists_lines_iff_exists_renders : ∀ {ts : List Turn} {lines : List Text},
    (∃ segments, List.Forall₂ (fun t segment => t.lines grouped = .ok segment) ts segments ∧
        lines = segments.flatten) ↔
      ∃ segments, List.Forall₂ (Request.Renders grouped) (ts.filterMap Turn.request?) segments ∧
        lines = segments.flatten
  | [], lines => by simp [List.forall₂_nil_left_iff]
  | t :: ts, lines => by
      have ih := @exists_lines_iff_exists_renders ts
      simp only [List.forall₂_cons_left_iff]
      cases h : t.request? with
      | none =>
        rw [List.filterMap_cons_none h, ← ih]
        simp only [Turn.lines_of_request_none h]
        constructor
        · rintro ⟨_, ⟨segment, segments, hs, hrest, rfl⟩, rfl⟩
          exact ⟨segments, hrest, by rw [← Except.ok.inj hs]; rfl⟩
        · rintro ⟨segments, hrest, rfl⟩
          exact ⟨[] :: segments, ⟨[], segments, rfl, hrest, rfl⟩, rfl⟩
      | some r =>
        rw [List.filterMap_cons_some h]
        simp only [List.forall₂_cons_left_iff, Turn.lines_eq_ok_of_request h]
        constructor
        · rintro ⟨_, ⟨segment, segments, hs, hrest, rfl⟩, rfl⟩
          obtain ⟨segments', hrest', hflat⟩ := ih.mp ⟨segments, hrest, rfl⟩
          exact ⟨_, ⟨segment, segments', hs, hrest', rfl⟩, by
            rw [List.flatten_cons, List.flatten_cons, hflat]⟩
        · rintro ⟨_, ⟨segment, segments, hs, hrest, rfl⟩, rfl⟩
          obtain ⟨segments', hrest', hflat⟩ := ih.mpr ⟨segments, hrest, rfl⟩
          exact ⟨_, ⟨segment, segments', hs, hrest', rfl⟩, by
            rw [List.flatten_cons, List.flatten_cons, hflat]⟩

theorem outcome_play (turn : Turn) :
    (turn.play grouped).outcome = Fault.ofNumber (turn.lines grouped) :=
  rfl

/-- Without observations there are no turns, so that the first case of `resolve` needs no rule of its
own. -/
theorem resolve_outcome_eq_each (os : List Observation) :
    (resolve blocks skip os).outcome =
      (Journal.each (Turn.play (Grouped.ofObservations os))
        (turns blocks skip (Grouped.ofObservations os)) >>= fun lines =>
          pure lines.flatten).outcome := by
  cases os with
  | nil => rfl
  | cons o os =>
    have hgroup : (Observation.group (o :: os)).outcome = .ok (Grouped.ofObservations (o :: os)) :=
      rfl
    rw [resolve, if_neg (by simp), Journal.andThen_ok hgroup]

/-- A resolution returns the lines of its turns, one after another. -/
theorem resolve_outcome_eq_ok_turns {os : List Observation} {lines : List Text} :
    (resolve blocks skip os).outcome = .ok lines ↔
      ∃ segments, List.Forall₂ (fun t segment => t.lines (Grouped.ofObservations os) = .ok segment)
        (turns blocks skip (Grouped.ofObservations os)) segments ∧ lines = segments.flatten := by
  rw [resolve_outcome_eq_each, Journal.outcome_bind_eq_ok]
  simp only [Journal.outcome_each_eq_ok, outcome_play, Fault.ofNumber_eq_ok]
  constructor
  · rintro ⟨segments, h, hlines⟩
    exact ⟨segments, h, (Except.ok.inj hlines).symm⟩
  · rintro ⟨segments, h, rfl⟩
    exact ⟨segments, h, rfl⟩

/-- A resolution returns the segments of its requests, one after another. -/
theorem resolve_outcome_eq_ok {os : List Observation} {lines : List Text} :
    (resolve blocks skip os).outcome = .ok lines ↔
      ∃ segments, List.Forall₂ (Request.Renders (Grouped.ofObservations os))
        (requests blocks skip os) segments ∧ lines = segments.flatten := by
  rw [resolve_outcome_eq_ok_turns, requests, ← exists_lines_iff_exists_renders]

/-- A fault of a resolution is the fault of one step of one request. -/
theorem exists_of_resolve_outcome_eq_error {os : List Observation} {fault : Fault}
    (h : (resolve blocks skip os).outcome = .error fault) :
    ∃ r ∈ requests blocks skip os, ∃ d ∈ r.values.zipIdx, ∃ cause,
      r.stepLines (Grouped.ofObservations os) d = .error cause ∧ fault = .number cause := by
  rw [resolve_outcome_eq_each, Journal.outcome_bind_eq_error] at h
  rcases h with h | ⟨segments, -, h⟩
  · obtain ⟨t, ht, h⟩ := Journal.exists_of_outcome_each_eq_error h
    obtain ⟨cause, hcause, rfl⟩ := Fault.ofNumber_eq_error.mp h
    cases hr : t.request? with
    | none =>
      rw [Turn.lines_of_request_none hr] at hcause
      cases hcause
    | some r =>
      obtain ⟨hfate, -, hvalues⟩ := request?_eq_some.mp hr
      rw [Turn.lines, hfate, hvalues] at hcause
      obtain ⟨d, hd, hstep⟩ := Turn.exists_of_stepLines_eq_error hcause
      exact ⟨r, List.mem_filterMap.mpr ⟨t, ht, hr⟩, d, hd, cause, hstep, rfl⟩
  · cases h

end Lines

end GemScribe
