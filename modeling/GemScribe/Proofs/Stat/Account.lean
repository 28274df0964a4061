import GemScribe.Proofs.Stat.Skipping
import GemScribe.Proofs.Stat.Step

/-!
What becomes of every observation.

A resolution that returns accounts for all its observations. Each observation without an id is reported
with its place. Each observed stat has one of three fates, settled in the order in which the stats are
first seen: its block is rendered and gives at least one line for each of its observations, or a block
rendered before has shown it, or no block describes it. The last two are reported, each once, and nothing
else is.
-/

namespace GemScribe

open Observation

/-- A turn together with the lines that it gives, those of each observation of its stat apart. -/
structure Account extends Turn where
  parts : List (List Text)

namespace Account

/-- The lines of a turn, from the first observation of its stat to the last. -/
def lines (a : Account) : List Text :=
  a.parts.flatten

/-- The parts of an account are the lines of the steps of its block; without a block it has none. -/
def Settled (grouped : Grouped) (a : Account) : Prop :=
  match a.fate with
  | .rendered block place => (⟨a.id, a.values, block, place⟩ : Request).Steps grouped a.parts
  | _ => a.parts = []

end Account

variable {blocks : List Block} {skip : Bool} {grouped : Grouped} {os : List Observation}

/-! ### Accounts of turns -/

theorem Turn.exists_settled {turn : Turn} {segment : List Text}
    (h : turn.lines grouped = .ok segment) :
    ∃ a : Account, a.toTurn = turn ∧ a.Settled grouped ∧ a.lines = segment := by
  obtain ⟨id, values, fate⟩ := turn
  cases fate with
  | rendered block place =>
    have hrequest : Turn.request? ⟨id, values, .rendered block place⟩ = some ⟨id, values, block, place⟩ :=
      rfl
    obtain ⟨parts, hparts, rfl⟩ := (Turn.lines_eq_ok_of_request hrequest).mp h
    exact ⟨⟨⟨id, values, .rendered block place⟩, parts⟩, rfl, hparts, rfl⟩
  | alreadyRendered => exact ⟨⟨⟨id, values, .alreadyRendered⟩, []⟩, rfl, rfl, Except.ok.inj h⟩
  | undescribed => exact ⟨⟨⟨id, values, .undescribed⟩, []⟩, rfl, rfl, Except.ok.inj h⟩

theorem exists_accounts_of_turns : ∀ {ts : List Turn} {segments : List (List Text)},
    List.Forall₂ (fun t segment => t.lines grouped = .ok segment) ts segments →
      ∃ accounts : List Account, accounts.map Account.toTurn = ts ∧
        (∀ a ∈ accounts, a.Settled grouped) ∧ accounts.map Account.lines = segments
  | [], _, .nil => ⟨[], rfl, by simp, rfl⟩
  | t :: ts, _, .cons h hrest => by
      obtain ⟨a, rfl, ha, rfl⟩ := Turn.exists_settled h
      obtain ⟨accounts, rfl, haccounts, rfl⟩ := exists_accounts_of_turns hrest
      exact ⟨a :: accounts, rfl, List.forall_mem_cons.mpr ⟨ha, haccounts⟩, rfl⟩

/-- One account for each turn of a resolution, in their order. -/
structure TurnAccounts (blocks : List Block) (skip : Bool) (os : List Observation)
    (accounts : List Account) : Prop where
  turns : accounts.map Account.toTurn = turns blocks skip (Grouped.ofObservations os)
  settled : ∀ a ∈ accounts, a.Settled (Grouped.ofObservations os)

/-- A resolution that returns has an account of each of its turns. -/
theorem exists_turnAccounts {lines : List Text} (h : (resolve blocks skip os).outcome = .ok lines) :
    ∃ accounts, TurnAccounts blocks skip os accounts ∧ lines = accounts.flatMap Account.lines := by
  obtain ⟨segments, hsegments, rfl⟩ := resolve_outcome_eq_ok_turns.mp h
  obtain ⟨accounts, hturns, hsettled, rfl⟩ := exists_accounts_of_turns hsegments
  exact ⟨accounts, ⟨hturns, hsettled⟩, List.flatMap_def.symm⟩

/-! ### Fates -/

/-- What the accounts of a resolution say of its stats: one account for each, in the order in which the
stats are first seen, with one of three fates. -/
structure Accounting (blocks : List Block) (skip : Bool) (os : List Observation)
    (accounts : List Account) : Prop where
  order : accounts.map (·.id) = seenIds os
  one : ∀ id ∈ seenIds os, ∃! a, a ∈ accounts ∧ a.id = id
  rendered : ∀ a ∈ accounts, ∀ block place, a.fate = .rendered block place →
    Block.describing? blocks a.id = some (block, place) ∧
      Request.Steps (Grouped.ofObservations os) ⟨a.id, valuesFor os a.id, block, place⟩ a.parts ∧
      a.parts.length = (valuesFor os a.id).length ∧ ∀ part ∈ a.parts, 1 ≤ part.length
  repeated : ∀ earlier a later, accounts = earlier ++ a :: later → a.fate = .alreadyRendered →
    a.parts = [] ∧ skip = true ∧
      ∃ b ∈ earlier, ∃ block place, b.fate = .rendered block place ∧ a.id ∈ block.ids
  undescribed : ∀ a ∈ accounts, a.fate = .undescribed →
    a.parts = [] ∧ ∀ block ∈ blocks, block.templates ≠ [] → a.id ∉ block.ids

variable {accounts : List Account}

namespace TurnAccounts

theorem order (h : TurnAccounts blocks skip os accounts) : accounts.map (·.id) = seenIds os := by
  rw [← map_id_turns, ← h.turns, List.map_map]
  rfl

theorem mem_turns (h : TurnAccounts blocks skip os accounts) {a : Account} (ha : a ∈ accounts) :
    a.toTurn ∈ GemScribe.turns blocks skip (Grouped.ofObservations os) :=
  h.turns ▸ List.mem_map_of_mem ha

/-- Two accounts of one stat are the same account. -/
theorem existsUnique (h : TurnAccounts blocks skip os accounts) {id : Text} (hid : id ∈ seenIds os) :
    ∃! a, a ∈ accounts ∧ a.id = id := by
  have hnodup : (accounts.map (·.id)).Nodup := h.order ▸ nodup_seenIds os
  rw [← h.order] at hid
  obtain ⟨a, ha, rfl⟩ := List.mem_map.mp hid
  exact ⟨a, ⟨ha, rfl⟩, fun b hb => List.inj_on_of_nodup_map hnodup hb.1 ha hb.2⟩

theorem steps (h : TurnAccounts blocks skip os accounts) {a : Account} (ha : a ∈ accounts)
    {block : Block} {place : Nat} (hfate : a.fate = .rendered block place) :
    Request.Steps (Grouped.ofObservations os) ⟨a.id, valuesFor os a.id, block, place⟩ a.parts := by
  have hsettled := h.settled a ha
  rw [Account.Settled, hfate, values_of_mem_turns (h.mem_turns ha)] at hsettled
  exact hsettled

theorem parts_eq_nil (h : TurnAccounts blocks skip os accounts) {a : Account} (ha : a ∈ accounts)
    (hfate : ∀ block place, a.fate ≠ .rendered block place) : a.parts = [] := by
  have hsettled := h.settled a ha
  rw [Account.Settled] at hsettled
  split at hsettled
  · next block place hrendered => exact absurd hrendered (hfate block place)
  · exact hsettled

theorem accounting (h : TurnAccounts blocks skip os accounts) :
    Accounting blocks skip os accounts where
  order := h.order
  one := fun id hid => h.existsUnique hid
  rendered := by
    intro a ha block place hfate
    have hd := (describing?_of_mem_turns (h.mem_turns ha) hfate).2
    have hsteps := h.steps ha hfate
    refine ⟨hd, hsteps, hsteps.length_eq, fun part hpart => ?_⟩
    exact (hsteps.kept (Block.templates_ne_nil_of_describing? hd) part hpart).1
  repeated := by
    intro earlier a later heq hfate
    have ha : a ∈ accounts := heq ▸ List.mem_append_right _ List.mem_cons_self
    have hcut := h.turns.symm
    rw [heq, List.map_append, List.map_cons] at hcut
    obtain ⟨hskip, other, hother, block, place, hrendered, hid⟩ :=
      exists_shown_of_alreadyRendered hcut hfate
    obtain ⟨b, hb, rfl⟩ := List.mem_map.mp hother
    exact ⟨h.parts_eq_nil ha (by simp [hfate]), hskip, b, hb, block, place, hrendered, hid⟩
  undescribed := by
    intro a ha hfate
    have hnone := describing?_of_undescribed (h.mem_turns ha) hfate
    exact ⟨h.parts_eq_nil ha (by simp [hfate]), Block.describing?_eq_none_iff.mp hnone⟩

end TurnAccounts

/-! ### Reports -/

theorem emptyPlaces_eq : ∀ (start : Nat) (os : List Observation),
    emptyPlaces start os = ((os.zipIdx start).filter fun entry => entry.1.id.isEmpty).map Prod.snd
  | _, [] => rfl
  | start, o :: os => by
      rw [emptyPlaces, emptyPlaces_eq (start + 1) os, List.zipIdx_cons, List.filter_cons]
      split
      · rfl
      · rfl

theorem mem_emptyPlaces {place : Nat} :
    place ∈ emptyPlaces 0 os ↔ ∃ o, os[place]? = some o ∧ o.id = [] := by
  simp [emptyPlaces_eq, List.mem_zipIdx_iff_getElem?]

theorem nodup_emptyPlaces : (emptyPlaces 0 os).Nodup := by
  rw [emptyPlaces_eq]
  have hplaces : (os.zipIdx.map Prod.snd).Nodup := by
    rw [List.zipIdx_map_snd]
    exact List.nodup_range'
  exact hplaces.sublist (List.filter_sublist.map Prod.snd)

theorem length_emptyPlaces (start : Nat) (os : List Observation) :
    (emptyPlaces start os).length = os.countP fun o => o.id.isEmpty := by
  rw [emptyPlaces_eq, List.length_map, ← List.countP_eq_length_filter]
  conv_rhs => rw [← List.zipIdx_map_fst start os, List.countP_map]
  rfl

/-- The places of observations without an id are noted before the turns. -/
theorem events_resolve_eq (hos : os ≠ []) : (resolve blocks skip os).events =
    (emptyPlaces 0 os).map .emptyId ++
      (Journal.each (Turn.play (Grouped.ofObservations os))
        (turns blocks skip (Grouped.ofObservations os)) >>= fun lines => pure lines.flatten).events := by
  have hgroup : (group os).outcome = .ok (Grouped.ofObservations os) := rfl
  rw [resolve, if_neg (by simpa using hos), Journal.andThen_ok hgroup]
  rfl

/-- A resolution that returns has noted the observations without an id, and then what its turns report. -/
theorem events_resolve {lines : List Text} (hos : os ≠ [])
    (h : (resolve blocks skip os).outcome = .ok lines) :
    (resolve blocks skip os).events = (emptyPlaces 0 os).map .emptyId ++
      (turns blocks skip (Grouped.ofObservations os)).flatMap Turn.events := by
  rw [resolve_outcome_eq_each] at h
  obtain ⟨segments, hsegments, -⟩ := Journal.outcome_bind_eq_ok.mp h
  rw [events_resolve_eq hos, Journal.andThen_ok hsegments, Journal.events_each hsegments]
  simp only [Turn.play, pure, List.append_nil]

/-- What is reported of observations and accounts: places without an id, then stats in the order of their
accounts; nothing twice, and nothing else. -/
structure Reported (os : List Observation) (accounts : List Account) (events : List Event) : Prop where
  order : events = (emptyPlaces 0 os).map .emptyId ++ accounts.flatMap (·.events)
  once : events.Nodup
  emptyIds : ∀ place, .emptyId place ∈ events ↔ ∃ o, os[place]? = some o ∧ o.id = []
  alreadyRendered : ∀ id, .alreadyRendered id ∈ events ↔
    ∃ a ∈ accounts, a.id = id ∧ a.fate = .alreadyRendered
  undescribed : ∀ id, .undescribed id ∈ events ↔ ∃ a ∈ accounts, a.id = id ∧ a.fate = .undescribed
  only : ∀ e ∈ events, (∃ place, e = .emptyId place ∧ e.level = .warning) ∨
    (∃ id, e = .alreadyRendered id ∧ e.level = .debug) ∨
    ∃ id, e = .undescribed id ∧ e.level = .warning

/-- What a turn reports, by its fate. -/
theorem Turn.mem_events {turn : Turn} {e : Event} :
    e ∈ turn.events ↔ turn.fate = .alreadyRendered ∧ e = .alreadyRendered turn.id ∨
      turn.fate = .undescribed ∧ e = .undescribed turn.id := by
  obtain ⟨_, _, fate⟩ := turn
  cases fate <;> simp [Turn.events]

theorem Turn.id_eq_of_mem_events {turn turn' : Turn} {e : Event} (h : e ∈ turn.events)
    (h' : e ∈ turn'.events) : turn.id = turn'.id := by
  rw [Turn.mem_events] at h h'
  rcases h with ⟨-, rfl⟩ | ⟨-, rfl⟩
  · rcases h' with ⟨-, h'⟩ | ⟨-, h'⟩
    · exact Event.alreadyRendered.inj h'
    · cases h'
  · rcases h' with ⟨-, h'⟩ | ⟨-, h'⟩
    · cases h'
    · exact Event.undescribed.inj h'

/-- Accounts of different stats report different events. -/
theorem nodup_flatMap_events : ∀ {accounts : List Account}, (accounts.map (·.id)).Nodup →
    (accounts.flatMap (·.events)).Nodup
  | [], _ => List.nodup_nil
  | a :: accounts, h => by
      rw [List.map_cons, List.nodup_cons] at h
      have hown : a.events.Nodup := by
        obtain ⟨⟨_, _, fate⟩, _⟩ := a
        cases fate <;> simp [Turn.events]
      rw [List.flatMap_cons, List.nodup_append]
      refine ⟨hown, nodup_flatMap_events h.2, fun e he e' he' heq => h.1 ?_⟩
      subst heq
      obtain ⟨b, hb, he'⟩ := List.mem_flatMap.mp he'
      exact List.mem_map.mpr ⟨b, hb, Turn.id_eq_of_mem_events he' he⟩

theorem reported_of_nodup (hids : (accounts.map (·.id)).Nodup) :
    Reported os accounts ((emptyPlaces 0 os).map .emptyId ++ accounts.flatMap (·.events)) where
  order := rfl
  once := by
    rw [List.nodup_append]
    refine ⟨nodup_emptyPlaces.map fun _ _ h => Event.emptyId.inj h, nodup_flatMap_events hids, ?_⟩
    rintro _ he _ he' rfl
    obtain ⟨place, -, rfl⟩ := List.mem_map.mp he
    obtain ⟨a, -, he'⟩ := List.mem_flatMap.mp he'
    simp [Turn.mem_events] at he'
  emptyIds := by
    intro place
    simp [Turn.mem_events, mem_emptyPlaces]
  alreadyRendered := by
    intro id
    simp [Turn.mem_events, and_comm, eq_comm]
  undescribed := by
    intro id
    simp [Turn.mem_events, and_comm, eq_comm]
  only := by
    intro e he
    rw [List.mem_append, List.mem_map, List.mem_flatMap] at he
    rcases he with ⟨place, -, rfl⟩ | ⟨a, -, he⟩
    · exact Or.inl ⟨place, rfl, rfl⟩
    · rcases Turn.mem_events.mp he with ⟨-, rfl⟩ | ⟨-, rfl⟩
      · exact Or.inr (Or.inl ⟨a.id, rfl, rfl⟩)
      · exact Or.inr (Or.inr ⟨a.id, rfl, rfl⟩)

/-- A resolution that returns accounts for every observation: each stat gives its lines, or was shown by a
block before, or has no block, and all but the first are reported once, as are the observations without an
id. -/
theorem resolve_accounts_for_every_observation (blocks : List Block) (skip : Bool)
    (os : List Observation) (lines : List Text) (hos : os ≠ [])
    (h : (resolve blocks skip os).outcome = .ok lines) :
    ∃ accounts, Accounting blocks skip os accounts ∧ lines = accounts.flatMap Account.lines ∧
      Reported os accounts (resolve blocks skip os).events := by
  obtain ⟨accounts, haccounts, hlines⟩ := exists_turnAccounts h
  refine ⟨accounts, haccounts.accounting, hlines, ?_⟩
  have hevents : (turns blocks skip (Grouped.ofObservations os)).flatMap Turn.events =
      accounts.flatMap (·.events) := by
    rw [← haccounts.turns, List.flatMap_map]
  rw [events_resolve hos h, hevents]
  exact reported_of_nodup (haccounts.order ▸ nodup_seenIds os)

/-- Two levels of `x` and one of `y`, which share a block, a stat `z` without a block, and an observation
without an id. -/
def mixedObservations : List Observation :=
  [⟨"x".toList, .ofInt 1⟩, ⟨"z".toList, .ofInt 3⟩, ⟨[], .ofInt 9⟩, ⟨"y".toList, .ofInt 2⟩,
    ⟨"x".toList, .ofInt 4⟩]

/-- Each of the three fates, and an observation without an id. -/
theorem resolve_mixedObservations :
    (resolve pairedBlocks true mixedObservations).outcome = .ok ["1 2".toList, "4 0".toList] ∧
    (resolve pairedBlocks true mixedObservations).events =
      [.emptyId 2, .undescribed "z".toList, .alreadyRendered "y".toList] ∧
    ∃ accounts, Accounting pairedBlocks true mixedObservations accounts ∧
      ["1 2".toList, "4 0".toList] = accounts.flatMap Account.lines ∧
      Reported mixedObservations accounts (resolve pairedBlocks true mixedObservations).events :=
  ⟨rfl, rfl, resolve_accounts_for_every_observation _ _ _ _ (by decide) rfl⟩

end GemScribe
