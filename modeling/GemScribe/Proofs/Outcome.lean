import GemScribe.Journal
import Mathlib.Data.List.Forall2

/-!
How runs end.

A run in steps ends with a result exactly when each of its steps does, and ends with a fault exactly
when one of its steps is the first to end so. The lemmas here say this once for calculations, for
journals and for runs over a list, so that no other proof takes a monad apart.
-/

namespace GemScribe

variable {ε α β : Type}

theorem bind_eq_ok {x : Except ε α} {f : α → Except ε β} {b : β} :
    (x >>= f) = .ok b ↔ ∃ a, x = .ok a ∧ f a = .ok b := by
  cases x with
  | error e => simp [bind, Except.bind]
  | ok a => simp [bind, Except.bind]

theorem bind_eq_error {x : Except ε α} {f : α → Except ε β} {e : ε} :
    (x >>= f) = .error e ↔ x = .error e ∨ ∃ a, x = .ok a ∧ f a = .error e := by
  cases x with
  | error e' => simp [bind, Except.bind]
  | ok a => simp [bind, Except.bind]

/-- What corresponds to an item of the second list. -/
theorem exists_of_forall₂ {R : α → β → Prop} {as : List α} {bs : List β} (h : List.Forall₂ R as bs)
    {b : β} (hb : b ∈ bs) : ∃ a ∈ as, R a b := by
  induction h with
  | nil => cases hb
  | cons hR _ ih =>
    rcases List.mem_cons.mp hb with rfl | hb
    · exact ⟨_, List.mem_cons_self, hR⟩
    · obtain ⟨a, ha, hR⟩ := ih hb
      exact ⟨a, List.mem_cons_of_mem _ ha, hR⟩

namespace Fault

theorem ofNumber_eq_ok {x : Except NumberFault α} {a : α} : ofNumber x = .ok a ↔ x = .ok a := by
  cases x <;> simp [ofNumber]

theorem ofNumber_eq_error {x : Except NumberFault α} {fault : Fault} :
    ofNumber x = .error fault ↔ ∃ cause, x = .error cause ∧ fault = .number cause := by
  cases x <;> simp [ofNumber, eq_comm]

theorem ofReading_eq_ok {r : Reading α} {a : α} : ofReading r = .ok a ↔ r = .fits a := by
  cases r <;> simp [ofReading]

end Fault

namespace Reading

theorem under_eq_fits {step : Text} {r : Reading α} {a : α} : under step r = .fits a ↔ r = .fits a := by
  cases r <;> simp [under]

theorem map_eq_fits {f : α → β} {r : Reading α} {b : β} : f <$> r = .fits b ↔ ∃ a, r = .fits a ∧ f a = b := by
  cases r <;> simp [Functor.map, map]

theorem seq_eq_fits {f : Reading (α → β)} {r : Reading α} {b : β} :
    f <*> r = .fits b ↔ ∃ g a, f = .fits g ∧ r = .fits a ∧ g a = b := by
  cases f <;> cases r <;> simp [Seq.seq, apply]

theorem check_eq_fits {r : Reading α} {test : α → Except Text β} {b : β} :
    r.check test = .fits b ↔ ∃ a, r = .fits a ∧ test a = .ok b := by
  cases r with
  | misfits ms => simp [check]
  | fits a => cases h : test a <;> simp [check, complain, h]

/-- A value was read. -/
def Fits (r : Reading α) : Prop :=
  ∃ a, r = .fits a

section

variable {f : Reading (α → β)} {r : Reading α}

theorem Fits.function (h : (f <*> r).Fits) : f.Fits := by
  obtain ⟨b, hb⟩ := h
  cases f with
  | fits g => exact ⟨g, rfl⟩
  | misfits ms => cases r <;> cases hb

theorem Fits.argument (h : (f <*> r).Fits) : r.Fits := by
  obtain ⟨b, hb⟩ := h
  cases r with
  | fits a => exact ⟨a, rfl⟩
  | misfits ms => cases f <;> cases hb

end

end Reading

/-- A field that need not be given was read, or its own value stands for it. -/
theorem Row.withDefault_eq_fits {row : Row} {name : String} {value a : α} {read : Datum → Reading α} :
    row.withDefault name value read = .fits a ↔
      (row.find? name.toList = none ∧ value = a) ∨
        ∃ d, row.find? name.toList = some d ∧ read d = .fits a := by
  cases h : row.find? name.toList <;> simp [withDefault, h, Reading.under_eq_fits]

namespace Journal

theorem outcome_bind_eq_ok {j : Journal α} {next : α → Journal β} {b : β} :
    (j >>= next).outcome = .ok b ↔ ∃ a, j.outcome = .ok a ∧ (next a).outcome = .ok b := by
  cases h : j.outcome with
  | error fault => rw [andThen_error h]; simp
  | ok a => rw [andThen_ok h]; simp

theorem outcome_bind_eq_error {j : Journal α} {next : α → Journal β} {fault : Fault} :
    (j >>= next).outcome = .error fault ↔
      j.outcome = .error fault ∨ ∃ a, j.outcome = .ok a ∧ (next a).outcome = .error fault := by
  cases h : j.outcome with
  | error fault => rw [andThen_error h]; simp
  | ok a => rw [andThen_ok h]; simp

theorem outcome_bind_of_ok {j : Journal α} {a : α} (h : j.outcome = .ok a)
    (next : α → Journal β) : (j >>= next).outcome = (next a).outcome := by
  rw [andThen_ok h]

theorem outcome_pure (a : α) : (pure a : Journal α).outcome = pure a :=
  rfl

theorem outcome_bind (j : Journal α) (next : α → Journal β) :
    (j >>= next).outcome = j.outcome >>= fun a => (next a).outcome := by
  cases h : j.outcome with
  | error fault => rw [andThen_error h]; rfl
  | ok a => rw [andThen_ok h]; rfl

theorem mem_events_bind {j : Journal α} {next : α → Journal β} {e : Event} :
    e ∈ (j >>= next).events ↔ e ∈ j.events ∨ ∃ a, j.outcome = .ok a ∧ e ∈ (next a).events := by
  cases h : j.outcome with
  | error fault => rw [andThen_error h]; simp
  | ok a => rw [andThen_ok h]; simp

/-- Two runs with the same beginning are the same when they go on alike after its result. -/
theorem bind_congr_of_ok {j : Journal α} {next next' : α → Journal β}
    (h : ∀ a, j.outcome = .ok a → next a = next' a) : (j >>= next) = (j >>= next') := by
  cases hj : j.outcome with
  | error fault => rw [andThen_error hj, andThen_error hj]
  | ok a => rw [andThen_ok hj, andThen_ok hj, h a hj]

/-- A note that is made in one case only does not matter for the outcome. -/
theorem outcome_ite_bind {c : Prop} [Decidable c] {e : Event} {next : Unit → Journal α} :
    (if c then note e >>= next else next ()).outcome = (next ()).outcome := by
  split <;> rfl

theorem exists_of_ite_bind {c : Prop} [Decidable c] {j j' : Journal α} {next : α → Journal β} {b : β}
    (h : (if c then j >>= next else j' >>= next).outcome = .ok b) : ∃ a, (next a).outcome = .ok b := by
  split at h
  all_goals
    obtain ⟨a, -, h⟩ := outcome_bind_eq_ok.mp h
    exact ⟨a, h⟩

/-- A run over two lists, one after the other. -/
theorem each_append (run : β → Journal α) : ∀ as bs : List β,
    each run (as ++ bs) =
      each run as >>= fun first => each run bs >>= fun rest => pure (first ++ rest)
  | [], bs => by simp [each]
  | a :: as, bs => by simp [each, each_append run as bs, bind_assoc]

theorem each_congr {run run' : β → Journal α} : ∀ {bs : List β}, (∀ b ∈ bs, run b = run' b) →
    each run bs = each run' bs
  | [], _ => rfl
  | b :: bs, h => by
      rw [List.forall_mem_cons] at h
      rw [each, each, h.1, each_congr h.2]

/-- A run over a list returns what its items return, one after another. -/
theorem outcome_each_eq_ok {run : β → Journal α} : ∀ {bs : List β} {as : List α},
    (each run bs).outcome = .ok as ↔ List.Forall₂ (fun b a => (run b).outcome = .ok a) bs as
  | [], as => by
      rw [List.forall₂_nil_left_iff, each]
      exact ⟨fun h => (Except.ok.inj h).symm, fun h => congrArg Except.ok h.symm⟩
  | b :: bs, as => by
      rw [each, List.forall₂_cons_left_iff, outcome_bind_eq_ok]
      constructor
      · rintro ⟨a, ha, h⟩
        obtain ⟨rest, hrest, h⟩ := outcome_bind_eq_ok.mp h
        exact ⟨a, rest, ha, outcome_each_eq_ok.mp hrest, (Except.ok.inj h).symm⟩
      · rintro ⟨a, rest, ha, hrest, rfl⟩
        exact ⟨a, ha, outcome_bind_eq_ok.mpr ⟨rest, outcome_each_eq_ok.mpr hrest, rfl⟩⟩

/-- A run over a list that returns has noted what its items note, one after another. -/
theorem events_each {run : β → Journal α} : ∀ {bs : List β} {as : List α},
    (each run bs).outcome = .ok as → (each run bs).events = bs.flatMap fun b => (run b).events
  | [], _, _ => rfl
  | b :: bs, as, h => by
      rw [each] at h ⊢
      obtain ⟨a, ha, h⟩ := outcome_bind_eq_ok.mp h
      obtain ⟨rest, hrest, -⟩ := outcome_bind_eq_ok.mp h
      rw [andThen_ok ha, andThen_ok hrest, List.flatMap_cons, events_each hrest]
      simp only [pure, List.append_nil]

/-- A fault of a run over a list is the fault of one of its items. -/
theorem exists_of_outcome_each_eq_error {run : β → Journal α} {fault : Fault} : ∀ {bs : List β},
    (each run bs).outcome = .error fault → ∃ b ∈ bs, (run b).outcome = .error fault
  | [], h => by cases h
  | b :: bs, h => by
      rw [each, outcome_bind_eq_error] at h
      rcases h with h | ⟨a, -, h⟩
      · exact ⟨b, List.mem_cons_self, h⟩
      · rcases outcome_bind_eq_error.mp h with h | ⟨rest, -, h⟩
        · obtain ⟨c, hc, h⟩ := exists_of_outcome_each_eq_error h
          exact ⟨c, List.mem_cons_of_mem b hc, h⟩
        · cases h

/-! ### Runs that return -/

/-- The run ends with a result. -/
def Returns (j : Journal α) : Prop :=
  ∃ a, j.outcome = .ok a

theorem returns_pure (a : α) : (pure a : Journal α).Returns :=
  ⟨a, rfl⟩

theorem returns_bind_of_ok {j : Journal α} {a : α} {next : α → Journal β} (h : j.outcome = .ok a)
    (hnext : (next a).Returns) : (j >>= next).Returns := by
  rwa [Returns, outcome_bind_of_ok h]

theorem Returns.bind {j : Journal α} {next : α → Journal β} (h : j.Returns)
    (hnext : ∀ a, j.outcome = .ok a → (next a).Returns) : (j >>= next).Returns := by
  obtain ⟨a, ha⟩ := h
  exact returns_bind_of_ok ha (hnext a ha)

theorem returns_ofExcept {x : Except Fault α} : (ofExcept x).Returns ↔ ∃ a, x = .ok a :=
  Iff.rfl

/-! ### Runs that fail in one case -/

/-- The run ends with the fault in the bad case, and with a result in every other case. -/
def FailsWhen (bad : Prop) (fault : Fault) (j : Journal α) : Prop :=
  (¬bad ∧ j.Returns) ∨ (bad ∧ j.outcome = .error fault)

section

variable {bad : Prop} {fault : Fault} {j : Journal α} {next : α → Journal β}

theorem failsWhen_of_outcome_eq {j' : Journal α} (h : j.outcome = j'.outcome)
    (hj' : j'.FailsWhen bad fault) : j.FailsWhen bad fault := by
  rwa [FailsWhen, Returns, h]

theorem failsWhen_bind_of_ok {a : α} (h : j.outcome = .ok a)
    (hnext : (next a).FailsWhen bad fault) : (j >>= next).FailsWhen bad fault :=
  failsWhen_of_outcome_eq (outcome_bind_of_ok h next) hnext

theorem FailsWhen.bind (h : j.FailsWhen bad fault)
    (hnext : ∀ a, j.outcome = .ok a → (next a).Returns) : (j >>= next).FailsWhen bad fault := by
  rcases h with ⟨hgood, hj⟩ | ⟨hbad, hj⟩
  · exact Or.inl ⟨hgood, hj.bind hnext⟩
  · exact Or.inr ⟨hbad, outcome_bind_eq_error.mpr (Or.inl hj)⟩

end

/-- A run over a list fails when an item does: the first one that does ends it. -/
theorem each_failsWhen {run : β → Journal α} {bad : β → Prop} {fault : Fault} : ∀ {bs : List β},
    (∀ b ∈ bs, (run b).FailsWhen (bad b) fault) →
      (each run bs).FailsWhen (∃ b ∈ bs, bad b) fault
  | [], _ => Or.inl ⟨by simp, returns_pure []⟩
  | b :: bs, h => by
      rw [List.forall_mem_cons] at h
      rw [each, List.exists_mem_cons_iff]
      rcases h.1 with ⟨hgood, a, ha⟩ | ⟨hbad, hb⟩
      · simp only [hgood, false_or]
        exact failsWhen_bind_of_ok ha ((each_failsWhen h.2).bind fun as _ => returns_pure _)
      · exact Or.inr ⟨Or.inl hbad, outcome_bind_eq_error.mpr (Or.inl hb)⟩

end Journal

end GemScribe
