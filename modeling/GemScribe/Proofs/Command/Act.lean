import GemScribe.Command.Finish
import GemScribe.Proofs.Outcome

/-!
Acts that stay within bounds.

An act is *confined* to deeds of some kind when it does no others and does not end the command as if its work
were done. Acts are confined when their parts are, one after another.
-/

namespace GemScribe

namespace Deed

def IsComplaint (deed : Deed) : Prop :=
  ∃ t, deed = complain t

/-- Nothing is printed and no file is written. -/
def IsPreparation (deed : Deed) : Prop :=
  deed.printed = [] ∧ deed.written = []

theorem IsComplaint.isPreparation {deed : Deed} (h : deed.IsComplaint) : deed.IsPreparation := by
  obtain ⟨t, rfl⟩ := h
  exact ⟨rfl, rfl⟩

end Deed

namespace Act

variable {α β : Type} {a : Act α} {next : α → Act β} {x : α} {y : β} {halt : Halt}

/-! ### One act after another -/

theorem bind_of_ok (h : a.outcome = .ok x) (next : α → Act β) :
    (a >>= next) = ⟨a.deeds ++ (next x).deeds, (next x).outcome⟩ := by
  simp only [bind, andThen, h]

theorem bind_of_error (h : a.outcome = .error halt) (next : α → Act β) :
    (a >>= next) = ⟨a.deeds, .error halt⟩ := by
  simp only [bind, andThen, h]

theorem outcome_bind_eq_ok :
    (a >>= next).outcome = .ok y ↔ ∃ x, a.outcome = .ok x ∧ (next x).outcome = .ok y := by
  cases h : a.outcome with
  | error halt => rw [bind_of_error h]; simp
  | ok x => rw [bind_of_ok h]; simp

theorem pure_bind (x : α) (next : α → Act β) : (pure x >>= next) = next x :=
  rfl

theorem ofCrash_ok_bind (x : α) (next : α → Act β) : (ofCrash (.ok x) >>= next) = next x :=
  rfl

theorem ofExcept_ok_bind (x : α) (next : α → Act β) : (ofExcept (.ok x) >>= next) = next x :=
  rfl

theorem outcome_ofCrash_eq_ok {r : Except Crash α} : (ofCrash r).outcome = .ok x ↔ r = .ok x := by
  cases r <;> simp [ofCrash, Except.mapError]

theorem ofFault_eq_ok {r : Except Fault α} : Crash.ofFault r = .ok x ↔ r = .ok x := by
  cases r <;> simp [Crash.ofFault, Except.mapError]

theorem outcome_ofExcept_eq_ok {r : Except Fault α} : (ofExcept r).outcome = .ok x ↔ r = .ok x := by
  rw [ofExcept, outcome_ofCrash_eq_ok, ofFault_eq_ok]

/-- A run with its log shown ends as the run does. -/
theorem ofJournal_eq (level : LogLevel) (j : Journal α) :
    ofJournal level j = ⟨(log level j.events).deeds, (ofExcept j.outcome).outcome⟩ := by
  rw [ofJournal, bind_of_ok rfl]
  simp [ofExcept, ofCrash]

/-! ### Confined acts -/

/-- Nothing is done but what is allowed, and the command is not ended with status zero. -/
structure Confined (allowed : Deed → Prop) (a : Act α) : Prop where
  deeds : ∀ deed ∈ a.deeds, allowed deed
  outcome : a.outcome ≠ .error (.exit 0)

section

variable {allowed : Deed → Prop}

theorem Confined.bind (h : a.Confined allowed) (hnext : ∀ x, a.outcome = .ok x → (next x).Confined allowed) :
    (a >>= next).Confined allowed := by
  cases hx : a.outcome with
  | error halt =>
    rw [bind_of_error hx]
    refine ⟨h.deeds, fun hexit => ?_⟩
    cases hexit
    exact h.outcome hx
  | ok x =>
    rw [bind_of_ok hx]
    constructor
    · intro deed hdeed
      rcases List.mem_append.mp hdeed with hdeed | hdeed
      · exact h.deeds deed hdeed
      · exact (hnext x hx).deeds deed hdeed
    · exact (hnext x hx).outcome

theorem Confined.mono {allowed' : Deed → Prop} (h : a.Confined allowed)
    (hallowed : ∀ deed, allowed deed → allowed' deed) : a.Confined allowed' :=
  ⟨fun deed hdeed => hallowed deed (h.deeds deed hdeed), h.outcome⟩

theorem confined_pure (x : α) : (pure x : Act α).Confined allowed :=
  ⟨fun _ h => absurd h List.not_mem_nil, by rintro ⟨⟩⟩

theorem confined_exit {status : Nat} (h : status ≠ 0) : (exit status : Act α).Confined allowed := by
  constructor
  · exact fun _ h => absurd h List.not_mem_nil
  · intro hexit
    simp only [exit, Except.error.injEq, Halt.exit.injEq] at hexit
    exact h hexit

theorem confined_ofCrash (r : Except Crash α) : (ofCrash r).Confined allowed := by
  constructor
  · exact fun _ h => absurd h List.not_mem_nil
  · cases r <;> simp [ofCrash, Except.mapError]

theorem confined_ofExcept (r : Except Fault α) : (ofExcept r).Confined allowed :=
  confined_ofCrash _

theorem confined_perform {deed : Deed} (h : allowed deed) : (perform deed).Confined allowed :=
  ⟨fun _ hdeed => List.mem_singleton.mp hdeed ▸ h, by rintro ⟨⟩⟩

theorem confined_log (level : LogLevel) (events : List Event) :
    (log level events).Confined Deed.IsComplaint := by
  constructor
  · intro deed hdeed
    obtain ⟨e, -, rfl⟩ := List.mem_map.mp hdeed
    exact ⟨e.line, rfl⟩
  · rintro ⟨⟩

theorem confined_ofJournal (level : LogLevel) (j : Journal α) :
    (ofJournal level j).Confined Deed.IsComplaint :=
  (confined_log level j.events).bind fun _ _ => confined_ofExcept j.outcome

theorem confined_refuse (words : Text) : (refuse words : Act α).Confined Deed.IsComplaint :=
  (confined_perform ⟨_, rfl⟩).bind fun _ _ => confined_exit (by decide)

end

/-- What an act that only complains has said. -/
theorem Confined.exists_complaints (h : a.Confined Deed.IsComplaint) :
    ∃ words : List Text, a.deeds = words.map .complain := by
  have hcomplained : ∀ deed ∈ a.deeds, Deed.complain deed.complained = deed := by
    intro deed hdeed
    obtain ⟨t, rfl⟩ := h.deeds deed hdeed
    rfl
  refine ⟨a.deeds.map Deed.complained, ?_⟩
  have hmap : a.deeds.map (fun deed => Deed.complain deed.complained) = a.deeds.map id :=
    List.map_congr_left hcomplained
  rw [List.map_map]
  exact (hmap.trans (List.map_id _)).symm

theorem Confined.printed (h : a.Confined Deed.IsPreparation) : a.printed = [] :=
  List.flatMap_eq_nil_iff.mpr fun deed hdeed => (h.deeds deed hdeed).1

theorem Confined.written (h : a.Confined Deed.IsPreparation) : a.written = [] :=
  List.flatMap_eq_nil_iff.mpr fun deed hdeed => (h.deeds deed hdeed).2

theorem status?_of_crash {cause : Crash} (h : a.outcome = .error (.crash cause)) : a.status? = none := by
  obtain ⟨deeds, outcome⟩ := a
  cases h
  rfl

/-! ### Acts that stop -/

/-- Nothing is done but what is allowed, and the act does not come to its end. -/
structure Stops (allowed : Deed → Prop) (a : Act α) : Prop extends Confined allowed a where
  halts : ∃ halt, a.outcome = .error halt

section

variable {allowed : Deed → Prop}

/-- An act that stops, stops what comes after it. -/
theorem Stops.bind (h : a.Stops allowed) (next : α → Act β) : (a >>= next).Stops allowed := by
  obtain ⟨⟨hdeeds, hexit⟩, halt, hhalt⟩ := h
  rw [hhalt] at hexit
  rw [bind_of_error hhalt]
  refine ⟨⟨hdeeds, fun heq => hexit ?_⟩, halt, rfl⟩
  cases heq
  rfl

/-- An act that stops may come after allowed deeds. -/
theorem Confined.bind_stops (h : a.Confined allowed) (hnext : ∀ x, a.outcome = .ok x → (next x).Stops allowed) :
    (a >>= next).Stops allowed := by
  refine ⟨h.bind fun x hx => (hnext x hx).toConfined, ?_⟩
  cases hx : a.outcome with
  | error halt => exact ⟨halt, by rw [bind_of_error hx]⟩
  | ok x =>
    obtain ⟨halt, hhalt⟩ := (hnext x hx).halts
    exact ⟨halt, by rw [bind_of_ok hx, hhalt]⟩

theorem stops_exit {status : Nat} (h : status ≠ 0) : (exit status : Act α).Stops allowed :=
  ⟨confined_exit h, _, rfl⟩

theorem Stops.status?_ne_zero (h : a.Stops allowed) : a.status? ≠ some 0 := by
  obtain ⟨⟨-, hexit⟩, halt, hhalt⟩ := h
  obtain ⟨deeds, outcome⟩ := a
  cases hhalt
  cases halt with
  | exit status =>
    intro hstatus
    cases hstatus
    exact hexit rfl
  | crash cause => rintro ⟨⟩

end

/-! ### Printing and writing -/

theorem print_of_hasHalf {t : Text} (h : Text.hasHalf t = true) : print t = crash (.coding .noBytes) :=
  if_pos h

theorem print_of_not_hasHalf {t : Text} (h : Text.hasHalf t = false) : print t = perform (.print t) :=
  if_neg (by rw [h]; decide)

/-- The text of a file that is written; without bytes it is empty. -/
def writtenText (t : Text) : Text :=
  if Text.hasHalf t then [] else t

/-- A file that is opened is written, and only a text with bytes lets the command go on. -/
theorem writeFile_of_newName {files : Files} {made : List Place} {path t : Text} {name : Option Text}
    (hspelling : Files.checkSpelling path = .ok ()) (hname : files.newName made path = .ok name) :
    writeFile files made path t = ⟨[.write ⟨path, writtenText t, name⟩],
      if Text.hasHalf t then .error (.crash (.coding .noBytes)) else .ok ()⟩ := by
  rw [writeFile, hspelling, hname, writtenText]
  cases Text.hasHalf t <;> rfl

end Act

end GemScribe
