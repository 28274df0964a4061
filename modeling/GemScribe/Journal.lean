import GemScribe.Fault

/-!
Runs that keep a journal.

A run notes events in order and ends with a result or a fault. What was noted before a fault stays
noted. An event is a cause; its wording, its level and the part of the program that reports it are
functions of it.
-/

namespace GemScribe

/-- The levels of a journal, each under the name by which settings choose it. -/
inductive LogLevel where
  | critical | fatal | error | warn | warning | info | debug | notset
  deriving DecidableEq, Repr

namespace LogLevel

def all : List LogLevel :=
  [.critical, .fatal, .error, .warn, .warning, .info, .debug, .notset]

def name : LogLevel → Text
  | .critical => "CRITICAL".toList
  | .fatal => "FATAL".toList
  | .error => "ERROR".toList
  | .warn => "WARN".toList
  | .warning => "WARNING".toList
  | .info => "INFO".toList
  | .debug => "DEBUG".toList
  | .notset => "NOTSET".toList

/-- Two of the levels have a second name. -/
def rank : LogLevel → Nat
  | .critical | .fatal => 50
  | .error => 40
  | .warn | .warning => 30
  | .info => 20
  | .debug => 10
  | .notset => 0

/-- The level of that name. -/
def ofName? (t : Text) : Option LogLevel :=
  all.find? fun level => level.name = t

theorem ofName?_name (level : LogLevel) : ofName? level.name = some level := by
  cases level <;> decide

end LogLevel

/-- What a run reports on its way. -/
inductive Event where
  | settingsOverridden (names : List Text)
  | emptyId (index : Nat)
  | nothingToResolve
  | alreadyRendered (id : Text)
  | undescribed (id : Text)
  | invalidReference (index : Nat) (ref : Datum)
  | invalidQualityRow (stats : Datum)
  | noBaseItem (name : Datum)
  | noCastTime (skill : Datum)
  | noGrantedEffect (skill : Datum)
  | noLevelRows (skill : Datum)
  | exporting (skill : Datum) (blocks : Nat)
  | invalidVersion (version : Datum)
  | tableNotInSchema (table version : Text)

namespace Event

def level : Event → LogLevel
  | settingsOverridden _ | alreadyRendered _ => .debug
  | exporting _ _ => .info
  | noCastTime _ | invalidVersion _ => .error
  | emptyId _ | nothingToResolve | undescribed _ | invalidReference _ _ | invalidQualityRow _
  | noBaseItem _ | noGrantedEffect _ | noLevelRows _ | tableNotInSchema _ _ => .warning

/-- The part of the program that reports the event. -/
def reporter : Event → Text
  | settingsOverridden _ => "gemwiki.config".toList
  | emptyId _ => "gemwiki.statdesc.grouping".toList
  | nothingToResolve | alreadyRendered _ | undescribed _ => "gemwiki.statdesc.resolver".toList
  | invalidReference _ _ => "gemwiki.exporters.tables".toList
  | invalidQualityRow _ | noBaseItem _ | noCastTime _ => "gemwiki.exporters.constant_stats".toList
  | noGrantedEffect _ | noLevelRows _ => "gemwiki.exporters.dynamic_stats".toList
  | exporting _ _ => "gemwiki.exporters.export".toList
  | invalidVersion _ => "gemwiki.schema".toList
  | tableNotInSchema _ _ => "export_gem".toList

def message : Event → Text
  | settingsOverridden names =>
    "Settings overridden from environment: ".toList ++ (Datum.list (names.map .text)).literal
  | emptyId index =>
    "Skipping stat observation ".toList ++ natText index ++ " with empty id".toList
  | nothingToResolve => "No stats to resolve".toList
  | alreadyRendered id => "Stat ".toList ++ id ++ " already rendered by an earlier block".toList
  | undescribed id => "No matching description block for stat ".toList ++ id
  | invalidReference index ref =>
    "Invalid stat id at index ".toList ++ natText index ++ ": ".toList ++ ref.literal
  | invalidQualityRow stats => "Invalid quality stat row: ".toList ++ stats.literal
  | noBaseItem name => "No base item type named ".toList ++ name.literal
  | noCastTime skill => "No cast time found for skill ".toList ++ skill.plain
  | noGrantedEffect skill =>
    "No granted effect for skill ".toList ++ skill.plain ++ ", skipping progression".toList
  | noLevelRows skill => "No per-level stat sets for skill ".toList ++ skill.plain
  | exporting skill blocks =>
    "Exporting skill ".toList ++ skill.plain ++ " (".toList ++ natText blocks ++
      " description blocks)".toList
  | invalidVersion version => "Invalid version: ".toList ++ version.literal
  | tableNotInSchema table version =>
    "Schema has no table ".toList ++ table ++ " for version ".toList ++ version

end Event

/-- What a run noted, and how it ended. -/
structure Journal (α : Type) where
  events : List Event
  outcome : Except Fault α

namespace Journal

variable {α β : Type}

/-- Notes one event. -/
def note (e : Event) : Journal Unit :=
  ⟨[e], .ok ()⟩

/-- Ends the run. -/
def fail (fault : Fault) : Journal α :=
  ⟨[], .error fault⟩

/-- A run that notes nothing. -/
def ofExcept (outcome : Except Fault α) : Journal α :=
  ⟨[], outcome⟩

def ofNumber (outcome : Except NumberFault α) : Journal α :=
  ⟨[], Fault.ofNumber outcome⟩

def ofReading (r : Reading α) : Journal α :=
  ⟨[], Fault.ofReading r⟩

/-- A second run after the first, unless the first ended with a fault. -/
def andThen (j : Journal α) (next : α → Journal β) : Journal β :=
  match j.outcome with
  | .ok a =>
    let rest := next a
    ⟨j.events ++ rest.events, rest.outcome⟩
  | .error fault => ⟨j.events, .error fault⟩

instance : Monad Journal where
  pure a := ⟨[], .ok a⟩
  bind := andThen

/-- Runs over the items of a list in order; what they gave, in that order. -/
def each (run : β → Journal α) : List β → Journal (List α)
  | [] => pure []
  | b :: bs => do
    let a ← run b
    let rest ← each run bs
    pure (a :: rest)

theorem andThen_ok {j : Journal α} {a : α} (h : j.outcome = .ok a) (next : α → Journal β) :
    (j >>= next) = ⟨j.events ++ (next a).events, (next a).outcome⟩ := by
  simp only [bind, andThen, h]

theorem andThen_error {j : Journal α} {fault : Fault} (h : j.outcome = .error fault)
    (next : α → Journal β) : (j >>= next) = ⟨j.events, .error fault⟩ := by
  simp only [bind, andThen, h]

instance : LawfulMonad Journal := LawfulMonad.mk' _
  (by
    rintro α ⟨events, outcome⟩
    cases outcome <;> simp [Functor.map, andThen])
  (by intros; simp [bind, pure, andThen])
  (by
    rintro α β γ ⟨events, outcome⟩ f g
    cases outcome with
    | error fault => simp [bind, andThen]
    | ok a => cases h : (f a).outcome <;> simp [bind, andThen, h])

end Journal

end GemScribe
