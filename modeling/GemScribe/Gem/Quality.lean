import GemScribe.Gem.Record
import GemScribe.Settings
import GemScribe.Stat.Resolution

/-!
Stats that a gem's quality grants, as ranges.

A quality stat is stored in thousandths for each point of quality. It is evaluated at every quality level
of the settings, the resulting lines are rendered, and their percentages are read back and combined
into one text that names the least and the greatest.
-/

namespace GemScribe

/-! ### Combining lines into a range -/

namespace Range

/-- The text without digits at its end. -/
def dropFinalDigits (t : Text) : Text :=
  (t.reverse.dropWhile Text.isDigit).reverse

/-- The name of the stat that a line is about: what follows the first `to ` on its line, without digits
at the end. -/
def statName (line : Text) : Text :=
  match Text.after? "to ".toList line with
  | some rest => Text.strip (dropFinalDigits (rest.takeWhile (· ≠ '\n')))
  | none => []

/-- The percentage at the beginning of a text: perhaps a sign, digits, perhaps a point and digits, and a
percent sign. -/
def percentAt? (t : Text) : Option Binary64 :=
  let (negative, t) := splitSign t
  let whole := t.takeWhile Text.isDigit
  match t.dropWhile Text.isDigit with
  | '%' :: _ =>
    if whole = [] then none else some (.ofDecimal negative (Text.digitsValue whole) 0)
  | '.' :: rest =>
    let places := rest.takeWhile Text.isDigit
    match rest.dropWhile Text.isDigit with
    | '%' :: _ =>
      if places = [] then none
      else some (.ofDecimal negative (Text.digitsValue (whole ++ places)) (-places.length))
    | _ => none
  | _ => none

/-- The first percentage of a line. -/
def percent? : Text → Option Binary64
  | [] => none
  | c :: t =>
    match percentAt? (c :: t) with
    | some x => some x
    | none => percent? t

/-- The percentage of a line; a line without one counts as zero. -/
def percent (line : Text) : Binary64 :=
  (percent? line).getD (.zero false)

def least (x : Binary64) (xs : List Binary64) : Binary64 :=
  xs.foldl (fun a b => if b.lt a then b else a) x

def greatest (x : Binary64) (xs : List Binary64) : Binary64 :=
  xs.foldl (fun a b => if a.lt b then b else a) x

/-- The text of a range of percentages of a stat. -/
def describe (low high : Binary64) (name : Text) : Text :=
  "+(".toList ++ low.display ++ '–' :: high.display ++ ")% to ".toList ++ name

/-- One text for the lines of a stat; the first line names the stat. -/
def combine : List Text → Text
  | [] => []
  | line :: lines =>
    let x := percent line
    let xs := lines.map percent
    describe (least x xs) (greatest x xs) (statName line)

end Range

/-! ### Evaluating quality stats -/

namespace Quality

/-- The bound of the numbers of repetitions and of the signs of a text, `2^63`. -/
def repetitionBound : Int := 9223372036854775808

/-- The bytes for which there is room, `2^36`. -/
def room : Int := 68719476736

/-- A text or list stands for its repetition, which has no quotient, where there is room for it. -/
def repeated (bytes quality : Int) : Fault :=
  if bytes * quality < room then .wrongKind else .noRoom

/-- A number of repetitions that cannot be counted. -/
def uncounted (quality : Int) : Bool :=
  quality < -repetitionBound || repetitionBound ≤ quality

/-- The repetition of a text that long. -/
def repeatedText (length : Nat) (quality : Int) : Fault :=
  if uncounted quality || repetitionBound ≤ length * quality then .number .outOfRange
  else repeated length quality

/-- The repetition of a list that long. -/
def repeatedList (length : Nat) (quality : Int) : Fault :=
  if uncounted quality then .number .outOfRange else repeated (8 * length) quality

/-- A number of thousandths for each point of quality, at a quality. -/
def scaled (perMille : Datum) (quality : Int) : Except Fault Binary64 :=
  match perMille with
  | .bool b => Fault.ofNumber ((Quantity.whole (if b then quality else 0)).divBy 1000)
  | .number (.whole i) => Fault.ofNumber ((Quantity.whole (i * quality)).divBy 1000)
  | .number (.real x) =>
    match Quantity.nearest quality with
    | .ok q => .ok ((x.mul q).divBy 1000)
    | .error fault => .error (.number fault)
  | .text t => .error (repeatedText (Text.size t) quality)
  | .list ds => .error (repeatedList ds.length quality)
  | _ => .error .wrongKind

/-- The observations of a stat at each quality level. -/
def evaluate (id : Text) (perMilles : Datum) : List Int → Except Fault (List Observation)
  | [] => .ok []
  | quality :: rest => do
    let value ← scaled (← perMilles.firstItem) quality
    pure (⟨id, value⟩ :: (← evaluate id perMilles rest))

/-- The first stat of a row. -/
def firstStat (stats : Datum) : Except Fault (Option Text) :=
  if stats.isGiven then
    match stats.firstItem with
    | .ok ref => .ok ref.refId
    | .error fault => .error fault
  else .ok none

/-- The observations of a row, one for each quality level; a row without a stat or a value is noted. -/
def observations (row : Row) (levels : List Int) : Journal (List Observation) := do
  let perMilles := row.get "StatsValuesPermille"
  match ← Journal.ofExcept (firstStat (row.get "Stats")) with
  | some id =>
    if perMilles.isGiven then Journal.ofExcept (evaluate id perMilles levels)
    else do
      Journal.note (.invalidQualityRow (row.get "Stats"))
      pure []
  | none => do
    Journal.note (.invalidQualityRow (row.get "Stats"))
    pure []

/-- The quality stat of a row; none when nothing is observed or nothing is rendered. -/
def ofRow (blocks : List Block) (settings : Settings) (row : Row) : Journal (Option QualityStat) := do
  match ← observations row settings.qualityLevels with
  | [] => pure none
  | o :: os => do
    match ← resolve blocks true (o :: os) with
    | [] => pure none
    | line :: lines => pure (some ⟨o.id, Range.combine (line :: lines)⟩)

/-- The quality stats of an effect, in the order of the table. -/
def collect (dataset : Dataset) (effect : Datum) (blocks : List Block) (settings : Settings) :
    Journal (List QualityStat) := do
  let rows := dataset.rowsReferencing Dataset.grantedEffectQualityStats "GrantedEffect" effect
  let stats ← Journal.each (ofRow blocks settings) rows
  pure (stats.filterMap id)

end Quality

end GemScribe
