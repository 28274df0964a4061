import GemScribe.Stat.Directive
import GemScribe.Stat.Phrase

/-!
Rendering one template for one step of a progression.

Values are filled in one placeholder number after another. After each number the wording for added
cast time is settled by its value: one thousand milliseconds are a single second, and such templates
also carry that number as a condition, which is taken out. Then fixed phrases are settled, and what
is left of the file's grammar is cleaned away.
-/

namespace GemScribe.Template

/-- The value of a sequence at a step; beyond its end it is zero. -/
def valueAt (sequence : List Quantity) (step : Nat) : Quantity :=
  (sequence[step]?).getD (.whole 0)

/-- The placeholder of that number. -/
def placeholder (i : Nat) : Text :=
  '\x7b' :: natText i ++ ['\x7d']

/-- The placeholder of that number for a value with its sign. -/
def signedPlaceholder (i : Nat) : Text :=
  '\x7b' :: natText i ++ ":+d\x7d".toList

/-! ### Added cast time -/

/-- A value of one second, in milliseconds. -/
def oneSecond : Int := 1000

def castTimeSingular : Text :=
  "[AddedAttackCastTime|+1000 second]".toList

def castTimePlural : Text :=
  "[AddedAttackCastTime|+1000 seconds]".toList

/-- The text without a digit one at its end, or before a line feed at its end. -/
def dropFinalOne (t : Text) : Text :=
  match t.reverse with
  | '1' :: rest => rest.reverse
  | '\n' :: '1' :: rest => ('\n' :: rest).reverse
  | _ => t

/-- Settles the wording for added cast time. For one second the condition goes too: its number, and a
digit one at the end. -/
def settleCastTime (value : Quantity) (t : Text) : Except NumberFault Text := do
  let seconds := (← value.divBy 1000).display
  if value.equalsInt oneSecond then
    let t := Text.replaceAll castTimeSingular ('+' :: seconds ++ " second".toList) t
    pure (dropFinalOne (Text.eraseFirst (intText oneSecond) t))
  else
    pure (Text.replaceAll castTimePlural ('+' :: seconds ++ " seconds".toList) t)

/-! ### Filling in -/

/-- The texts that a value puts into its two placeholders, the one with a sign first. -/
def shown (directive : Option Directive) (value : Quantity) : Except NumberFault (Text × Text) :=
  match directive with
  | some d => do
    let converted ← d.convert value
    if d.signed then pure (converted.displaySigned, converted.displaySigned)
    else pure (← value.displaySigned, converted.display)
  | none => do
    pure (← value.displaySigned, ← value.display)

/-- Fills in one value. -/
def fillOne (directive : Option Directive) (i : Nat) (value : Quantity) (t : Text) :
    Except NumberFault Text := do
  let (signed, plain) ← shown directive value
  settleCastTime value
    (Text.replaceAll (placeholder i) plain (Text.replaceAll (signedPlaceholder i) signed t))

/-- Fills in values, the first of which has number `i`. -/
def fillFrom (directive : Option Directive) : Nat → List Quantity → Text → Except NumberFault Text
  | _, [], t => .ok t
  | i, value :: rest, t => do
    fillFrom directive (i + 1) rest (← fillOne directive i value t)

/-- Fills in the values of one step. -/
def substitute (template : Text) (values : List (List Quantity)) (step : Nat) :
    Except NumberFault Text :=
  fillFrom (Directive.find? template) 0 (values.map (valueAt · step)) template

/-! ### Phrases and cleaning -/

/-- The first value of a step is one, which calls for the singular. -/
def isSingular (values : List (List Quantity)) (step : Nat) : Bool :=
  match values with
  | [] => false
  | sequence :: _ => (valueAt sequence step).equalsInt 1

/-- Characters of conditions and quotes. -/
def artifacts : List Text := [['#'], ['"']]

/-- The text without directives and artifacts, and with single spaces between words. -/
def clean (t : Text) : Text :=
  let t := (Directive.all.map Directive.keyword).foldl (fun t k => Text.replaceAll k [] t) t
  let t := artifacts.foldl (fun t a => Text.replaceAll a [] t) t
  Text.squeeze t

/-- The line that a template gives for one step. -/
def render (template : Text) (values : List (List Quantity)) (step : Nat) :
    Except NumberFault Text := do
  let filled ← substitute template values step
  pure (clean (Phrase.settle (isSingular values step) filled))

/-- The lines that templates give, in their order. -/
def renderAll (values : List (List Quantity)) (step : Nat) :
    List Text → Except NumberFault (List Text)
  | [] => .ok []
  | template :: rest => do
    let line ← render template values step
    pure (line :: (← renderAll values step rest))

end GemScribe.Template
