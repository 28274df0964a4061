import GemScribe.Number.Quantity
import GemScribe.Text.Replace

/-!
Fixed phrases of templates and the wording that takes their place.

Whole fragments of a condition are replaced as they stand. A link that names a singular and a plural
becomes one of them, by the first value of the template. The other listed links always become the same
words.
-/

namespace GemScribe.Phrase

/-- Fragments that are replaced as they stand. -/
def literals : List (Text × Text) := [
  ("#|-1 \"0% reduced [Projectile] Speed\" negate 1".toList, "0% reduced Projectile Speed".toList),
  ("1|# \"0% increased [Projectile] Speed\"".toList, "0% increased Projectile Speed".toList),
  ("2|# 0 # \"Fires 6 [Projectile|Projectiles]\"".toList, "Fires 6 Projectiles".toList),
  ("2|# 1 # \"Fires 6 Arrows\"".toList, "Fires 6 Arrows".toList)]

/-- Links with a singular and a plural. -/
def alternatives : List (Text × Text × Text) := [
  ("[Projectile|Projectiles]".toList, "Projectile".toList, "Projectiles".toList)]

/-- Links that always become the same words. -/
def fixed : List (Text × Text) := [
  ("[Critical|Critical Hit]".toList, "Critical Hit".toList),
  ("[Chaos|Chaos]".toList, "Chaos".toList),
  ("[Chaos]".toList, "Chaos".toList),
  ("[Lightning]".toList, "Lightning".toList),
  ("[Total]".toList, "Total".toList),
  ("[Projectile]".toList, "Projectile".toList),
  ("[Physical]".toList, "Physical".toList),
  ("[Fire]".toList, "Fire".toList)]

/-- Makes the replacements of a table, one entry after another. -/
def replaceTable (table : List (Text × Text)) (text : Text) : Text :=
  table.foldl (fun t entry => Text.replaceAll entry.1 entry.2 t) text

/-- The wording of each alternative for one thing or several. -/
def chosen (singular : Bool) : List (Text × Text) :=
  alternatives.map fun entry => (entry.1, if singular then entry.2.1 else entry.2.2)

/-- Settles the wording of every phrase of a text; `singular` says that the first value is one. -/
def settle (singular : Bool) (text : Text) : Text :=
  replaceTable fixed (replaceTable (chosen singular) (replaceTable literals text))

end GemScribe.Phrase
