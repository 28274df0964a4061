import GemScribe.Number.Decimal

/-!
The shortest decimal text of a binary64 number.

Of the decimals that read back as the number, those with the fewest digits are kept, and of these
the nearest one is written, an exact tie going to the even digit. The digits are found by exact
arithmetic: for one digit, two digits, and so on, the two neighbours of the number on that decimal
grid are tried.
-/

namespace GemScribe

/-- A positive decimal `0.d₁d₂… · 10^point`. -/
structure Significand where
  digits : Text
  point : Int

namespace Binary64

/-- The exponent `p` with `10^(p-1) ≤ n / d < 10^p`, for positive `n` and `d`. -/
def decimalPoint (n d : Nat) : Int :=
  if d ≤ n then (natText (n / d)).length
  else 1 - (natText ((d - 1) / n)).length

/-- Of the neighbours `f` and `f + 1` of `n / d`, the nearer one that is acceptable. -/
def pickNeighbour (acceptable : Nat → Bool) (n d : Nat) : Option Nat :=
  let f := n / d
  let r := n % d
  let low := if acceptable f then some f else none
  let high := if acceptable (f + 1) then some (f + 1) else none
  match low, high with
  | some a, some b => if 2 * r < d ∨ (2 * r = d ∧ f % 2 = 0) then some a else some b
  | some a, none => some a
  | none, some b => some b
  | none, none => none

/-- The first grid, of `k` digits or more, with a point that reads back; `fuel` further grids are
tried before the nearest point of the last one is taken. -/
def searchGrids (reads : Nat → Int → Bool) (n d : Nat) (point : Int) : Nat → Nat → Nat × Int
  | 0, k =>
    let s := point - k
    (nearestEven (n * tenPow (-s).toNat) (d * tenPow s.toNat), s)
  | fuel + 1, k =>
    let s := point - k
    match pickNeighbour (reads · s) (n * tenPow (-s).toNat) (d * tenPow s.toNat) with
    | some digits => (digits, s)
    | none => searchGrids reads n d point fuel (k + 1)

/-- The shortest digits of the positive number `m · 2^e`. Seventeen digits always suffice. -/
def shortest (m : Nat) (e : Int) : Significand :=
  let n := numerator m e
  let d := denominator e
  let x := ofParts false m e
  let (digits, s) := searchGrids (fun g s => ofDecimal false g s == x) n d (decimalPoint n d) 16 1
  let written := natText digits
  ⟨(written.reverse.dropWhile (· = '0')).reverse, written.length + s⟩

end Binary64

/-- How a decimal is laid out: positionally while the point stands in the given range, and
otherwise as one digit, a fraction and an exponent of ten. -/
structure PointLayout where
  lowest : Int
  highest : Int
  exponentDigits : Nat

/-- Numbers from one ten-thousandth up to `10^16` are written positionally; an exponent has a sign
and at least two digits. -/
def numberLayout : PointLayout := ⟨-3, 16, 2⟩

/-- The exponent part of a numeral. -/
def PointLayout.exponentText (layout : PointLayout) (e : Int) : Text :=
  let digits := natText e.natAbs
  'e' :: (if e < 0 then '-' else '+') ::
    (List.replicate (layout.exponentDigits - digits.length) '0' ++ digits)

/-- A significand as a numeral. A whole number written positionally ends in `.0`. -/
def PointLayout.write (layout : PointLayout) (s : Significand) : Text :=
  if s.point < layout.lowest ∨ layout.highest < s.point then
    match s.digits with
    | [] => []
    | [d] => d :: layout.exponentText (s.point - 1)
    | d :: ds => d :: '.' :: ds ++ layout.exponentText (s.point - 1)
  else if s.point ≤ 0 then
    '0' :: '.' :: List.replicate (-s.point).toNat '0' ++ s.digits
  else
    let whole := s.digits.take s.point.toNat
    let zeros := List.replicate (s.point.toNat - s.digits.length) '0'
    let fraction := s.digits.drop s.point.toNat
    whole ++ zeros ++ '.' :: (if fraction.isEmpty then ['0'] else fraction)

namespace Binary64

/-- The text from which exactly this number is read back. -/
def text : Binary64 → Text
  | .nan => ['n', 'a', 'n']
  | .infinite s => (if s then ['-'] else []) ++ ['i', 'n', 'f']
  | .finite s m e _ =>
    (if s then ['-'] else []) ++
      (if m = 0 then ['0', '.', '0'] else numberLayout.write (shortest m e))

/-- The text shown to a reader: a whole number shows its digits alone, and zero no sign. -/
def display (x : Binary64) : Text :=
  match x.toInt? with
  | some i => intText i
  | none => x.text

/-- The shown text, with a plus sign in front unless the number is negative. -/
def displaySigned (x : Binary64) : Text :=
  if x.isNonnegative then '+' :: x.display else x.display

end Binary64

end GemScribe
