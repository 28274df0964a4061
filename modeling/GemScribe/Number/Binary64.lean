/-!
Binary64 numbers, as exact rationals.

A finite number is `± m · 2^e` in one canonical form, so that two names of a number are equal only
when the numbers and their signs are. Beside the finite numbers stand two infinities and one nan.
Nothing here uses the machine's floating point unit: `round` takes an exact quotient to the nearest
representable number, ties to the even mantissa, and every operation is an exact rational operation
followed by one rounding.
-/

namespace GemScribe

/-- Two to the `k`. -/
def twoPow (k : Nat) : Nat :=
  Nat.pow 2 k

/-- The bound of mantissas, `2^53`. -/
def mantissaBound : Nat := 9007199254740992

/-- The least mantissa with 53 significant bits, `2^52`. -/
def mantissaLeast : Nat := 4503599627370496

/-- The pairs `(m, e)` that name a magnitude `m · 2^e`: 53 significant bits, or fewer at the least
exponent. -/
def Canonical (m : Nat) (e : Int) : Prop :=
  m < mantissaBound ∧ -1074 ≤ e ∧ e ≤ 971 ∧ (mantissaLeast ≤ m ∨ e = -1074)

instance (m : Nat) (e : Int) : Decidable (Canonical m e) := by
  unfold Canonical
  infer_instance

inductive Binary64 where
  | finite (negative : Bool) (m : Nat) (e : Int) (canonical : Canonical m e)
  | infinite (negative : Bool)
  | nan
  deriving DecidableEq

namespace Binary64

/-- `± m · 2^e`, or an infinity when that pair lies beyond the largest finite number. -/
def ofParts (negative : Bool) (m : Nat) (e : Int) : Binary64 :=
  if h : Canonical m e then .finite negative m e h else .infinite negative

/-- Zero keeps a sign. -/
def zero (negative : Bool) : Binary64 :=
  .finite negative 0 (-1074) (by decide)

instance : Inhabited Binary64 := ⟨zero false⟩

/-! ### Rounding a quotient -/

/-- The exponent of the greatest power of two that is at most `n / d`, for positive `n` and `d`. -/
def binade (n d : Nat) : Int :=
  let k : Int := (Nat.log2 n : Int) - Nat.log2 d
  if d * twoPow k.toNat ≤ n * twoPow (-k).toNat then k else k - 1

/-- The whole number nearest to `n / d`, a half going to the even neighbour. -/
def nearestEven (n d : Nat) : Nat :=
  let q := n / d
  let r := n % d
  if 2 * r < d then q
  else if d < 2 * r then q + 1
  else if q % 2 = 0 then q
  else q + 1

/-- The number nearest to `± n / d` (`0 < d`), ties to the even mantissa; an infinity when the
nearest whole multiple of the last binade's unit is beyond the largest finite number. -/
def round (negative : Bool) (n d : Nat) : Binary64 :=
  if n = 0 then zero negative
  else
    let e := max (binade n d - 52) (-1074)
    let m := nearestEven (n * twoPow (-e).toNat) (d * twoPow e.toNat)
    if m = mantissaBound then ofParts negative mantissaLeast (e + 1) else ofParts negative m e

/-- The number nearest to `q`; `negativeZero` is the sign of the result when `q` is zero. -/
def ofRat (negativeZero : Bool) (q : Rat) : Binary64 :=
  if q.num = 0 then zero negativeZero
  else round (decide (q.num < 0)) q.num.natAbs q.den

/-! ### Reading a number -/

/-- The sign bit. -/
def isNegative : Binary64 → Bool
  | .finite s _ _ _ => s
  | .infinite s => s
  | .nan => false

theorem isNegative_ofParts (negative : Bool) (m : Nat) (e : Int) :
    (ofParts negative m e).isNegative = negative := by
  unfold ofParts
  split <;> rfl

theorem isNegative_round (negative : Bool) (n d : Nat) :
    (round negative n d).isNegative = negative := by
  unfold round
  split
  · rfl
  · dsimp only
    split <;> exact isNegative_ofParts ..

def isFinite : Binary64 → Bool
  | .finite .. => true
  | _ => false

/-- The numerator of `m · 2^e`. -/
def numerator (m : Nat) (e : Int) : Nat :=
  m * twoPow e.toNat

/-- The denominator of `m · 2^e`. -/
def denominator (e : Int) : Nat :=
  twoPow (-e).toNat

/-- The exact value of a finite number (zero for the others). -/
def toRat : Binary64 → Rat
  | .finite s m e _ =>
    mkRat (if s then -(numerator m e : Int) else numerator m e) (denominator e)
  | _ => 0

/-- The whole number that a finite number is, when it is one. -/
def toInt? : Binary64 → Option Int
  | x@(.finite ..) => if x.toRat.den = 1 then some x.toRat.num else none
  | _ => none

/-! ### Comparison

Nan compares with nothing, itself included; the two zeros are equal. -/

def eq : Binary64 → Binary64 → Bool
  | .infinite s, .infinite t => s == t
  | x@(.finite ..), y@(.finite ..) => x.toRat == y.toRat
  | _, _ => false

def lt : Binary64 → Binary64 → Bool
  | .nan, _ => false
  | _, .nan => false
  | .infinite s, .infinite t => s && !t
  | .infinite s, .finite .. => s
  | .finite .., .infinite t => !t
  | x@(.finite ..), y@(.finite ..) => decide (x.toRat < y.toRat)

/-- `0 ≤ x`, which holds of both zeros. -/
def isNonnegative : Binary64 → Bool
  | x@(.finite ..) => decide (0 ≤ x.toRat)
  | .infinite s => !s
  | .nan => false

/-! ### Arithmetic -/

/-- The number nearest to a whole number. -/
def ofInt (i : Int) : Binary64 :=
  ofRat false i

def add : Binary64 → Binary64 → Binary64
  | .nan, _ => .nan
  | _, .nan => .nan
  | .infinite s, .infinite t => if s = t then .infinite s else .nan
  | .infinite s, .finite .. => .infinite s
  | .finite .., .infinite t => .infinite t
  | x@(.finite s ..), y@(.finite t ..) => ofRat (s && t) (x.toRat + y.toRat)

/-- An infinity times zero is no number; otherwise the sign is negative when the signs differ. -/
def mul : Binary64 → Binary64 → Binary64
  | .nan, _ => .nan
  | _, .nan => .nan
  | .infinite s, .infinite t => .infinite (s ^^ t)
  | .infinite s, .finite t m _ _ => if m = 0 then .nan else .infinite (s ^^ t)
  | .finite s m _ _, .infinite t => if m = 0 then .nan else .infinite (s ^^ t)
  | x@(.finite s ..), y@(.finite t ..) => ofRat (s ^^ t) (x.toRat * y.toRat)

/-- Division by a positive whole number that is itself representable. -/
def divBy : Binary64 → Nat → Binary64
  | x@(.finite s ..), d => ofRat s (x.toRat / (d : Rat))
  | x, _ => x

end Binary64

end GemScribe
