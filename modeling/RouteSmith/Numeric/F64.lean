import Mathlib.Algebra.Order.Floor.Ring
import Mathlib.Data.Rat.Floor

/-! # Binary64 numbers

IEEE 754 double-precision values as the rationals they denote, with round-to-nearest-even
after each operation. The two zeros are one value here.
-/

namespace RouteSmith.Numeric

inductive F64 where
  | nan
  | inf (negative : Bool)
  | fin (q : ℚ)
  deriving DecidableEq

namespace F64

instance : Inhabited F64 := ⟨.fin 0⟩

/-! ## Rounding -/

def pow2 : ℤ → ℚ
  | .ofNat n => (2 ^ n : ℕ)
  | .negSucc n => mkRat 1 (2 ^ (n + 1))

/-- The exponent of the leading binary digit of a nonzero rational. -/
def leadingExponent (q : ℚ) : ℤ :=
  let e : ℤ := (q.num.natAbs.log2 : ℤ) - (q.den.log2 : ℤ)
  if |q| < pow2 e then e - 1 else e

/-- Nearest integer, ties to even. -/
def roundHalfEven (q : ℚ) : ℤ :=
  let below := ⌊q⌋
  let rest := q - below
  if rest < 1 / 2 then below
  else if 1 / 2 < rest then below + 1
  else if below % 2 = 0 then below else below + 1

/-- The double nearest to a rational: 53 significant digits, no finer than `2 ^ (-1074)`,
and infinite from `2 ^ 1024` on. -/
def ofRat (q : ℚ) : F64 :=
  if q = 0 then fin 0
  else
    let unit := pow2 (max (leadingExponent q - 52) (-1074))
    let rounded := roundHalfEven (q / unit) * unit
    if pow2 1024 ≤ |rounded| then inf (q < 0) else fin rounded

/-- Conversion of an integer (`as f64`). -/
def ofNat (n : ℕ) : F64 := ofRat n

/-! ## Arithmetic -/

def isFinite : F64 → Bool
  | fin _ => true
  | _ => false

def add : F64 → F64 → F64
  | nan, _ => nan
  | _, nan => nan
  | inf a, inf b => if a = b then inf a else nan
  | inf a, fin _ => inf a
  | fin _, inf b => inf b
  -- a zero summand leaves a double as it is, with nothing to round
  | fin p, fin q => if p = 0 then fin q else if q = 0 then fin p else ofRat (p + q)

def mul : F64 → F64 → F64
  | nan, _ => nan
  | _, nan => nan
  | inf a, inf b => inf (a != b)
  | inf a, fin q => if q = 0 then nan else inf (a != decide (q < 0))
  | fin p, inf b => if p = 0 then nan else inf (b != decide (p < 0))
  | fin p, fin q => ofRat (p * q)

/-- Division by a nonzero finite constant. -/
def divRat (d : ℚ) : F64 → F64
  | nan => nan
  | inf a => inf (a != decide (d < 0))
  | fin p => ofRat (p / d)

instance : Add F64 := ⟨add⟩

instance : Mul F64 := ⟨mul⟩

instance : Zero F64 := ⟨fin 0⟩

@[simp] theorem zero_add (x : F64) : 0 + x = x := by
  cases x <;> rfl

/-- `x <= q` against a finite constant. -/
def leRat : F64 → ℚ → Bool
  | nan, _ => false
  | inf negative, _ => negative
  | fin p, q => p ≤ q

/-- `q <= x` against a finite constant. -/
def geRat : F64 → ℚ → Bool
  | nan, _ => false
  | inf negative, _ => !negative
  | fin p, q => q ≤ p

/-- `f64::round`: nearest integer, ties away from zero. -/
def round : F64 → F64
  | fin q => fin (if q < 0 then -⌊-q + 1 / 2⌋ else ⌊q + 1 / 2⌋)
  | x => x

/-- The cast `as i64`: truncating, saturating, with NaN at zero. -/
def toI64 : F64 → ℤ
  | nan => 0
  | inf negative => if negative then -2 ^ 63 else 2 ^ 63 - 1
  | fin q => max (-2 ^ 63) (min (2 ^ 63 - 1) (if q < 0 then ⌈q⌉ else ⌊q⌋))

end F64

end RouteSmith.Numeric
