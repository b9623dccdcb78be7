/-!
# RepoSurvey.Binary64

Double-precision numbers as exact values. A finite number is a sign, a mantissa and a power of
two; every operation computes the exact rational result and rounds it once, to the nearest
representable number and on a tie to the even mantissa.
-/

namespace RepoSurvey

/-- A double-precision number. A finite one is `± mantissa * 2 ^ exponent`, with the mantissa
below `2 ^ 53` and the exponent as small as the format allows. -/
inductive Binary64 where
  | nan
  | infinite (negative : Bool)
  | finite (negative : Bool) (mantissa : Nat) (exponent : Int)
deriving DecidableEq, Repr, Inhabited

namespace Binary64

def minExponent : Int := -1074

def maxExponent : Int := 971

/-- The mantissas are below `2 ^ 53`. -/
def mantissaLimit : Nat := 9007199254740992

/-- The least mantissa of a number that is not subnormal, `2 ^ 52`. -/
def leastNormal : Nat := 4503599627370496

def zero (negative : Bool) : Binary64 := .finite negative 0 minExponent

/-! ## Rounding -/

/-- The greatest `k` with `2 ^ k ≤ q`, for positive `q`. -/
def log2 (q : Rat) : Int :=
  let k : Int := q.num.natAbs.log2 - q.den.log2
  if (2 : Rat) ^ k ≤ q then k else k - 1

/-- The nearest integer, on a tie the even one. -/
def roundHalfEven (q : Rat) : Int :=
  let n := q.floor
  let d := q - n
  if d < 1 / 2 then n else if 1 / 2 < d then n + 1 else if n % 2 = 0 then n else n + 1

/-- The exponent at which a positive rational has at most 53 binary digits. -/
def exponentOf (q : Rat) : Int := max (log2 q - 52) minExponent

/-- A mantissa that rounding carried to `2 ^ 53` moves up one exponent; beyond the greatest
exponent the number is infinite. -/
def pack (negative : Bool) (m : Nat) (e : Int) : Binary64 :=
  let (m, e) := if m = mantissaLimit then (leastNormal, e + 1) else (m, e)
  if maxExponent < e then .infinite negative else .finite negative m e

/-- The nearest number to a positive rational, with the given sign. -/
def ofPositive (negative : Bool) (q : Rat) : Binary64 :=
  let e := exponentOf q
  pack negative (roundHalfEven (q / (2 : Rat) ^ e)).toNat e

def ofRat (q : Rat) : Binary64 :=
  if q = 0 then zero false else if q < 0 then ofPositive true (-q) else ofPositive false q

def toRat? : Binary64 → Option Rat
  | .finite negative m e =>
    let q : Rat := (m : Rat) * (2 : Rat) ^ e
    some (if negative then -q else q)
  | _ => none

/-! ## Arithmetic -/

def isNegative : Binary64 → Bool
  | .nan => false
  | .infinite s | .finite s _ _ => s

def isZero : Binary64 → Bool
  | .finite _ 0 _ => true
  | _ => false

def neg : Binary64 → Binary64
  | .nan => .nan
  | .infinite s => .infinite !s
  | .finite s m e => .finite (!s) m e

/-- Sum; two zeros of one sign keep it, and every other zero sum is positive. -/
def add : Binary64 → Binary64 → Binary64
  | .nan, _ | _, .nan => .nan
  | .infinite s, .infinite t => if s = t then .infinite s else .nan
  | .infinite s, _ | _, .infinite s => .infinite s
  | .finite s 0 _, .finite t 0 _ => zero (s && t)
  | x@(.finite ..), y@(.finite ..) => ofRat (x.toRat?.getD 0 + y.toRat?.getD 0)

def sub (x y : Binary64) : Binary64 := add x (neg y)

def mul : Binary64 → Binary64 → Binary64
  | .nan, _ | _, .nan => .nan
  | .infinite s, y => if y.isZero then .nan else .infinite (s != y.isNegative)
  | x, .infinite t => if x.isZero then .nan else .infinite (x.isNegative != t)
  | .finite s m e, .finite t n f =>
    if m = 0 ∨ n = 0 then zero (s != t)
    else ofPositive (s != t) ((m : Rat) * (2 : Rat) ^ e * ((n : Rat) * (2 : Rat) ^ f))

/-! ## Integers -/

/-- The nearest number to an integer, if there is a finite one. -/
def ofInt? (n : Int) : Option Binary64 :=
  match ofRat n with
  | .infinite _ => none
  | x => some x

/-- The nearest number to the quotient of two integers, if there is a finite one. -/
def ofQuotient? (a b : Int) : Option Binary64 :=
  match ofRat ((a : Rat) / (b : Rat)) with
  | .infinite _ => none
  | x => some x

/-- Why a number has no integer part. -/
inductive NoInteger where
  | notANumber
  | infinite
deriving DecidableEq, Repr

/-- The greatest integer that is not above the number. -/
def floor : Binary64 → Except NoInteger Int
  | .nan => .error .notANumber
  | .infinite _ => .error .infinite
  | x => .ok (x.toRat?.getD 0).floor

/-- The integer part, toward zero. -/
def truncate : Binary64 → Except NoInteger Int
  | .nan => .error .notANumber
  | .infinite _ => .error .infinite
  | x =>
    let q := x.toRat?.getD 0
    .ok (Int.tdiv q.num q.den)

/-! ## Order -/

/-- Strictly less; a number that is not one compares with nothing. -/
def lt : Binary64 → Binary64 → Bool
  | .nan, _ | _, .nan => false
  | .infinite s, .infinite t => s && !t
  | .infinite s, _ => s
  | _, .infinite t => !t
  | x, y => x.toRat?.getD 0 < y.toRat?.getD 0

/-- Strictly less than an integer, exactly. -/
def ltInt : Binary64 → Int → Bool
  | .nan, _ => false
  | .infinite s, _ => s
  | x, n => x.toRat?.getD 0 < (n : Rat)

/-- Strictly greater than an integer, exactly. -/
def gtInt : Binary64 → Int → Bool
  | .nan, _ => false
  | .infinite s, _ => !s
  | x, n => (n : Rat) < x.toRat?.getD 0

/-- At most an integer, exactly. -/
def leInt : Binary64 → Int → Bool
  | .nan, _ => false
  | x, n => !x.gtInt n

/-- At least an integer, exactly. -/
def geInt : Binary64 → Int → Bool
  | .nan, _ => false
  | x, n => !x.ltInt n

/-- Equal as numbers: the two zeros are equal, and a number that is not one equals nothing. -/
def same : Binary64 → Binary64 → Bool
  | .nan, _ | _, .nan => false
  | .finite _ 0 _, .finite _ 0 _ => true
  | x, y => x == y

end Binary64

end RepoSurvey
