import RepoSurvey.Binary64

/-!
# RepoSurvey.Decimal.Shortest

The shortest decimal that reads back as a given double-precision number. The reals that round to
the number form an interval around it, whose ends belong to it when the mantissa is even. For
1, 2, … 17 digits the two neighbours of the number on that decimal grid are tried; the first grid
with a hit wins, of two hits the nearer one, and on a tie the one with the even last digit.
-/

namespace RepoSurvey.Decimal

/-- A positive decimal: `digits * 10 ^ exponent`. -/
structure Scaled where
  digits : Nat
  exponent : Int
deriving DecidableEq, Repr

/-- The greatest `k` with `10 ^ k ≤ q`, for positive `q`. -/
def log10 (q : Rat) : Int :=
  let k := (Binary64.log2 q * 30103).fdiv 100000
  if (10 : Rat) ^ (k + 1) ≤ q then k + 1 else if (10 : Rat) ^ k ≤ q then k else k - 1

/-- The reals that round to `m * 2 ^ e`. -/
structure Interval where
  low : Rat
  high : Rat
  closed : Bool

/-- The interval around a positive number: half a unit above, and below half a unit or, where
the exponent drops, a quarter. -/
def Interval.around (m : Nat) (e : Int) : Interval :=
  let half : Rat := (2 : Rat) ^ (e - 1)
  let v : Rat := (m : Rat) * (2 : Rat) ^ e
  let below := if m = Binary64.leastNormal ∧ Binary64.minExponent < e then half / 2 else half
  ⟨v - below, v + half, m % 2 = 0⟩

def Interval.holds (i : Interval) (x : Rat) : Bool :=
  if i.closed then i.low ≤ x && x ≤ i.high else i.low < x && x < i.high

/-- Tries the grid of multiples of `10 ^ k`. -/
def onGrid (i : Interval) (v : Rat) (k : Int) : Option Scaled :=
  let unit : Rat := (10 : Rat) ^ k
  let n := (v / unit).floor
  let lower := (n : Rat) * unit
  let upper := ((n + 1 : Int) : Rat) * unit
  match i.holds lower && 0 < n, i.holds upper with
  | false, false => none
  | true, false => some ⟨n.toNat, k⟩
  | false, true => some ⟨(n + 1).toNat, k⟩
  | true, true =>
    if v - lower < upper - v ∨ (v - lower = upper - v ∧ n % 2 = 0) then some ⟨n.toNat, k⟩
    else some ⟨(n + 1).toNat, k⟩

/-- The first hit among the grids of `count` digits and more; `left` more grids are tried. -/
def search (i : Interval) (v : Rat) (top : Int) : (left count : Nat) → Scaled
  | 0, count => ⟨(v / (10 : Rat) ^ (top + 1 - count)).floor.toNat, top + 1 - count⟩
  | left + 1, count =>
    match onGrid i v (top + 1 - count) with
    | some s => s
    | none => search i v top left (count + 1)

/-- Moves up to `count` zeros at the end of the digits into the exponent. -/
def Scaled.strip : (count : Nat) → Scaled → Scaled
  | 0, s => s
  | count + 1, s => if s.digits % 10 = 0 then strip count ⟨s.digits / 10, s.exponent + 1⟩ else s

/-- The shortest decimal that rounds to the positive number `m * 2 ^ e`. The upper neighbour on a
grid can be the next power of ten, so zeros at the end are moved into the exponent. -/
def shortest (m : Nat) (e : Int) : Scaled :=
  let v : Rat := (m : Rat) * (2 : Rat) ^ e
  (search (Interval.around m e) v (log10 v) 17 1).strip 17

end RepoSurvey.Decimal
