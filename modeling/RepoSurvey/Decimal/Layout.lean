import RepoSurvey.Decimal.Shortest

/-!
# RepoSurvey.Decimal.Layout

How double-precision numbers are written: positionally while the point falls near the digits,
otherwise with an exponent, and in messages with one place after the point.
-/

namespace RepoSurvey.Decimal

/-- The choices of a written form. -/
structure Layout where
  /-- Positional while the first digit stands for `10 ^ k` with `least ≤ k`. -/
  least : Int
  /-- Positional while the first digit stands for `10 ^ k` with `k < limit`. -/
  limit : Int
  /-- The least number of digits of an exponent. -/
  exponentDigits : Nat
  nan : String
  infinite : String

/-- Positional from `0.0001` up to `10 ^ 16`, an exponent of two digits or more beyond. -/
def plain : Layout := ⟨-4, 16, 2, "nan", "inf"⟩

def digitsOf (n : Nat) : List Char := Nat.toDigits 10 n

/-- The digits of a natural number, filled with zeros from the left. -/
def padded (width n : Nat) : List Char :=
  let ds := digitsOf n
  List.replicate (width - ds.length) '0' ++ ds

/-- A positive decimal in positional notation, with at least one digit on each side. -/
def positional (s : Scaled) : List Char :=
  let ds := digitsOf s.digits
  if 0 ≤ s.exponent then ds ++ List.replicate s.exponent.toNat '0' ++ ['.', '0']
  else
    let places := (-s.exponent).toNat
    let ds := List.replicate (places + 1 - ds.length) '0' ++ ds
    ds.take (ds.length - places) ++ '.' :: ds.drop (ds.length - places)

/-- A positive decimal with an exponent; a point follows the first digit if more digits do. -/
def scientific (l : Layout) (s : Scaled) : List Char :=
  let ds := digitsOf s.digits
  let k := s.exponent + ds.length - 1
  let front := match ds with
    | [] => []
    | [d] => [d]
    | d :: more => d :: '.' :: more
  front ++ 'e' :: (if k < 0 then '-' else '+') :: padded l.exponentDigits k.natAbs

/-- A number written with as few digits as read back. -/
def Layout.write (l : Layout) : Binary64 → String
  | .nan => l.nan
  | .infinite negative => (if negative then "-" else "") ++ l.infinite
  | .finite negative m e =>
    let body :=
      if m = 0 then ['0', '.', '0']
      else
        let s := shortest m e
        let k := s.exponent + (digitsOf s.digits).length - 1
        if l.least ≤ k ∧ k < l.limit then positional s else scientific l s
    String.ofList (if negative then '-' :: body else body)

/-- A number with one place after the point, a tie going to the even digit. -/
def onePlace : Binary64 → String
  | .nan => plain.nan
  | .infinite negative => (if negative then "-" else "") ++ plain.infinite
  | .finite negative m e =>
    let tenths := (Binary64.roundHalfEven ((m : Rat) * (2 : Rat) ^ e * 10)).toNat
    let body := digitsOf (tenths / 10) ++ '.' :: digitsOf (tenths % 10)
    String.ofList (if negative then '-' :: body else body)

end RepoSurvey.Decimal
