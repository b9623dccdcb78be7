import RepoSurvey.Binary64
import RepoSurvey.Text.Blank
import RepoSurvey.Text.Digit

/-!
# RepoSurvey.Decimal.Numeral

Reading numbers from text. A run of digits may hold single underscores between digits; which
characters count as digits is an argument. Exact decimals are rounded once, when they become
double-precision numbers.
-/

namespace RepoSurvey.Decimal

/-- The longest numeral that is read as an integer. -/
def maxDigits : Nat := 4300

/-! ## Digits -/

/-- The digits at the front of a text, first digit last, and what follows them. With
`underscores` a single underscore may stand between two digits. -/
def takeDigits (digit? : Char → Option Nat) (underscores : Bool) :
    List Nat → List Char → List Nat × List Char
  | acc, [] => (acc, [])
  | acc, c :: cs =>
    match digit? c with
    | some d => takeDigits digit? underscores (d :: acc) cs
    | none =>
      match underscores && c == '_' && !acc.isEmpty, cs with
      | true, d :: rest =>
        match digit? d with
        | some v => takeDigits digit? underscores (v :: acc) rest
        | none => (acc, c :: cs)
      | _, _ => (acc, c :: cs)

/-- The number with the given digits in some base, first digit last. -/
def ofDigits (base : Nat) : List Nat → Nat
  | [] => 0
  | d :: ds => ofDigits base ds * base + d

/-- A sign, if there is one, and the rest: `true` for a minus. -/
def takeSign : List Char → Bool × List Char
  | '-' :: cs => (true, cs)
  | '+' :: cs => (false, cs)
  | cs => (false, cs)

def signed (negative : Bool) (n : Nat) : Int := if negative then -(n : Int) else n

/-! ## Integers -/

/-- Why a text is no integer. -/
inductive IntegerFault where
  | malformed
  | tooLong
deriving DecidableEq, Repr

/-- An integer between white space: a sign and digits of any script, with single underscores. -/
def integer (s : String) : Except IntegerFault Int :=
  let (negative, cs) := takeSign (Text.trimBy Text.isSpace s.toList)
  match takeDigits Text.digit? true [] cs with
  | ([], _) => .error .malformed
  | (ds, []) => if maxDigits < ds.length then .error .tooLong else .ok (signed negative (ofDigits 10 ds))
  | _ => .error .malformed

/-! ## Decimals -/

/-- An exact decimal or one of the special values, with its sign. -/
inductive Real where
  | decimal (negative : Bool) (digits : Nat) (exponent : Int)
  | infinite (negative : Bool)
  | nan
deriving DecidableEq, Repr

/-- The nearest double-precision number. Decimals far outside the range of the format are zero
or infinite without further computation. -/
def Real.toBinary64 : Real → Binary64
  | .nan => .nan
  | .infinite s => .infinite s
  | .decimal s n e =>
    let size : Int := (digitsCount n : Int) + e
    if n = 0 ∨ size < -400 then Binary64.zero s
    else if 400 < size then .infinite s
    else Binary64.ofPositive s ((n : Rat) * (10 : Rat) ^ e)
where
  /-- An upper bound of the number of digits, at most one too large. -/
  digitsCount (n : Nat) : Nat := n.log2 * 30103 / 100000 + 1

/-- An exponent after its letter: a sign and ASCII digits. -/
def takeExponent (digit? : Char → Option Nat) (underscores : Bool) (cs : List Char) :
    Option (Int × List Char) :=
  let (negative, cs) := takeSign cs
  match takeDigits digit? underscores [] cs with
  | ([], _) => none
  | (ds, rest) => some (signed negative (ofDigits 10 ds), rest)

/-- An unsigned decimal that fills the text: digits on at least one side of the point, and an
exponent if there is one. -/
def unsignedDecimal (digit? : Char → Option Nat) (underscores : Bool) (negative : Bool)
    (cs : List Char) : Option Real :=
  let (whole, rest) := takeDigits digit? underscores [] cs
  let (places, rest) := match rest with
    | '.' :: rest => takeDigits digit? underscores [] rest
    | _ => ([], rest)
  let n := ofDigits 10 (places ++ whole)
  if whole.isEmpty && places.isEmpty then none
  else match rest with
    | [] => some (.decimal negative n (-places.length))
    | c :: rest =>
      if c == 'e' || c == 'E' then
        match takeExponent digit? underscores rest with
        | some (k, []) => some (.decimal negative n (k - places.length))
        | _ => none
      else none

def realOf (digit? : Char → Option Nat) (underscores : Bool) (cs : List Char) : Option Real :=
  let (negative, cs) := takeSign cs
  let word := cs.map Char.toLower
  if word = "inf".toList ∨ word = "infinity".toList then some (.infinite negative)
  else if word = "nan".toList then some .nan
  else unsignedDecimal digit? underscores negative cs

/-- A real number between white space, with digits of any script and single underscores. -/
def real (s : String) : Option Binary64 :=
  (realOf Text.digit? true (Text.trimBy Text.isSpace s.toList)).map Real.toBinary64

end RepoSurvey.Decimal
