import RepoSurvey.Value.Display
import RepoSurvey.Value.Integer

/-!
# RepoSurvey.Value.Template

Texts with places for values. A place is a percent sign, flags, a width, a precision and the letter
of a conversion; the values are taken in order, or by name from a single object. A text whose
places and values do not fit each other cannot be filled.
-/

namespace RepoSurvey.Template

/-! ## Values -/

/-- The values for the places of a text. -/
inductive Arguments where
  | ordered (vs : List Value)
  /-- Values by name; the object itself is taken once, by a place without a name in front of all
  places with names. -/
  | named (fs : Fields) (whole : Bool)

/-- A single object that is not empty gives its values by name. -/
def Arguments.ofList : List Value → Arguments
  | [.object (f :: fs)] => .named (f :: fs) true
  | vs => .ordered vs

/-- The value for a place, and the values that are left. -/
def Arguments.take? (key : Option String) : Arguments → Option (Value × Arguments)
  | .named fs whole =>
    match key with
    | some k => (fs.get? k).map fun v => (v, .named fs false)
    | none => if whole then some (.object fs, .named fs false) else none
  | .ordered (v :: vs) => if key.isNone then some (v, .ordered vs) else none
  | .ordered [] => none

/-! ## Places -/

/-- What a place asks for. -/
structure Place where
  key : Option String := none
  flags : List Char := []
  /-- The least number of characters. -/
  width : Nat := 0
  /-- The number of places after the point, or the greatest number of characters. -/
  precision : Option Nat := none
  conversion : Char

def isFlag (c : Char) : Bool := ['-', '+', ' ', '0', '#'].contains c

/-- A number at the front of a text, zero if there is none. -/
def number (cs : List Char) : Nat × List Char :=
  let (ds, rest) := Decimal.takeDigits Text.asciiDigit? false [] cs
  (Decimal.ofDigits 10 ds, rest)

/-- A name up to the parenthesis that closes it; `depth` counts the parentheses open inside. -/
def name? : (depth : Nat) → List Char → Option (List Char × List Char)
  | _, [] => none
  | 0, ')' :: cs => some ([], cs)
  | depth, c :: cs =>
    let depth := if c = '(' then depth + 1 else if c = ')' then depth - 1 else depth
    (name? depth cs).map fun (name, rest) => (c :: name, rest)

/-- The name in parentheses at the front of a text, if there is one. -/
def key? : List Char → Option (Option String × List Char)
  | '(' :: cs => (name? 0 cs).map fun (name, rest) => (some (String.ofList name), rest)
  | cs => some (none, cs)

/-- The greatest size that can be asked for. -/
def maxSize : Nat := 2147483647

/-- A size at the front of a text: a number, or a star that takes the next value. -/
def size? (args : Arguments) : List Char → Option (Int × Arguments × List Char)
  | '*' :: cs =>
    match args.take? none with
    | some (.int n, args) => if n.natAbs ≤ maxSize then some (n, args, cs) else none
    | some (.bool b, args) => some (if b then 1 else 0, args, cs)
    | _ => none
  | cs =>
    let (n, rest) := number cs
    if n ≤ maxSize then some (n, args, rest) else none

/-- The precision after a point, if there is one. -/
def precision? (args : Arguments) : List Char → Option (Option Nat × Arguments × List Char)
  | '.' :: cs => (size? args cs).map fun (n, args, rest) => (some n.toNat, args, rest)
  | cs => some (none, args, cs)

/-- A text without a letter for the size of an argument, which has no meaning. -/
def withoutModifier : List Char → List Char
  | c :: cs => if ['h', 'l', 'L'].contains c then cs else c :: cs
  | [] => []

/-- A place after its percent sign. A negative width stands for alignment to the left. -/
def place? (args : Arguments) (cs : List Char) : Option (Place × Arguments × List Char) := do
  let (key, cs) ← key? cs
  let flags := cs.takeWhile isFlag
  let (width, args, cs) ← size? args (cs.dropWhile isFlag)
  let (precision, args, cs) ← precision? args cs
  match withoutModifier cs with
  | conversion :: rest =>
    let flags := if width < 0 then '-' :: flags else flags
    return ({ key, flags, width := width.natAbs, precision, conversion }, args, rest)
  | [] => none

/-! ## Numbers -/

/-- A digit in a base up to sixteen, in lower case. -/
def inBase (base n : Nat) : List Char := Nat.toDigits base n

/-- The digits of a number that is at least `10 ^ k` and less than `10 ^ (k + 1)`, rounded to
`count` digits, and the exponent of the first. -/
def rounded (q : Rat) (count : Nat) : Nat × Int :=
  if q = 0 then (0, 0)
  else
    let k := Decimal.log10 q
    let n := (Binary64.roundHalfEven (q / (10 : Rat) ^ (k + 1 - count))).toNat
    if (Decimal.digitsOf n).length ≤ count then (n, k) else (n / 10, k + 1)

/-- A point before the last `places` of some digits; without places it stands only where asked. -/
def pointed (alternate : Bool) (places : Nat) (ds : List Char) : List Char :=
  let whole := ds.take (ds.length - places)
  if places = 0 then (if alternate then whole ++ ['.'] else whole)
  else whole ++ '.' :: ds.drop (ds.length - places)

def fixed (alternate : Bool) (places : Nat) (q : Rat) : List Char :=
  let n := (Binary64.roundHalfEven (q * (10 : Rat) ^ (places : Int))).toNat
  pointed alternate places (Decimal.padded (places + 1) n)

def scientific (alternate : Bool) (places : Nat) (q : Rat) : List Char :=
  let (n, k) := rounded q (places + 1)
  pointed alternate places (Decimal.padded (places + 1) n) ++
    'e' :: (if k < 0 then '-' else '+') :: Decimal.padded 2 k.natAbs

/-- Digits without the zeros at the end of their places. -/
def withoutZeros (cs : List Char) : List Char :=
  if cs.contains '.' then
    (((cs.reverse.dropWhile (· = '0')).dropWhile (· = '.'))).reverse
  else cs

/-- A number of some significant digits, with an exponent where it is very large or small. -/
def significant (alternate : Bool) (count : Nat) (q : Rat) : List Char :=
  let count := max 1 count
  let (_, k) := rounded q count
  let trim (cs : List Char) : List Char := if alternate then cs else withoutZeros cs
  if -4 ≤ k ∧ k < count then trim (fixed alternate ((count : Int) - 1 - k).toNat q)
  else
    let cs := scientific alternate (count - 1) q
    trim (cs.takeWhile (· ≠ 'e')) ++ cs.dropWhile (· ≠ 'e')

/-- The digits of a number under a conversion in lower case. -/
def realDigits (p : Place) (conversion : Char) : Binary64 → List Char
  | .nan => "nan".toList
  | .infinite _ => "inf".toList
  | .finite _ m e =>
    let q : Rat := (m : Rat) * (2 : Rat) ^ e
    let alternate := p.flags.contains '#'
    let places := p.precision.getD 6
    if conversion = 'f' then fixed alternate places q
    else if conversion = 'e' then scientific alternate places q
    else significant alternate places q

/-- The base of a conversion and the mark of the base. -/
def baseOf : Char → Nat × List Char
  | 'x' => (16, ['0', 'x'])
  | 'o' => (8, ['0', 'o'])
  | _ => (10, [])

/-! ## Filling -/

/-- A text in the width of a place. -/
def aligned (p : Place) (cs : List Char) : List Char :=
  let blanks := List.replicate (p.width - cs.length) ' '
  if p.flags.contains '-' then cs ++ blanks else blanks ++ cs

/-- A number in the width of a place: the sign and the mark stand before the zeros. -/
def alignedNumber (p : Place) (negative : Bool) (mark ds : List Char) : List Char :=
  let sign := if negative then ['-'] else if p.flags.contains '+' then ['+']
    else if p.flags.contains ' ' then [' '] else []
  let front := sign ++ mark
  if p.flags.contains '0' && !p.flags.contains '-' then
    front ++ List.replicate (p.width - front.length - ds.length) '0' ++ ds
  else aligned p (front ++ ds)

/-- A text, cut to the precision of a place. -/
def filledText (p : Place) (s : String) : List Char :=
  aligned p (match p.precision with
    | some n => s.toList.take n
    | none => s.toList)

/-- An integer under a conversion in lower case. -/
def filledInteger (p : Place) (conversion : Char) (n : Int) : List Char :=
  let (base, mark) := baseOf conversion
  let ds := inBase base n.natAbs
  let zeros := List.replicate (p.precision.getD 0 - ds.length) '0'
  alignedNumber p (n < 0) (if p.flags.contains '#' then mark else []) (zeros ++ ds)

/-- A text in which characters outside ASCII are written in hexadecimal. -/
def asciiOnly (s : String) : String :=
  String.ofList (s.toList.flatMap fun c =>
    let n := c.toNat
    if n < 128 then [c]
    else if n < 256 then '\\' :: 'x' :: Text.hexPadded 2 n
    else if n < 65536 then '\\' :: 'u' :: Text.hexPadded 4 n
    else '\\' :: 'U' :: Text.hexPadded 8 n)

/-- The integer that a value is; only decimal conversions cut fractions off. -/
def integerOf? (decimal : Bool) : Value → Option Int
  | .int n => some n
  | .bool b => some (if b then 1 else 0)
  | .real x => if decimal then x.truncate.toOption else none
  | _ => none

/-- The number that a value is. -/
def realOf? : Value → Option Binary64
  | .int n => Binary64.ofInt? n
  | .bool b => some (Binary64.ofRat (if b then 1 else 0))
  | .real x => some x
  | _ => none

def charOf? : Value → Option String
  | .bool b => some (if b then "\x01" else "\x00")
  | .int n => if 0 ≤ n ∧ n < 0x110000 then some (String.singleton (Char.ofNat n.toNat)) else none
  | .text s => if s.length = 1 then some s else none
  | _ => none

/-- A value in its place. -/
def fill? (p : Place) (v : Value) : Option (List Char) :=
  let conversion := p.conversion.toLower
  let cased (cs : List Char) : List Char :=
    if p.conversion = conversion then cs else cs.map Char.toUpper
  if p.conversion = 's' then some (filledText p v.display)
  else if p.conversion = 'r' then some (filledText p v.inner)
  else if p.conversion = 'a' then some (filledText p (asciiOnly v.inner))
  else if p.conversion = 'c' then (charOf? v).map (filledText { p with precision := none })
  else if ['d', 'i', 'u'].contains p.conversion then
    (integerOf? true v).map (filledInteger p 'd')
  else if p.conversion = 'o' ∨ conversion = 'x' then
    (integerOf? false v).map fun n => cased (filledInteger p conversion n)
  else if ['e', 'f', 'g'].contains conversion then
    (realOf? v).map fun x =>
      cased (alignedNumber p x.isNegative [] (realDigits p conversion x))
  else none

/-- The rest of a text with its places filled; `fuel` bounds its length. Two percent signs stand for
one. -/
def fillAll? : (fuel : Nat) → Arguments → List Char → Option (List Char)
  | 0, _, _ => none
  | _ + 1, .ordered (_ :: _), [] => none
  | _ + 1, _, [] => some []
  | fuel + 1, args, '%' :: '%' :: cs => (fillAll? fuel args cs).map ('%' :: ·)
  | fuel + 1, args, '%' :: cs => do
    let (p, args, rest) ← place? args cs
    let (v, args) ← args.take? p.key
    let shown ← fill? p v
    let more ← fillAll? fuel args rest
    return shown ++ more
  | fuel + 1, args, c :: cs => (fillAll? fuel args cs).map (c :: ·)

/-- A text with its places filled; without values it stays as it is. -/
def filled? (template : String) (vs : List Value) : Option String :=
  if vs.isEmpty then some template
  else (fillAll? (template.length + 1) (.ofList vs) template.toList).map String.ofList

end RepoSurvey.Template
