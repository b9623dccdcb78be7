import RepoSurvey.Decimal.Numeral
import RepoSurvey.Decoded
import RepoSurvey.Text.Utf8
import RepoSurvey.Value

/-!
# RepoSurvey.Decoded.Scalar

Reading texts, numbers and flags. Readers are lenient: byte strings stand for their text, texts
for the numbers and flags that they spell, and numbers for one another where nothing is lost.
-/

namespace RepoSurvey.Decoded

/-- The text of a value that has one. -/
def textOf? : Value → Option String
  | .text s => some s
  | .bytes bs => Text.Utf8.decode? bs
  | _ => none

def text : Value → Decoded String
  | .text s => .ok s
  | .bytes bs =>
    match Text.Utf8.decode? bs with
    | some s => .ok s
    | none => fault .undecodableText
  | _ => fault .noText

/-! ## Integers

An integer in a text may have a plus sign, zeros in front, single underscores between digits and a
fraction of nothing but zeros. What is left without these must be a plain integer.
-/

/-- The rest of a numeral after zeros, where `last` is the character before it. The zeros may go on
with underscores, and end before a digit or a minus sign; the last of them is kept if the numeral
ends there or goes on with a point. -/
def afterZeros (last : Char) : List Char → Option (List Char)
  | [] => some [last]
  | c :: cs =>
    if c == '0' || c == '_' then afterZeros c cs
    else if c.isDigit || c == '-' then some (c :: cs)
    else if c == '.' then some (last :: c :: cs)
    else none

/-- An unsigned numeral without the zeros in front of its first other digit. -/
def dropZeros : List Char → Option (List Char)
  | [] => none
  | c :: cs =>
    if c == '0' then afterZeros c cs
    else if c.isDigit then some (c :: cs)
    else none

/-- A numeral without zeros in front, its minus sign kept. -/
def dropSignedZeros : List Char → Option (List Char)
  | '-' :: cs => (dropZeros cs).map ('-' :: ·)
  | cs => dropZeros cs

/-- A numeral without the plus sign in front, which no minus sign may follow. -/
def dropPlus : List Char → Option (List Char)
  | '+' :: '-' :: _ => none
  | '+' :: cs => some cs
  | cs => some cs

/-- A numeral without its fraction, if there are places and all of them are zeros. -/
def dropFraction (cs : List Char) : List Char :=
  match cs.dropWhile (· != '.') with
  | _ :: place :: places =>
    if (place :: places).all (· == '0') then cs.takeWhile (· != '.') else cs
  | _ => cs

/-- Whether two underscores follow each other. -/
def doubleUnderscore : List Char → Bool
  | '_' :: '_' :: _ => true
  | _ :: cs => doubleUnderscore cs
  | [] => false

/-- A numeral without its underscores, which must be single and inside. -/
def dropUnderscores (cs : List Char) : Option (List Char) :=
  if cs.head? == some '_' || cs.getLast? == some '_' || doubleUnderscore cs then none
  else some (cs.filter (· != '_'))

/-- An integer in its plain form: no plus sign, and no zero in front of another digit. The sign and
the digits together are limited, whatever follows them. -/
def plainInteger (cs : List Char) : Decoded Int :=
  let (negative, body) := match cs with
    | '-' :: cs => (true, cs)
    | cs => (false, cs)
  match Decimal.takeDigits Text.asciiDigit? false [] body with
  | ([], _) => fault .unreadInteger
  | (ds, rest) =>
    if body.head? == some '0' && ds.length != 1 then fault .unreadInteger
    else if Decimal.maxDigits < ds.length + (if negative then 1 else 0) then
      fault .integerTooLarge
    else if rest.isEmpty then .ok (Decimal.signed negative (Decimal.ofDigits 10 ds))
    else fault .unreadInteger

/-- The integer that a text spells. -/
def integerOfText (s : String) : Decoded Int :=
  match (dropPlus (Text.trimBy Text.isSpace s.toList)).bind dropSignedZeros with
  | some cs =>
    let cs := dropFraction cs
    plainInteger ((dropUnderscores cs).getD cs)
  | none => fault .unreadInteger

/-- Signed integers of 64 bits are below `2 ^ 63`. -/
def wordLimit : Int := 9223372036854775808

/-- The integer that equals a number, if it is within the range of 64 bits. -/
def integerOfReal (x : Binary64) : Decoded Int :=
  match x.truncate with
  | .error _ => fault .notFinite
  | .ok n =>
    if x.toRat? != some (n : Rat) then fault .fractionalInteger
    else if -wordLimit < n ∧ n < wordLimit then .ok n
    else fault .integerTooLarge

def integer : Value → Decoded Int
  | .int n | .long n => .ok n
  | .bool b => .ok (if b then 1 else 0)
  | .real x => integerOfReal x
  | .text s => integerOfText s
  | .bytes bs =>
    match Text.Utf8.decode? bs with
    | some s => integerOfText s
    | none => fault .unreadInteger
  | _ => fault .noInteger

/-- An integer that is not below a bound. -/
def integerFrom (least : Int) (v : Value) : Decoded Int :=
  match integer v with
  | .ok n => if least ≤ n then .ok n else fault .belowMinimum
  | d => d

/-! ## Numbers -/

/-- The number that a text spells; underscores are tried only where the text fails without. -/
def numberOfText (s : String) : Decoded Binary64 :=
  let plain (cs : List Char) := Decimal.realOf Text.asciiDigit? false cs
  match plain (Text.trimBy Text.isSpace s.toList) with
  | some r => .ok r.toBinary64
  | none =>
    match (dropUnderscores s.toList).bind plain with
    | some r => .ok r.toBinary64
    | none => fault .unreadNumber

def number : Value → Decoded Binary64
  | .real x => .ok x
  | .int n =>
    match Binary64.ofInt? n with
    | some x => .ok x
    | none => fault .noNumber
  | .bool b => .ok (Binary64.ofRat (if b then 1 else 0))
  | .text s => numberOfText s
  | .bytes bs =>
    match Text.Utf8.decode? bs with
    | some s => numberOfText s
    | none => fault .unreadNumber
  | _ => fault .noNumber

/-! ## Flags -/

/-- The words for yes and no, in lower case. -/
def flagWords : List (String × Bool) := [
  ("0", false), ("off", false), ("f", false), ("false", false), ("n", false), ("no", false),
  ("1", true), ("on", true), ("t", true), ("true", true), ("y", true), ("yes", true)]

def flagOfText (s : String) : Decoded Bool :=
  match flagWords.lookup (String.ofList (s.toList.map Char.toLower)) with
  | some b => .ok b
  | none => fault .unreadFlag

/-- The flag that an integer of 64 bits stands for. -/
def flagOfInteger (n : Int) : Decoded Bool :=
  if n = 0 then .ok false
  else if n = 1 then .ok true
  else if -wordLimit ≤ n ∧ n < wordLimit then fault .unreadFlag
  else fault .noFlag

def flag : Value → Decoded Bool
  | .bool b => .ok b
  | .int n => flagOfInteger n
  | .real x =>
    match integerOfReal x with
    | .ok n => flagOfInteger n
    | .failed .. => fault .noFlag
  | .text s => flagOfText s
  | .bytes bs =>
    match Text.Utf8.decode? bs with
    | some s => flagOfText s
    | none => fault .unreadFlag
  | _ => fault .noFlag

end RepoSurvey.Decoded
