import RepoSurvey.Decimal.Layout
import RepoSurvey.Decimal.Numeral
import RepoSurvey.Value

/-!
# RepoSurvey.Toml.Scalar

Strings, numbers, dates and times of TOML documents.
-/

namespace RepoSurvey.Toml

inductive ParseFault where
  | malformed
  | integerTooLong
  | tooDeep
deriving DecidableEq, Repr

abbrev Reader := StateT (List Char) (Except ParseFault)

namespace Reader

def malformed {α : Type} : Reader α := fun _ => .error .malformed

def tooDeep {α : Type} : Reader α := fun _ => .error .tooDeep

def rest : Reader (List Char) := fun cs => .ok (cs, cs)

def goTo (cs : List Char) : Reader Unit := fun _ => .ok ((), cs)

def skipWhile (p : Char → Bool) : Reader Unit := fun cs => .ok ((), cs.dropWhile p)

def expect (w : String) : Reader Unit := fun cs =>
  if w.toList.isPrefixOf cs then .ok ((), cs.drop w.toList.length) else .error .malformed

end Reader

def isInlineSpace (c : Char) : Bool := c = ' ' || c = '\t'

/-- Spaces, tabs and line feeds. -/
def isSpaceOrBreak (c : Char) : Bool := isInlineSpace c || c = '\n'

/-- Control characters other than the tab. -/
def isControl (c : Char) : Bool := (c.toNat < 32 && c ≠ '\t') || c.toNat = 127

/-! ## Strings -/

/-- The character of a one-letter escape. -/
def escape? : Char → Option Char
  | 'b' => some '\x08'
  | 't' => some '\t'
  | 'n' => some '\n'
  | 'f' => some '\x0c'
  | 'r' => some '\r'
  | '"' => some '"'
  | '\\' => some '\\'
  | _ => none

/-- A character given by hexadecimal digits. -/
def hexChar (count : Nat) (cs : List Char) : Option (Char × List Char) :=
  let ds := (cs.take count).filterMap Text.hexDigit?
  let n := Decimal.ofDigits 16 ds.reverse
  if ds.length = count ∧ (n < 0xD800 ∨ (0xDFFF < n ∧ n < 0x110000)) then
    some (Char.ofNat n, cs.drop count)
  else none

/-- What follows a backslash that ends a line: the text from the next character that is neither
space nor break. -/
def afterLineEnd (cs : List Char) : Option (List Char) :=
  match cs.dropWhile isInlineSpace with
  | '\n' :: cs => some (cs.dropWhile isSpaceOrBreak)
  | [] => some []
  | _ => none

/-- An escape after its backslash: the character it stands for, if any, and what follows. -/
def escaped (multiline : Bool) : List Char → Option (Option Char × List Char)
  | 'u' :: cs => (hexChar 4 cs).map fun r => (some r.1, r.2)
  | 'U' :: cs => (hexChar 8 cs).map fun r => (some r.1, r.2)
  | c :: cs =>
    if multiline && isSpaceOrBreak c then (afterLineEnd (c :: cs)).map fun rest => (none, rest)
    else (escape? c).map fun d => (some d, cs)
  | [] => none

/-- The rest of a basic string; `acc` holds what was read, last first. -/
def basicBody (multiline : Bool) : (fuel : Nat) → List Char → List Char →
    Option (List Char × List Char)
  | 0, _, _ => none
  | _, _, [] => none
  | fuel + 1, acc, c :: cs =>
    if c = '"' then
      if !multiline then some (acc.reverse, cs)
      else match cs with
        | '"' :: '"' :: cs => some (acc.reverse, cs)
        | cs => basicBody multiline fuel ('"' :: acc) cs
    else if c = '\\' then
      match escaped multiline cs with
      | some (some d, rest) => basicBody multiline fuel (d :: acc) rest
      | some (none, rest) => basicBody multiline fuel acc rest
      | none => none
    else if isControl c && !(multiline && c = '\n') then none
    else basicBody multiline fuel (c :: acc) cs

/-- The rest of a literal string of one line. -/
def literalBody (cs : List Char) : Option (List Char × List Char) :=
  match cs.dropWhile (· ≠ '\'') with
  | _ :: rest =>
    let body := cs.takeWhile (· ≠ '\'')
    if body.any isControl then none else some (body, rest)
  | [] => none

/-- The rest of a literal string of several lines. -/
def longLiteralBody : List Char → List Char → Option (List Char × List Char)
  | _, [] => none
  | acc, '\'' :: '\'' :: '\'' :: cs => some (acc.reverse, cs)
  | acc, c :: cs =>
    if isControl c && c ≠ '\n' then none else longLiteralBody (c :: acc) cs

/-- Up to two more quotes at the end of a string of several lines belong to it. -/
def withExtraQuotes (quote : Char) (s rest : List Char) : List Char × List Char :=
  match rest with
  | a :: b :: more =>
    if a = quote then
      if b = quote then (s ++ [quote, quote], more) else (s ++ [quote], b :: more)
    else (s, rest)
  | [a] => if a = quote then (s ++ [quote], []) else (s, rest)
  | [] => (s, rest)

/-- The line feed that may follow the opening of a string of several lines. -/
def dropFirstBreak : List Char → List Char
  | '\n' :: cs => cs
  | cs => cs

/-- A string of any form at the front of a text, if one starts there. -/
def stringValue : List Char → Option (Option (List Char × List Char))
  | '"' :: '"' :: '"' :: cs =>
    some ((basicBody true (cs.length + 1) [] (dropFirstBreak cs)).map fun r =>
      withExtraQuotes '"' r.1 r.2)
  | '"' :: cs => some (basicBody false (cs.length + 1) [] cs)
  | '\'' :: '\'' :: '\'' :: cs =>
    some ((longLiteralBody [] (dropFirstBreak cs)).map fun r => withExtraQuotes '\'' r.1 r.2)
  | '\'' :: cs => some (literalBody cs)
  | _ => none

/-! ## Dates and times -/

/-- Two digits that make a number within bounds. -/
def twoDigits (low high : Nat) : List Char → Option (Nat × List Char)
  | a :: b :: cs => do
    let x ← Text.asciiDigit? a
    let y ← Text.asciiDigit? b
    let n := 10 * x + y
    if low ≤ n ∧ n ≤ high then some (n, cs) else none
  | _ => none

/-- The microseconds that the digits of a fraction make; further digits do not count. -/
def microseconds (ds : List Char) : Nat :=
  Decimal.ofDigits 10 (((ds ++ List.replicate 6 '0').take 6).reverse.map fun d =>
    (Text.asciiDigit? d).getD 0)

def time (cs : List Char) : Option (Clock × List Char) := do
  let (hour, cs) ← twoDigits 0 23 cs
  let (minute, cs) ← colon cs >>= twoDigits 0 59
  let (second, cs) ← colon cs >>= twoDigits 0 59
  match cs with
  | '.' :: d :: more =>
    if d.isDigit then
      some (⟨hour, minute, second, microseconds ((d :: more).takeWhile Char.isDigit)⟩,
        (d :: more).dropWhile Char.isDigit)
    else some (⟨hour, minute, second, 0⟩, cs)
  | cs => some (⟨hour, minute, second, 0⟩, cs)
where
  colon : List Char → Option (List Char)
    | ':' :: cs => some cs
    | _ => none

/-- A date, which need not exist. -/
def date (cs : List Char) : Option (Date × List Char) := do
  let (century, cs) ← twoDigits 0 99 cs
  let (decade, cs) ← twoDigits 0 99 cs
  let (month, cs) ← dash cs >>= twoDigits 1 12
  let (day, cs) ← dash cs >>= twoDigits 1 31
  some (⟨100 * century + decade, month, day⟩, cs)
where
  dash : List Char → Option (List Char)
    | '-' :: cs => some cs
    | _ => none

def offset : List Char → Option Int × List Char
  | 'Z' :: cs | 'z' :: cs => (some 0, cs)
  | c :: cs =>
    if c = '+' ∨ c = '-' then
      match twoDigits 0 23 cs with
      | some (h, ':' :: more) =>
        match twoDigits 0 59 more with
        | some (m, rest) => (some (Decimal.signed (c = '-') (60 * h + m)), rest)
        | none => (none, c :: cs)
      | _ => (none, c :: cs)
    else (none, c :: cs)
  | [] => (none, [])

/-- A date, a time or both. A date that does not exist makes the document malformed. -/
def moment (cs : List Char) : Option (Except ParseFault (Value × List Char)) :=
  match date cs with
  | some (day, rest) =>
    let (m, rest) : Moment × List Char := match rest with
      | c :: more =>
        if c = 'T' ∨ c = 't' ∨ c = ' ' then
          match time more with
          | some (clock, after) =>
            let (zone, after) := offset after
            (.dateTime day clock zone, after)
          | none => (.date day, rest)
        else (.date day, rest)
      | [] => (.date day, rest)
    some (if day.Exists then .ok (.moment m, rest) else .error .malformed)
  | none => (time cs).map fun r => .ok (.moment (.time r.1), r.2)

/-! ## Numbers -/

/-- The value of a digit in a base up to sixteen. -/
def digitIn (base : Nat) (c : Char) : Option Nat :=
  (Text.hexDigit? c).bind fun d => if d < base then some d else none

/-- An integer in another base after its mark. -/
def basedInteger (base : Nat) (cs : List Char) : Option (Value × List Char) :=
  match Decimal.takeDigits (digitIn base) true [] cs with
  | ([], _) => none
  | (ds, rest) => some (.int (Decimal.ofDigits base ds), rest)

/-- The base that a letter after a zero marks. -/
def baseOf : Char → Option Nat
  | 'x' => some 16
  | 'b' => some 2
  | 'o' => some 8
  | _ => none

/-- The places after a point, first digit last; none if no digit follows the point. -/
def places : List Char → List Nat × List Char
  | '.' :: cs =>
    match Decimal.takeDigits Text.asciiDigit? true [] cs with
    | ([], _) => ([], '.' :: cs)
    | found => found
  | cs => ([], cs)

def exponent (cs : List Char) : Option Int × List Char :=
  match cs with
  | c :: more =>
    if c = 'e' ∨ c = 'E' then
      match Decimal.takeExponent Text.asciiDigit? true more with
      | some (k, rest) => (some k, rest)
      | none => (none, cs)
    else (none, cs)
  | [] => (none, cs)

/-- A decimal number: real if it has places or an exponent. -/
def decimal (cs : List Char) : Option (Except ParseFault (Value × List Char)) :=
  let (negative, body) := Decimal.takeSign cs
  let (whole, rest) := match body with
    | '0' :: more => ([0], more)
    | body => Decimal.takeDigits Text.asciiDigit? true [] body
  if whole.isEmpty then none
  else
    let (after, rest) := places rest
    let (k, rest) := exponent rest
    some <|
      if after.isEmpty && k.isNone then
        if Decimal.maxDigits < whole.length then .error .integerTooLong
        else .ok (.int (Decimal.signed negative (Decimal.ofDigits 10 whole)), rest)
      else
        let n := Decimal.ofDigits 10 (after ++ whole)
        .ok (.real (Decimal.Real.decimal negative n (k.getD 0 - after.length)).toBinary64, rest)

def words : List (List Char × Value) := [
  ("true".toList, .bool true), ("false".toList, .bool false),
  ("inf".toList, .real (.infinite false)), ("nan".toList, .real .nan),
  ("+inf".toList, .real (.infinite false)), ("-inf".toList, .real (.infinite true)),
  ("+nan".toList, .real .nan), ("-nan".toList, .real .nan)]

def number (cs : List Char) : Option (Except ParseFault (Value × List Char)) :=
  match cs with
  | '0' :: c :: more =>
    match (baseOf c).bind fun b => basedInteger b more with
    | some r => some (.ok r)
    | none => decimal cs
  | cs => decimal cs

/-- A value other than an array or a table. -/
def scalar : Reader Value := fun cs =>
  match stringValue cs with
  | some (some (s, rest)) => .ok (.text (String.ofList s), rest)
  | some none => .error .malformed
  | none =>
    match words.find? fun w => w.1.isPrefixOf cs with
    | some (w, v) => .ok (v, cs.drop w.length)
    | none =>
      match moment cs with
      | some r => r
      | none => (number cs).getD (.error .malformed)

end RepoSurvey.Toml
