import RepoSurvey.Decimal.Numeral
import RepoSurvey.Json.Data

/-!
# RepoSurvey.Json.Parser

Reading JSON text, for its data or for the fields of a record. `NaN`, `Infinity` and `-Infinity`
are numbers; control characters must be escaped inside strings. Data keep the first place and the
last value of a repeated key, and may hold halves of characters. Text for a record keeps repeated
keys as they stand, refuses such halves, and has limits of its own for the length of numbers and for
the depth. A fault carries the text from where it was found, which gives its line and column. The
fuel of the parser is the length of the text.
-/

namespace RepoSurvey.Json

inductive Purpose where
  | data
  | record
deriving DecidableEq, Repr

/-- What is wrong at a place of a text. -/
inductive Defect where
  | noValue
  | noName
  | noColon
  | noComma
  | openString
  | controlCharacter
  | unknownEscape
  | brokenEscape
  | textAfterValue
  | byteOrderMark
deriving DecidableEq, Repr

inductive ParseFault where
  /-- Something is wrong where only the rest of the text is left. -/
  | malformed (defect : Defect) (rest : List Char)
  | numberTooLong (digits : Nat)
  | tooDeep
deriving DecidableEq, Repr

/-- Moves a fault of form to another place. -/
def ParseFault.at (rest : List Char) : ParseFault → ParseFault
  | malformed defect _ => .malformed defect rest
  | fault => fault

/-- What a parser yields: a result and the text that follows it. -/
abbrev Parsed (α : Type) := Except ParseFault (α × List Char)

def skipSpace (cs : List Char) : List Char :=
  cs.dropWhile fun c => c == ' ' || c == '\t' || c == '\n' || c == '\r'

/-! ## Strings -/

/-- Four hexadecimal digits that something follows. -/
def hex4 : List Char → Option (Nat × List Char)
  | a :: b :: c :: d :: next :: cs => do
    let a ← Text.hexDigit? a
    let b ← Text.hexDigit? b
    let c ← Text.hexDigit? c
    let d ← Text.hexDigit? d
    some (((a * 16 + b) * 16 + c) * 16 + d, next :: cs)
  | _ => none

/-- The character of a one-letter escape. -/
def escape? : Char → Option Char
  | '"' => some '"'
  | '\\' => some '\\'
  | '/' => some '/'
  | 'b' => some '\x08'
  | 'f' => some '\x0c'
  | 'n' => some '\n'
  | 'r' => some '\r'
  | 't' => some '\t'
  | _ => none

/-- The character of an upper and a lower half. -/
def joined? (upper lower : Nat) : Option Char :=
  if (0xD800 ≤ upper ∧ upper < 0xDC00) ∧ 0xDC00 ≤ lower ∧ lower < 0xE000 then
    some (Char.ofNat (0x10000 + (upper - 0xD800) * 0x400 + (lower - 0xDC00)))
  else none

/-- The character of which `upper` is the upper half, if an escape for the lower one follows. -/
def pair? (upper : Nat) : List Char → Option (Char × List Char)
  | '\\' :: 'u' :: cs => do
    let (lower, rest) ← hex4 cs
    let c ← joined? upper lower
    some (c, rest)
  | _ => none

/-- The point of a hexadecimal escape. Two escapes for the halves of a character give the character.
A half without the other stands for itself in data; a record may not hold one. -/
def unicodeEscape (purpose : Purpose) (cs : List Char) : Option (Point × List Char) := do
  let (n, rest) ← hex4 cs
  match pair? n rest with
  | some (c, rest) => some (.char c, rest)
  | none =>
    match purpose, Point.ofCode n with
    | .record, .half _ => none
    | _, p => some (p, rest)

/-- The rest of a string after its opening quote: `acc` holds what was read, last first, and
`opening` is the text from the quote on. -/
def stringBody (purpose : Purpose) (opening : List Char) :
    Nat → List Point → List Char → Parsed Points
  | 0, _, _ => .error (.malformed .openString opening)
  | _ + 1, _, [] => .error (.malformed .openString opening)
  | fuel + 1, acc, c :: cs =>
    if c == '"' then .ok (acc.reverse, cs)
    else if c.toNat < 32 then .error (.malformed .controlCharacter (c :: cs))
    else if c == '\\' then
      match cs with
      | 'u' :: more =>
        match unicodeEscape purpose more with
        | some (p, after) => stringBody purpose opening fuel (p :: acc) after
        | none => .error (.malformed .brokenEscape cs)
      | e :: more =>
        match escape? e with
        | some d => stringBody purpose opening fuel (.char d :: acc) more
        | none => .error (.malformed .unknownEscape (c :: cs))
      | [] => .error (.malformed .openString opening)
    else stringBody purpose opening fuel (.char c :: acc) cs

def stringAfterQuote (purpose : Purpose) (cs : List Char) : Parsed Points :=
  stringBody purpose ('"' :: cs) (cs.length + 1) [] cs

/-! ## Numbers -/

/-- The fraction of a number, as its digits with the last first; empty if there is none. -/
def fraction : List Char → List Nat × List Char
  | '.' :: cs =>
    match Decimal.takeDigits Text.asciiDigit? false [] cs with
    | ([], _) => ([], '.' :: cs)
    | found => found
  | cs => ([], cs)

def exponent : List Char → Option Int × List Char
  | c :: cs =>
    if c == 'e' || c == 'E' then
      match Decimal.takeExponent Text.asciiDigit? false cs with
      | some (k, rest) => (some k, rest)
      | none => (none, c :: cs)
    else (none, c :: cs)
  | [] => (none, [])

/-- The most digits of an integer from the text of a record that stands for any number. -/
def maxPlainDigits : Nat := 18

/-- An integer, given by its digits with the last first. -/
def integerOf (purpose : Purpose) (negative : Bool) (digits : List Nat) : Data :=
  let n := Decimal.signed negative (Decimal.ofDigits 10 digits)
  if purpose = .record ∧ maxPlainDigits < digits.length then .long n else .int n

/-- Whether the digits before the point are too many. In data only integers are limited; in the text
of a record the sign counts as a digit. -/
def isTooLong (purpose : Purpose) (negative real : Bool) (digits : Nat) : Bool :=
  match purpose with
  | .data => !real && Decimal.maxDigits < digits
  | .record => Decimal.maxDigits < digits + (if negative then 1 else 0)

/-- A number without its sign. A number with a fraction or an exponent is real. -/
def unsignedNumber (purpose : Purpose) (negative : Bool) (cs : List Char) : Parsed Data :=
  let (whole, rest) := match cs with
    | '0' :: cs => ([0], cs)
    | cs => Decimal.takeDigits Text.asciiDigit? false [] cs
  if whole.isEmpty then .error (.malformed .noValue cs)
  else
    let (places, rest) := fraction rest
    let (k, rest) := exponent rest
    let real := !places.isEmpty || k.isSome
    if isTooLong purpose negative real whole.length then .error (.numberTooLong whole.length)
    else if real then
      let n := Decimal.ofDigits 10 (places ++ whole)
      .ok (.real (Decimal.Real.decimal negative n (k.getD 0 - places.length)).toBinary64, rest)
    else .ok (integerOf purpose negative whole, rest)

def words : List (List Char × Data) := [
  ("null".toList, .null), ("true".toList, .bool true), ("false".toList, .bool false),
  ("NaN".toList, .real .nan), ("Infinity".toList, .real (.infinite false)),
  ("-Infinity".toList, .real (.infinite true))]

def atom (purpose : Purpose) (cs : List Char) : Parsed Data :=
  match words.find? fun w => w.1.isPrefixOf cs with
  | some (w, v) => .ok (v, cs.drop w.length)
  | none =>
    match cs with
    | '-' :: more => (unsignedNumber purpose true more).mapError (·.at cs)
    | cs => unsignedNumber purpose false cs

/-! ## Values -/

def objectOf (purpose : Purpose) (ms : Members) : Data :=
  match purpose with
  | .data => .object (Keyed.merged ms)
  | .record => .object ms

/-- How many lists and objects that are not empty may stand around a value. The format sets no
limit: data are read as deep as a stack of a thousand calls goes, of which the callers hold the
rest, and the depth for a record is a choice of its reader. -/
def maxDepth : Purpose → Nat
  | .data => 987
  | .record => 200

mutual

/-- A value at the front of a text; `room` is the depth that is left for lists and objects. -/
def value (purpose : Purpose) : (fuel room : Nat) → List Char → Parsed Data
  | 0, _, cs => .error (.malformed .noValue cs)
  | fuel + 1, room, cs =>
    match skipSpace cs with
    | '"' :: cs => (stringAfterQuote purpose cs).map fun r => (.text r.1, r.2)
    | '[' :: cs =>
      match skipSpace cs, room with
      | ']' :: cs, _ => .ok (.list [], cs)
      | _, 0 => .error .tooDeep
      | cs, room + 1 => elements purpose fuel room [] cs
    | '{' :: cs =>
      match skipSpace cs, room with
      | '}' :: cs, _ => .ok (.object [], cs)
      | _, 0 => .error .tooDeep
      | cs, room + 1 => members purpose fuel room [] cs
    | cs => atom purpose cs

/-- The elements of a list up to its end; `acc` holds those read, last first. -/
def elements (purpose : Purpose) : (fuel room : Nat) → List Data → List Char → Parsed Data
  | 0, _, _, cs => .error (.malformed .noValue cs)
  | fuel + 1, room, acc, cs =>
    match value purpose fuel room cs with
    | .error e => .error e
    | .ok (v, rest) =>
      match skipSpace rest with
      | ',' :: rest => elements purpose fuel room (v :: acc) rest
      | ']' :: rest => .ok (.list (v :: acc).reverse, rest)
      | rest => .error (.malformed .noComma rest)

/-- The members of an object up to its end; `acc` holds those read, last first. -/
def members (purpose : Purpose) : (fuel room : Nat) → Members → List Char → Parsed Data
  | 0, _, _, cs => .error (.malformed .noName cs)
  | fuel + 1, room, acc, cs =>
    match skipSpace cs with
    | '"' :: cs =>
      match stringAfterQuote purpose cs with
      | .error e => .error e
      | .ok (key, rest) =>
        match skipSpace rest with
        | ':' :: rest =>
          match value purpose fuel room rest with
          | .error e => .error e
          | .ok (v, rest) =>
            match skipSpace rest with
            | ',' :: rest => members purpose fuel room ((key, v) :: acc) rest
            | '}' :: rest => .ok (objectOf purpose ((key, v) :: acc).reverse, rest)
            | rest => .error (.malformed .noComma rest)
        | rest => .error (.malformed .noColon rest)
    | rest => .error (.malformed .noName rest)

end

/-- What a whole text spells, in front of which no byte order mark may stand. -/
def parseFor (purpose : Purpose) (s : String) : Except ParseFault Data :=
  let cs := s.toList
  if cs.head? = some '\ufeff' then .error (.malformed .byteOrderMark cs)
  else match value purpose (cs.length + 1) (maxDepth purpose) cs with
    | .error e => .error e
    | .ok (d, rest) =>
      match skipSpace rest with
      | [] => .ok d
      | rest => .error (.malformed .textAfterValue rest)

def parseData (s : String) : Except ParseFault Data := parseFor .data s

/-- The data of a text as a value. -/
def parse (s : String) : Except ParseFault Value := (parseData s).map fun d => d.toValue.merged

/-- The value of a text that is to be read as a record. -/
def parseRecord? (s : String) : Option Value := (parseFor .record s).toOption.map Data.toValue

/-! ## The wording of faults -/

def Defect.message : Defect → String
  | noValue => "Expecting value"
  | noName => "Expecting property name enclosed in double quotes"
  | noColon => "Expecting ':' delimiter"
  | noComma => "Expecting ',' delimiter"
  | openString => "Unterminated string starting at"
  | controlCharacter => "Invalid control character at"
  | unknownEscape => "Invalid \\escape"
  | brokenEscape => "Invalid \\uXXXX escape"
  | textAfterValue => "Extra data"
  | byteOrderMark => "Unexpected UTF-8 BOM (decode using utf-8-sig)"

/-- A place after some text: its line and column from one, and the count of characters before. -/
def placeAfter (before : List Char) : String :=
  let line := before.count '\n' + 1
  let column := (before.reverse.takeWhile (· ≠ '\n')).length + 1
  "line " ++ toString line ++ " column " ++ toString column ++ " (char " ++
    toString before.length ++ ")"

def ParseFault.message (text : String) : ParseFault → String
  | malformed defect rest =>
    let cs := text.toList
    defect.message ++ ": " ++ placeAfter (cs.take (cs.length - rest.length))
  | numberTooLong digits =>
    "Exceeds the limit (" ++ toString Decimal.maxDigits ++
      " digits) for integer string conversion: value has " ++ toString digits ++
      " digits; use sys.set_int_max_str_digits() to increase the limit"
  | tooDeep => "Lists and objects are nested too deeply"

end RepoSurvey.Json
