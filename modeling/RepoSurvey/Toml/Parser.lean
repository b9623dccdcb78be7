import RepoSurvey.Toml.Scalar
import RepoSurvey.Toml.Tree

/-!
# RepoSurvey.Toml.Parser

Reading TOML documents into tables. The fuel of the readers is the length of the text, which the
number of statements never exceeds; the depth of values has a limit of its own.
-/

namespace RepoSurvey.Toml

/-! ## Keys -/

/-- The characters of bare keys. -/
def isBareKey (c : Char) : Bool := c.isAlphanum || c = '-' || c = '_'

/-- One part of a dotted key. -/
def keyPart : Reader String := fun cs =>
  match cs with
  | '"' :: more =>
    match basicBody false (more.length + 1) [] more with
    | some (s, rest) => .ok (String.ofList s, rest)
    | none => .error .malformed
  | '\'' :: more =>
    match literalBody more with
    | some (s, rest) => .ok (String.ofList s, rest)
    | none => .error .malformed
  | cs =>
    match cs.takeWhile isBareKey with
    | [] => .error .malformed
    | s => .ok (String.ofList s, cs.dropWhile isBareKey)

def key : (fuel : Nat) → Reader (List String)
  | 0 => Reader.malformed
  | fuel + 1 => do
    let part ← keyPart
    Reader.skipWhile isInlineSpace
    match ← Reader.rest with
    | '.' :: cs =>
      Reader.goTo cs
      Reader.skipWhile isInlineSpace
      let parts ← key fuel
      pure (part :: parts)
    | _ => pure [part]

/-! ## Values -/

/-- A comment, if one starts here: everything up to the end of the line. -/
def comment : Reader Unit := do
  match ← Reader.rest with
  | '#' :: cs =>
    if (cs.takeWhile (· ≠ '\n')).any isControl then Reader.malformed
    else Reader.goTo (cs.dropWhile (· ≠ '\n'))
  | _ => pure ()

/-- The spaces, breaks and comments between the elements of an array. -/
def skipBetween : (fuel : Nat) → Reader Unit
  | 0 => pure ()
  | fuel + 1 => do
    Reader.skipWhile isSpaceOrBreak
    match ← Reader.rest with
    | '#' :: _ =>
      comment
      skipBetween fuel
    | _ => pure ()

/-- The depth that a document may have: an array takes up two units, an inline table three. The
format sets no limit: this is what the callers leave of a stack of a thousand calls. -/
def maxDepth : Nat := 986

mutual

/-- A value; `room` is the depth that is left for arrays and inline tables. -/
def value : (fuel room : Nat) → Reader Value
  | 0, _ => Reader.malformed
  | fuel + 1, room => do
    match ← Reader.rest, room with
    | '[' :: cs, room + 2 =>
      Reader.goTo cs
      skipBetween cs.length
      elements fuel room []
    | '[' :: _, _ => Reader.tooDeep
    | '{' :: cs, room + 3 =>
      Reader.goTo cs
      Reader.skipWhile isInlineSpace
      match ← Reader.rest with
      | '}' :: cs =>
        Reader.goTo cs
        pure (.object [])
      | _ => members fuel room []
    | '{' :: _, _ => Reader.tooDeep
    | _, _ => scalar

/-- The elements of an array up to its end; `acc` holds those read, last first. -/
def elements : (fuel room : Nat) → List Value → Reader Value
  | 0, _, _ => Reader.malformed
  | fuel + 1, room, acc => do
    match ← Reader.rest with
    | ']' :: cs =>
      Reader.goTo cs
      pure (.list acc.reverse)
    | cs =>
      let v ← value fuel room
      skipBetween cs.length
      match ← Reader.rest with
      | ']' :: cs =>
        Reader.goTo cs
        pure (.list (v :: acc).reverse)
      | ',' :: cs =>
        Reader.goTo cs
        skipBetween cs.length
        elements fuel room (v :: acc)
      | _ => Reader.malformed

/-- The members of an inline table up to its end. -/
def members : (fuel room : Nat) → Entries → Reader Value
  | 0, _, _ => Reader.malformed
  | fuel + 1, room, es => do
    let cs ← Reader.rest
    let k ← key cs.length
    Reader.expect "="
    Reader.skipWhile isInlineSpace
    let v ← value fuel room
    match Entries.assign 0 v k es with
    | none => Reader.malformed
    | some es =>
      Reader.skipWhile isInlineSpace
      match ← Reader.rest with
      | '}' :: cs =>
        Reader.goTo cs
        pure (.object (entryValues es))
      | ',' :: cs =>
        Reader.goTo cs
        Reader.skipWhile isInlineSpace
        members fuel room es
      | _ => Reader.malformed

end

/-! ## Documents -/

/-- A document that is being read: its tables, the path of the open section and its number. -/
structure State where
  root : Entries := []
  header : List String := []
  part : Nat := 0

/-- Keeps a change of the tables that the rules allow. -/
def State.withRoot (s : State) : Option Entries → Reader State
  | some root => pure { s with root }
  | none => Reader.malformed

/-- The header of a table or of an array of tables after its brackets. -/
def headerLine (open_ : String → Entries → Option Entries) (close : String) (s : State) :
    Reader State := do
  Reader.skipWhile isInlineSpace
  let cs ← Reader.rest
  let path ← key cs.length
  let s ← s.withRoot
    (match path.getLast? with
      | some last => Entries.modify (open_ last) path.dropLast s.root
      | none => none)
  Reader.expect close
  pure { s with header := path, part := s.part + 1 }

def pairLine (s : State) : Reader State := do
  let cs ← Reader.rest
  let path ← key cs.length
  Reader.expect "="
  Reader.skipWhile isInlineSpace
  let v ← value (cs.length + 1) maxDepth
  s.withRoot (Entries.modify (Entries.assign s.part v path) s.header s.root)

def statement (s : State) : Reader State := do
  match ← Reader.rest with
  | '[' :: '[' :: cs =>
    Reader.goTo cs
    headerLine Entries.extend "]]" s
  | '[' :: cs =>
    Reader.goTo cs
    headerLine Entries.declare "]" s
  | '#' :: _ => pure s
  | '\n' :: _ => pure s
  | [] => pure s
  | _ => pairLine s

def document : (fuel : Nat) → State → Reader State
  | 0, s => pure s
  | fuel + 1, s => do
    Reader.skipWhile isInlineSpace
    let s ← statement s
    Reader.skipWhile isInlineSpace
    comment
    match ← Reader.rest with
    | [] => pure s
    | '\n' :: cs =>
      Reader.goTo cs
      document fuel s
    | _ => Reader.malformed

/-- Line breaks of two characters as line feeds. -/
def plainBreaks : List Char → List Char
  | '\r' :: '\n' :: cs => '\n' :: plainBreaks cs
  | c :: cs => c :: plainBreaks cs
  | [] => []

/-- The fields of a whole document. -/
def parse (text : String) : Except ParseFault Fields :=
  let cs := plainBreaks text.toList
  (document (cs.length + 1) {} cs).map fun r => entryValues r.1.root

end RepoSurvey.Toml
