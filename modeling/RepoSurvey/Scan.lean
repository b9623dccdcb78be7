import RepoSurvey.Text.Blank
import RepoSurvey.Text.Word

/-!
# RepoSurvey.Scan

Looking for the places in a text where something is written. A scanner reads from the front of a
text and yields what it read; a pattern is a scanner with a condition on the character before it.
The matches of a pattern do not overlap: the search goes on where a match ends.
-/

namespace RepoSurvey

/-- A reader of the front of a text. -/
abbrev Scan := StateT (List Char) Option

namespace Scan

def char (c : Char) : Scan Unit
  | d :: cs => if d = c then some ((), cs) else none
  | [] => none

def exactly (w : String) : Scan Unit := fun cs =>
  if w.toList.isPrefixOf cs then some ((), cs.drop w.toList.length) else none

def one (p : Char → Bool) : Scan Char
  | c :: cs => if p c then some (c, cs) else none
  | [] => none

/-- As many characters of a class as there are. -/
def many (p : Char → Bool) : Scan (List Char) := fun cs =>
  some (cs.takeWhile p, cs.dropWhile p)

/-- As many characters of a class as there are, at least one. -/
def many1 (p : Char → Bool) : Scan (List Char) := fun cs =>
  match cs.takeWhile p with
  | [] => none
  | w => some (w, cs.dropWhile p)

/-- Blanks, if there are any. -/
def blanks : Scan Unit := do
  let _ ← many Text.isBlank

def blanks1 : Scan Unit := do
  let _ ← many1 Text.isBlank

/-- Spaces and tabs, if there are any. -/
def indent : Scan Unit := do
  let _ ← many fun c => c = ' ' ∨ c = '\t'

/-- Demands that no character of a word follows. -/
def wordEnd : Scan Unit := fun cs =>
  match cs with
  | c :: _ => if Text.isWord c then none else some ((), cs)
  | [] => some ((), cs)

/-- A word that is one of some keywords. -/
def oneOf (keywords : List String) : Scan Unit := do
  let w ← many1 Text.isWord
  if keywords.contains (String.ofList w) then pure () else failure

/-- Reads with `s` if it succeeds, and nothing otherwise. -/
def optional (s : Scan Unit) : Scan Unit := fun cs =>
  match s cs with
  | some r => some r
  | none => some ((), cs)

/-- A name: a first character of one class and any number of another. -/
def name (first more : Char → Bool) : Scan Unit := do
  let _ ← one first
  let _ ← many more

end Scan

/-- A scanner and what may stand before it; nothing stands before the start of the text. -/
structure Pattern (α : Type) where
  opens : Option Char → Bool
  scan : Scan α

namespace Pattern

variable {α : Type}

/-- A pattern that does not start inside a word. -/
def atWord (scan : Scan α) : Pattern α where
  opens
    | some c => !Text.isWord c
    | none => true
  scan := scan

/-- A pattern that starts at the front of a line. -/
def atLine (scan : Scan α) : Pattern α where
  opens before := before = none ∨ before = some '\n'
  scan := scan

/-- A pattern that starts anywhere. -/
def anywhere (scan : Scan α) : Pattern α where
  opens _ := true
  scan := scan

/-- The matches of a pattern in a text after the next `skip` characters. -/
def findFrom (p : Pattern α) : (skip : Nat) → (before : Option Char) → List Char → List α
  | _, _, [] => []
  | skip + 1, _, c :: cs => findFrom p skip (some c) cs
  | 0, before, c :: cs =>
    match if p.opens before then p.scan (c :: cs) else none with
    | some (a, rest) => a :: findFrom p (cs.length - rest.length) (some c) cs
    | none => findFrom p 0 (some c) cs

def find (p : Pattern α) (text : List Char) : List α := findFrom p 0 none text

/-- The number of matches of all patterns in a text. -/
def count (ps : List (Pattern Unit)) (text : List Char) : Int :=
  (ps.flatMap fun p => p.find text).length

end Pattern

end RepoSurvey
