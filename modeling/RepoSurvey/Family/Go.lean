import RepoSurvey.Resolution
import RepoSurvey.Scan
import RepoSurvey.Snapshot
import RepoSurvey.Text.Lines

/-!
# RepoSurvey.Family.Go

Symbols and imports of Go files. An import declaration names one package, or several in
parentheses, one on a line.
-/

namespace RepoSurvey.Family.Go

/-- Declared structures and interfaces. -/
def classes : List (Pattern Unit) := [
  .atLine (do
    Scan.indent
    Scan.exactly "type"
    Scan.blanks1
    let _ ← Scan.many1 Text.isWord
    Scan.blanks1
    Scan.oneOf ["struct", "interface"])]

def functions : List (Pattern Unit) := [
  .atLine (do Scan.indent; Scan.exactly "func"; Scan.wordEnd)]

def publicName : Scan Unit := Scan.name Char.isUpper Text.isWord

/-- The text in parentheses up to the first that closes. -/
def parenthesised : Scan (List Char) := do
  Scan.char '('
  let s ← Scan.many (· ≠ ')')
  Scan.char ')'
  pure s

def receiver : Scan Unit := do
  let _ ← parenthesised
  Scan.blanks

/-- Functions, methods and types with a public name. -/
def exports : List (Pattern Unit) := [
  .atLine (do
    Scan.indent
    Scan.exactly "func"
    Scan.blanks1
    Scan.optional receiver
    publicName),
  .atLine (do Scan.indent; Scan.exactly "type"; Scan.blanks1; publicName)]

/-- A package path in quotes on one line. -/
def quoted : Scan String := do
  Scan.char '"'
  let s ← Scan.many1 fun c => c ≠ '"' ∧ c ≠ '\n'
  Scan.char '"'
  pure (String.ofList s)

/-- The name that a package goes by in the file. -/
def aliasName : Scan Unit := do
  let _ ← Scan.many1 fun c => Text.isWord c || c = '.'
  Scan.blanks1

/-- The package paths of the lines of a block, at most one from each. -/
def blockPaths (block : List Char) : List String :=
  (Text.lines block).filterMap fun line => ((Pattern.anywhere quoted).find line).head?

/-- The package paths of a declaration. -/
def importPaths : Scan (List String) := do
  Scan.indent
  Scan.exactly "import"
  Scan.blanks
  (do
    let block ← parenthesised
    pure (blockPaths block)) <|>
  (do
    Scan.optional aliasName
    let path ← quoted
    pure [path])

def edges (path : String) (content : List Char) (ix : PathIndex) : List Edge :=
  ((Pattern.atLine importPaths).find content).flatten.filterMap fun p =>
    (Resolution.package path p ix).map fun target => { source := path, target, kind := .static }

end RepoSurvey.Family.Go
