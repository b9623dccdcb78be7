import RepoSurvey.Resolution
import RepoSurvey.Scan
import RepoSurvey.Snapshot

/-!
# RepoSurvey.Family.Python

Symbols and imports of Python files. Of an import statement the first module counts, and of a
statement that imports from a module also the first name.
-/

namespace RepoSurvey.Family.Python

/-- The word that makes a function asynchronous, if it is there. -/
def asyncMark : Scan Unit := Scan.optional (do Scan.exactly "async"; Scan.blanks1)

/-- A word of any characters. -/
def anyName : Scan Unit := do
  let _ ← Scan.many1 Text.isWord

def publicName : Scan Unit := Scan.name Text.isLetter Text.isWord

/-- Classes, indented or not. -/
def classes : List (Pattern Unit) := [
  .atLine (do Scan.indent; Scan.exactly "class"; Scan.blanks1; anyName)]

def functions : List (Pattern Unit) := [
  .atLine (do Scan.indent; asyncMark; Scan.exactly "def"; Scan.blanks1; anyName)]

/-- Public functions and classes of the module. -/
def exports : List (Pattern Unit) := [
  .atLine (do asyncMark; Scan.exactly "def"; Scan.blanks1; publicName),
  .atLine (do Scan.exactly "class"; Scan.blanks1; publicName)]

/-- What a statement imports: a module, and a name from it. -/
structure Import where
  module : String
  name : Option String := none
deriving DecidableEq, Repr

/-- The name of a module: words and dots. -/
def moduleName : Scan String := do
  let m ← Scan.many1 fun c => Text.isWord c || c = '.'
  pure (String.ofList m)

def fromImport : Scan Import := do
  Scan.exactly "from"
  Scan.blanks1
  let module ← moduleName
  Scan.blanks1
  Scan.exactly "import"
  Scan.wordEnd
  Scan.blanks
  Scan.optional (Scan.char '(')
  Scan.blanks
  let name ← Scan.many Text.isWord
  pure ⟨module, if name = [] then none else some (String.ofList name)⟩

def plainImport : Scan Import := do
  Scan.exactly "import"
  Scan.blanks1
  let module ← moduleName
  pure ⟨module, none⟩

def imports : Pattern Import := .atLine (do Scan.indent; fromImport <|> plainImport)

def edges (path : String) (content : List Char) (ix : PathIndex) : List Edge :=
  (imports.find content).filterMap fun i =>
    (Resolution.module path i.module i.name ix).map fun target => { source := path, target }

end RepoSurvey.Family.Python
