import RepoSurvey.Resolution
import RepoSurvey.Scan
import RepoSurvey.Snapshot

/-!
# RepoSurvey.Family.Script

Symbols and imports of TypeScript and JavaScript files. An import names a file by a quoted
specifier, and so does a call of `require`; either quote may open it and either may close it.
-/

namespace RepoSurvey.Family.Script

def identifierStart (c : Char) : Bool := Text.isLetter c || c = '_' || c = '$'

def identifierRest (c : Char) : Bool := Text.isWord c || c = '$'

def identifier : Scan Unit := Scan.name identifierStart identifierRest

/-! ## Symbols -/

def classes : List (Pattern Unit) := [
  .atWord (do Scan.exactly "class"; Scan.blanks1; identifier),
  .atWord (do Scan.exactly "interface"; Scan.blanks1; identifier)]

/-- Named functions and generators. -/
def functionDeclaration : Scan Unit := do
  Scan.exactly "function"
  Scan.wordEnd
  Scan.blanks
  Scan.optional (Scan.char '*')
  Scan.blanks
  identifier
  Scan.blanks
  Scan.char '('

/-- The parameters of an arrow function, without parentheses inside. -/
def parameters : Scan Unit := do
  Scan.char '('
  let _ ← Scan.many fun c => c ≠ '(' ∧ c ≠ ')'
  Scan.char ')'

def arrow : Scan Unit := do
  parameters <|> identifier
  Scan.blanks
  Scan.exactly "=>"

/-- Variables whose value is an arrow function. -/
def arrowBinding : Scan Unit := do
  Scan.oneOf ["const", "let", "var"]
  Scan.blanks1
  identifier
  Scan.blanks
  Scan.char '='
  Scan.blanks
  (do Scan.exactly "async"; Scan.blanks1; arrow) <|> arrow

def functions : List (Pattern Unit) := [.atWord functionDeclaration, .atWord arrowBinding]

def exports : List (Pattern Unit) := [
  .atLine (do Scan.blanks; Scan.exactly "export"; Scan.wordEnd),
  .atWord (do Scan.exactly "module.exports"; Scan.wordEnd)]

/-! ## Imports -/

def isQuote (c : Char) : Bool := c = '\'' || c = '"'

/-- A quoted specifier on one line. -/
def quoted : Scan String := do
  let _ ← Scan.one isQuote
  let s ← Scan.many1 fun c => !isQuote c && c ≠ '\n'
  let _ ← Scan.one isQuote
  pure (String.ofList s)

/-- The characters that may stand between `import` and its specifier. -/
def isClause (c : Char) : Bool :=
  identifierRest c || c = '*' || c = '\x7b' || c = '\x7d' || c = ',' || Text.isBlank c

/-- Whether a text may stand between `import` and its specifier: blanks alone, or blanks, names
and blanks before `from` and blanks after it. -/
def isImportClause (clause : List Char) : Bool :=
  match clause.reverse.dropWhile Text.isBlank with
  | [] => !clause.isEmpty
  | 'm' :: 'o' :: 'r' :: 'f' :: names =>
    clause.getLast?.any Text.isBlank && names.head?.any Text.isBlank &&
      clause.head?.any Text.isBlank && 3 ≤ names.length
  | _ => false

def importSpecifier : Scan String := do
  Scan.exactly "import"
  let clause ← Scan.many isClause
  if isImportClause clause then quoted else failure

def requireSpecifier : Scan String := do
  Scan.exactly "require"
  Scan.blanks
  Scan.char '('
  Scan.blanks
  let s ← quoted
  Scan.blanks
  Scan.char ')'
  pure s

/-- The dependencies of one kind. -/
def edgesOf (kind : EdgeKind) (specifiers : List String) (path : String) (ix : PathIndex) :
    List Edge :=
  specifiers.filterMap fun s =>
    (Resolution.relative path s ix).map fun target => { source := path, target, kind }

/-- The dependencies of a file: imports first, then calls of `require`. -/
def edges (path : String) (content : List Char) (ix : PathIndex) : List Edge :=
  edgesOf .imported ((Pattern.atWord importSpecifier).find content) path ix ++
    edgesOf .required ((Pattern.atWord requireSpecifier).find content) path ix

end RepoSurvey.Family.Script
