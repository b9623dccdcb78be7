import RepoSurvey.Scan

/-!
# RepoSurvey.Family.Rust

Symbols of Rust files. Their imports are not followed.
-/

namespace RepoSurvey.Family.Rust

def identifier : Scan Unit := Scan.name (fun c => Text.isLetter c || c = '_') Text.isWord

def classes : List (Pattern Unit) := [
  .atWord (do Scan.oneOf ["struct", "enum", "trait"]; Scan.blanks1; identifier)]

def functions : List (Pattern Unit) := [
  .atWord (do Scan.exactly "fn"; Scan.blanks1; identifier)]

/-- The scope to which a public item is restricted. -/
def scope : Scan Unit := do
  Scan.char '('
  let _ ← Scan.many (· ≠ ')')
  Scan.char ')'

def exports : List (Pattern Unit) := [
  .atWord (do
    Scan.exactly "pub"
    Scan.optional scope
    Scan.blanks1
    Scan.oneOf ["fn", "struct", "enum", "trait", "mod", "const", "static", "type", "use"])]

end RepoSurvey.Family.Rust
