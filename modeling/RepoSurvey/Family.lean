import RepoSurvey.Family.Go
import RepoSurvey.Family.Python
import RepoSurvey.Family.Rust
import RepoSurvey.Family.Script

/-!
# RepoSurvey.Family

Languages are handled in families, each with its own ways to write symbols and imports. Files of
other languages have neither.
-/

namespace RepoSurvey

inductive Family where
  | script | python | go | rust | none
deriving DecidableEq, Repr

namespace Family

def ofLanguage : String → Family
  | "TypeScript" | "JavaScript" => .script
  | "Python" => .python
  | "Go" => .go
  | "Rust" => .rust
  | _ => .none

def symbols (f : Family) (content : String) : SymbolCounts :=
  let counts (classes functions exports : List (Pattern Unit)) : SymbolCounts := {
    classes := Pattern.count classes content.toList
    functions := Pattern.count functions content.toList
    exports := Pattern.count exports content.toList }
  match f with
  | .script => counts Script.classes Script.functions Script.exports
  | .python => counts Python.classes Python.functions Python.exports
  | .go => counts Go.classes Go.functions Go.exports
  | .rust => counts Rust.classes Rust.functions Rust.exports
  | .none => {}

/-- The dependencies of a file on paths of the index, in the order in which they are written. -/
def edges (f : Family) (path content : String) (ix : PathIndex) : List Edge :=
  match f with
  | .script => Script.edges path content.toList ix
  | .python => Python.edges path content.toList ix
  | .go => Go.edges path content.toList ix
  | .rust | .none => []

end Family

end RepoSurvey
