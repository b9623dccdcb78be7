import RepoSurvey.Graph.Adjacency

/-!
# RepoSurvey.Graph.Diagram

The dependency graph as the text of a Mermaid diagram. The nodes are numbered in the order in
which they first appear among the ends of the drawn edges.
-/

namespace RepoSurvey.Graph

/-- The distinct ends of some edges, sources before targets. -/
def endpoints (edges : List Edge) : List String :=
  (edges.flatMap fun e => [e.source, e.target]).eraseDups

def nodeId (nodes : List String) (path : String) : String := "n" ++ toString (nodes.idxOf path)

def nodeText (nodes : List String) (path : String) : String :=
  nodeId nodes path ++ "[\"" ++ path ++ "\"]"

def edgeLine (nodes : List String) (e : Edge) : String :=
  "    " ++ nodeText nodes e.source ++ " -->|" ++ Named.name e.kind ++ "| " ++
    nodeText nodes e.target

/-- The diagram of the first edges, with a note on how many are not shown. -/
def diagram (edges : List Edge) (limit : Int) : String :=
  let drawn := upTo limit edges
  let note :=
    if limit < edges.length then
      ["    %% " ++ toString (edges.length - limit) ++ " more edges not shown"]
    else []
  "\n".intercalate ("graph LR" :: drawn.map (edgeLine (endpoints drawn)) ++ note)

end RepoSurvey.Graph
