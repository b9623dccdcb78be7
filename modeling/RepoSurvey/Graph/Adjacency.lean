import RepoSurvey.Snapshot

/-!
# RepoSurvey.Graph.Adjacency

The dependency graph: for every source its targets, each once, both in the order in which they
first appear among the edges.
-/

namespace RepoSurvey.Graph

/-- Sources and their targets. -/
abbrev Adjacency := List (String × List String)

def adjacency (edges : List Edge) : Adjacency :=
  (edges.map (·.source)).eraseDups.map fun s =>
    (s, ((edges.filter fun e => e.source = s).map (·.target)).eraseDups)

def Adjacency.targets (adj : Adjacency) (node : String) : List String :=
  (adj.lookup node).getD []

/-- A list up to a limit; a negative limit counts from the end. -/
def upTo {α : Type} (limit : Int) (xs : List α) : List α :=
  xs.take (if limit < 0 then xs.length + limit else limit).toNat

theorem upTo_ofNat {α : Type} (n : Nat) (xs : List α) : upTo n xs = xs.take n := by
  have h : ¬((n : Int) < 0) := by omega
  simp [upTo, h]

theorem upTo_of_length_le {α : Type} {limit : Int} {xs : List α} (h : xs.length ≤ limit) :
    upTo limit xs = xs := by
  rw [upTo, if_neg (by omega)]
  exact List.take_of_length_le (by omega)

end RepoSurvey.Graph
