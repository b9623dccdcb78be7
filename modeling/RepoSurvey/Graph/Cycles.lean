import RepoSurvey.Graph.Adjacency

/-!
# RepoSurvey.Graph.Cycles

Cycles of the dependency graph, found by a depth-first walk from every source in turn. An edge to
a node of the trail closes a cycle; a node that was visited is not entered again. A step of the
walk reads one target or leaves one node, so the number of steps is at most the number of edges
and nodes of the adjacency.
-/

namespace RepoSurvey.Graph

structure Walk where
  /-- The nodes from the current one back to the start, each with the targets still to read. -/
  trail : List (String × List String)
  visited : List String
  /-- The cycles found, last first. -/
  cycles : List (List String)
deriving DecidableEq, Repr

namespace Walk

def nodes (w : Walk) : List String := w.trail.map (·.1)

/-- The cycle that an edge from the current node to a node of the trail closes: from that node
along the trail, and back to it. -/
def closing (nodes : List String) (next : String) : List String :=
  next :: (nodes.takeWhile (· ≠ next)).reverse ++ [next]

/-- One step: leaves a node whose targets are all read, or reads one target. -/
def step (adj : Adjacency) (w : Walk) : Walk :=
  match w.trail with
  | [] => w
  | (_, []) :: trail => { w with trail }
  | (node, next :: more) :: trail =>
    let trail := (node, more) :: trail
    if (trail.map (·.1)).contains next then
      { w with trail, cycles := closing (trail.map (·.1)) next :: w.cycles }
    else if w.visited.contains next then { w with trail }
    else { w with
      trail := (next, adj.targets next) :: trail
      visited := next :: w.visited }

/-- Steps until the trail is empty, at most `fuel` of them. -/
def run (adj : Adjacency) : (fuel : Nat) → Walk → Walk
  | 0, w => w
  | fuel + 1, w => if w.trail.isEmpty then w else run adj fuel (step adj w)

end Walk

/-- A number of steps that every walk ends within: one for each node to leave and one for each
target to read. -/
def stepBound (adj : Adjacency) : Nat :=
  let nodes := (adj.flatMap fun a => a.1 :: a.2).eraseDups
  (nodes.flatMap fun n => n :: adj.targets n).length

/-- Walks from `start` unless an earlier walk has been there, in at most `fuel` steps. -/
def walkFrom (adj : Adjacency) (fuel : Nat) (w : Walk) (start : String) : Walk :=
  if w.visited.contains start then w
  else Walk.run adj fuel { w with
    trail := [(start, adj.targets start)]
    visited := start :: w.visited }

/-- The cycles that the walks find, each closed by its first node. -/
def cycles (edges : List Edge) : List (List String) :=
  let adj := adjacency edges
  let fuel := stepBound adj
  (((adj.map (·.1)).foldl (walkFrom adj fuel) ⟨[], [], []⟩).cycles).reverse

end RepoSurvey.Graph
