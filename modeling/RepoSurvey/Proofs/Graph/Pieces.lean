import RepoSurvey.Proofs.Graph.Search
import RepoSurvey.Proofs.Keyed

/-!
# RepoSurvey.Proofs.Graph.Pieces

The cycle search with its trail in pieces: the path, the places of the nodes on it, and the targets
that each of them has still to read. Every iteration changes the pieces one by one, and it fails
where one of them lacks what the others have led it to expect.

* `Aligned`: the pieces agree with one another and with the graph.
* `iterate_pieces`: an iteration on the pieces of a walk succeeds, and it leads to the pieces of the
  walk one step on. This is where the pieces have to be aligned: the node that is left is the one at
  the end of the path, and the path from the place of a node on is the cycle that closes at it.
-/

namespace RepoSurvey.Graph

/-- A search that keeps its trail in pieces. -/
structure Pieces where
  /-- The nodes from the start to the current one. -/
  path : List String
  /-- The place on the path of each node that is on it. -/
  places : List (String × Nat)
  /-- The targets still to read, for each node of the path. -/
  unread : List (List String)
  visited : List String
  cycles : List (List String)
  /-- Every node that was put on the path, in order. -/
  pushed : List String
  /-- Every target that was read, in order, behind the node whose target it is. -/
  read : List (String × String)
deriving DecidableEq, Repr

namespace Pieces

/-- The search before its first walk. -/
def empty : Pieces := ⟨[], [], [], [], [], [], []⟩

/-- Puts a node at the end of the path. -/
def push (adj : Adjacency) (p : Pieces) (node : String) : Pieces :=
  { p with
    path := p.path ++ [node]
    places := Keyed.put p.places node p.path.length
    unread := p.unread ++ [adj.targets node]
    visited := node :: p.visited
    pushed := p.pushed ++ [node] }

/-- Begins a walk: a path that holds its start alone. -/
def start (adj : Adjacency) (p : Pieces) (node : String) : Pieces :=
  { p with path := [], places := [], unread := [] }.push adj node

/-- The places without that of a node. It fails if the node has none. -/
def unplaced (p : Pieces) (node : String) : Option (List (String × Nat)) :=
  if node ∈ p.places.map (·.1) then some (p.places.filter (·.1 ≠ node)) else none

/-- The path from a place on. It fails beyond the end of the path. -/
def pathFrom (p : Pieces) (place : Nat) : Option (List String) :=
  if place < p.path.length then some (p.path.drop place) else none

/-- Takes the last node off the path. It fails if there is none. -/
def leave (p : Pieces) : Option Pieces := do
  let node ← p.path.getLast?
  let places ← p.unplaced node
  return { p with path := p.path.dropLast, places, unread := p.unread.dropLast }

/-- What a target that was read leads to: a cycle if it is on the path, a longer path if it is new.
-/
def follow (adj : Adjacency) (p : Pieces) (next : String) : Option Pieces :=
  match p.places.lookup next with
  | some place => do
    let back ← p.pathFrom place
    return { p with cycles := p.cycles ++ [back ++ [next]] }
  | none => some (if p.visited.contains next then p else p.push adj next)

/-- One iteration: reads the next target of the last node, or leaves it if there is none. -/
def iterate (adj : Adjacency) (p : Pieces) : Option Pieces := do
  match ← p.unread.getLast? with
  | [] => p.leave
  | next :: more =>
    let node ← p.path.getLast?
    { p with
      unread := p.unread.dropLast ++ [more]
      read := p.read ++ [(node, next)] }.follow adj next

/-- Iterates until nothing is left on the path, and gives the pieces at the start of each iteration
and those at the end. It fails if an iteration does, or if `fuel` iterations are not enough. -/
def loop (adj : Adjacency) : (fuel : Nat) → Pieces → Option (List Pieces × Pieces)
  | 0, p => if p.unread.isEmpty then some ([], p) else none
  | fuel + 1, p =>
    if p.unread.isEmpty then some ([], p)
    else do
      let next ← p.iterate adj
      let (log, last) ← loop adj fuel next
      return (p :: log, last)

/-- Walks from each of some nodes that no earlier walk has visited. -/
def loops (adj : Adjacency) (fuel : Nat) : List String → Pieces → Option (List Pieces × Pieces)
  | [], p => some ([], p)
  | node :: nodes, p =>
    if p.visited.contains node then loops adj fuel nodes p
    else do
      let (log, next) ← loop adj fuel (p.start adj node)
      let (more, last) ← loops adj fuel nodes next
      return (log ++ more, last)

/-- The walk that the pieces make up. -/
def walk (p : Pieces) : Walk :=
  ⟨(p.path.zip p.unread).reverse, p.visited, p.cycles.reverse⟩

/-- The pieces agree with one another and with the graph. -/
structure Aligned (edges : List Edge) (p : Pieces) : Prop where
  length_places : p.places.length = p.path.length
  length_unread : p.unread.length = p.path.length
  nodup : p.path.Nodup
  place_iff : ∀ n i, p.places.lookup n = some i ↔ p.path[i]? = some n
  visited : ∀ n ∈ p.path, n ∈ p.visited
  linked : p.path.IsChain (Arc edges)

end Pieces

/-- The search from every source in turn, in pieces. -/
def searchPieces (edges : List Edge) : Option (List Pieces × Pieces) :=
  let adj := adjacency edges
  Pieces.loops adj (stepBound adj) (adj.map (·.1)) .empty

/-! ## Places -/

section Places

variable {nodes : List String}

theorem distinct_zipIdx (h : nodes.Nodup) : Keyed.Distinct nodes.zipIdx := by
  rwa [Keyed.Distinct, List.zipIdx_map_fst]

theorem lookup_zipIdx (h : nodes.Nodup) (n : String) (i : Nat) :
    nodes.zipIdx.lookup n = some i ↔ nodes[i]? = some n := by
  rw [(distinct_zipIdx h).lookup_eq_some_iff, List.mem_zipIdx_iff_getElem?]

theorem fst_ne_of_mem_zipIdx {n : String} (h : n ∉ nodes) : ∀ a ∈ nodes.zipIdx, a.1 ≠ n := by
  rintro a ha rfl
  exact h (List.fst_mem_of_mem_zipIdx ha)

theorem lookup_zipIdx_eq_none {n : String} (h : n ∉ nodes) : nodes.zipIdx.lookup n = none :=
  List.lookup_eq_none_iff.mpr fun a ha => bne_iff_ne.mpr (fst_ne_of_mem_zipIdx h a ha).symm

theorem put_zipIdx {n : String} (h : n ∉ nodes) :
    Keyed.put nodes.zipIdx n nodes.length = (nodes ++ [n]).zipIdx := by
  rw [Keyed.put_of_absent _ (fst_ne_of_mem_zipIdx h)]
  simp [List.zipIdx_append]

theorem filter_zipIdx {n : String} (h : n ∉ nodes) :
    (nodes ++ [n]).zipIdx.filter (·.1 ≠ n) = nodes.zipIdx := by
  have hkeep : nodes.zipIdx.filter (·.1 ≠ n) = nodes.zipIdx :=
    List.filter_eq_self.mpr fun a ha => decide_eq_true (fst_ne_of_mem_zipIdx h a ha)
  rw [List.zipIdx_append, List.filter_append, hkeep]
  simp

end Places

/-! ## The pieces of a walk -/

namespace Walk

/-- The pieces of a walk in which some targets were read. -/
def pieces (w : Walk) (read : List (String × String)) : Pieces where
  path := w.nodes.reverse
  places := w.nodes.reverse.zipIdx
  unread := (w.trail.map (·.2)).reverse
  visited := w.visited
  cycles := w.cycles.reverse
  pushed := w.visited.reverse
  read := read

/-- The target that the next step reads, if it reads one, behind the node whose target it is. -/
def reading (w : Walk) : List (String × String) :=
  match w.trail with
  | (node, next :: _) :: _ => [(node, next)]
  | _ => []

variable {edges : List Edge} {w w' : Walk}

@[simp] theorem walk_pieces (w : Walk) (read : List (String × String)) :
    (w.pieces read).walk = w := by
  have htrail : w.nodes.reverse.zip (w.trail.map (·.2)).reverse = w.trail.reverse := by
    rw [nodes, ← List.map_reverse, ← List.map_reverse, List.zip_map', List.map_id']
  simp only [Pieces.walk, pieces, htrail, List.reverse_reverse]

theorem aligned_pieces (h : Trailed edges w) (read : List (String × String)) :
    (w.pieces read).Aligned edges where
  length_places := List.length_zipIdx
  length_unread := by simp [pieces, nodes]
  nodup := List.nodup_reverse.mpr h.nodup
  place_iff := lookup_zipIdx (List.nodup_reverse.mpr h.nodup)
  visited n hn := h.visited n (List.mem_reverse.mp hn)
  linked := List.isChain_reverse.mpr h.linked

theorem start_pieces (adj : Adjacency) (read : List (String × String)) (node : String) :
    (w.pieces read).start adj node =
      { w with
        trail := [(node, adj.targets node)]
        visited := node :: w.visited }.pieces read := by
  simp [Pieces.start, Pieces.push, pieces, nodes, Keyed.put]

section Iteration

variable {adj : Adjacency} {node next : String} {more visited : List String}
  {back : List (String × List String)} {cycles : List (List String)}
  {read : List (String × String)}

theorem leave_pieces (hnode : node ∉ back.map (·.1)) :
    (pieces ⟨(node, []) :: back, visited, cycles⟩ read).leave =
      some (pieces ⟨back, visited, cycles⟩ read) := by
  have hplaces := filter_zipIdx (List.mem_reverse.not.mpr hnode)
  simpa [Pieces.leave, Pieces.unplaced, pieces, nodes] using hplaces

/-- The path from the place of a node on is the cycle that closes at it. -/
theorem pathFrom_pieces (read : List (String × String)) (hnodup : w.nodes.Nodup) {place : Nat}
    (hplace : w.nodes.reverse[place]? = some next) :
    ∃ way, (w.pieces read).pathFrom place = some way ∧ way ++ [next] = closing w.nodes next := by
  have hmem : next ∈ w.nodes := List.mem_reverse.mp (List.mem_of_getElem? hplace)
  obtain ⟨pre, post, hsplit, hpre⟩ := List.eq_append_cons_of_mem hmem
  have hpath : w.nodes.reverse = post.reverse ++ next :: pre.reverse := by
    rw [hsplit]
    simp
  have hlt : place < w.nodes.reverse.length := (List.getElem?_eq_some_iff.mp hplace).1
  -- The path passes `next` once, so its place is where the path is split.
  have hend : place = post.length := by
    refine (List.getElem?_inj hlt (List.nodup_reverse.mpr hnodup)).mp ?_
    rw [hplace, hpath]
    simp
  have hdrop : w.nodes.reverse.drop place = next :: pre.reverse := by
    rw [hpath, hend]
    exact List.drop_left' (by simp)
  refine ⟨next :: pre.reverse, ?_, (closing_of_split hsplit hpre).symm⟩
  rw [Pieces.pathFrom, ← hdrop]
  exact if_pos hlt

theorem follow_close (hnodup : w.nodes.Nodup) (htrail : next ∈ w.nodes) :
    (w.pieces read).follow adj next =
      some ({ w with cycles := closing w.nodes next :: w.cycles }.pieces read) := by
  obtain ⟨place, hplace⟩ := List.mem_iff_getElem?.mp (List.mem_reverse.mpr htrail)
  obtain ⟨way, hway, hclosing⟩ := pathFrom_pieces read hnodup hplace
  have hlookup : (w.pieces read).places.lookup next = some place :=
    (lookup_zipIdx (List.nodup_reverse.mpr hnodup) next place).mpr hplace
  simp only [Pieces.follow, hlookup, hway]
  simpa [pieces, nodes] using hclosing

theorem lookup_pieces_eq_none (htrail : next ∉ w.nodes) :
    (w.pieces read).places.lookup next = none :=
  lookup_zipIdx_eq_none (List.mem_reverse.not.mpr htrail)

theorem follow_skip (htrail : next ∉ w.nodes) (hvisited : next ∈ w.visited) :
    (w.pieces read).follow adj next = some (w.pieces read) := by
  have hold : (w.pieces read).visited.contains next = true := by simpa [pieces] using hvisited
  simp only [Pieces.follow, lookup_pieces_eq_none htrail, hold, if_true]

theorem follow_enter (htrail : next ∉ w.nodes) (hvisited : next ∉ w.visited) :
    (w.pieces read).follow adj next =
      some ({ w with
        trail := (next, adj.targets next) :: w.trail
        visited := next :: w.visited }.pieces read) := by
  have hnew : (w.pieces read).visited.contains next = false := by simpa [pieces] using hvisited
  have hplaces := put_zipIdx (List.mem_reverse.not.mpr htrail)
  simp only [Pieces.follow, lookup_pieces_eq_none htrail, hnew, Bool.false_eq_true, if_false]
  simpa [Pieces.push, pieces, nodes] using hplaces

theorem iterate_read :
    (pieces ⟨(node, next :: more) :: back, visited, cycles⟩ read).iterate adj =
      (pieces ⟨(node, more) :: back, visited, cycles⟩ (read ++ [(node, next)])).follow
        adj next := by
  simp [Pieces.iterate, pieces, nodes]

/-- An iteration on the pieces of a walk does to them what a step does to the walk. -/
theorem iterate_pieces (hm : Moves adj w w') (hnodup : w.nodes.Nodup) :
    (w.pieces read).iterate adj = some (w'.pieces (read ++ w.reading)) := by
  cases hm with
  | @leave node back visited cycles =>
    have hleave : (pieces ⟨(node, []) :: back, visited, cycles⟩ read).leave =
        some (pieces ⟨back, visited, cycles⟩ read) := leave_pieces (List.nodup_cons.mp hnodup).1
    simpa [Pieces.iterate, reading, pieces, nodes] using hleave
  | close htrail => exact iterate_read.trans (follow_close hnodup htrail)
  | skip htrail hvisited => exact iterate_read.trans (follow_skip htrail hvisited)
  | enter htrail hvisited => exact iterate_read.trans (follow_enter htrail hvisited)

end Iteration

end Walk

end RepoSurvey.Graph
