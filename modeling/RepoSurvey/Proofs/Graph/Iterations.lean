import Mathlib.Data.Finset.Card
import RepoSurvey.Proofs.Graph.Pieces

/-!
# RepoSurvey.Proofs.Graph.Iterations

Every iteration of the cycle search, from its first walk to its last. No iteration finds its pieces
out of line, no node is put on a path twice, and no target of a node is read twice
(`iterations_aligned`).

An iteration reads a target or leaves a node, and a node is left once for each time that it was put
on a path. So iterations, nodes on the path, nodes put there and targets read balance at every point
(`length_move`), and once the path is empty again the iterations are as many as the edges and the
nodes of the graph.
-/

namespace RepoSurvey.Graph

def IsEnd (edges : List Edge) (n : String) : Prop := ∃ e ∈ edges, e.source = n ∨ e.target = n

theorem isEnd_target {edges : List Edge} {s t : String} (h : Arc edges s t) : IsEnd edges t := by
  obtain ⟨e, he, _, ht⟩ := h
  exact ⟨e, he, .inr ht⟩

theorem isEnd_source {edges : List Edge} {n : String} (h : n ∈ edges.map (·.source)) :
    IsEnd edges n := by
  obtain ⟨e, he, hn⟩ := List.mem_map.mp h
  exact ⟨e, he, .inl hn⟩

namespace Walk

/-! ## Targets read -/

/-- Whether a target of a node on the trail is still to be read. -/
def Unread (trail : List (String × List String)) (s t : String) : Prop :=
  ∃ rest, (s, rest) ∈ trail ∧ t ∈ rest

section Unread

variable {trail : List (String × List String)} {n s t : String} {rest : List String}

theorem unread_cons :
    Unread ((n, rest) :: trail) s t ↔ (s = n ∧ t ∈ rest) ∨ Unread trail s t := by
  simp only [Unread, List.mem_cons, Prod.mk.injEq, or_and_right, exists_or, and_assoc,
    exists_and_left, exists_eq_left]

theorem not_unread_nil : ¬ Unread [] s t := by
  rintro ⟨_, hr, _⟩
  exact List.not_mem_nil hr

end Unread

variable {edges : List Edge} {w w' : Walk} {read read' : List (String × String)}

/-- What a search has visited and read, each once: the targets read are those of visited nodes that
are not still to be read. -/
structure Tally (edges : List Edge) (w : Walk) (read : List (String × String)) : Prop where
  visited_once : w.visited.Nodup
  read_once : read.Nodup
  mem_read : ∀ s t, (s, t) ∈ read ↔ Arc edges s t ∧ s ∈ w.visited ∧ ¬ Unread w.trail s t

section Tally

variable {node next : String} {more visited : List String} {back : List (String × List String)}
  {cycles cycles' : List (List String)}

theorem Tally.leave (h : Tally edges ⟨(node, []) :: back, visited, cycles⟩ read) :
    Tally edges ⟨back, visited, cycles⟩ read := by
  refine ⟨h.visited_once, h.read_once, fun s t => ?_⟩
  have hsame : Unread ((node, []) :: back) s t ↔ Unread back s t := by simp [unread_cons]
  rw [h.mem_read, hsame]

theorem Tally.take (h : Tally edges ⟨(node, next :: more) :: back, visited, cycles⟩ read)
    (htr : Trailed edges ⟨(node, next :: more) :: back, visited, cycles⟩) :
    Tally edges ⟨(node, more) :: back, visited, cycles'⟩ (read ++ [(node, next)]) := by
  have harc : Arc edges node next := htr.arc_of_unread List.mem_cons_self List.mem_cons_self
  have hnode : node ∈ visited := htr.visited _ List.mem_cons_self
  have hdone : ¬ Unread ((node, more) :: back) node next :=
    fun ⟨_, hr, hin⟩ => htr.not_mem_rest hr hin
  have hopen (s t : String) : Unread ((node, next :: more) :: back) s t ↔
      (s = node ∧ t = next) ∨ Unread ((node, more) :: back) s t := by
    simp only [unread_cons, List.mem_cons, and_or_left, or_assoc]
  refine ⟨h.visited_once, ?_, fun s t => ?_⟩
  · have hnew : (node, next) ∉ read := by
      rw [h.mem_read, hopen]
      exact fun hread => hread.2.2 (.inl ⟨rfl, rfl⟩)
    rw [← List.concat_eq_append]
    exact h.read_once.concat hnew
  · rw [List.mem_append, h.mem_read, hopen, List.mem_singleton, Prod.mk.injEq]
    constructor
    · rintro (⟨hst, hs, hread⟩ | ⟨rfl, rfl⟩)
      · exact ⟨hst, hs, fun hrest => hread (.inr hrest)⟩
      · exact ⟨harc, hnode, hdone⟩
    · rintro ⟨hst, hs, hread⟩
      by_cases heq : s = node ∧ t = next
      · exact .inr heq
      · exact .inl ⟨hst, hs, not_or.mpr ⟨heq, hread⟩⟩

/-- A node is entered with all its targets still to read. -/
theorem Tally.enter (h : Tally edges w read) (hnew : next ∉ w.visited) :
    Tally edges { w with
      trail := (next, (adjacency edges).targets next) :: w.trail
      visited := next :: w.visited } read := by
  refine ⟨List.nodup_cons.mpr ⟨hnew, h.visited_once⟩, h.read_once, fun s t => ?_⟩
  rw [h.mem_read, unread_cons, mem_targets, List.mem_cons]
  constructor
  · -- Only targets of visited nodes were read, so none of the node that is entered.
    rintro ⟨hst, hs, hread⟩
    exact ⟨hst, .inr hs, not_or.mpr ⟨fun heq => hnew (heq.1 ▸ hs), hread⟩⟩
  · rintro ⟨hst, hs, hread⟩
    obtain ⟨hother, hread⟩ := not_or.mp hread
    have hne : s ≠ next := fun heq => hother ⟨heq, heq ▸ hst⟩
    exact ⟨hst, hs.resolve_left hne, hread⟩

theorem Tally.move (hm : Moves (adjacency edges) w w') (h : Tally edges w read)
    (htr : Trailed edges w) : Tally edges w' (read ++ w.reading) := by
  cases hm with
  | leave => simpa [reading] using h.leave
  | close _ | skip _ _ => exact h.take htr
  | enter _ hnew => exact (h.take htr).enter hnew

end Tally

/-- Only nodes of the graph are visited, among them all targets that were read. -/
structure Reached (edges : List Edge) (w : Walk) (read : List (String × String)) : Prop where
  ends : ∀ n ∈ w.visited, IsEnd edges n
  targets : ∀ a ∈ read, a.2 ∈ w.visited

theorem Reached.move (hm : Moves (adjacency edges) w w') (h : Reached edges w read)
    (htr : Trailed edges w) : Reached edges w' (read ++ w.reading) := by
  obtain ⟨hends, htargets⟩ := h
  have hall {node next : String} {visited : List String} (hnext : next ∈ visited)
      (hkeep : ∀ n ∈ w.visited, n ∈ visited) : ∀ a ∈ read ++ [(node, next)], a.2 ∈ visited :=
    List.forall_mem_append.mpr
      ⟨fun a ha => hkeep _ (htargets a ha), List.forall_mem_singleton.mpr hnext⟩
  cases hm with
  | leave => exact ⟨hends, by simpa [reading] using htargets⟩
  | close htrail => exact ⟨hends, hall (htr.visited _ htrail) fun _ hn => hn⟩
  | skip _ hvisited => exact ⟨hends, hall hvisited fun _ hn => hn⟩
  | enter _ _ =>
    have harc := htr.arc_of_unread List.mem_cons_self List.mem_cons_self
    refine ⟨fun n hn => ?_, hall List.mem_cons_self fun _ hn => List.mem_cons_of_mem _ hn⟩
    rcases List.mem_cons.mp hn with rfl | hn
    · exact isEnd_target harc
    · exact hends n hn

/-! ## Runs -/

/-- Iterations, nodes on the trail, nodes visited and targets read balance. -/
theorem length_move {adj : Adjacency} (hm : Moves adj w w') :
    w.reading.length + w'.visited.length + w.trail.length =
      w.visited.length + w'.trail.length + 1 := by
  cases hm <;> simp [reading] <;> omega

/-- All that a search accounts for. -/
structure Account (edges : List Edge) (w : Walk) (read : List (String × String)) : Prop where
  trailed : Trailed edges w
  tally : Tally edges w read
  reached : Reached edges w read

theorem Account.move (hm : Moves (adjacency edges) w w') (h : Account edges w read) :
    Account edges w' (read ++ w.reading) :=
  ⟨h.trailed.move hm, h.tally.move hm h.trailed, h.reached.move hm h.trailed⟩

theorem Account.empty : Account edges ⟨[], [], []⟩ [] :=
  ⟨Searched.empty.trailed, ⟨List.nodup_nil, List.nodup_nil, by simp⟩, by simp, by simp⟩

/-- Between two walks a search may start at any node that was not visited. -/
theorem Account.start (h : Account edges w read) (hrests : w.trail = []) {start : String}
    (hs : start ∈ edges.map (·.source)) (hnew : start ∉ w.visited) :
    Account edges { w with
      trail := [(start, (adjacency edges).targets start)]
      visited := start :: w.visited } read := by
  have htally := h.tally.enter hnew
  rw [hrests] at htally
  refine ⟨.start start, htally, fun n hn => ?_, fun a ha => ?_⟩
  · rcases List.mem_cons.mp hn with rfl | hn
    · exact isEnd_source hs
    · exact h.reached.ends n hn
  · exact List.mem_cons_of_mem _ (h.reached.targets a ha)

/-- A stretch of the search, from one walk to a later one. The pieces with which its iterations
begin are listed in `log`. -/
structure Stretch (edges : List Edge) (w : Walk) (read : List (String × String))
    (log : List Pieces) (w' : Walk) (read' : List (String × String)) : Prop where
  account : Account edges w' read'
  iterates : ∀ p ∈ log, p.Aligned edges ∧ ∃ q, p.iterate (adjacency edges) = some q
  balance : read'.length + w'.visited.length + w.trail.length =
    read.length + w.visited.length + w'.trail.length + log.length

theorem Stretch.refl (h : Account edges w read) : Stretch edges w read [] w read :=
  ⟨h, by simp, rfl⟩

theorem Stretch.trans {w₁ w₂ w₃ : Walk} {read₁ read₂ read₃ : List (String × String)}
    {log log' : List Pieces} (h : Stretch edges w₁ read₁ log w₂ read₂)
    (h' : Stretch edges w₂ read₂ log' w₃ read₃) :
    Stretch edges w₁ read₁ (log ++ log') w₃ read₃ := by
  refine ⟨h'.account, fun p hp => ?_, ?_⟩
  · exact (List.mem_append.mp hp).elim (h.iterates p) (h'.iterates p)
  · have hfirst := h.balance
    have hsecond := h'.balance
    rw [List.length_append]
    omega

theorem Stretch.move (hm : Moves (adjacency edges) w w') (h : Account edges w read) :
    Stretch edges w read [w.pieces read] w' (read ++ w.reading) := by
  refine ⟨h.move hm, fun p hp => ?_, ?_⟩
  · rw [List.mem_singleton.mp hp]
    exact ⟨aligned_pieces h.trailed read, _, iterate_pieces hm h.trailed.nodup⟩
  · have hlength := length_move hm
    rw [List.length_append, List.length_singleton]
    omega

theorem Stretch.start (h : Account edges w read) (hrests : w.trail = []) {start : String}
    (hs : start ∈ edges.map (·.source)) (hnew : start ∉ w.visited) :
    Stretch edges w read [] { w with
      trail := [(start, (adjacency edges).targets start)]
      visited := start :: w.visited } read := by
  refine ⟨h.start hrests hs hnew, by simp, ?_⟩
  simp only [hrests, List.length_cons, List.length_nil]
  omega

/-- The walks in which `run` takes its steps. -/
def stages (adj : Adjacency) : (fuel : Nat) → Walk → List Walk
  | 0, _ => []
  | fuel + 1, w => if w.trail.isEmpty then [] else w :: stages adj fuel (step adj w)

/-- The walks in which the search takes its steps from some starts on. -/
def stagesFrom (adj : Adjacency) (fuel : Nat) : List String → Walk → List Walk
  | [], _ => []
  | start :: starts, w =>
    (if w.visited.contains start then []
      else stages adj fuel { w with
        trail := [(start, adj.targets start)]
        visited := start :: w.visited }) ++
      stagesFrom adj fuel starts (walkFrom adj fuel w start)

theorem loop_of_rests (h : Account edges w read) (hrests : w.trail = []) (fuel : Nat) :
    (w.pieces read).loop (adjacency edges) fuel =
        some ([], (run (adjacency edges) fuel w).pieces read) ∧
      stages (adjacency edges) fuel w = [] ∧
      Stretch edges w read [] (run (adjacency edges) fuel w) read := by
  have hdone : (w.pieces read).unread.isEmpty = true := by simpa [pieces] using hrests
  cases fuel with
  | zero => exact ⟨if_pos hdone, rfl, .refl h⟩
  | succ fuel =>
    have hrun : run (adjacency edges) (fuel + 1) w = w := by simp [run, hrests]
    rw [hrun, Pieces.loop, if_pos hdone]
    exact ⟨rfl, by simp [stages, hrests], .refl h⟩

/-- With enough fuel for the steps that are left, the loop on the pieces of a walk ends with those
of the walk at its end, and passes through those of the walks between. -/
theorem loop_pieces {fuel : Nat} (h : Account edges w read)
    (hfuel : left (adjacency edges) w ≤ fuel) :
    ∃ log read', (w.pieces read).loop (adjacency edges) fuel =
        some (log, (run (adjacency edges) fuel w).pieces read') ∧
      log.map (·.walk) = stages (adjacency edges) fuel w ∧
      Stretch edges w read log (run (adjacency edges) fuel w) read' := by
  induction fuel generalizing w read with
  | zero =>
    obtain ⟨hloop, hstages, hstretch⟩ := loop_of_rests h (trail_run h.trailed hfuel) 0
    exact ⟨[], read, hloop, hstages.symm, hstretch⟩
  | succ fuel ih =>
    by_cases hrests : w.trail = []
    · obtain ⟨hloop, hstages, hstretch⟩ := loop_of_rests h hrests (fuel + 1)
      exact ⟨[], read, hloop, hstages.symm, hstretch⟩
    · -- One iteration is one step, and one step less is left for the rest of the fuel.
      have hm := step_moves (adjacency edges) hrests
      have hleft := left_move hm h.trailed
      obtain ⟨log, read', hloop, hstages, hstretch⟩ := ih (h.move hm) (by omega)
      have hrun : run (adjacency edges) (fuel + 1) w =
          run (adjacency edges) fuel (step (adjacency edges) w) := by simp [run, hrests]
      have hmore : (w.pieces read).unread.isEmpty = false := by simpa [pieces] using hrests
      refine ⟨w.pieces read :: log, read', ?_, ?_, ?_⟩
      · rw [Pieces.loop, hmore, iterate_pieces hm h.trailed.nodup]
        simp [hloop, hrun]
      · simp [stages, hrests, hstages]
      · rw [hrun]
        exact (Stretch.move hm h).trans hstretch

/-- The same for a search that walks from several starts: between two walks the path is empty, so
the balance goes on from one to the next. -/
theorem loops_pieces {fuel : Nat} {starts : List String} (hpaused : Paused edges fuel w)
    (h : Account edges w read) (hs : ∀ s ∈ starts, s ∈ edges.map (·.source)) :
    ∃ log read', (w.pieces read).loops (adjacency edges) fuel starts =
        some (log, (starts.foldl (walkFrom (adjacency edges) fuel) w).pieces read') ∧
      log.map (·.walk) = stagesFrom (adjacency edges) fuel starts w ∧
      Stretch edges w read log (starts.foldl (walkFrom (adjacency edges) fuel) w) read' := by
  induction starts generalizing w read with
  | nil => exact ⟨[], read, rfl, rfl, .refl h⟩
  | cons start starts ih =>
    have hsource := hs start List.mem_cons_self
    have hrest : ∀ s ∈ starts, s ∈ edges.map (·.source) :=
      fun s hin => hs s (List.mem_cons_of_mem _ hin)
    have hnext := (walkFrom_paused hpaused hsource).1
    rw [List.foldl_cons]
    by_cases hold : start ∈ w.visited
    · have hvisited : (w.pieces read).visited.contains start = true := by simpa [pieces] using hold
      have hstages : stagesFrom (adjacency edges) fuel (start :: starts) w =
          stagesFrom (adjacency edges) fuel starts w := by
        simp [stagesFrom, walkFrom_of_visited, hold]
      rw [walkFrom_of_visited hold, Pieces.loops, if_pos hvisited, hstages]
      exact ih hpaused h hrest
    · have hvisited : ¬ (w.pieces read).visited.contains start = true := by
        simpa [pieces] using hold
      have hstart := Stretch.start h hpaused.rests hsource hold
      have hleft := left_start hpaused.rests (source_mem_allNodes hsource) hold
      obtain ⟨log, read₁, hloop, hstages, hwalk⟩ :=
        loop_pieces hstart.account (hleft.trans_le hpaused.enough)
      rw [walkFrom_of_new hold] at hnext ⊢
      obtain ⟨more, read₂, hloops, hlater, hwalks⟩ := ih hnext hwalk.account hrest
      refine ⟨log ++ more, read₂, ?_, ?_, (hstart.trans hwalk).trans hwalks⟩
      · rw [Pieces.loops, if_neg hvisited, start_pieces, hloop]
        simp [hloops]
      · simp [stagesFrom, walkFrom_of_new, hold, hstages, hlater]

end Walk

/-! ## The whole search -/

/-- The walks in which the search takes its steps. -/
def searchStages (edges : List Edge) : List Walk :=
  Walk.stagesFrom (adjacency edges) (stepBound (adjacency edges)) ((adjacency edges).map (·.1))
    ⟨[], [], []⟩

theorem searchPieces_eq (edges : List Edge) :
    ∃ log read, searchPieces edges = some (log, (search edges).pieces read) ∧
      log.map (·.walk) = searchStages edges ∧
      Walk.Stretch edges ⟨[], [], []⟩ [] log (search edges) read :=
  Walk.loops_pieces .empty .empty fun _ hs => mem_starts.mp hs

section Whole

variable {edges : List Edge} {read : List (String × String)}

/-- After the whole search each target was read: every source was visited, and nothing is still to
be read. -/
theorem mem_read_search (h : Walk.Account edges (search edges) read) (s t : String) :
    (s, t) ∈ read ↔ Arc edges s t := by
  obtain ⟨⟨_, hrests, _⟩, hsources⟩ := search_paused edges
  rw [h.tally.mem_read, hrests]
  exact ⟨fun hread => hread.1, fun harc => ⟨harc, hsources s harc.source_mem, Walk.not_unread_nil⟩⟩

theorem mem_visited_search (h : Walk.Account edges (search edges) read) (n : String) :
    n ∈ (search edges).visited ↔ IsEnd edges n := by
  refine ⟨h.reached.ends n, ?_⟩
  rintro ⟨e, he, rfl | rfl⟩
  · exact (search_paused edges).2 _ (List.mem_map.mpr ⟨e, he, rfl⟩)
  · exact h.reached.targets (e.source, e.target) ((mem_read_search h _ _).mpr (.of_mem he))

theorem length_read_search (h : Walk.Account edges (search edges) read) :
    read.length = (edges.map fun e => (e.source, e.target)).toFinset.card := by
  rw [← List.toFinset_card_of_nodup h.tally.read_once]
  congr 1
  ext ⟨s, t⟩
  rw [List.mem_toFinset, List.mem_toFinset, mem_read_search h, List.mem_map]
  simp only [Arc, Prod.mk.injEq]

end Whole

/-- The search in pieces comes to its end: it iterates once for each step of the search and finds
the cycles that are reported. At each iteration the pieces are aligned, and the iteration succeeds:
a node that is left is on the path and has a place to give up, and the place of a node that closes a
cycle lies on the path. The nodes put on a path are the ends of edges, each once, and the targets
read are those of the adjacency, each once. There are as many iterations as different pairs of
source and target and nodes put on a path together. -/
theorem iterations_aligned (edges : List Edge) :
    ∃ log last, searchPieces edges = some (log, last) ∧
      log.map (·.walk) = searchStages edges ∧ last.cycles = cycles edges ∧
      (∀ p ∈ log, p.Aligned edges ∧ ∃ q, p.iterate (adjacency edges) = some q) ∧
      last.pushed.Nodup ∧ (∀ n, n ∈ last.pushed ↔ IsEnd edges n) ∧
      last.read.Nodup ∧ (∀ s t, (s, t) ∈ last.read ↔ t ∈ (adjacency edges).targets s) ∧
      log.length =
        (edges.map fun e => (e.source, e.target)).toFinset.card + last.pushed.length := by
  obtain ⟨log, read, hsearch, hstages, haccount, hiterates, hbalance⟩ := searchPieces_eq edges
  refine ⟨log, (search edges).pieces read, hsearch, hstages, rfl, hiterates, ?_, fun n => ?_, ?_,
    fun s t => ?_, ?_⟩
  · exact List.nodup_reverse.mpr haccount.tally.visited_once
  · exact List.mem_reverse.trans (mem_visited_search haccount n)
  · exact haccount.tally.read_once
  · exact (mem_read_search haccount s t).trans mem_targets.symm
  · have hrests := (search_paused edges).1.rests
    have hpushed : ((search edges).pieces read).pushed.length = (search edges).visited.length :=
      List.length_reverse
    rw [hpushed, ← length_read_search haccount]
    simpa [hrests] using hbalance.symm

/-- An edge back to the start, a second way to a node that was left, a source that no other node
leads to, and an edge of another kind beside the first. -/
def detour : List Edge := [⟨"a", "b", .imported⟩, ⟨"b", "a", .imported⟩, ⟨"a", "c", .imported⟩,
  ⟨"c", "b", .imported⟩, ⟨"d", "a", .imported⟩, ⟨"a", "b", .required⟩]

/-- Five different pairs and four nodes take nine iterations, one of them after `b` was left. -/
theorem iterations_aligned_detour :
    ∃ log last, searchPieces detour = some (log, last) ∧ last.cycles = [["a", "b", "a"]] ∧
      last.pushed = ["a", "b", "c", "d"] ∧ log.length = 9 ∧
      ∃ p ∈ log, p.path = ["a", "c"] ∧ p.Aligned detour ∧
        ∃ q, p.iterate (adjacency detour) = some q := by
  obtain ⟨log, last, hsearch, _, hcycles, hiterates, _, _, _, _, hlength⟩ :=
    iterations_aligned detour
  have hrun : (searchPieces detour).map (fun r => (r.1.map (·.path), r.2.pushed)) =
      some ([["a"], ["a", "b"], ["a", "b"], ["a"], ["a", "c"], ["a", "c"], ["a"], ["d"], ["d"]],
        ["a", "b", "c", "d"]) := by decide +kernel
  rw [hsearch, Option.map_some, Option.some.injEq, Prod.mk.injEq] at hrun
  obtain ⟨hpaths, hpushed⟩ := hrun
  have hmem : ["a", "c"] ∈ log.map (·.path) := by
    rw [hpaths]
    decide
  obtain ⟨p, hp, hpath⟩ := List.mem_map.mp hmem
  refine ⟨log, last, hsearch, hcycles.trans (by decide +kernel), hpushed, ?_, p, hp, hpath,
    hiterates p hp⟩
  rw [hlength, hpushed]
  decide +kernel

end RepoSurvey.Graph
