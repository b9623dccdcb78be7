import Mathlib.Data.List.Chain
import RepoSurvey.Graph.Cycles
import RepoSurvey.Proofs.Graph.Arc

/-!
# RepoSurvey.Proofs.Graph.Walk

What every walk over the dependency graph keeps, and that each walk ends.

* `step_moves`: the four things that a step can do. Every invariant below is one case analysis
  over `Moves`.
* `Trailed`: the trail is a path of the graph that passes each node once, all of it visited.
* `left`: the steps that a walk still takes. A step takes one of them (`left_move`), so the fuel
  of `cycles` suffices and every walk ends with an empty trail (`trail_run`).
-/

namespace RepoSurvey.Graph.Walk

/-! ## Steps -/

section Moves

variable (adj : Adjacency)

/-- What a step does to a walk whose trail is not empty. -/
inductive Moves : Walk → Walk → Prop where
  | leave {node : String} {back : List (String × List String)} {visited : List String}
      {cycles : List (List String)} :
      Moves ⟨(node, []) :: back, visited, cycles⟩ ⟨back, visited, cycles⟩
  | close {node next : String} {more visited : List String}
      {back : List (String × List String)} {cycles : List (List String)}
      (htrail : next ∈ node :: back.map (·.1)) :
      Moves ⟨(node, next :: more) :: back, visited, cycles⟩
        ⟨(node, more) :: back, visited, closing (node :: back.map (·.1)) next :: cycles⟩
  | skip {node next : String} {more visited : List String}
      {back : List (String × List String)} {cycles : List (List String)}
      (htrail : next ∉ node :: back.map (·.1)) (hvisited : next ∈ visited) :
      Moves ⟨(node, next :: more) :: back, visited, cycles⟩
        ⟨(node, more) :: back, visited, cycles⟩
  | enter {node next : String} {more visited : List String}
      {back : List (String × List String)} {cycles : List (List String)}
      (htrail : next ∉ node :: back.map (·.1)) (hvisited : next ∉ visited) :
      Moves ⟨(node, next :: more) :: back, visited, cycles⟩
        ⟨(next, adj.targets next) :: (node, more) :: back, next :: visited, cycles⟩

theorem step_moves {w : Walk} (h : w.trail ≠ []) : Moves adj w (step adj w) := by
  obtain ⟨trail, visited, cycles⟩ := w
  cases trail with
  | nil => exact absurd rfl h
  | cons top back =>
    obtain ⟨node, rest⟩ := top
    cases rest with
    | nil => exact .leave
    | cons next more =>
      by_cases htrail : next ∈ node :: back.map (·.1)
      · have : step adj ⟨(node, next :: more) :: back, visited, cycles⟩ =
            ⟨(node, more) :: back, visited,
              closing (node :: back.map (·.1)) next :: cycles⟩ := by
          simp only [step, List.map_cons, List.contains_iff_mem, htrail, if_true]
        rw [this]
        exact .close htrail
      · by_cases hvisited : next ∈ visited
        · have : step adj ⟨(node, next :: more) :: back, visited, cycles⟩ =
              ⟨(node, more) :: back, visited, cycles⟩ := by
            simp only [step, List.map_cons, List.contains_iff_mem, htrail, hvisited, if_true,
              if_false]
          rw [this]
          exact .skip htrail hvisited
        · have : step adj ⟨(node, next :: more) :: back, visited, cycles⟩ =
              ⟨(next, adj.targets next) :: (node, more) :: back, next :: visited, cycles⟩ := by
            simp only [step, List.map_cons, List.contains_iff_mem, htrail, hvisited, if_false]
          rw [this]
          exact .enter htrail hvisited

/-- What steps keep, a run keeps. -/
theorem run_induction {adj : Adjacency} {P : Walk → Prop}
    (hstep : ∀ w w', Moves adj w w' → P w → P w') (fuel : Nat) {w : Walk} (h : P w) :
    P (run adj fuel w) := by
  induction fuel generalizing w with
  | zero => exact h
  | succ fuel ih =>
    rw [run]
    split
    · exact h
    · rename_i hne
      refine ih (hstep w _ (step_moves adj ?_) h)
      simpa using hne

end Moves

/-! ## The trail -/

section Trail

variable {edges : List Edge} {w w' : Walk}

/-- The trail of a walk is a path of the graph. -/
structure Trailed (edges : List Edge) (w : Walk) : Prop where
  nodup : w.nodes.Nodup
  visited : ∀ n ∈ w.nodes, n ∈ w.visited
  linked : w.nodes.IsChain fun n back => Arc edges back n
  unread : ∀ a ∈ w.trail, a.2 <:+ (adjacency edges).targets a.1

theorem Trailed.move (hm : Moves (adjacency edges) w w') (h : Trailed edges w) :
    Trailed edges w' := by
  obtain ⟨hnodup, hvis, hlinked, hunread⟩ := h
  cases hm with
  | leave =>
    refine ⟨(List.nodup_cons.mp hnodup).2, ?_, hlinked.tail, ?_⟩
    · exact fun n hn => hvis n (List.mem_cons_of_mem _ hn)
    · exact fun a ha => hunread a (List.mem_cons_of_mem _ ha)
  | close _ | skip _ _ =>
    refine ⟨hnodup, hvis, hlinked, ?_⟩
    intro a ha
    rcases List.mem_cons.mp ha with rfl | ha
    · exact (List.suffix_cons _ _).trans (hunread _ List.mem_cons_self)
    · exact hunread a (List.mem_cons_of_mem _ ha)
  | @enter node next more _ back _ htrail hnew =>
    have hrest := hunread _ List.mem_cons_self
    have harc : Arc edges node next := mem_targets.mp (hrest.subset List.mem_cons_self)
    refine ⟨List.nodup_cons.mpr ⟨htrail, hnodup⟩, ?_, .cons_cons harc hlinked, ?_⟩
    · intro n hn
      rcases List.mem_cons.mp hn with rfl | hn
      · exact List.mem_cons_self
      · exact List.mem_cons_of_mem _ (hvis n hn)
    · intro a ha
      rcases List.mem_cons.mp ha with rfl | ha
      · exact List.suffix_rfl
      · rcases List.mem_cons.mp ha with rfl | ha
        · exact (List.suffix_cons _ _).trans hrest
        · exact hunread a (List.mem_cons_of_mem _ ha)

theorem Trailed.arc_of_unread (h : Trailed edges w) {n t : String} {rest : List String}
    (ha : (n, rest) ∈ w.trail) (ht : t ∈ rest) : Arc edges n t :=
  mem_targets.mp ((h.unread _ ha).subset ht)

/-- A target that is about to be read is not read a second time. -/
theorem Trailed.not_mem_rest {node next : String} {more rest visited : List String}
    {back : List (String × List String)} {cycles : List (List String)}
    (h : Trailed edges ⟨(node, next :: more) :: back, visited, cycles⟩)
    (hr : (node, rest) ∈ (node, more) :: back) : next ∉ rest := by
  rcases List.mem_cons.mp hr with heq | hback
  · obtain ⟨_, rfl⟩ := Prod.mk.inj heq
    have hnodup := (h.unread _ List.mem_cons_self).sublist.nodup (nodup_targets edges node)
    exact (List.nodup_cons.mp hnodup).1
  · have hnode := (List.nodup_cons.mp h.nodup).1
    exact absurd (List.mem_map.mpr ⟨_, hback, rfl⟩) hnode

/-- A trail may start at any node. -/
theorem Trailed.start (start : String) :
    Trailed edges { w with
      trail := [(start, (adjacency edges).targets start)]
      visited := start :: w.visited } := by
  refine ⟨by simp [nodes], ?_, by simp [nodes], ?_⟩
  · intro n hn
    simp only [nodes, List.map_cons, List.map_nil, List.mem_singleton] at hn
    subst hn
    exact List.mem_cons_self
  · intro a ha
    obtain rfl := List.mem_singleton.mp ha
    exact List.suffix_rfl

end Trail

/-! ## The steps that are left -/

section Left

variable {edges : List Edge} {w : Walk}

/-- The nodes of an adjacency, each once. -/
def allNodes (adj : Adjacency) : List String := (adj.flatMap fun a => a.1 :: a.2).eraseDups

/-- The steps that a walk still takes: one for each node to enter and each node of the trail, and
one for each of their targets that is still to be read. -/
def left (adj : Adjacency) (w : Walk) : Nat :=
  (((allNodes adj).filter (· ∉ w.visited)).flatMap fun n => n :: adj.targets n).length +
    (w.trail.flatMap fun a => a.1 :: a.2).length

theorem left_nil (adj : Adjacency) : left adj ⟨[], [], []⟩ = stepBound adj := by
  simp [left, stepBound, allNodes]

theorem source_mem_allNodes {s : String} (h : s ∈ edges.map (·.source)) :
    s ∈ allNodes (adjacency edges) := by
  rw [allNodes, List.mem_eraseDups]
  exact List.mem_flatMap.mpr ⟨_, mem_adjacency.mpr ⟨h, rfl⟩, List.mem_cons_self⟩

theorem target_mem_allNodes {s t : String} (h : Arc edges s t) :
    t ∈ allNodes (adjacency edges) := by
  rw [allNodes, List.mem_eraseDups]
  refine List.mem_flatMap.mpr ⟨_, mem_adjacency.mpr ⟨h.source_mem, rfl⟩, ?_⟩
  exact List.mem_cons_of_mem _ (mem_targets.mpr h)

theorem length_unvisited (f : String → List String) {xs visited : List String} {s : String}
    (hxs : xs.Nodup) (hs : s ∈ xs) (hnew : s ∉ visited) :
    ((xs.filter (· ∉ s :: visited)).flatMap f).length + (f s).length =
      ((xs.filter (· ∉ visited)).flatMap f).length := by
  have hfilter : xs.filter (· ∉ s :: visited) = (xs.filter (· ∉ visited)).erase s := by
    rw [(hxs.filter _).erase_eq_filter, List.filter_filter]
    refine List.filter_congr fun x _ => ?_
    by_cases hx : x = s <;> simp [hx]
  have hmem : s ∈ xs.filter (· ∉ visited) := by simp [hs, hnew]
  have hperm := ((List.perm_cons_erase hmem).flatMap_right f).length_eq
  rw [hfilter, hperm, List.flatMap_cons, List.length_append, Nat.add_comm]

theorem left_move {w w' : Walk} (hm : Moves (adjacency edges) w w') (h : Trailed edges w) :
    left (adjacency edges) w' + 1 = left (adjacency edges) w := by
  cases hm with
  | leave | close _ | skip _ _ =>
    simp only [left, List.flatMap_cons, List.length_append, List.length_cons, List.length_nil]
    omega
  | @enter node next more visited back _ _ hnew =>
    have harc : Arc edges node next := h.arc_of_unread List.mem_cons_self List.mem_cons_self
    have hlen := length_unvisited (fun n => n :: (adjacency edges).targets n)
      (nodup_eraseDups _) (target_mem_allNodes harc) hnew
    simp only [left, List.flatMap_cons, List.length_append, List.length_cons] at hlen ⊢
    simp only [allNodes] at hlen ⊢
    omega

/-- A walk with enough fuel for the steps that are left ends: its trail is empty. -/
theorem trail_run {fuel : Nat} (h : Trailed edges w)
    (hfuel : left (adjacency edges) w ≤ fuel) : (run (adjacency edges) fuel w).trail = [] := by
  induction fuel generalizing w with
  | zero =>
    obtain ⟨trail, visited, cycles⟩ := w
    cases trail with
    | nil => rfl
    | cons top back => simp [left] at hfuel
  | succ fuel ih =>
    rw [run]
    split
    · rename_i hnil
      simpa using hnil
    · rename_i hne
      have hm := step_moves (adjacency edges) (w := w) (by simpa using hne)
      have hleft := left_move hm h
      exact ih (h.move hm) (by omega)

theorem left_run_le (fuel : Nat) (h : Trailed edges w) :
    left (adjacency edges) (run (adjacency edges) fuel w) ≤ left (adjacency edges) w := by
  have hkeep := run_induction (P := fun v => Trailed edges v ∧
    left (adjacency edges) v ≤ left (adjacency edges) w)
    (fun v v' hm hv => ⟨hv.1.move hm, by have := left_move hm hv.1; omega⟩) fuel
    (w := w) ⟨h, Nat.le_refl _⟩
  exact hkeep.2

theorem left_start {w : Walk} (hempty : w.trail = []) {start : String}
    (hs : start ∈ allNodes (adjacency edges)) (hnew : start ∉ w.visited) :
    left (adjacency edges) { w with
      trail := [(start, (adjacency edges).targets start)]
      visited := start :: w.visited } = left (adjacency edges) w := by
  have hlen := length_unvisited (fun n => n :: (adjacency edges).targets n)
    (nodup_eraseDups _) hs hnew
  simp only [left, hempty, List.flatMap_cons, List.flatMap_nil, List.length_append,
    List.length_cons, List.length_nil, allNodes] at hlen ⊢
  omega

end Left

end RepoSurvey.Graph.Walk
