import RepoSurvey.Proofs.Graph.Search
import RepoSurvey.Risk

/-!
# RepoSurvey.Proofs.Graph.Acyclic

The cycle search decides whether the dependency graph is acyclic, and the cycles that it reports
account for all of them: the graph without their closing arcs has none. Each of them is a closed
walk of the graph that passes no node twice, and every closed walk meets one of them in its closing
arc (`cycles_are_simple`).
-/

namespace RepoSurvey.Graph

/-- The edges that lie on none of the given arcs. -/
def without (edges : List Edge) (arcs : List (Option (String × String))) : List Edge :=
  edges.filter fun e => some (e.source, e.target) ∉ arcs

theorem arc_without {edges : List Edge} {arcs : List (Option (String × String))} {s t : String} :
    Arc (without edges arcs) s t ↔ Arc edges s t ∧ some (s, t) ∉ arcs := by
  constructor
  · rintro ⟨e, he, rfl, rfl⟩
    obtain ⟨hmem, hout⟩ := List.mem_filter.mp he
    exact ⟨.of_mem hmem, by simpa using hout⟩
  · rintro ⟨⟨e, he, rfl, rfl⟩, hout⟩
    exact .of_mem (List.mem_filter.mpr ⟨he, by simpa using hout⟩)

theorem mem_closed_search {edges : List Edge} {a : Option (String × String)} :
    a ∈ (search edges).closed ↔ a ∈ (cycles edges).map closingArc := by
  simp [Walk.closed, cycles_eq_reverse]

theorem acyclic_without_closing (edges : List Edge) :
    Acyclic (without edges ((cycles edges).map closingArc)) := by
  intro n
  refine not_transGen_of_acc (Subrelation.accessible (fun {t s} h => ?_) (acc_search edges n))
  obtain ⟨harc, hout⟩ := arc_without.mp h
  exact ⟨harc, fun hin => hout (mem_closed_search.mp hin)⟩

theorem cycles_eq_nil_iff (edges : List Edge) : cycles edges = [] ↔ Acyclic edges := by
  constructor
  · intro hnil
    have h := acyclic_without_closing edges
    rw [hnil] at h
    exact (acyclic_congr fun s t => by simp [arc_without]).mp h
  · intro hacyclic
    refine List.eq_nil_iff_forall_not_mem.mpr fun c hc => ?_
    exact (isCycle_of_mem_cycles hc).not_acyclic hacyclic

theorem nodup_closing (edges : List Edge) : ((cycles edges).map closingArc).Nodup := by
  rw [cycles_eq_reverse, List.map_reverse, List.nodup_reverse]
  exact (search_paused edges).1.searched.distinct

theorem exists_closing_edge {edges : List Edge} {c : List String} (h : c ∈ cycles edges) :
    ∃ e ∈ edges, closingArc c = some (e.source, e.target) := by
  rw [cycles_eq_reverse, List.mem_reverse] at h
  obtain ⟨s, t, hst, ⟨e, he, rfl, rfl⟩, _⟩ := (search_paused edges).1.searched.own c h
  exact ⟨e, he, hst⟩

theorem hasCircularDeps_graph (edges : List Edge) (bs : List (String × Risk.Bucket)) :
    (Risk.metrics edges bs .graph).hasCircularDeps = true ↔ ¬ Acyclic edges := by
  rw [← cycles_eq_nil_iff]
  simp [Risk.metrics]

/-- No cycle is reported exactly if the graph is acyclic. Each reported cycle is closed by an edge
of its own, and without these edges the graph is acyclic. The flag of the risk metrics depends on
the arcs alone. -/
theorem cycles_decide_acyclicity (edges : List Edge) :
    (cycles edges = [] ↔ Acyclic edges) ∧
      (∀ c ∈ cycles edges, ∃ e ∈ edges, closingArc c = some (e.source, e.target)) ∧
      ((cycles edges).map closingArc).Nodup ∧
      Acyclic (without edges ((cycles edges).map closingArc)) ∧
      ∀ (edges' : List Edge), (∀ s t, Arc edges' s t ↔ Arc edges s t) →
        ∀ bs, (Risk.metrics edges' bs .graph).hasCircularDeps = true ↔ ¬ Acyclic edges := by
  refine ⟨cycles_eq_nil_iff edges, fun c hc => exists_closing_edge hc, nodup_closing edges,
    acyclic_without_closing edges, fun edges' hsame bs => ?_⟩
  rw [hasCircularDeps_graph, acyclic_congr hsame]

/-- Two edges that lead to and fro are circular in either order, and when one of them is repeated.
-/
theorem circular_to_and_fro :
    (∀ s t, Arc [⟨"b", "a", .imported⟩, ⟨"a", "b", .imported⟩, ⟨"a", "b", .required⟩] s t ↔
      Arc [⟨"a", "b", .imported⟩, ⟨"b", "a", .imported⟩] s t) ∧
    (Risk.metrics [⟨"b", "a", .imported⟩, ⟨"a", "b", .imported⟩, ⟨"a", "b", .required⟩] []
      .graph).hasCircularDeps = true := by
  have hsame : ∀ s t,
      Arc [⟨"b", "a", .imported⟩, ⟨"a", "b", .imported⟩, ⟨"a", "b", .required⟩] s t ↔
        Arc [⟨"a", "b", .imported⟩, ⟨"b", "a", .imported⟩] s t := by
    intro s t
    simp only [Arc, List.mem_cons, List.not_mem_nil, or_false, exists_eq_or_imp,
      exists_eq_left]
    grind
  have hloop : ¬ Acyclic [⟨"a", "b", .imported⟩, ⟨"b", "a", .imported⟩] := fun h =>
    h "a" (.tail (.single ⟨_, List.mem_cons_self, rfl, rfl⟩)
      ⟨_, List.mem_cons_of_mem _ List.mem_cons_self, rfl, rfl⟩)
  exact ⟨hsame, ((cycles_decide_acyclicity _).2.2.2.2 _ hsame []).mpr hloop⟩

/-! ## Closed walks -/

/-- A way along arcs that ends where it began. -/
structure IsClosedWalk (edges : List Edge) (walk : List String) : Prop where
  moves : 2 ≤ walk.length
  returns : walk.head? = walk.getLast?
  linked : ∀ before s t after, walk = before ++ s :: t :: after →
    ∃ e ∈ edges, e.source = s ∧ e.target = t

theorem isChain_arc_iff {edges : List Edge} {walk : List String} :
    walk.IsChain (Arc edges) ↔
      ∀ before s t after, walk = before ++ s :: t :: after → Arc edges s t := by
  rw [List.isChain_iff_forall_rel_of_append_cons_cons]
  exact ⟨fun h _ _ _ _ hsplit => h hsplit, fun h _ _ _ _ hsplit => h _ _ _ _ hsplit⟩

/-- A closed walk leads from its first node around to that node again. -/
theorem IsClosedWalk.exists_around {edges : List Edge} {walk : List String}
    (h : IsClosedWalk edges walk) : ∃ n path, walk = n :: path ++ [n] := by
  obtain ⟨hmoves, hreturns, _⟩ := h
  cases walk with
  | nil => simp at hmoves
  | cons n rest =>
    rcases List.eq_nil_or_concat rest with rfl | ⟨path, m, rfl⟩
    · simp at hmoves
    · rw [List.concat_eq_append, ← List.cons_append, List.getLast?_concat, List.cons_append,
        List.head?_cons, Option.some.injEq] at hreturns
      exact ⟨n, path, by rw [hreturns, List.concat_eq_append, List.cons_append]⟩

theorem IsCycle.isClosedWalk {edges : List Edge} {c : List String} (h : IsCycle edges c) :
    IsClosedWalk edges c ∧ c.dropLast.Nodup := by
  obtain ⟨⟨n, path, rfl, hnodup⟩, hlinked⟩ := h
  refine ⟨⟨by simp, ?_, isChain_arc_iff.mp hlinked⟩, ?_⟩
  · rw [List.getLast?_concat]
    rfl
  · rwa [List.dropLast_concat]

/-- A graph with a closed walk has a cycle, and without the closing arcs of the reported cycles
there is none: so the walk runs along one of these arcs. -/
theorem IsClosedWalk.along_closing {edges : List Edge} {walk : List String}
    (h : IsClosedWalk edges walk) : ∃ c ∈ cycles edges, ∃ before s t after,
      walk = before ++ s :: t :: after ∧ closingArc c = some (s, t) := by
  by_contra hnone
  obtain ⟨n, path, hwalk⟩ := h.exists_around
  have hlinked : walk.IsChain (Arc (without edges ((cycles edges).map closingArc))) := by
    refine isChain_arc_iff.mpr fun before s t after hsplit => ?_
    refine arc_without.mpr ⟨h.linked _ _ _ _ hsplit, fun hclosing => hnone ?_⟩
    obtain ⟨c, hc, harc⟩ := List.mem_map.mp hclosing
    exact ⟨c, hc, before, s, t, after, hsplit, harc⟩
  rw [hwalk] at hlinked
  exact acyclic_without_closing edges n (transGen_of_isChain hlinked)

/-- Every reported cycle is a closed walk that passes each of its nodes once, and every closed walk
of the graph runs along the closing arc of a reported cycle. -/
theorem cycles_are_simple (edges : List Edge) :
    (∀ c ∈ cycles edges, IsClosedWalk edges c ∧ c.dropLast.Nodup) ∧
      ∀ walk, IsClosedWalk edges walk → ∃ c ∈ cycles edges, ∃ before s t after,
        walk = before ++ s :: t :: after ∧ closingArc c = some (s, t) :=
  ⟨fun _ hc => (isCycle_of_mem_cycles hc).isClosedWalk, fun _ hwalk => hwalk.along_closing⟩

/-- From `a` an edge leads to two nodes that import each other. -/
def loopAhead : List Edge := [⟨"a", "b", .imported⟩, ⟨"b", "c", .imported⟩, ⟨"c", "b", .required⟩]

/-- The reported cycle leaves out the node at which the search began, and the walk from `c` around
to `c` runs along its closing arc. -/
theorem cycles_are_simple_ahead :
    cycles loopAhead = [["b", "c", "b"]] ∧ IsClosedWalk loopAhead ["b", "c", "b"] ∧
      ["b", "c", "b"].dropLast.Nodup ∧ IsClosedWalk loopAhead ["c", "b", "c"] ∧
      ∃ before s t after, ["c", "b", "c"] = before ++ s :: t :: after ∧
        closingArc ["b", "c", "b"] = some (s, t) := by
  have hcycles : cycles loopAhead = [["b", "c", "b"]] := by decide +kernel
  obtain ⟨hsimple, halong⟩ := cycles_are_simple loopAhead
  rw [hcycles] at hsimple halong
  have hwalk : IsClosedWalk loopAhead ["c", "b", "c"] := by
    refine ⟨by decide, rfl, isChain_arc_iff.mp ?_⟩
    simp [loopAhead, Arc]
  obtain ⟨c, hc, hsplit⟩ := halong _ hwalk
  cases List.mem_singleton.mp hc
  exact ⟨hcycles, (hsimple _ hc).1, (hsimple _ hc).2, hwalk, hsplit⟩

end RepoSurvey.Graph
