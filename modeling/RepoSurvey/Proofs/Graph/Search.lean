import RepoSurvey.Proofs.Graph.Walk

/-!
# RepoSurvey.Proofs.Graph.Search

What the depth-first search has established at every point. `Searched` says of a walk:

* what it found are cycles of the graph (`IsCycle`), each closed by an arc of its own;
* from a node that was left, every way along arcs that closed no cycle ends (`settled`).

The second part is what makes the search complete. It is carried by `ReadBack`: an arc of a node of
the trail is still to be read, closed a cycle, or leads to a node that does not lie further back.
When the node is left nothing is still to be read, so its open arcs all lead to settled nodes.
-/

namespace RepoSurvey.Graph

/-! ## Cycles -/

/-- A closed way along arcs that passes each of its nodes once. -/
structure IsCycle (edges : List Edge) (c : List String) : Prop where
  simple : ∃ n path, c = n :: path ++ [n] ∧ (n :: path).Nodup
  linked : c.IsChain (Arc edges)

/-- The arc that closes a cycle: its last two nodes. -/
def closingArc (c : List String) : Option (String × String) :=
  match c.reverse with
  | t :: s :: _ => some (s, t)
  | _ => none

theorem transGen_of_isChain {r : String → String → Prop} {a b : String} {path : List String}
    (h : (a :: path ++ [b]).IsChain r) : Relation.TransGen r a b := by
  induction path generalizing a with
  | nil => exact .single (List.isChain_pair.mp h)
  | cons m path ih =>
    obtain ⟨ham, hrest⟩ := List.isChain_cons_cons.mp h
    exact .head ham (ih hrest)

theorem IsCycle.not_acyclic {edges : List Edge} {c : List String} (h : IsCycle edges c) :
    ¬ Acyclic edges := by
  obtain ⟨⟨n, path, rfl, _⟩, hlinked⟩ := h
  exact fun hacyclic => hacyclic n (transGen_of_isChain hlinked)

namespace Walk

theorem closingArc_closing (node next : String) (back : List String) :
    closingArc (closing (node :: back) next) = some (node, next) := by
  by_cases h : node = next
  · simp [closingArc, closing, h]
  · simp [closingArc, closing, h]

/-- The cycle that closes at a node runs along the trail from that node on. -/
theorem closing_of_split {nodes pre post : List String} {next : String}
    (hsplit : nodes = pre ++ next :: post) (hpre : next ∉ pre) :
    closing nodes next = next :: pre.reverse ++ [next] := by
  have htake : nodes.takeWhile (· ≠ next) = pre := by
    rw [hsplit, List.takeWhile_append_of_pos (by
      intro x hx
      simpa using fun h : x = next => hpre (h ▸ hx))]
    simp
  rw [closing, htake]

theorem isCycle_closing {edges : List Edge} {node next : String} {back : List String}
    (hnodup : (node :: back).Nodup) (hlinked : (node :: back).IsChain fun n m => Arc edges m n)
    (harc : Arc edges node next) (hnext : next ∈ node :: back) :
    IsCycle edges (closing (node :: back) next) := by
  obtain ⟨pre, post, hsplit, hpre⟩ := List.eq_append_cons_of_mem hnext
  have hclosing : closing (node :: back) next = (next :: pre ++ [next]).reverse := by
    rw [closing_of_split hsplit hpre]
    simp
  -- Along the trail back to `next`, and to the current node from `next` again.
  have hback : (next :: pre ++ [next]).IsChain fun n m => Arc edges m n := by
    rw [hsplit, List.append_cons] at hlinked
    have hpath := hlinked.left_of_append
    cases pre with
    | nil =>
      obtain ⟨rfl, _⟩ := List.cons.inj hsplit
      exact List.isChain_pair.mpr harc
    | cons p pre =>
      obtain ⟨rfl, _⟩ := List.cons.inj hsplit
      exact .cons_cons harc hpath
  rw [hclosing]
  refine ⟨⟨next, pre.reverse, by simp, ?_⟩, List.isChain_reverse.mpr hback⟩
  rw [hsplit] at hnodup
  have hpre' := (List.nodup_append.mp hnodup).1
  simpa [hpre] using hpre'

/-! ## The state of the search -/

section Searched

variable {edges : List Edge} {w w' : Walk}

/-- The arcs that closed the cycles found so far. -/
def closed (w : Walk) : List (Option (String × String)) := w.cycles.map closingArc

/-- From the end of an arc that closed no cycle to its start. -/
def Open (edges : List Edge) (arcs : List (Option (String × String))) (t s : String) : Prop :=
  Arc edges s t ∧ some (s, t) ∉ arcs

/-- Every arc of a node of the trail is still to be read, closed a cycle, or leads to a visited
node that is neither the node itself nor further back. -/
def ReadBack (edges : List Edge) (visited : List String)
    (arcs : List (Option (String × String))) : List (String × List String) → Prop
  | [] => True
  | (n, rest) :: back =>
    (∀ t, Arc edges n t →
      t ∈ rest ∨ some (n, t) ∈ arcs ∨ (t ∈ visited ∧ t ∉ n :: back.map (·.1))) ∧
    ReadBack edges visited arcs back

/-- A cycle is closed by an arc that was read and is not read again. -/
def ClosedByRead (edges : List Edge) (visited : List String)
    (trail : List (String × List String)) (c : List String) : Prop :=
  ∃ s t, closingArc c = some (s, t) ∧ Arc edges s t ∧ s ∈ visited ∧
    ∀ rest, (s, rest) ∈ trail → t ∉ rest

/-- What the search has established. -/
structure Searched (edges : List Edge) (w : Walk) : Prop where
  trailed : Trailed edges w
  genuine : ∀ c ∈ w.cycles, IsCycle edges c
  own : ∀ c ∈ w.cycles, ClosedByRead edges w.visited w.trail c
  distinct : w.closed.Nodup
  read : ReadBack edges w.visited w.closed w.trail
  settled : ∀ n ∈ w.visited, n ∉ w.nodes → Acc (Open edges w.closed) n

theorem ReadBack.mono {visited visited' : List String}
    {arcs arcs' : List (Option (String × String))} {trail : List (String × List String)}
    (hv : ∀ n ∈ visited, n ∈ visited') (ha : ∀ a ∈ arcs, a ∈ arcs')
    (h : ReadBack edges visited arcs trail) : ReadBack edges visited' arcs' trail := by
  induction trail with
  | nil => trivial
  | cons top back ih =>
    obtain ⟨n, rest⟩ := top
    refine ⟨fun t ht => ?_, ih h.2⟩
    rcases h.1 t ht with hrest | harc | ⟨hvis, hback⟩
    · exact .inl hrest
    · exact .inr (.inl (ha _ harc))
    · exact .inr (.inr ⟨hv t hvis, hback⟩)

theorem acc_open_mono {arcs arcs' : List (Option (String × String))} {n : String}
    (ha : ∀ a ∈ arcs, a ∈ arcs') (h : Acc (Open edges arcs) n) : Acc (Open edges arcs') n :=
  Subrelation.accessible (fun ⟨harc, hout⟩ => ⟨harc, fun hin => hout (ha _ hin)⟩) h

/-- A trail on which no visited node has more to read than before. -/
theorem ClosedByRead.mono {visited visited' : List String}
    {trail trail' : List (String × List String)} {c : List String}
    (hv : ∀ n ∈ visited, n ∈ visited')
    (ht : ∀ n ∈ visited, ∀ rest', (n, rest') ∈ trail' → ∃ rest, (n, rest) ∈ trail ∧ rest' ⊆ rest)
    (h : ClosedByRead edges visited trail c) : ClosedByRead edges visited' trail' c := by
  obtain ⟨s, t, hst, harc, hs, hfree⟩ := h
  refine ⟨s, t, hst, harc, hv s hs, fun rest' hr' hin => ?_⟩
  obtain ⟨rest, hr, hsub⟩ := ht s hs rest' hr'
  exact hfree rest hr (hsub hin)

section Step

variable {node next : String} {more visited : List String} {back : List (String × List String)}
  {arcs : List (Option (String × String))} {cycles : List (List String)} {c : List String}

theorem exists_rest_of_read {n : String} {rest' : List String}
    (h : (n, rest') ∈ (node, more) :: back) :
    ∃ rest, (n, rest) ∈ (node, next :: more) :: back ∧ rest' ⊆ rest := by
  rcases List.mem_cons.mp h with heq | hback
  · obtain ⟨rfl, rfl⟩ := Prod.mk.inj heq
    exact ⟨_, List.mem_cons_self, List.subset_cons_self _ _⟩
  · exact ⟨rest', List.mem_cons_of_mem _ hback, List.Subset.refl _⟩

theorem ClosedByRead.take (h : ClosedByRead edges visited ((node, next :: more) :: back) c) :
    ClosedByRead edges visited ((node, more) :: back) c :=
  h.mono (fun _ hn => hn) fun _ _ _ hr => exists_rest_of_read hr

/-- A target that was read closed a cycle or lies off the trail. -/
theorem ReadBack.take (h : ReadBack edges visited arcs ((node, next :: more) :: back))
    (hnext : some (node, next) ∈ arcs ∨ (next ∈ visited ∧ next ∉ node :: back.map (·.1))) :
    ReadBack edges visited arcs ((node, more) :: back) := by
  refine ⟨fun t ht => ?_, h.2⟩
  rcases h.1 t ht with hrest | hother
  · rcases List.mem_cons.mp hrest with rfl | hmore
    · exact .inr hnext
    · exact .inl hmore
  · exact .inr hother

/-- A node without targets to read is settled when it is left: its open arcs lead to nodes that
are settled. -/
theorem Searched.leave (h : Searched edges ⟨(node, []) :: back, visited, cycles⟩) :
    Searched edges ⟨back, visited, cycles⟩ := by
  refine ⟨h.trailed.move .leave, h.genuine, fun c hc => ?_, h.distinct, h.read.2, ?_⟩
  · exact (h.own c hc).mono (fun _ hn => hn)
      fun n _ rest hr => ⟨rest, List.mem_cons_of_mem _ hr, List.Subset.refl _⟩
  · intro n hn hback
    by_cases hnode : n = node
    · subst hnode
      refine .intro _ fun t ⟨harc, hopen⟩ => ?_
      rcases h.read.1 t harc with hrest | hclosed | ⟨hvis, hout⟩
      · exact absurd hrest List.not_mem_nil
      · exact absurd hclosed hopen
      · exact h.settled t hvis hout
    · refine h.settled n hn fun hin => ?_
      rcases List.mem_cons.mp hin with heq | hin
      · exact hnode heq
      · exact hback hin

/-- An arc that is still to be read has closed no cycle. -/
theorem Searched.not_mem_closed
    (h : Searched edges ⟨(node, next :: more) :: back, visited, cycles⟩) :
    some (node, next) ∉ cycles.map closingArc := by
  intro hin
  obtain ⟨c, hc, hcn⟩ := List.mem_map.mp hin
  obtain ⟨s, t, hst, _, _, hfree⟩ := h.own c hc
  obtain ⟨rfl, rfl⟩ := Prod.mk.inj (Option.some.inj (hst.symm.trans hcn))
  exact hfree _ List.mem_cons_self List.mem_cons_self

theorem Searched.close (h : Searched edges ⟨(node, next :: more) :: back, visited, cycles⟩)
    (htrail : next ∈ node :: back.map (·.1)) :
    Searched edges ⟨(node, more) :: back, visited,
      closing (node :: back.map (·.1)) next :: cycles⟩ := by
  have harc : Arc edges node next :=
    h.trailed.arc_of_unread List.mem_cons_self List.mem_cons_self
  have hclosing := closingArc_closing node next (back.map (·.1))
  have hgrow : ∀ a ∈ cycles.map closingArc, a ∈ some (node, next) :: cycles.map closingArc :=
    fun _ ha => List.mem_cons_of_mem _ ha
  have hclosed : closed ⟨(node, more) :: back, visited,
      closing (node :: back.map (·.1)) next :: cycles⟩ =
        some (node, next) :: cycles.map closingArc := by
    rw [closed, List.map_cons, hclosing]
  refine ⟨h.trailed.move (.close htrail), fun c hc => ?_, fun c hc => ?_, ?_, ?_, ?_⟩
  · rcases List.mem_cons.mp hc with rfl | hc
    · exact isCycle_closing h.trailed.nodup h.trailed.linked harc htrail
    · exact h.genuine c hc
  · rcases List.mem_cons.mp hc with rfl | hc
    · exact ⟨node, next, hclosing, harc, h.trailed.visited _ List.mem_cons_self,
        fun rest hr => h.trailed.not_mem_rest hr⟩
    · exact (h.own c hc).take
  · rw [hclosed]
    exact List.nodup_cons.mpr ⟨h.not_mem_closed, h.distinct⟩
  · rw [hclosed]
    exact (h.read.mono (fun _ hn => hn) hgrow).take (.inl List.mem_cons_self)
  · rw [hclosed]
    exact fun n hn hout => acc_open_mono hgrow (h.settled n hn hout)

theorem Searched.skip (h : Searched edges ⟨(node, next :: more) :: back, visited, cycles⟩)
    (htrail : next ∉ node :: back.map (·.1)) (hvis : next ∈ visited) :
    Searched edges ⟨(node, more) :: back, visited, cycles⟩ :=
  ⟨h.trailed.move (.skip htrail hvis), h.genuine, fun c hc => (h.own c hc).take, h.distinct,
    h.read.take (.inr ⟨hvis, htrail⟩), h.settled⟩

theorem Searched.enter (h : Searched edges ⟨(node, next :: more) :: back, visited, cycles⟩)
    (htrail : next ∉ node :: back.map (·.1)) (hnew : next ∉ visited) :
    Searched edges ⟨(next, (adjacency edges).targets next) :: (node, more) :: back,
      next :: visited, cycles⟩ := by
  have hgrow : ∀ n ∈ visited, n ∈ next :: visited := fun _ hn => List.mem_cons_of_mem _ hn
  refine ⟨h.trailed.move (.enter htrail hnew), h.genuine, fun c hc => ?_, h.distinct,
    ⟨fun t ht => .inl (mem_targets.mpr ht), ?_⟩, fun n hn hout => ?_⟩
  · refine (h.own c hc).mono hgrow fun n hn rest' hr => ?_
    rcases List.mem_cons.mp hr with heq | hr
    · exact absurd ((Prod.mk.inj heq).1 ▸ hn) hnew
    · exact exists_rest_of_read hr
  · exact (h.read.mono hgrow fun _ ha => ha).take (.inr ⟨List.mem_cons_self, htrail⟩)
  · obtain ⟨hne, hback⟩ := not_or.mp (List.mem_cons.not.mp hout)
    exact h.settled n ((List.mem_cons.mp hn).resolve_left hne) hback

end Step

theorem Searched.move (hm : Moves (adjacency edges) w w') (h : Searched edges w) :
    Searched edges w' := by
  cases hm with
  | leave => exact h.leave
  | close htrail => exact h.close htrail
  | skip htrail hvis => exact h.skip htrail hvis
  | enter htrail hnew => exact h.enter htrail hnew

theorem Searched.run (fuel : Nat) (h : Searched edges w) :
    Searched edges (run (adjacency edges) fuel w) :=
  run_induction (fun _ _ hm hw => hw.move hm) fuel h

theorem Searched.empty : Searched edges ⟨[], [], []⟩ :=
  ⟨⟨List.nodup_nil, by simp [nodes], by simp [nodes], by simp⟩, by simp, by simp, List.nodup_nil,
    trivial, by simp⟩

/-- Between two walks a search may start at any node that was not visited. -/
theorem Searched.start (h : Searched edges w) (hempty : w.trail = []) {start : String}
    (hnew : start ∉ w.visited) :
    Searched edges { w with
      trail := [(start, (adjacency edges).targets start)]
      visited := start :: w.visited } := by
  refine ⟨.start start, h.genuine, fun c hc => ?_, h.distinct, ⟨fun t ht => ?_, trivial⟩, ?_⟩
  · refine (h.own c hc).mono (fun _ hn => List.mem_cons_of_mem _ hn) fun n hn rest hr => ?_
    obtain ⟨rfl, _⟩ := Prod.mk.inj (List.mem_singleton.mp hr)
    exact absurd hn hnew
  · exact .inl (mem_targets.mpr ht)
  · intro n hn hout
    simp only [nodes, List.map_cons, List.map_nil, List.mem_singleton] at hout
    refine h.settled n ((List.mem_cons.mp hn).resolve_left hout) ?_
    simp [nodes, hempty]

end Searched

theorem visited_run {adj : Adjacency} {n : String} {w : Walk} (fuel : Nat) (h : n ∈ w.visited) :
    n ∈ (run adj fuel w).visited := by
  refine run_induction (P := fun v => n ∈ v.visited) (fun v v' hm hn => ?_) fuel h
  cases hm with
  | leave | close _ | skip _ _ => exact hn
  | enter _ _ => exact List.mem_cons_of_mem _ hn

end Walk

/-! ## The whole search -/

section Search

variable {edges : List Edge}

/-- A search between two walks, with the fuel that it has for each of them. -/
structure Paused (edges : List Edge) (fuel : Nat) (w : Walk) : Prop where
  searched : Walk.Searched edges w
  rests : w.trail = []
  enough : Walk.left (adjacency edges) w ≤ fuel

theorem walkFrom_of_visited {adj : Adjacency} {w : Walk} {start : String} (h : start ∈ w.visited)
    (fuel : Nat) : walkFrom adj fuel w start = w := by simp [walkFrom, h]

theorem walkFrom_of_new {adj : Adjacency} {w : Walk} {start : String} (h : start ∉ w.visited)
    (fuel : Nat) : walkFrom adj fuel w start = Walk.run adj fuel
      { w with
        trail := [(start, adj.targets start)]
        visited := start :: w.visited } := by simp [walkFrom, h]

theorem walkFrom_paused {fuel : Nat} {w : Walk} (h : Paused edges fuel w) {start : String}
    (hs : start ∈ edges.map (·.source)) :
    Paused edges fuel (walkFrom (adjacency edges) fuel w start) ∧
      start ∈ (walkFrom (adjacency edges) fuel w start).visited ∧
      ∀ n ∈ w.visited, n ∈ (walkFrom (adjacency edges) fuel w start).visited := by
  obtain ⟨hsearched, hrests, henough⟩ := h
  by_cases hold : start ∈ w.visited
  · rw [walkFrom_of_visited hold]
    exact ⟨⟨hsearched, hrests, henough⟩, hold, fun _ hn => hn⟩
  · have hstart := hsearched.start hrests hold
    have hleft := Walk.left_start hrests (Walk.source_mem_allNodes hs) hold
    rw [walkFrom_of_new hold]
    refine ⟨⟨hstart.run fuel, Walk.trail_run hstart.trailed ?_, ?_⟩, ?_, fun n hn => ?_⟩
    · omega
    · exact Nat.le_trans (Walk.left_run_le fuel hstart.trailed) (by omega)
    · exact Walk.visited_run fuel List.mem_cons_self
    · exact Walk.visited_run fuel (List.mem_cons_of_mem _ hn)

theorem foldl_walkFrom_paused {fuel : Nat} {w : Walk} {starts : List String}
    (h : Paused edges fuel w) (hs : ∀ s ∈ starts, s ∈ edges.map (·.source)) :
    Paused edges fuel (starts.foldl (walkFrom (adjacency edges) fuel) w) ∧
      ∀ n, n ∈ w.visited ∨ n ∈ starts →
        n ∈ (starts.foldl (walkFrom (adjacency edges) fuel) w).visited := by
  induction starts generalizing w with
  | nil => exact ⟨h, fun n hn => hn.resolve_right List.not_mem_nil⟩
  | cons start starts ih =>
    obtain ⟨hpaused, hstart, hkeep⟩ := walkFrom_paused h (hs start List.mem_cons_self)
    obtain ⟨hall, hvis⟩ := ih hpaused fun s hin => hs s (List.mem_cons_of_mem _ hin)
    refine ⟨hall, fun n hn => hvis n ?_⟩
    rcases hn with hn | hn
    · exact .inl (hkeep n hn)
    · rcases List.mem_cons.mp hn with rfl | hn
      · exact .inl hstart
      · exact .inr hn

def search (edges : List Edge) : Walk :=
  ((adjacency edges).map (·.1)).foldl (walkFrom (adjacency edges) (stepBound (adjacency edges)))
    ⟨[], [], []⟩

theorem cycles_eq_reverse (edges : List Edge) : cycles edges = (search edges).cycles.reverse := rfl

theorem Paused.empty : Paused edges (stepBound (adjacency edges)) ⟨[], [], []⟩ :=
  ⟨.empty, rfl, Nat.le_of_eq (Walk.left_nil _)⟩

theorem mem_starts {s : String} :
    s ∈ (adjacency edges).map (·.1) ↔ s ∈ edges.map (·.source) := by
  rw [sources_adjacency, List.mem_eraseDups]

theorem search_paused (edges : List Edge) :
    Paused edges (stepBound (adjacency edges)) (search edges) ∧
      ∀ n ∈ edges.map (·.source), n ∈ (search edges).visited := by
  obtain ⟨hpaused, hvis⟩ := foldl_walkFrom_paused .empty fun s hs => mem_starts.mp hs
  exact ⟨hpaused, fun n hn => hvis n (.inr (mem_starts.mpr hn))⟩

/-- After the search every way along open arcs ends, from whatever node. -/
theorem acc_search (edges : List Edge) (n : String) :
    Acc (Walk.Open edges (search edges).closed) n := by
  obtain ⟨⟨hsearched, hrests, _⟩, hvis⟩ := search_paused edges
  by_cases hn : n ∈ edges.map (·.source)
  · exact hsearched.settled n (hvis n hn) (by simp [Walk.nodes, hrests])
  · exact .intro n fun t ht => absurd ht.1.source_mem hn

theorem isCycle_of_mem_cycles {c : List String} (h : c ∈ cycles edges) : IsCycle edges c := by
  rw [cycles_eq_reverse, List.mem_reverse] at h
  exact (search_paused edges).1.searched.genuine c h

end Search

end RepoSurvey.Graph
