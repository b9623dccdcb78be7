import RepoSurvey.Proofs.Binary64.Order
import RepoSurvey.Proofs.Except
import RepoSurvey.Proofs.Graph.Acyclic
import RepoSurvey.Proofs.Risk

/-!
# RepoSurvey.Proofs.Risk.Dependencies

How the risk depends on the edges. Their order does not matter at all, not even to the cycle search,
of whose findings only the existence counts (`metrics_perm`, `buckets_perm`). Further edges raise
fans, coupling and the risk of a bucket or leave them as they are, and close cycles but never open
one.
-/

namespace RepoSurvey.Risk

open Binary64

/-! ## Fans -/

theorem le_foldl_max {ns : List Nat} {a n : Nat} (h : n ≤ a ∨ n ∈ ns) : n ≤ ns.foldl max a := by
  induction ns generalizing a with
  | nil => simpa using h
  | cons m ns ih =>
    apply ih
    rcases h with h | h
    · exact .inl (h.trans (le_max_left a m))
    · rcases List.mem_cons.mp h with rfl | h
      · exact .inl (le_max_right a n)
      · exact .inr h

theorem count_le_greatest (ss : List String) (s : String) : ss.count s ≤ greatest (tally ss) := by
  by_cases h : s ∈ ss
  · apply le_foldl_max
    right
    simp only [tally, List.map_map, List.mem_map, List.mem_eraseDups]
    exact ⟨s, h, rfl⟩
  · rw [List.count_eq_zero_of_not_mem h]
    exact Nat.zero_le _

theorem greatest_tally_mono {ss ts : List String} (h : ∀ s, ss.count s ≤ ts.count s) :
    greatest (tally ss) ≤ greatest (tally ts) := by
  apply foldl_max_le (Nat.zero_le _)
  intro n hn
  simp only [tally, List.map_map, List.mem_map, List.mem_eraseDups] at hn
  obtain ⟨s, _, rfl⟩ := hn
  exact (h s).trans (count_le_greatest ts s)

theorem greatest_tally_perm {ss ts : List String} (h : ss.Perm ts) :
    greatest (tally ss) = greatest (tally ts) :=
  le_antisymm (greatest_tally_mono fun s => (h.count_eq s).le)
    (greatest_tally_mono fun s => (h.count_eq s).ge)

section Edges

variable {es fs : List Edge}

theorem fans_mono (h : es.Sublist fs) :
    greatest (fanIn es) + greatest (fanOut es) ≤ greatest (fanIn fs) + greatest (fanOut fs) := by
  have htargets := greatest_tally_mono fun s => (h.map (·.target)).count_le s
  have hsources := greatest_tally_mono fun s => (h.map (·.source)).count_le s
  exact Nat.add_le_add htargets hsources

theorem couplingIndex_gtInt_mono {a b c d : Nat} (h : a + b ≤ c + d) {n : Int} (hn : n ≤ 2 ^ 5)
    (hgt : (couplingIndex a b).gtInt n = true) : (couplingIndex c d).gtInt n = true := by
  have hle : ((a + b : Nat) : Rat) / 2 ≤ ((c + d : Nat) : Rat) / 2 :=
    div_le_div_of_nonneg_right (Nat.cast_le.mpr h) (by norm_num)
  rw [couplingIndex, gtInt_ofRat_iff (by positivity) (by decide : 5 < 1024) hn] at hgt ⊢
  exact hgt.trans_le (nearest_mono hle)

/-! ## Cycles -/

theorem isEmpty_cycles_perm (h : es.Perm fs) :
    (Graph.cycles es).isEmpty = (Graph.cycles fs).isEmpty := by
  have harcs : ∀ s t, Graph.Arc es s t ↔ Graph.Arc fs s t := by
    intro s t
    simp only [Graph.Arc, h.mem_iff]
  rw [Bool.eq_iff_iff, List.isEmpty_iff, List.isEmpty_iff, Graph.cycles_eq_nil_iff,
    Graph.cycles_eq_nil_iff, Graph.acyclic_congr harcs]

theorem hasCircularDeps_mono (h : es.Sublist fs) (bs cs : List (String × Bucket))
    {mode : CycleDetection} (hes : (metrics es bs mode).hasCircularDeps = true) :
    (metrics fs cs mode).hasCircularDeps = true := by
  cases mode with
  | graph =>
    rw [Graph.hasCircularDeps_graph] at hes ⊢
    intro hacyclic
    apply hes
    refine hacyclic.mono fun s t => ?_
    rintro ⟨e, he, hst⟩
    exact ⟨e, h.subset he, hst⟩
  | heuristic => exact couplingIndex_gtInt_mono (fans_mono h) (by decide) hes

theorem metrics_perm (h : es.Perm fs) (bs : List (String × Bucket)) (mode : CycleDetection) :
    metrics es bs mode = metrics fs bs mode := by
  have htargets : greatest (fanIn es) = greatest (fanIn fs) :=
    greatest_tally_perm (h.map (·.target))
  have hsources : greatest (fanOut es) = greatest (fanOut fs) :=
    greatest_tally_perm (h.map (·.source))
  simp only [metrics, htargets, hsources, isEmpty_cycles_perm h]

/-! ## Buckets -/

/-- What is counted in the bucket of a name. -/
def bucket (paths : List String) (edges : List Edge) (name : String) : Bucket :=
  let inside := paths.filter fun p => bucketOf p = name
  { fileCount := inside.length
    maxDepth := ((inside.map depth).foldl max 0 : Nat)
    couplingSum := (edges.filter fun e => bucketOf e.target = name).length }

theorem buckets_eq (paths : List String) (edges : List Edge) :
    buckets paths edges =
      (paths.map bucketOf).eraseDups.map fun name => (name, bucket paths edges name) := rfl

theorem mem_buckets_iff {paths : List String} {edges : List Edge} {name : String} {b : Bucket} :
    (name, b) ∈ buckets paths edges ↔
      name ∈ paths.map bucketOf ∧ b = bucket paths edges name := by
  simp only [buckets_eq, List.mem_map (l := List.eraseDups _), List.mem_eraseDups, Prod.mk.injEq]
  constructor
  · rintro ⟨_, hname, rfl, rfl⟩
    exact ⟨hname, rfl⟩
  · rintro ⟨hname, rfl⟩
    exact ⟨name, hname, rfl, rfl⟩

theorem names_buckets (paths : List String) (edges : List Edge) :
    (buckets paths edges).map (·.1) = (paths.map bucketOf).eraseDups := by
  rw [buckets_eq, List.map_map]
  exact List.map_id _

theorem buckets_perm (paths : List String) (h : es.Perm fs) :
    buckets paths es = buckets paths fs := by
  rw [buckets_eq, buckets_eq]
  refine List.map_congr_left fun name _ => ?_
  simp only [bucket, (h.filter _).length_eq]

/-- Whether one bucket differs from another at most in being the target of more edges. -/
structure Bucket.Grows (b c : Bucket) : Prop where
  fileCount : c.fileCount = b.fileCount
  maxDepth : c.maxDepth = b.maxDepth
  couplingSum : b.couplingSum ≤ c.couplingSum

theorem bucket_grows (paths : List String) (h : es.Sublist fs) (name : String) :
    (bucket paths es name).Grows (bucket paths fs name) :=
  ⟨rfl, rfl, Int.ofNat_le.mpr (h.filter _).length_le⟩

theorem hotspotPaths_mono (paths : List String) (h : es.Sublist fs) (mode : CycleDetection)
    {path : String} (hpath : path ∈ (metrics es (buckets paths es) mode).hotspotPaths) :
    path ∈ (metrics fs (buckets paths fs) mode).hotspotPaths := by
  simp only [metrics, List.mem_map, List.mem_filter, decide_eq_true_eq] at hpath ⊢
  obtain ⟨⟨name, b⟩, ⟨hb, hhot⟩, rfl⟩ := hpath
  obtain ⟨hname, rfl⟩ := mem_buckets_iff.mp hb
  have hgrows := (bucket_grows paths h name).couplingSum
  exact ⟨(name, bucket paths fs name), ⟨mem_buckets_iff.mpr ⟨hname, rfl⟩, hhot.trans_le hgrows⟩,
    rfl⟩

end Edges

/-! ## Risk of a bucket -/

theorem riskScore_eq_ok_iff {b : Bucket} {n : Int} :
    b.riskScore = .ok n ↔ ∃ tenths depth coupling m,
      ofQuotient? b.fileCount 10 = some tenths ∧ ofInt? (b.maxDepth * 5) = some depth ∧
      ofInt? (b.couplingSum * 2) = some coupling ∧
      Score.roundHalfUp (((tenths.mul (ofRat 20)).add depth).add coupling) = .ok m ∧
      n = min 100 m := by
  rw [Bucket.riskScore]
  constructor
  · intro h
    split at h
    · next tenths depth coupling htenths hdepth hcoupling =>
      obtain ⟨m, hm, hn⟩ := Except.map_eq_ok_iff.mp h
      exact ⟨tenths, depth, coupling, m, htenths, hdepth, hcoupling, hm, hn.symm⟩
    · cases h
  · rintro ⟨tenths, depth, coupling, m, htenths, hdepth, hcoupling, hm, rfl⟩
    rw [htenths, hdepth, hcoupling]
    exact Except.map_eq_ok_iff.mpr ⟨m, hm, rfl⟩

theorem roundHalfUp_add_mono {x y z : Binary64} {a b : Rat} (hy : y.toRat? = some a)
    (hz : z.toRat? = some b) (hab : a ≤ b) {m n : Int}
    (hm : Score.roundHalfUp (x.add y) = .ok m) (hn : Score.roundHalfUp (x.add z) = .ok n) :
    m ≤ n := by
  -- What is rounded down was finite, so each sum was the rounded sum of finite numbers.
  have hinvert : ∀ {w : Binary64} {c : Rat} {k : Int}, w.toRat? = some c →
      Score.roundHalfUp (x.add w) = .ok k → ∃ d half, x.toRat? = some d ∧
        (ofRat (1 / 2)).toRat? = some half ∧ k = (nearest (nearest (d + c) + half)).floor := by
    intro w c k hw hk
    rw [Score.roundHalfUp, Except.mapError_eq_ok_iff, floor_eq_ok_iff] at hk
    obtain ⟨r, hr, rfl⟩ := hk
    obtain ⟨sum, half, hsum, hhalf, rfl⟩ := toRat?_add_eq_some hr
    obtain ⟨d, c', hd, hc', rfl⟩ := toRat?_add_eq_some hsum
    rw [hw] at hc'
    cases hc'
    exact ⟨d, half, hd, hhalf, rfl⟩
  obtain ⟨d, half, hd, hhalf, rfl⟩ := hinvert hy hm
  obtain ⟨d', half', hd', hhalf', rfl⟩ := hinvert hz hn
  rw [hd] at hd'
  rw [hhalf] at hhalf'
  cases hd'
  cases hhalf'
  have hsum : nearest (d + a) ≤ nearest (d + b) := nearest_mono (by linarith)
  exact Int.floor_le_floor (nearest_mono (by linarith))

theorem Bucket.Grows.riskScore_le {b c : Bucket} (h : b.Grows c) {m n : Int}
    (hm : b.riskScore = .ok m) (hn : c.riskScore = .ok n) : m ≤ n := by
  obtain ⟨tenths, depth, coupling, k, htenths, hdepth, hcoupling, hk, rfl⟩ :=
    riskScore_eq_ok_iff.mp hm
  obtain ⟨tenths', depth', coupling', l, htenths', hdepth', hcoupling', hl, rfl⟩ :=
    riskScore_eq_ok_iff.mp hn
  rw [h.fileCount, htenths] at htenths'
  rw [h.maxDepth, hdepth] at hdepth'
  cases htenths'
  cases hdepth'
  have hle : nearest ((b.couplingSum * 2 : Int) : Rat) ≤
      nearest ((c.couplingSum * 2 : Int) : Rat) := by
    apply nearest_mono
    have := h.couplingSum
    exact Int.cast_le.mpr (by omega)
  have hkl := roundHalfUp_add_mono (toRat?_of_ofInt? hcoupling) (toRat?_of_ofInt? hcoupling') hle
    hk hl
  omega

/-! ## The map of risks -/

theorem heatNode_eq_ok_iff {path : String} {b : Bucket} {n : HeatNode} :
    heatNode path b = .ok n ↔ ∃ risk, b.riskScore = .ok risk ∧
      n = ⟨path, risk, Score.riskLevel (.int risk), b.fileCount⟩ := by
  rw [heatNode, Except.map_eq_ok_iff]
  simp only [eq_comm]

theorem nodes_of_heatmap {bs : List (String × Bucket)} {nodes : List HeatNode}
    (h : heatmap bs = .ok nodes) :
    ∃ ns, bs.mapM (fun b => heatNode b.1 b.2) = .ok ns ∧ nodes.Perm ns := by
  obtain ⟨ns, hns, rfl⟩ := Except.map_eq_ok_iff.mp h
  exact ⟨ns, hns, List.mergeSort_perm ns _⟩

theorem paths_of_mapM {bs : List (String × Bucket)} {ns : List HeatNode}
    (h : bs.mapM (fun b => heatNode b.1 b.2) = .ok ns) : ns.map (·.path) = bs.map (·.1) := by
  rw [← List.forall₂_eq_eq_eq, List.forall₂_map_left_iff, List.forall₂_map_right_iff]
  refine (Except.mapM_eq_ok_iff.mp h).flip.imp fun n b hnode => ?_
  obtain ⟨risk, _, rfl⟩ := heatNode_eq_ok_iff.mp hnode
  rfl

theorem paths_of_heatmap {bs : List (String × Bucket)} {nodes : List HeatNode}
    (h : heatmap bs = .ok nodes) : (nodes.map (·.path)).Perm (bs.map (·.1)) := by
  obtain ⟨ns, hns, hperm⟩ := nodes_of_heatmap h
  rw [← paths_of_mapM hns]
  exact hperm.map _

theorem mem_heatmap {bs : List (String × Bucket)} {nodes : List HeatNode}
    (h : heatmap bs = .ok nodes) {n : HeatNode} (hn : n ∈ nodes) :
    ∃ b, (n.path, b) ∈ bs ∧ b.riskScore = .ok n.riskScore ∧ n.fileCount = b.fileCount := by
  obtain ⟨ns, hns, hperm⟩ := nodes_of_heatmap h
  obtain ⟨⟨path, b⟩, hb, hnode⟩ := Except.exists_of_mem_mapM hns (hperm.mem_iff.mp hn)
  obtain ⟨risk, hrisk, rfl⟩ := heatNode_eq_ok_iff.mp hnode
  exact ⟨b, hb, hrisk, rfl⟩

theorem heatmap_grows {paths : List String} {es fs : List Edge} (h : es.Sublist fs)
    {nodes nodes' : List HeatNode} (hes : heatmap (buckets paths es) = .ok nodes)
    (hfs : heatmap (buckets paths fs) = .ok nodes') {n n' : HeatNode} (hn : n ∈ nodes)
    (hn' : n' ∈ nodes') (hpath : n'.path = n.path) :
    n'.fileCount = n.fileCount ∧ n.riskScore ≤ n'.riskScore := by
  obtain ⟨b, hb, hrisk, hcount⟩ := mem_heatmap hes hn
  obtain ⟨c, hc, hrisk', hcount'⟩ := mem_heatmap hfs hn'
  obtain ⟨_, rfl⟩ := mem_buckets_iff.mp hb
  obtain ⟨_, rfl⟩ := mem_buckets_iff.mp hc
  rw [hpath] at hrisk' hcount'
  have hgrows := bucket_grows paths h n.path
  exact ⟨by rw [hcount, hcount', hgrows.fileCount], hgrows.riskScore_le hrisk hrisk'⟩

end RepoSurvey.Risk
