import RepoSurvey.Proofs.Ranking
import RepoSurvey.Proofs.Risk.Dependencies
import RepoSurvey.Proofs.Score.Exactness

/-!
# RepoSurvey.Proofs.Risk.Heatmap

What the heatmap says. The risk of a bucket is computed in double precision, but what it counts
would have to be enormous to make a difference, and then the risk is at its limit anyway
(`riskScore_eq`). So the heatmap ranks the buckets by an exact formula.
-/

namespace RepoSurvey.Risk

open Binary64

/-! ## The risk of a bucket -/

/-- The risk of a bucket without its limit. -/
def Bucket.weight (b : Bucket) : Int := 2 * b.fileCount + 5 * b.maxDepth + 2 * b.couplingSum

/-- Whether nothing that is counted in a bucket is beyond a number. -/
structure Bucket.Within (m : Int) (b : Bucket) : Prop where
  fileCount : 0 ≤ b.fileCount ∧ b.fileCount ≤ m
  maxDepth : 0 ≤ b.maxDepth ∧ b.maxDepth ≤ m
  couplingSum : 0 ≤ b.couplingSum ∧ b.couplingSum ≤ m

theorem near_tenths {f : Int} (h0 : 0 ≤ f) {k : Nat} (hk : k < 1000) (h : f ≤ 2 ^ k) :
    ∃ x, ofQuotient? f 10 = some x ∧
      Near (x.mul (ofRat 20)) (2 * f) (52 * 2 ^ ((k : Int) - 54)) := by
  have h0' : (0 : Rat) ≤ f := Int.cast_nonneg h0
  have h' : (f : Rat) ≤ 2 ^ (k : Int) := by exact_mod_cast h
  have hu := two_zpow_pos ((k : Int) - 54)
  obtain ⟨x, hx, hnear⟩ := near_of_ofQuotient? (k := k) (by omega) (by decide : (0 : Int) < 10)
    (by rwa [abs_of_nonneg h0])
  have htwenty : Near (ofRat 20) 20 0 := by
    exact_mod_cast near_ofRat_intCast (n := 20) (by decide) (by decide)
  have hproduct := hnear.mul (k := k + 5) (by omega) htwenty
    (show |(f : Rat) / (10 : Int)| ≤ 2 ^ (k : Int) by
      rw [abs_of_nonneg (by positivity)]
      push_cast
      linarith)
    (by norm_num : |(20 : Rat)| ≤ 20) (by
      rw [two_zpow_eq_mul k, two_zpow_eq_mul (k + 5), two_zpow_add_sub]
      linarith)
  rw [two_zpow_add_sub] at hproduct
  refine ⟨x, hx, ?_⟩
  convert hproduct using 1
  · push_cast
    ring
  · ring

theorem riskScore_near {b : Bucket} {k : Nat} (hk : k < 1000) (h : b.Within (2 ^ k)) :
    ∃ r : Rat, b.riskScore = .ok (min 100 r.floor) ∧
      |r - (b.weight + 1 / 2)| ≤ 102 * 2 ^ ((k : Int) - 54) := by
  obtain ⟨⟨hf0, hf⟩, ⟨hd0, hd⟩, hc0, hc⟩ := h
  obtain ⟨tenths, htenths, hx⟩ := near_tenths hf0 hk hf
  obtain ⟨depth, hdepth, hy⟩ := near_of_ofInt?_mul (k := k) (j := 3) (by omega)
    (by rwa [abs_of_nonneg hd0]) (by decide : |(5 : Int)| ≤ 2 ^ 3)
  obtain ⟨coupling, hcoupling, hz⟩ := near_of_ofInt?_mul (k := k) (j := 1) (by omega)
    (by rwa [abs_of_nonneg hc0]) (by decide : |(2 : Int)| ≤ 2 ^ 1)
  -- Every bound is a multiple of the error of one number.
  have hf' : (b.fileCount : Rat) ≤ 2 ^ (k : Int) := by exact_mod_cast hf
  have hd' : (b.maxDepth : Rat) ≤ 2 ^ (k : Int) := by exact_mod_cast hd
  have hc' : (b.couplingSum : Rat) ≤ 2 ^ (k : Int) := by exact_mod_cast hc
  have hone : (1 : Rat) ≤ 2 ^ (k : Int) := by
    rw [zpow_natCast]
    exact one_le_pow₀ (by norm_num)
  rw [two_zpow_eq_mul] at hf' hd' hc' hone
  have hf0' : (0 : Rat) ≤ b.fileCount := Int.cast_nonneg hf0
  have hd0' : (0 : Rat) ≤ b.maxDepth := Int.cast_nonneg hd0
  have hc0' : (0 : Rat) ≤ b.couplingSum := Int.cast_nonneg hc0
  have hu := two_zpow_pos ((k : Int) - 54)
  have hdeep := hx.add (k := k + 3) (by omega) hy (by
    rw [abs_of_nonneg (by positivity), two_zpow_eq_mul, two_zpow_add_sub]
    push_cast
    linarith)
  have hall := hdeep.add (k := k + 4) (by omega) hz (by
    rw [abs_of_nonneg (by positivity), two_zpow_eq_mul, two_zpow_add_sub, two_zpow_add_sub]
    push_cast
    linarith)
  obtain ⟨r, hr, hnear⟩ := Score.roundHalfUp_near (k := k + 4) (by omega) hall (by
    rw [abs_of_nonneg (by positivity), two_zpow_eq_mul, two_zpow_add_sub, two_zpow_add_sub]
    push_cast
    linarith)
  refine ⟨r, riskScore_eq_ok_iff.mpr ⟨_, _, _, _, htenths, hdepth, hcoupling, hr, rfl⟩, ?_⟩
  rw [two_zpow_add_sub, two_zpow_add_sub] at hnear
  convert hnear using 2
  · rw [Bucket.weight]
    push_cast
    ring
  · ring

theorem riskScore_eq {b : Bucket} (h : b.Within (2 ^ 53)) :
    b.riskScore = .ok (min 100 b.weight) := by
  obtain ⟨⟨hf0, _⟩, ⟨hd0, _⟩, hc0, _⟩ := id h
  have hweight : b.weight = 2 * b.fileCount + 5 * b.maxDepth + 2 * b.couplingSum := rfl
  by_cases hsmall : b.weight ≤ 2 ^ 20
  · -- What is near the weight and a half has the weight as its integer part.
    have hwithin : b.Within (2 ^ 20) := by constructor <;> omega
    obtain ⟨r, hr, hnear⟩ := riskScore_near (by decide) hwithin
    have hfloor : r.floor = b.weight := by
      obtain ⟨hlow, hhigh⟩ := abs_le.mp hnear
      norm_num at hlow hhigh
      exact (Int.floor_eq_iff (a := r)).mpr (by constructor <;> linarith)
    rw [hr, hfloor]
  · obtain ⟨r, hr, hnear⟩ := riskScore_near (by decide) h
    have hfloor : 100 ≤ r.floor := by
      have hlarge : (2 : Rat) ^ 20 ≤ b.weight := by exact_mod_cast (not_le.mp hsmall).le
      obtain ⟨hlow, _⟩ := abs_le.mp hnear
      norm_num at hlow hlarge
      exact (Int.le_floor (a := r)).mpr (by push_cast; linarith)
    rw [hr]
    congr 1
    omega

/-! ## Counts -/

theorem foldl_max_mem (ns : List Nat) (a : Nat) : ns.foldl max a = a ∨ ns.foldl max a ∈ ns := by
  induction ns generalizing a with
  | nil => exact .inl rfl
  | cons n ns ih =>
    rw [List.foldl_cons]
    obtain h | h := ih (max a n)
    · rw [h]
      rcases max_choice a n with hmax | hmax
      · exact .inl hmax
      · exact .inr (by rw [hmax]; exact List.mem_cons_self)
    · exact .inr (List.mem_cons_of_mem n h)

section Buckets

variable (paths : List String) (edges : List Edge) {name : String}

/-- The greatest depth in a bucket is the depth of one of its paths and not exceeded by another. -/
theorem maxDepth_bucket (h : name ∈ paths.map bucketOf) :
    (∃ p ∈ paths, bucketOf p = name ∧ (depth p : Int) = (bucket paths edges name).maxDepth) ∧
      ∀ p ∈ paths, bucketOf p = name → (depth p : Int) ≤ (bucket paths edges name).maxDepth := by
  have hle : ∀ p ∈ paths, bucketOf p = name →
      depth p ≤ ((paths.filter fun p => bucketOf p = name).map depth).foldl max 0 :=
    fun p hp hname => le_foldl_max (.inr (List.mem_map_of_mem
      (List.mem_filter.mpr ⟨hp, decide_eq_true hname⟩)))
  refine ⟨?_, fun p hp hname => Int.ofNat_le.mpr (hle p hp hname)⟩
  obtain hzero | hmem := foldl_max_mem ((paths.filter fun p => bucketOf p = name).map depth) 0
  · -- A bucket has a path, and every path has a segment.
    obtain ⟨p, hp, hname⟩ := List.mem_map.mp h
    have := hle p hp hname
    rw [hzero, depth_eq] at this
    omega
  · obtain ⟨p, hp, hdepth⟩ := List.mem_map.mp hmem
    obtain ⟨hp, hname⟩ := List.mem_filter.mp hp
    exact ⟨p, hp, of_decide_eq_true hname, congrArg Nat.cast hdepth⟩

theorem fileCount_bucket (name : String) :
    (bucket paths edges name).fileCount = (paths.map bucketOf).count name := by
  rw [← length_filter_eq_count]
  rfl

theorem couplingSum_bucket (name : String) :
    (bucket paths edges name).couplingSum = (edges.map fun e => bucketOf e.target).count name := by
  rw [← length_filter_eq_count]
  rfl

theorem within_bucket {m : Nat} (hpaths : paths.length ≤ m) (hedges : edges.length ≤ m)
    (hdepths : ∀ p ∈ paths, depth p ≤ m) (h : name ∈ paths.map bucketOf) :
    (bucket paths edges name).Within m := by
  obtain ⟨⟨p, hp, _, hdepth⟩, _⟩ := maxDepth_bucket paths edges h
  have hfiles := List.count_le_length (a := name) (l := paths.map bucketOf)
  have htargets := List.count_le_length (a := name) (l := edges.map fun e => bucketOf e.target)
  have := hdepths p hp
  rw [List.length_map] at hfiles htargets
  constructor
  · rw [fileCount_bucket]
    omega
  · rw [← hdepth]
    omega
  · rw [couplingSum_bucket]
    omega

/-! ## Hotspots -/

theorem hotspotPaths_eq (mode : CycleDetection) :
    (metrics edges (buckets paths edges) mode).hotspotPaths =
      (paths.map bucketOf).eraseDups.filter fun name =>
        decide (6 ≤ (edges.map fun e => bucketOf e.target).count name) := by
  simp only [metrics, buckets_eq, List.filter_map, List.map_map]
  rw [show (Prod.fst ∘ fun name => (name, bucket paths edges name)) = id from rfl, List.map_id]
  refine List.filter_congr fun name _ => ?_
  simp only [Function.comp_apply, couplingSum_bucket, hotspotCoupling]
  congr 1
  rw [eq_iff_iff]
  omega

/-- Every hotspot takes six edges that no other takes. -/
theorem length_hotspotPaths_le (mode : CycleDetection) :
    6 * (metrics edges (buckets paths edges) mode).hotspotPaths.length ≤ edges.length := by
  rw [hotspotPaths_eq]
  rw [← List.length_map (f := fun e : Edge => bucketOf e.target)]
  refine mul_length_le_of_count ((Graph.nodup_eraseDups _).filter _) fun name hname => ?_
  exact of_decide_eq_true (List.mem_filter.mp hname).2

end Buckets

/-! ## The heatmap -/

theorem ranks_heatmap {paths : List String} {edges : List Edge} {nodes : List HeatNode}
    (h : heatmap (buckets paths edges) = .ok nodes) :
    Ranks (paths.map bucketOf) HeatNode.path HeatNode.riskScore nodes := by
  obtain ⟨ns, hns, rfl⟩ := Except.map_eq_ok_iff.mp h
  exact ranks_mergeSort ((paths_of_mapM hns).trans (names_buckets paths edges))

/-- As long as the lists are shorter than `2 ^ 53` and no path is deeper, there is a heatmap, and it
ranks the buckets of the paths by an exact formula. Every path is counted in one bucket, and the
hotspots are those of the buckets, as they first appear, that six edges or more lead into. -/
theorem heatmap_describes (paths : List String) (edges : List Edge) (mode : CycleDetection)
    (hpaths : paths.length < 2 ^ 53) (hedges : edges.length < 2 ^ 53)
    (hdepths : ∀ p ∈ paths, depth p < 2 ^ 53) :
    (∃ nodes, heatmap (buckets paths edges) = .ok nodes ∧
      Ranks (paths.map bucketOf) HeatNode.path HeatNode.riskScore nodes ∧
      (∀ n ∈ nodes, n.fileCount = (paths.filter fun p => bucketOf p = n.path).length ∧
        ∃ d, (∃ p ∈ paths, bucketOf p = n.path ∧ depth p = d) ∧
          (∀ p ∈ paths, bucketOf p = n.path → depth p ≤ d) ∧
          n.riskScore = min 100 (2 * n.fileCount + 5 * d +
            2 * (edges.filter fun e => bucketOf e.target = n.path).length)) ∧
      (nodes.map (·.fileCount)).sum = paths.length) ∧
    ((metrics edges (buckets paths edges) mode).hotspotPaths.Pairwise fun a b =>
      (paths.map bucketOf).idxOf a < (paths.map bucketOf).idxOf b) ∧
    (∀ name, name ∈ (metrics edges (buckets paths edges) mode).hotspotPaths ↔
      name ∈ paths.map bucketOf ∧ 6 ≤ (edges.filter fun e => bucketOf e.target = name).length) ∧
    6 * (metrics edges (buckets paths edges) mode).hotspotPaths.length ≤ edges.length := by
  have hwithin : ∀ name ∈ paths.map bucketOf, (bucket paths edges name).Within (2 ^ 53) :=
    fun name hname => by
      exact_mod_cast within_bucket paths edges hpaths.le hedges.le
        (fun p hp => (hdepths p hp).le) hname
  refine ⟨?map, ?order, ?hotspots, length_hotspotPaths_le paths edges mode⟩
  case map =>
    obtain ⟨ns, hns⟩ : ∃ ns, (buckets paths edges).mapM (fun b => heatNode b.1 b.2) = .ok ns := by
      refine mapM_eq_ok ?_
      rintro ⟨name, b⟩ hb
      obtain ⟨hname, rfl⟩ := mem_buckets_iff.mp hb
      exact ⟨_, heatNode_eq_ok_iff.mpr ⟨_, riskScore_eq (hwithin name hname), rfl⟩⟩
    have hnodes : heatmap (buckets paths edges) = .ok _ := Except.map_eq_ok_iff.mpr ⟨ns, hns, rfl⟩
    have hranks := ranks_heatmap hnodes
    refine ⟨_, hnodes, hranks, ?nodes, ?sum⟩
    case nodes =>
      intro n hn
      obtain ⟨b, hb, hrisk, hfiles⟩ := mem_heatmap hnodes hn
      obtain ⟨hname, rfl⟩ := mem_buckets_iff.mp hb
      obtain ⟨⟨p, hp, hpath, hdepth⟩, hmax⟩ := maxDepth_bucket paths edges hname
      refine ⟨hfiles, depth p, ⟨p, hp, hpath, rfl⟩, fun q hq hq' => ?_, ?_⟩
      · exact Int.ofNat_le.mp (hdepth ▸ hmax q hq hq')
      · rw [riskScore_eq (hwithin _ hname)] at hrisk
        rw [← Except.ok.inj hrisk, Bucket.weight, ← hdepth, ← hfiles]
        rfl
    case sum =>
      rw [← List.length_map (f := bucketOf)]
      refine hranks.sum_eq_length fun n hn => ?_
      obtain ⟨b, hb, _, hfiles⟩ := mem_heatmap hnodes hn
      obtain ⟨_, rfl⟩ := mem_buckets_iff.mp hb
      rw [hfiles, fileCount_bucket]
  case order =>
    rw [hotspotPaths_eq]
    exact (pairwise_idxOf_eraseDups _).filter _
  case hotspots =>
    intro name
    rw [hotspotPaths_eq, List.mem_filter, List.mem_eraseDups, decide_eq_true_eq,
      length_filter_eq_count fun e : Edge => bucketOf e.target]

/-- Four paths in three buckets, one of which is the target of every edge. -/
def crowded : List String := ["README.md", "src/a.ts", "src/lib/b.ts", "docs/index.md"]

def inward : List Edge := List.replicate 6 { source := "README.md", target := "src/a.ts" }

theorem heatmap_describes_crowded :
    ∃ nodes, heatmap (buckets crowded inward) = .ok nodes ∧
      (∃ n ∈ nodes, n.path = "src" ∧ n.fileCount = 2 ∧ n.riskScore = 31) ∧
      (nodes.map (·.fileCount)).sum = 4 ∧
      "src" ∈ (metrics inward (buckets crowded inward) .heuristic).hotspotPaths ∧
      "docs" ∉ (metrics inward (buckets crowded inward) .heuristic).hotspotPaths := by
  have hall : ∀ p ∈ crowded, depth p ≤ 3 := by decide +kernel
  obtain ⟨⟨nodes, hnodes, hranks, hdescribes, hsum⟩, _, hhotspots, _⟩ :=
    heatmap_describes crowded inward .heuristic (by decide) (by decide)
      fun p hp => (hall p hp).trans_lt (by decide)
  obtain ⟨n, hn, hpath⟩ := List.mem_map.mp ((hranks.mem_iff "src").mpr (by decide +kernel))
  obtain ⟨hfiles, d, ⟨p, hp, hbucket, hdepth⟩, hmax, hrisk⟩ := hdescribes n hn
  rw [hpath] at hfiles hbucket hmax hrisk
  have hcount : n.fileCount = 2 := hfiles.trans (by decide +kernel)
  have htargets : (inward.filter fun e => bucketOf e.target = "src").length = 6 := by
    decide +kernel
  have hd : d = 3 := by
    have hdeepest : depth "src/lib/b.ts" = 3 := by decide +kernel
    have := hmax "src/lib/b.ts" (by decide) (by decide +kernel)
    have := hall p hp
    omega
  rw [hcount, hd, htargets] at hrisk
  exact ⟨nodes, hnodes, ⟨n, hn, hpath, hcount, hrisk⟩, hsum,
    (hhotspots "src").mpr (by decide +kernel), mt (hhotspots "docs").mp (by decide +kernel)⟩

end RepoSurvey.Risk
