import RepoSurvey.Proofs.Risk.Heatmap

/-!
# RepoSurvey.Proofs.Risk.Location

Where paths lie (`locationOf_eq_root_iff`, `locationOf_eq_directory_iff`), and in which bucket they
are counted. A bucket is named after a top-level directory, but the name of the bucket for the root
may be that of a directory, too, and then two locations are counted as one
(`Location.bucket_eq_iff`). Everything else is kept apart (`heatmap_locations`).
-/

namespace RepoSurvey.Risk

/-! ## Locations -/

/-- Where a path lies: at the root of the repository, or somewhere in a top-level directory. -/
inductive Location where
  | root
  | directory (name : String)
deriving DecidableEq, Repr

/-- The location of a path. The text before the first slash names the directory. -/
def locationOf (path : String) : Location :=
  if path.toList.contains '/' then .directory (String.ofList (path.toList.takeWhile (· ≠ '/')))
  else .root

theorem locationOf_eq_root_iff {path : String} : locationOf path = .root ↔ '/' ∉ path.toList := by
  rw [locationOf]
  split <;> simp_all

theorem locationOf_append {name : String} (h : '/' ∉ name.toList) (rest : String) :
    locationOf (name ++ "/" ++ rest) = .directory name := by
  have htext : (name ++ "/" ++ rest).toList = name.toList ++ '/' :: rest.toList := by simp
  have hfront : ∀ c ∈ name.toList, decide (c ≠ '/') = true := fun c hc =>
    decide_eq_true fun hslash => h (hslash ▸ hc)
  rw [locationOf, htext, if_pos (by simp), List.takeWhile_append_of_pos hfront]
  simp

theorem locationOf_eq_directory_iff {path name : String} :
    locationOf path = .directory name ↔ '/' ∉ name.toList ∧ ∃ rest, path = name ++ "/" ++ rest := by
  constructor
  · intro h
    have hslash : '/' ∈ path.toList := by
      by_contra hnone
      rw [locationOf_eq_root_iff.mpr hnone] at h
      cases h
    obtain ⟨front, rest, hpath, hfront⟩ := List.eq_append_cons_of_mem hslash
    have hsplit : path = String.ofList front ++ "/" ++ String.ofList rest := by
      rw [← String.toList_inj, hpath]
      simp
    have hname := locationOf_append (by rwa [String.toList_ofList]) (String.ofList rest)
    rw [← hsplit, h] at hname
    cases hname
    exact ⟨by rwa [String.toList_ofList], _, hsplit⟩
  · rintro ⟨hname, rest, rfl⟩
    exact locationOf_append hname rest

/-! ## Buckets of locations -/

/-- The name of the bucket in which a location is counted. -/
def Location.bucket : Location → String
  | root => rootBucket
  | directory name => name

/-- Whether one of two locations is the root and the other the directory that bears the name of the
bucket for the root. -/
def Location.Clash (l m : Location) : Prop :=
  l = .root ∧ m = .directory rootBucket ∨ l = .directory rootBucket ∧ m = .root

theorem Location.bucket_eq_iff {l m : Location} : l.bucket = m.bucket ↔ l = m ∨ l.Clash m := by
  cases l <;> cases m <;> simp [bucket, Clash, eq_comm]

theorem bucketOf_eq (path : String) : bucketOf path = (locationOf path).bucket := by
  rw [bucketOf, locationOf]
  split <;> rfl

section Counts

variable (paths : List String) (edges : List Edge)

/-- What is counted if a test picks the paths and the targets of edges. -/
def counted (test : String → Bool) : Bucket :=
  let inside := paths.filter test
  { fileCount := inside.length
    maxDepth := ((inside.map depth).foldl max 0 : Nat)
    couplingSum := (edges.filter fun e => test e.target).length }

/-- What lies at a location. -/
def census (l : Location) : Bucket := counted paths edges fun p => locationOf p = l

/-- Two buckets thrown together. -/
def Bucket.join (b c : Bucket) : Bucket where
  fileCount := b.fileCount + c.fileCount
  maxDepth := max b.maxDepth c.maxDepth
  couplingSum := b.couplingSum + c.couplingSum

/-- What is counted under a name: what lies in the directory of that name, and under the name of the
bucket for the root what lies at the root as well. -/
def countedAs (name : String) : Bucket :=
  if name = rootBucket then
    (census paths edges .root).join (census paths edges (.directory rootBucket))
  else census paths edges (.directory name)

theorem length_filter_or {α : Type} {test test' : α → Bool}
    (h : ∀ a, test a = true → test' a = false) (as : List α) :
    (as.filter fun a => test a || test' a).length =
      (as.filter test).length + (as.filter test').length := by
  induction as with
  | nil => rfl
  | cons a as ih =>
    have := h a
    cases ha : test a <;> cases ha' : test' a <;> simp_all <;> omega

theorem foldl_max_filter_or (test test' : String → Bool) (ps : List String) :
    ((ps.filter fun p => test p || test' p).map depth).foldl max 0 =
      max (((ps.filter test).map depth).foldl max 0)
        (((ps.filter test').map depth).foldl max 0) := by
  apply le_antisymm
  · refine foldl_max_le (Nat.zero_le _) fun n hn => ?_
    obtain ⟨p, hp, rfl⟩ := List.mem_map.mp hn
    obtain ⟨hp, htest⟩ := List.mem_filter.mp hp
    rcases Bool.or_eq_true_iff.mp htest with htest | htest
    · exact le_max_of_le_left (le_foldl_max (.inr (List.mem_map_of_mem
        (List.mem_filter.mpr ⟨hp, htest⟩))))
    · exact le_max_of_le_right (le_foldl_max (.inr (List.mem_map_of_mem
        (List.mem_filter.mpr ⟨hp, htest⟩))))
  · have hmono : ∀ {t : String → Bool}, (∀ p, t p = true → (test p || test' p) = true) →
        ((ps.filter t).map depth).foldl max 0 ≤
          ((ps.filter fun p => test p || test' p).map depth).foldl max 0 := by
      intro t ht
      refine foldl_max_le (Nat.zero_le _) fun n hn => le_foldl_max (.inr ?_)
      exact ((List.monotone_filter_right ps ht).map depth).subset hn
    exact max_le (hmono fun p hp => by simp [hp]) (hmono fun p hp => by simp [hp])

/-- What two tests pick that never pick the same is counted as if thrown together. -/
theorem counted_or {test test' : String → Bool} (h : ∀ p, test p = true → test' p = false) :
    (counted paths edges fun p => test p || test' p) =
      (counted paths edges test).join (counted paths edges test') := by
  have hedges : (edges.filter fun e => test e.target || test' e.target).length =
      (edges.filter fun e => test e.target).length +
        (edges.filter fun e => test' e.target).length :=
    length_filter_or (fun e => h e.target) edges
  simp only [counted, Bucket.join, foldl_max_filter_or, length_filter_or h, hedges]
  push_cast
  rfl

theorem bucket_eq_countedAs (name : String) :
    bucket paths edges name = countedAs paths edges name := by
  have hbucket : bucket paths edges name =
      counted paths edges fun p => (locationOf p).bucket = name := by
    simp only [← bucketOf_eq]
    rfl
  rw [hbucket, countedAs]
  split
  case isTrue hroot =>
    rw [census, census, ← counted_or]
    · congr 1
      funext p
      rw [← Bool.decide_or, hroot]
      congr 1
      cases locationOf p <;> simp [Location.bucket]
    · intro p hp
      simp [of_decide_eq_true hp]
  case isFalse hroot =>
    rw [census]
    congr 1
    funext p
    congr 1
    cases locationOf p <;> simp [Location.bucket, Ne.symm hroot]

theorem Bucket.join_comm (b c : Bucket) : b.join c = c.join b := by
  simp only [Bucket.join, Int.add_comm, max_comm]

/-- A location that is thrown together with another makes no difference exactly if nothing lies
there. -/
theorem join_census_eq_iff (l m : Location) :
    (census paths edges l).join (census paths edges m) = census paths edges l ↔
      ∀ q ∈ paths ++ edges.map (·.target), locationOf q ≠ m := by
  constructor
  · intro h q hq hlocation
    have hfiles := congrArg Bucket.fileCount h
    have htargets := congrArg Bucket.couplingSum h
    simp only [Bucket.join, census, counted, add_eq_left, Int.natCast_eq_zero,
      List.length_eq_zero_iff, List.filter_eq_nil_iff, decide_eq_true_eq] at hfiles htargets
    rcases List.mem_append.mp hq with hq | hq
    · exact hfiles q hq hlocation
    · obtain ⟨e, he, rfl⟩ := List.mem_map.mp hq
      exact htargets e he hlocation
  · intro h
    have hfiles : paths.filter (fun p => locationOf p = m) = [] :=
      List.filter_eq_nil_iff.mpr fun p hp => by simpa using h p (List.mem_append_left _ hp)
    have htargets : edges.filter (fun e => locationOf e.target = m) = [] :=
      List.filter_eq_nil_iff.mpr fun e he => by
        simpa using h e.target (List.mem_append_right _ (List.mem_map_of_mem he))
    simp [Bucket.join, census, counted, hfiles, htargets]

/-- A path is counted with its location alone exactly if no entry and no target clashes with it. -/
theorem countedAs_eq_census_iff (p : String) :
    countedAs paths edges (bucketOf p) = census paths edges (locationOf p) ↔
      ∀ q ∈ paths ++ edges.map (·.target), ¬ (locationOf p).Clash (locationOf q) := by
  rw [bucketOf_eq]
  cases locationOf p with
  | root =>
    rw [countedAs, Location.bucket, if_pos rfl, join_census_eq_iff]
    simp [Location.Clash]
  | directory name =>
    rw [countedAs, Location.bucket]
    split
    case isTrue hroot =>
      rw [hroot, Bucket.join_comm, join_census_eq_iff]
      simp [Location.Clash]
    case isFalse hroot => simp [Location.Clash, hroot]

end Counts

/-! ## The heatmap -/

/-- Two paths are counted together if they lie at one location, and otherwise exactly if one lies at
the root and the other in a directory that bears the name of the bucket for the root. Every path
has one node of the heatmap, which shows what is counted under its name, and so do the hotspots.
This is what lies at the location of the path, unless an entry or a target clashes with it. -/
theorem heatmap_locations (paths : List String) (edges : List Edge) (mode : CycleDetection) :
    (∀ p q, bucketOf p = bucketOf q ↔
      locationOf p = locationOf q ∨ (locationOf p).Clash (locationOf q)) ∧
    (∀ nodes, heatmap (buckets paths edges) = .ok nodes →
      (∀ p ∈ paths, ∃! n, n ∈ nodes ∧ n.path = bucketOf p) ∧
      ∀ n ∈ nodes, (∃ p ∈ paths, bucketOf p = n.path) ∧
        n.fileCount = (countedAs paths edges n.path).fileCount ∧
        (countedAs paths edges n.path).riskScore = .ok n.riskScore) ∧
    (∀ name, name ∈ (metrics edges (buckets paths edges) mode).hotspotPaths ↔
      name ∈ paths.map bucketOf ∧ 6 ≤ (countedAs paths edges name).couplingSum) ∧
    ∀ p, countedAs paths edges (bucketOf p) = census paths edges (locationOf p) ↔
      ∀ q ∈ paths ++ edges.map (·.target), ¬ (locationOf p).Clash (locationOf q) := by
  refine ⟨?together, fun nodes hnodes => ?nodes, ?hotspots, countedAs_eq_census_iff paths edges⟩
  case together =>
    intro p q
    rw [bucketOf_eq, bucketOf_eq, Location.bucket_eq_iff]
  case nodes =>
    have hranks := ranks_heatmap hnodes
    constructor
    · intro p hp
      obtain ⟨n, hn, hpath⟩ :=
        List.mem_map.mp ((hranks.mem_iff (bucketOf p)).mpr (List.mem_map_of_mem hp))
      refine ⟨n, ⟨hn, hpath⟩, ?_⟩
      rintro m ⟨hm, hpath'⟩
      exact List.inj_on_of_nodup_map hranks.once hm hn (hpath'.trans hpath.symm)
    · intro n hn
      obtain ⟨b, hb, hrisk, hfiles⟩ := mem_heatmap hnodes hn
      obtain ⟨hname, rfl⟩ := mem_buckets_iff.mp hb
      rw [← bucket_eq_countedAs]
      exact ⟨List.mem_map.mp hname, hfiles, hrisk⟩
  case hotspots =>
    intro name
    rw [hotspotPaths_eq, List.mem_filter, List.mem_eraseDups, decide_eq_true_eq,
      ← bucket_eq_countedAs, couplingSum_bucket]
    norm_cast

/-- A file at the root and a file in a directory that bears the name of the bucket for the root. -/
def namesakes : List String := ["b.ts", "root/a.ts"]

/-- Three edges to each of them. -/
def towards : List Edge :=
  List.replicate 3 { source := "root/a.ts", target := "b.ts" } ++
    List.replicate 3 { source := "b.ts", target := "root/a.ts" }

/-- The two locations share a node and make up a hotspot that neither would be alone. -/
theorem heatmap_locations_namesakes :
    locationOf "b.ts" ≠ locationOf "root/a.ts" ∧ bucketOf "b.ts" = bucketOf "root/a.ts" ∧
    (∃ nodes n, heatmap (buckets namesakes towards) = .ok nodes ∧ n ∈ nodes ∧
      n.path = bucketOf "b.ts" ∧ n.fileCount = 2) ∧
    "root" ∈ (metrics towards (buckets namesakes towards) .heuristic).hotspotPaths ∧
    (census namesakes towards (locationOf "b.ts")).couplingSum = 3 ∧
    (census namesakes towards (locationOf "root/a.ts")).couplingSum = 3 ∧
    countedAs namesakes towards (bucketOf "b.ts") ≠
      census namesakes towards (locationOf "b.ts") := by
  have hclash : (locationOf "b.ts").Clash (locationOf "root/a.ts") := by
    left
    decide +kernel
  obtain ⟨htogether, hnodes, hhotspots, halone⟩ := heatmap_locations namesakes towards .heuristic
  have hexists : ∃ nodes, heatmap (buckets namesakes towards) = .ok nodes :=
    heatmap_eq_ok (k := 7) (by decide) (by decide) (by decide) (by decide +kernel)
  obtain ⟨nodes, hheatmap⟩ := hexists
  obtain ⟨hone, hcounts⟩ := hnodes nodes hheatmap
  obtain ⟨n, ⟨hn, hpath⟩, _⟩ := hone "b.ts" (by decide)
  refine ⟨by decide +kernel, (htogether _ _).mpr (.inr hclash), ⟨nodes, n, hheatmap, hn, hpath, ?_⟩,
    (hhotspots "root").mpr (by decide +kernel), by decide +kernel, by decide +kernel, ?_⟩
  · rw [(hcounts n hn).2.1, hpath]
    decide +kernel
  · exact fun h => (halone "b.ts").mp h "root/a.ts" (by decide) hclash

end RepoSurvey.Risk
