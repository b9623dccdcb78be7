import RepoSurvey.Proofs.Score
import RepoSurvey.Risk

/-!
# RepoSurvey.Proofs.Risk

The risk of directories. What is counted in a bucket is bounded by the numbers of files and of edges
and by the depths of the paths, and as long as these are of moderate size every bucket has a risk.
-/

namespace RepoSurvey.Risk

open Binary64

/-! ## Risk of a bucket -/

theorem riskScore_eq_ok {b : Bucket} {k : Nat} (hk : k < 1000) (hcount : |b.fileCount| ≤ 2 ^ k)
    (hdepth : |b.maxDepth| ≤ 2 ^ k) (hcoupling : |b.couplingSum| ≤ 2 ^ k) :
    ∃ n, b.riskScore = .ok n := by
  have htimes : ∀ {n m : Int}, |n| ≤ 2 ^ k → |m| ≤ 2 ^ 3 → |n * m| ≤ 2 ^ (k + 3) := by
    intro n m hn hm
    rw [abs_mul, pow_add]
    exact mul_le_mul hn hm (abs_nonneg m) (by positivity)
  obtain ⟨tenths, htenths, hx⟩ := ofQuotient?_within (by omega) (by decide : (0 : Int) < 10) hcount
  obtain ⟨depth, hdepth, hy⟩ :=
    ofInt?_within (by omega) (htimes hdepth (by decide : |(5 : Int)| ≤ 2 ^ 3))
  obtain ⟨coupling, hcoupling, hz⟩ :=
    ofInt?_within (by omega) (htimes hcoupling (by decide : |(2 : Int)| ≤ 2 ^ 3))
  have htwenty : Within 5 (ofRat 20) := within_ofRat (by decide) (by norm_num)
  have hsum := (((hx.mul (by omega) htwenty).add (by omega) (hy.mono (by omega))).add (by omega)
    (hz.mono (by omega)))
  obtain ⟨n, hn⟩ := Score.roundHalfUp_eq_ok (by omega) hsum
  refine ⟨min 100 n, ?_⟩
  rw [Bucket.riskScore, htenths, hdepth, hcoupling]
  simp only [hn]
  rfl

/-! ## Counts -/

theorem foldl_max_le {ns : List Nat} {a m : Nat} (ha : a ≤ m) (h : ∀ n ∈ ns, n ≤ m) :
    ns.foldl max a ≤ m := by
  induction ns generalizing a with
  | nil => exact ha
  | cons n ns ih =>
    exact ih (max_le ha (h n List.mem_cons_self)) fun i hi => h i (List.mem_cons_of_mem n hi)

theorem length_splitAt (sep : Char) (s : List Char) :
    (Text.splitAt sep s).length = s.count sep + 1 := by
  induction s with
  | nil => rfl
  | cons c cs ih =>
    rw [Text.splitAt, List.count_cons]
    split
    · next h => simp [h, ih]
    · next h =>
      rw [if_neg (by simpa using h)]
      split
      · next hsplit =>
        rw [hsplit] at ih
        cases ih
      · next hsplit =>
        rw [hsplit] at ih
        exact ih

theorem depth_eq (path : String) : depth path = path.toList.count '/' + 1 :=
  length_splitAt '/' path.toList

theorem depth_le (path : String) : depth path ≤ path.length + 1 := by
  rw [depth_eq, ← String.length_toList]
  exact Nat.succ_le_succ List.count_le_length

theorem bounds_of_mem_buckets {paths : List String} {edges : List Edge} {name : String}
    {b : Bucket} (h : (name, b) ∈ buckets paths edges) {m : Nat} (hpaths : paths.length ≤ m)
    (hedges : edges.length ≤ m) (hlengths : ∀ p ∈ paths, p.length < m) :
    (0 ≤ b.fileCount ∧ b.fileCount ≤ m) ∧ (0 ≤ b.maxDepth ∧ b.maxDepth ≤ m) ∧
      0 ≤ b.couplingSum ∧ b.couplingSum ≤ m := by
  obtain ⟨n, _, hn⟩ := List.mem_map.mp h
  cases hn
  have hinside : (paths.filter fun p => bucketOf p = name).length ≤ m :=
    (List.length_filter_le _ _).trans hpaths
  have hdepth : ((paths.filter fun p => bucketOf p = name).map depth).foldl max 0 ≤ m := by
    refine foldl_max_le (Nat.zero_le m) fun d hd => ?_
    obtain ⟨p, hp, rfl⟩ := List.mem_map.mp hd
    have := hlengths p (List.mem_filter.mp hp).1
    have := depth_le p
    omega
  have hcoupling : (edges.filter fun e => bucketOf e.target = name).length ≤ m :=
    (List.length_filter_le _ _).trans hedges
  dsimp only
  omega

/-! ## All buckets -/

theorem mapM_eq_ok {ε α β : Type} {f : α → Except ε β} {as : List α}
    (h : ∀ a ∈ as, ∃ b, f a = .ok b) : ∃ bs, as.mapM f = .ok bs := by
  induction as with
  | nil => exact ⟨[], rfl⟩
  | cons a as ih =>
    obtain ⟨b, hb⟩ := h a List.mem_cons_self
    obtain ⟨bs, hbs⟩ := ih fun c hc => h c (List.mem_cons_of_mem a hc)
    exact ⟨b :: bs, by rw [List.mapM_cons, hb, hbs]; rfl⟩

theorem heatmap_eq_ok {paths : List String} {edges : List Edge} {k : Nat} (hk : k < 1000)
    (hpaths : paths.length ≤ 2 ^ k) (hedges : edges.length ≤ 2 ^ k)
    (hlengths : ∀ p ∈ paths, p.length < 2 ^ k) :
    ∃ nodes, heatmap (buckets paths edges) = .ok nodes := by
  have hnodes : ∀ b ∈ buckets paths edges, ∃ node, heatNode b.1 b.2 = .ok node := by
    rintro ⟨name, b⟩ hb
    obtain ⟨⟨hcount, hcount'⟩, ⟨hdepth, hdepth'⟩, hcoupling, hcoupling'⟩ :=
      bounds_of_mem_buckets hb hpaths hedges hlengths
    push_cast at hcount' hdepth' hcoupling'
    obtain ⟨n, hn⟩ := riskScore_eq_ok (b := b) hk (by rwa [abs_of_nonneg hcount])
      (by rwa [abs_of_nonneg hdepth]) (by rwa [abs_of_nonneg hcoupling])
    exact ⟨_, by rw [heatNode, hn]; rfl⟩
  obtain ⟨nodes, h⟩ := mapM_eq_ok hnodes
  exact ⟨_, by rw [heatmap, h]; rfl⟩

end RepoSurvey.Risk
