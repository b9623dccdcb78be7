import Mathlib.Order.Bounds.Basic
import RepoSurvey.Proofs.Assessment.Dependencies
import RepoSurvey.Proofs.Binary64.Threshold
import RepoSurvey.Proofs.Risk.Heatmap

/-!
# RepoSurvey.Proofs.Risk.Coupling

What the sum of the two greatest fans decides. The coupling index is half of it in double precision,
but every threshold is an integer, so none is missed (`gtInt_couplingIndex_iff`), and the isolation
score is exact for every sum (`toRat?_isolationScore`).
-/

namespace RepoSurvey.Risk

open Binary64

/-! ## The greatest fans -/

theorem isGreatest_greatest (ss : List String) :
    IsGreatest (Set.range fun s => ss.count s) (greatest (tally ss)) := by
  constructor
  · obtain hzero | hmem := foldl_max_mem ((tally ss).map (·.2)) 0
    · -- Nothing is counted more often than zero times, so any text will do.
      refine ⟨"", le_antisymm (count_le_greatest ss "") ?_⟩
      rw [greatest, hzero]
      exact Nat.zero_le _
    · simp only [tally, List.map_map, List.mem_map] at hmem
      obtain ⟨s, _, hs⟩ := hmem
      refine ⟨s, hs.trans ?_⟩
      rw [greatest, tally, List.map_map]
  · rintro _ ⟨s, rfl⟩
    exact count_le_greatest ss s

theorem greatest_tally_eq_zero_iff {ss : List String} : greatest (tally ss) = 0 ↔ ss = [] := by
  constructor
  · intro h
    refine List.eq_nil_iff_forall_not_mem.mpr fun s hs => ?_
    have hcount := count_le_greatest ss s
    rw [h] at hcount
    exact (List.count_pos_iff.mpr hs).not_ge hcount
  · rintro rfl
    rfl

/-- The greatest number of elements that a function sends to one text. -/
theorem isGreatest_fan (f : Edge → String) (edges : List Edge) :
    IsGreatest (Set.range fun s => (edges.filter fun e => f e = s).length)
      (greatest (tally (edges.map f))) := by
  simp only [length_filter_eq_count]
  exact isGreatest_greatest _

/-! ## Thresholds -/

theorem gtInt_couplingIndex_iff {a b : Nat} {n : Int} (h0 : 0 ≤ n) (h : n ≤ 2 ^ 50) :
    (couplingIndex a b).gtInt n = true ↔ 2 * n < a + b := by
  rw [couplingIndex, gtInt_ofRat_half_iff h0 h]
  push_cast
  rfl

theorem toRat?_ofRat_of_half {q : Rat} (n : Int) (h0 : 0 ≤ n) (h : n ≤ 2 ^ 52)
    (hq : n / 2 = q) : (ofRat q).toRat? = some q := by
  rw [← hq, toRat?_ofRat_half h0 h]

theorem toRat?_five : (ofRat 5).toRat? = some 5 :=
  toRat?_ofRat_of_half 10 (by decide) (by decide) (by norm_num)

theorem toRat?_hundred : (ofRat 100).toRat? = some 100 :=
  toRat?_ofRat_of_half 200 (by decide) (by decide) (by norm_num)

section Isolation

variable {a b : Nat}

/-- Below a sum of forty every number on the way is a half of an integer. -/
theorem toRat?_isolationScore_of_lt (h : a + b < 40) :
    (isolationScore (couplingIndex a b)).toRat? = some (100 - 5 * ((a + b : Nat) : Rat) / 2) := by
  rw [isolationScore, couplingIndex]
  generalize a + b = n at h
  have hcoupling : (ofRat ((n : Rat) / 2)).toRat? = some ((n : Rat) / 2) :=
    toRat?_ofRat_of_half n (by omega) (by omega) (by norm_num)
  have hloss : ((ofRat ((n : Rat) / 2)).mul (ofRat 5)).toRat? = some ((n : Rat) / 2 * 5) := by
    rw [toRat?_mul hcoupling toRat?_five]
    exact toRat?_ofRat_of_half (5 * n) (by omega) (by omega) (by push_cast; ring)
  have hscore : ((ofRat 100).sub ((ofRat ((n : Rat) / 2)).mul (ofRat 5))).toRat? =
      some (100 + -((n : Rat) / 2 * 5)) := by
    rw [sub, toRat?_add toRat?_hundred (toRat?_neg hloss)]
    exact toRat?_ofRat_of_half (200 - 5 * n) (by omega) (by omega) (by push_cast; ring)
  have hpos : (0 : Rat) < 100 + -((n : Rat) / 2 * 5) := by
    have : (n : Rat) < 40 := by exact_mod_cast h
    linarith
  simp only [zero_lt_of_toRat? hscore, hpos, decide_true, if_true, hscore]
  congr 1
  ring

theorem toRat?_isolationScore_of_le (h : 40 ≤ a + b) :
    (isolationScore (couplingIndex a b)).toRat? = some 0 := by
  rw [isolationScore, couplingIndex]
  generalize a + b = n at h
  have hcoupling : AtLeast 20 (ofRat ((n : Rat) / 2)) := by
    have : (40 : Rat) ≤ n := by exact_mod_cast h
    refine atLeast_ofRat (by norm_num) ?_ (by linarith)
    simpa using nearest_intCast (n := 20) (by decide) (by decide)
  have hloss : AtLeast 100 ((ofRat ((n : Rat) / 2)).mul (ofRat 5)) := by
    have hproduct : (20 : Rat) * 5 = 100 := by norm_num
    rw [← hproduct]
    refine hcoupling.mul (by norm_num) toRat?_five (by norm_num) ?_
    rw [hproduct]
    simpa using nearest_intCast (n := 100) (by decide) (by decide)
  simp only [hloss.not_zero_lt_sub toRat?_hundred (by norm_num) le_rfl, Bool.false_eq_true,
    if_false, toRat?_zero]

/-- Rounding does not touch the isolation score. -/
theorem toRat?_isolationScore (a b : Nat) :
    (isolationScore (couplingIndex a b)).toRat? =
      some (max 0 (100 - 5 * ((a + b : Nat) : Rat) / 2)) := by
  by_cases h : a + b < 40
  · have hlt : ((a + b : Nat) : Rat) < 40 := by exact_mod_cast h
    rw [toRat?_isolationScore_of_lt h, max_eq_right (by linarith)]
  · have hle : (40 : Rat) ≤ ((a + b : Nat) : Rat) := by exact_mod_cast not_lt.mp h
    rw [toRat?_isolationScore_of_le (not_lt.mp h), max_eq_left (by linarith)]

/-- A loss of two and a half for every edge leaves between nothing and one hundred. -/
theorem isolation_bounds (n : Nat) :
    0 ≤ max 0 (100 - 5 * (n : Rat) / 2) ∧ max 0 (100 - 5 * (n : Rat) / 2) ≤ 100 ∧
      (max 0 (100 - 5 * (n : Rat) / 2) = 0 ↔ 40 ≤ n) := by
  have hn : (0 : Rat) ≤ n := Nat.cast_nonneg n
  refine ⟨le_max_left _ _, max_le (by norm_num) (by linarith), ?_⟩
  have hcast : 40 ≤ n ↔ (40 : Rat) ≤ n := by exact_mod_cast Iff.rfl
  rw [max_eq_left_iff, hcast]
  constructor <;> intro h <;> linarith

end Isolation

/-! ## What the fans decide -/

theorem isSome_highCoupling_iff (s : Snapshot) (edges : List Edge) (bs : List (String × Bucket))
    (mode : CycleDetection) :
    (Rule.highCoupling.message? s (metrics edges bs mode)).isSome = true ↔
      31 ≤ greatest (fanIn edges) + greatest (fanOut edges) := by
  rw [Rule.fires_highCoupling_iff, gtInt_couplingIndex_iff (by decide) (by decide),
    Rule.couplingLimit]
  omega

theorem hasCircularDeps_heuristic_iff (edges : List Edge) (bs : List (String × Bucket)) :
    (metrics edges bs .heuristic).hasCircularDeps = true ↔
      61 ≤ greatest (fanIn edges) + greatest (fanOut edges) := by
  rw [metrics, gtInt_couplingIndex_iff (by decide) (by decide), circularCoupling]
  omega

/-- Let `a` be the greatest number of edges with one target and `b` that of edges with one source.
Their sum decides by exact thresholds whether the coupling is too high, whether it counts as
circular, and whether anything is left of the isolation score; what counts as circular is also too
high. -/
theorem fans_decide (edges : List Edge) :
    ∃ a b : Nat,
      (IsGreatest (Set.range fun t => (edges.filter fun e => e.target = t).length) a ∧
        IsGreatest (Set.range fun s => (edges.filter fun e => e.source = s).length) b) ∧
      ((a = 0 ↔ edges = []) ∧ (b = 0 ↔ edges = [])) ∧
      (∀ bs mode, (metrics edges bs mode).fanInMax = a ∧ (metrics edges bs mode).fanOutMax = b ∧
        (∀ s, (Rule.highCoupling.message? s (metrics edges bs mode)).isSome = true ↔
          31 ≤ a + b) ∧
        ∃ q : Rat, (metrics edges bs mode).isolationScore.toRat? = some q ∧
          q = max 0 (100 - 5 * ((a + b : Nat) : Rat) / 2) ∧ 0 ≤ q ∧ q ≤ 100 ∧
          (q = 0 ↔ 40 ≤ a + b)) ∧
      (∀ bs, (metrics edges bs .heuristic).hasCircularDeps = true ↔ 61 ≤ a + b) ∧
      ∀ options now start s r, s.dependencies = edges →
        Assessment.report options now start s = .ok r →
        ((∃ i ∈ r.issues, i.id = "HIGH_COUPLING") ↔ 31 ≤ a + b) ∧
        (options.cycleDetection = .heuristic → r.riskMetrics.hasCircularDeps = true →
          ∃ i ∈ r.issues, i.id = "HIGH_COUPLING") := by
  refine ⟨greatest (fanIn edges), greatest (fanOut edges),
    ⟨isGreatest_fan _ edges, isGreatest_fan _ edges⟩, ⟨?_, ?_⟩, fun bs mode => ⟨rfl, rfl, fun s =>
      isSome_highCoupling_iff s edges bs mode, _, toRat?_isolationScore _ _, rfl, ?_⟩,
    hasCircularDeps_heuristic_iff edges, ?_⟩
  · rw [fanIn, greatest_tally_eq_zero_iff, List.map_eq_nil_iff]
  · rw [fanOut, greatest_tally_eq_zero_iff, List.map_eq_nil_iff]
  · exact isolation_bounds _
  · rintro options now start s r rfl hr
    have haccounts := Assessment.accounts_of_report hr
    have hissue := haccounts.exists_issue_iff .highCoupling
    rw [haccounts.riskMetrics, isSome_highCoupling_iff] at hissue
    refine ⟨hissue, fun hmode hcircular => hissue.mpr ?_⟩
    rw [haccounts.riskMetrics, hmode, hasCircularDeps_heuristic_iff] at hcircular
    omega

/-- Thirty edges from one file to another and one from that to itself. -/
def entangled : Snapshot where
  name := "r"
  dependencies := { source := "b.ts", target := "b.ts" } ::
    List.replicate 30 { source := "a.ts", target := "b.ts" }

/-- A sum of sixty-one is just enough to count as circular. -/
theorem fans_decide_entangled :
    ∃ r, Assessment.report ⟨.heuristic⟩ 0 [] entangled = .ok r ∧
      r.riskMetrics.fanInMax = 31 ∧ r.riskMetrics.fanOutMax = 30 ∧
      r.riskMetrics.hasCircularDeps = true ∧ ∃ i ∈ r.issues, i.id = "HIGH_COUPLING" := by
  obtain ⟨a, b, _, _, _, _, hreport⟩ := fans_decide entangled.dependencies
  have hstart : Assessment.GivesIntegers [] := fun f hf => by cases hf
  have hfits : entangled.Fits (2 ^ 7) := ⟨by decide, by decide, by decide⟩
  obtain ⟨r, hr⟩ := Assessment.report_eq_ok ⟨.heuristic⟩ 0 hstart (by decide) hfits
  have hmetrics : (Assessment.report ⟨.heuristic⟩ 0 [] entangled).map (fun r =>
      (r.riskMetrics.fanInMax, r.riskMetrics.fanOutMax, r.riskMetrics.hasCircularDeps)) =
        .ok (31, 30, true) := by
    decide +kernel
  rw [hr] at hmetrics
  obtain ⟨hin, hout, hcircular⟩ :
      r.riskMetrics.fanInMax = 31 ∧ r.riskMetrics.fanOutMax = 30 ∧
        r.riskMetrics.hasCircularDeps = true := by
    simpa [Except.map] using hmetrics
  exact ⟨r, hr, hin, hout, hcircular, (hreport _ _ _ _ r rfl hr).2 rfl hcircular⟩

end RepoSurvey.Risk
