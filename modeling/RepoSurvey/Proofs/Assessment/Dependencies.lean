import RepoSurvey.Proofs.Assessment.Account
import RepoSurvey.Proofs.Risk.Dependencies

/-!
# RepoSurvey.Proofs.Assessment.Dependencies

What the dependencies of a snapshot do to its report. Their order does nothing (`run_permuted`), and
further ones never do any good (`run_worsens`): they lower the score for structure or leave it, and
what was circular, a hotspot or at risk stays so.
-/

namespace RepoSurvey

/-! ## Rules -/

namespace Rule

theorem message?_with_dependencies {r : Rule} (hr : r ≠ highCoupling) (s : Snapshot)
    (deps : List Edge) (risk risk' : RiskMetrics) :
    r.message? { s with dependencies := deps } risk' = r.message? s risk := by
  cases r with
  | highCoupling => exact absurd rfl hr
  | _ => rfl

theorem isSome_highCoupling (s : Snapshot) (risk : RiskMetrics) :
    (highCoupling.message? s risk).isSome = !risk.couplingIndex.leInt couplingLimit := by
  rw [message?]
  by_cases h : risk.couplingIndex.leInt couplingLimit = true
  · rw [if_pos h, h]
    rfl
  · rw [if_neg h, Bool.eq_false_iff.mpr h]
    rfl

theorem fires_highCoupling_iff (s : Snapshot) (edges : List Edge)
    (bs : List (String × Risk.Bucket)) (mode : CycleDetection) :
    (highCoupling.message? s (Risk.metrics edges bs mode)).isSome = true ↔
      (Risk.couplingIndex (Risk.greatest (Risk.fanIn edges))
        (Risk.greatest (Risk.fanOut edges))).gtInt couplingLimit = true := by
  have hnot : (Risk.metrics edges bs mode).couplingIndex.leInt couplingLimit =
      !(Risk.metrics edges bs mode).couplingIndex.gtInt couplingLimit := Binary64.leInt_ofRat _ _
  rw [isSome_highCoupling, hnot, Bool.not_not]
  rfl

theorem fires_mono {s : Snapshot} {deps : List Edge} (h : s.dependencies.Sublist deps)
    (bs cs : List (String × Risk.Bucket)) (mode : CycleDetection) (r : Rule)
    (hr : (r.message? s (Risk.metrics s.dependencies bs mode)).isSome = true) :
    (r.message? { s with dependencies := deps } (Risk.metrics deps cs mode)).isSome = true := by
  by_cases hcoupling : r = highCoupling
  · subst hcoupling
    rw [fires_highCoupling_iff] at hr ⊢
    exact Risk.couplingIndex_gtInt_mono (Risk.fans_mono h) (by decide) hr
  · rwa [message?_with_dependencies hcoupling s deps (Risk.metrics s.dependencies bs mode)]

theorem penalties_mono {s s' : Snapshot} {risk risk' : RiskMetrics}
    (h : ∀ r : Rule, (r.message? s risk).isSome = true → (r.message? s' risk').isSome = true)
    (c : Category) : penalties s risk c ≤ penalties s' risk' c := by
  have hfiring : (firing s risk).Sublist (firing s' risk') := List.monotone_filter_right Rule.all h
  have hpenalties := (hfiring.filter fun r => decide (r.category = c)).map penalty
  refine hpenalties.sum_le_sum fun n hn => ?_
  obtain ⟨r, _, rfl⟩ := List.mem_map.mp hn
  exact r.penalty_nonneg

theorem penalties_congr {s s' : Snapshot} {risk risk' : RiskMetrics} {c : Category}
    (h : ∀ r : Rule, r.category = c → r.message? s risk = r.message? s' risk') :
    penalties s risk c = penalties s' risk' c := by
  have hfiring : (firing s risk).filter (·.category = c) =
      (firing s' risk').filter (·.category = c) := by
    rw [firing, firing, List.filter_filter, List.filter_filter]
    refine List.filter_congr fun r _ => ?_
    by_cases hc : r.category = c
    · rw [h r hc]
    · simp [hc]
  rw [penalties, penalties, hfiring]

end Rule

namespace Assessment

theorem heatmap_of_report {options : ScoringOptions} {now : Int} {start : Fields} {s : Snapshot}
    {r : Report} (h : report options now start s = .ok r) :
    Risk.heatmap (Risk.buckets (s.entries.map (·.path)) s.dependencies) = .ok r.heatmap := by
  simp only [report, Except.bind_eq_ok_iff] at h
  obtain ⟨_, _, _, _, nodes, hnodes, h⟩ := h
  cases h
  exact hnodes

theorem report_of_run {options : ScoringOptions} {now : Int} {start : Fields} {s : Snapshot}
    {r : Report} (h : (run options now start (.record (.snapshot s))).result = .ok r) :
    report options now start s = .ok r := by
  simp only [run, Logged.bind_eq_ok_iff, Logged.result_ofExcept, Logged.result_pure] at h
  obtain ⟨t, ht, r', hr', _, _, hr⟩ := h
  cases ht
  cases hr
  exact hr'

/-! ## More dependencies -/

/-- Whether a report is no better than another on a snapshot with the same entries, and differs in
no score but that for structure. -/
structure Worsens (r r' : Report) : Prop where
  structural : r'.categories.structural ≤ r.categories.structural
  others : ∀ c, c ≠ .structural → r'.categories.get c = r.categories.get c
  circular : r.riskMetrics.hasCircularDeps = true → r'.riskMetrics.hasCircularDeps = true
  hotspots : ∀ path ∈ r.riskMetrics.hotspotPaths, path ∈ r'.riskMetrics.hotspotPaths
  buckets : (r'.heatmap.map (·.path)).Perm (r.heatmap.map (·.path))
  buckets_once : (r.heatmap.map (·.path)).Nodup
  risk : ∀ n ∈ r.heatmap, ∀ n' ∈ r'.heatmap, n'.path = n.path →
    n'.fileCount = n.fileCount ∧ n.riskScore ≤ n'.riskScore

section Dependencies

variable {options : ScoringOptions} {start : Fields} {s : Snapshot} {deps : List Edge}

theorem categories_of_reports {now now' : Int} {r r' : Report}
    (hr : report options now start s = .ok r)
    (hr' : report options now' start { s with dependencies := deps } = .ok r') (c : Category) :
    ∃ n, r.categories.get c = max 0 (n - Rule.penalties s r.riskMetrics c) ∧
      r'.categories.get c =
        max 0 (n - Rule.penalties { s with dependencies := deps } r'.riskMetrics c) := by
  obtain ⟨n, hn, hc⟩ := (accounts_of_report hr).categories c
  obtain ⟨n', hn', hc'⟩ := (accounts_of_report hr').categories c
  obtain rfl : n = n' := Except.ok.inj (hn.symm.trans hn')
  exact ⟨n, hc, hc'⟩

theorem worsens_of_reports (h : s.dependencies.Sublist deps) {now now' : Int} {r r' : Report}
    (hr : report options now start s = .ok r)
    (hr' : report options now' start { s with dependencies := deps } = .ok r') :
    Worsens r r' := by
  have haccounts := accounts_of_report hr
  have haccounts' := accounts_of_report hr'
  have hheat := heatmap_of_report hr
  have hheat' := heatmap_of_report hr'
  have hpaths := Risk.paths_of_heatmap hheat
  have hpaths' := Risk.paths_of_heatmap hheat'
  rw [Risk.names_buckets] at hpaths hpaths'
  constructor
  case structural =>
    obtain ⟨n, hc, hc'⟩ := categories_of_reports hr hr' .structural
    have hpenalties : Rule.penalties s r.riskMetrics .structural ≤
        Rule.penalties { s with dependencies := deps } r'.riskMetrics .structural := by
      rw [haccounts.riskMetrics, haccounts'.riskMetrics]
      exact Rule.penalties_mono (Rule.fires_mono h _ _ _) _
    change r'.categories.get .structural ≤ r.categories.get .structural
    omega
  case others =>
    intro c hc
    obtain ⟨n, hget, hget'⟩ := categories_of_reports hr hr' c
    have hpenalties : Rule.penalties { s with dependencies := deps } r'.riskMetrics c =
        Rule.penalties s r.riskMetrics c := by
      apply Rule.penalties_congr
      intro rule hrule
      -- The one rule that looks at the dependencies lowers the score for structure.
      have hne : rule ≠ .highCoupling := by
        rintro rfl
        exact hc hrule.symm
      exact Rule.message?_with_dependencies hne s deps _ _
    rw [hget, hget', hpenalties]
  case circular =>
    intro hcircular
    rw [haccounts.riskMetrics] at hcircular
    rw [haccounts'.riskMetrics]
    exact Risk.hasCircularDeps_mono h _ _ hcircular
  case hotspots =>
    intro path hpath
    rw [haccounts.riskMetrics] at hpath
    rw [haccounts'.riskMetrics]
    exact Risk.hotspotPaths_mono _ h _ hpath
  case buckets => exact hpaths'.trans hpaths.symm
  case buckets_once => exact hpaths.nodup_iff.mpr (Graph.nodup_eraseDups _)
  case risk =>
    intro n hn n' hn' hpath
    exact Risk.heatmap_grows h hheat hheat' hn hn' hpath

/-- Further dependencies, wherever they stand among the others, make no report better, and there are
reports both with and without them (if the parts of the snapshot can be counted at all). -/
theorem run_worsens (options : ScoringOptions) (start : Fields)
    (h : s.dependencies.Sublist deps) (now now' : Int) :
    (GivesIntegers start → ∀ k < 1000,
      (Value.record (.snapshot { s with dependencies := deps })).size ≤ 2 ^ k →
        (∃ r, (run options now start (.record (.snapshot s))).result = .ok r) ∧
        ∃ r', (run options now' start
          (.record (.snapshot { s with dependencies := deps }))).result = .ok r') ∧
    ∀ r r', (run options now start (.record (.snapshot s))).result = .ok r →
      (run options now' start (.record (.snapshot { s with dependencies := deps }))).result =
        .ok r' → Worsens r r' := by
  constructor
  · intro hstart k hk hsize
    have hlength := h.length_le
    have hsmaller : (Value.record (.snapshot s)).size ≤ 2 ^ k := by
      simp only [Value.size, Record.size] at hsize ⊢
      omega
    exact ⟨run_eq_ok_of_integers options now hstart hk hsmaller,
      run_eq_ok_of_integers options now' hstart hk hsize⟩
  · intro r r' hr hr'
    exact worsens_of_reports h (report_of_run hr) (report_of_run hr')

end Dependencies

/-- Two files of one directory, with dependencies that stay just below the limits. -/
def coupled : Snapshot where
  name := "r"
  entries := [{ path := "a.ts", name := "a.ts" }, { path := "b.ts", name := "b.ts" }]
  dependencies := List.replicate 15 { source := "a.ts", target := "b.ts" }

/-- One more dependency to and one fro: the coupling is too high and there is a cycle. -/
theorem run_worsens_coupled :
    let deps : List Edge :=
      { source := "a.ts", target := "b.ts" } :: coupled.dependencies ++
        [{ source := "b.ts", target := "a.ts" }]
    ∃ r r', (run ⟨.graph⟩ 0 [] (.record (.snapshot coupled))).result = .ok r ∧
      (run ⟨.graph⟩ 0 [] (.record (.snapshot { coupled with dependencies := deps }))).result =
        .ok r' ∧ Worsens r r' ∧
      (r.categories.structural = 100 ∧ r.riskMetrics.hasCircularDeps = false) ∧
      r'.categories.structural = 80 ∧ r'.riskMetrics.hasCircularDeps = true := by
  intro deps
  have hsub : coupled.dependencies.Sublist deps := by decide
  obtain ⟨hreports, hworsens⟩ := run_worsens ⟨.graph⟩ [] hsub 0 0
  obtain ⟨⟨r, hr⟩, r', hr'⟩ :=
    hreports (fun f hf => by cases hf) 7 (by decide) (by decide)
  have hcontents : (run ⟨.graph⟩ 0 [] (.record (.snapshot coupled))).result.map
      (fun r => (r.categories.structural, r.riskMetrics.hasCircularDeps)) = .ok (100, false) := by
    decide +kernel
  have hcontents' : (run ⟨.graph⟩ 0 []
      (.record (.snapshot { coupled with dependencies := deps }))).result.map
      (fun r => (r.categories.structural, r.riskMetrics.hasCircularDeps)) = .ok (80, true) := by
    decide +kernel
  rw [hr] at hcontents
  rw [hr'] at hcontents'
  exact ⟨r, r', hr, hr', hworsens r r' hr hr', Prod.ext_iff.mp (Except.ok.inj hcontents),
    Prod.ext_iff.mp (Except.ok.inj hcontents')⟩

/-! ## The order of the dependencies -/

theorem report_permuted (options : ScoringOptions) (now : Int) (start : Fields) {s : Snapshot}
    {deps : List Edge} (h : deps.Perm s.dependencies) :
    report options now start { s with dependencies := deps } = report options now start s := by
  have hmessage : ∀ (r : Rule) (risk : RiskMetrics),
      r.message? { s with dependencies := deps } risk = r.message? s risk := by
    intro r risk
    cases r <;> rfl
  have hfired : ∀ risk, fired { s with dependencies := deps } risk = fired s risk := by
    intro risk
    simp only [fired, hmessage]
  have hlines : ∀ risk, checkOf { s with dependencies := deps } risk = checkOf s risk := by
    intro risk
    funext r
    simp only [checkOf, hmessage]
  have hchecks : Check.informational { s with dependencies := deps } = Check.informational s := rfl
  simp only [report, Risk.buckets_perm _ h, Risk.metrics_perm h, hfired, hlines, hchecks]

/-- The order in which the dependencies are listed influences nothing about an assessment, and there
is a report in either order (if the parts of the snapshot can be counted at all). -/
theorem run_permuted (options : ScoringOptions) (now : Int) (start : Fields) {s : Snapshot}
    {deps : List Edge} (h : deps.Perm s.dependencies) :
    run options now start (.record (.snapshot { s with dependencies := deps })) =
        run options now start (.record (.snapshot s)) ∧
      (GivesIntegers start → ∀ k < 1000, (Value.record (.snapshot s)).size ≤ 2 ^ k →
        ∃ r, (run options now start (.record (.snapshot s))).result = .ok r) := by
  have hrun : ∀ t : Snapshot, run options now start (.record (.snapshot t)) = (do
      let r ← Logged.ofExcept (report options now start t)
      Logged.notice (.assessed t.name r.score r.summaryBadge r.issues.length)
      pure r) := fun t => rfl
  constructor
  · rw [hrun, hrun, report_permuted options now start h]
  · intro hstart k hk hsize
    exact run_eq_ok_of_integers options now hstart hk hsize

/-- A dependency to and one fro. -/
def toAndFro : List Edge :=
  [{ source := "a.ts", target := "b.ts" }, { source := "b.ts", target := "a.ts" }]

/-- In the other order another cycle is found, but the assessment is the same. -/
theorem run_permuted_cycle :
    let s : Snapshot := { coupled with dependencies := toAndFro }
    Graph.cycles toAndFro.reverse ≠ Graph.cycles toAndFro ∧
      toAndFro.reverse.Perm s.dependencies ∧
      run ⟨.graph⟩ 0 [] (.record (.snapshot { s with dependencies := toAndFro.reverse })) =
        run ⟨.graph⟩ 0 [] (.record (.snapshot s)) := by
  intro s
  have hperm : toAndFro.reverse.Perm s.dependencies := List.reverse_perm toAndFro
  exact ⟨by decide +kernel, hperm, (run_permuted ⟨.graph⟩ 0 [] hperm).1⟩

end Assessment

end RepoSurvey
