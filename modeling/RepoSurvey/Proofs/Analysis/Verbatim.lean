import RepoSurvey.Proofs.Analysis.Edges
import RepoSurvey.Proofs.Text.Lower

/-!
# RepoSurvey.Proofs.Analysis.Verbatim

Patterns that stand in a path letter by letter. Paths and patterns are compared in lower case, each
on its own, so such a pattern excludes the path as long as it keeps its lower case inside the path.
For some patterns that end or begin with a capital sigma this fails (`excludesVerbatim_iff`).
-/

namespace RepoSurvey.Analysis

theorem isExcluded_iff {options : AnalysisOptions} {path : String} :
    isExcluded (exclusions options) path = true ↔ ∃ p ∈ options.excludePatterns, p ≠ "" ∧
      (Text.lower p).toList <:+: (Text.lower path).toList := by
  simp only [isExcluded, exclusions, List.any_map, List.any_filter, List.any_eq_true,
    Function.comp_apply, Bool.and_eq_true, decide_eq_true_eq, Text.contains_iff]

theorem isExcluded_of_mem_entries {limits : Limits} {now : Int} {name options : Value}
    {manifest : List Value} {opts : AnalysisOptions} {s : Snapshot}
    (hopts : (readOptions options).result = .ok opts)
    (h : (run limits now name manifest options).result = .ok s) {e : Entry} (he : e ∈ s.entries) :
    isExcluded (exclusions opts) e.path = false := by
  obtain ⟨text, workspace, packages, rfl⟩ := exists_snapshot_of_run hopts h
  obtain ⟨f, hf, rfl⟩ := List.mem_map.mp he
  simpa [entry_scan] using (List.mem_filter.mp hf).2

/-! ## A run on one path -/

def pathOnly (path : String) : Value := .object [("name", .text path)]

def onePattern (p : String) : Value := .object [("excludePatterns", .list [.text p])]

theorem readOptions_onePattern (p : String) :
    (readOptions (onePattern p)).result = .ok { excludePatterns := [p] } := rfl

theorem run_pathOnly {p path : String}
    (h : ¬ (Text.lower p).toList <:+: (Text.lower path).toList) :
    ∃ s, (run {} 0 (.text "r") [pathOnly path] (onePattern p)).result = .ok s ∧
      path ∈ s.entries.map (·.path) := by
  have hkept : isExcluded (exclusions { excludePatterns := [p] }) path = false := by
    rw [← Bool.not_eq_true, isExcluded_iff]
    rintro ⟨q, hq, _, hpart⟩
    rw [List.mem_singleton.mp hq] at hpart
    exact h hpart
  obtain ⟨s, hs, hpaths⟩ := run_singleton {} 0 "r" (v := pathOnly path) (f := { path }) rfl rfl
    (readOptions_onePattern p)
  refine ⟨s, hs, ?_⟩
  rw [hpaths]
  exact List.mem_map_of_mem (List.mem_filter.mpr ⟨List.mem_singleton_self _, by simp [hkept]⟩)

/-! ## Patterns -/

/-- Whether a pattern excludes every path that it stands in. -/
def ExcludesVerbatim (p : String) : Prop :=
  ∀ (limits : Limits) (now : Int) (name : Value) (manifest : List Value) (options : Value)
    (opts : AnalysisOptions) (s : Snapshot), (readOptions options).result = .ok opts →
      p ∈ opts.excludePatterns → (run limits now name manifest options).result = .ok s →
        ∀ e ∈ s.entries, ¬ p.toList <:+: e.path.toList

/-- A pattern excludes the paths that it stands in exactly if it settles the form of its capital
sigmas; a pattern without any does. -/
theorem excludesVerbatim_iff {p : String} (hp : p ≠ "") :
    (ExcludesVerbatim p ↔ Text.Steady p) ∧ ('Σ' ∉ p.toList → ExcludesVerbatim p) := by
  have hiff : ExcludesVerbatim p ↔ Text.Steady p := by
    rw [← Text.lower_infix_iff]
    constructor
    · intro h path hpart
      by_contra hlower
      obtain ⟨s, hs, hmem⟩ := run_pathOnly hlower
      obtain ⟨e, he, rfl⟩ := List.mem_map.mp hmem
      exact h _ _ _ _ _ _ s (readOptions_onePattern p) List.mem_cons_self hs e he hpart
    · intro h limits now name manifest options opts s hopts hmem hrun e he hpart
      have hkept := isExcluded_of_mem_entries hopts hrun he
      have hexcluded := isExcluded_iff.mpr ⟨p, hmem, hp, h e.path hpart⟩
      rw [hkept] at hexcluded
      cases hexcluded
  exact ⟨hiff, fun hsigma => hiff.mpr (Text.steadyFrom_of_not_mem hsigma [])⟩

/-- A word that ends in a capital sigma does not exclude every path that it stands in: a letter may
follow. With a slash after it, it does. -/
theorem excludesVerbatim_iff_sigma :
    ¬ ExcludesVerbatim "ΟΔΟΣ" ∧ ExcludesVerbatim "ΟΔΟΣ/" ∧ ExcludesVerbatim "vendor/" := by
  refine ⟨fun h => ?_, ?_, ?_⟩
  · exact absurd ((excludesVerbatim_iff (by decide)).1.mp h) (by decide +kernel)
  · exact (excludesVerbatim_iff (by decide)).1.mpr (by decide +kernel)
  · exact (excludesVerbatim_iff (by decide)).2 (by decide)

end RepoSurvey.Analysis
