import RepoSurvey.Proofs.Assessment.Account
import RepoSurvey.Proofs.Score.Exactness

/-!
# RepoSurvey.Proofs.Assessment.Rounding

The score of a report as a rounded weighted sum of its categories. Where the sum is in the middle of
two integers, and only there, the score may be one too low. Without values for the categories to
start at, the penalties lead to no such sum (`hundredths_of_full`).
-/

namespace RepoSurvey

theorem Rule.penalties_eq (s : Snapshot) (risk : RiskMetrics) (c : Category) :
    penalties s risk c =
      (((all.filter (·.category = c)).filter fun r => (r.message? s risk).isSome).map
        penalty).sum := by
  rw [penalties, firing, List.filter_comm]

theorem Rule.penalties_security (s : Snapshot) (risk : RiskMetrics) :
    penalties s risk .security = 0 ∨ penalties s risk .security = 60 := by
  have hrules : all.filter (·.category = .security) = [sensitiveFiles] := by decide
  rw [penalties_eq, hrules]
  by_cases h : (sensitiveFiles.message? s risk).isSome <;> simp [h, penalty]

theorem Rule.penalties_structural (s : Snapshot) (risk : RiskMetrics) :
    penalties s risk .structural ∈ [0, 15, 20, 35] := by
  have hrules : all.filter (·.category = .structural) = [highCoupling, missingWorkspaces] := by
    decide
  rw [penalties_eq, hrules]
  by_cases h : (highCoupling.message? s risk).isSome <;>
    by_cases h' : (missingWorkspaces.message? s risk).isSome <;> simp [h, h', penalty]

namespace Assessment

open Score

/-- Penalties alone never lead to the middle of two integers. -/
theorem hundredths_of_full {options : ScoringOptions} {s : Snapshot} {r : Report}
    (h : Accounts options [] s r) : hundredths r.categories % 100 ≠ 50 := by
  obtain ⟨_, hn, hsecurity⟩ := h.categories .security
  cases hn
  obtain ⟨_, hn, hstructural⟩ := h.categories .structural
  cases hn
  simp only [CategoryScores.get] at hsecurity hstructural
  rw [Ne, hundredths_mod_eq_iff, hsecurity, hstructural]
  have hpenalty := Rule.penalties_structural s r.riskMetrics
  simp only [List.mem_cons, List.not_mem_nil, or_false] at hpenalty
  rcases Rule.penalties_security s r.riskMetrics with h1 | h1 <;>
    rcases hpenalty with h2 | h2 | h2 | h2 <;> omega

/-- The score is the weighted sum of the categories with halves rounded up, except for sums in the
middle of two integers that double precision puts below the middle: there it is one less. Which sums
are in the middle depends on remainders of the categories, and none is unless some category starts
at a given value. -/
theorem score_rounds (options : ScoringOptions) (now : Int) (start : Fields) (v : Value) :
    (GivesIntegers start → ∀ k < 1000, v.size ≤ 2 ^ k →
      ∃ r, (run options now start v).result = .ok r) ∧
    ∀ r, (run options now start v).result = .ok r →
      r.categories.InRange ∧
      (∃ x sum, weightedSum r.categories (Binary64.zero false) weights = .ok x ∧
        x.toRat? = some sum ∧ |sum - hundredths r.categories / 100| ≤ 2 ^ (-43 : Int) ∧
        r.score = if hundredths r.categories % 100 = 50 ∧ sum < hundredths r.categories / 100
          then (hundredths r.categories + 50) / 100 - 1
          else (hundredths r.categories + 50) / 100) ∧
      (hundredths r.categories % 100 = 50 ↔
        r.categories.structural % 4 = (r.categories.security + 2) % 4 ∧
          (r.categories.security + 2 * r.categories.consistency +
            2 * r.categories.completeness) % 5 = 0) ∧
      (start.filter (fun f => isCategory f.1) = [] →
        r.score = (hundredths r.categories + 50) / 100) := by
  refine ⟨fun hstart k hk hv => run_eq_ok_of_integers options now hstart hk hv, fun r hr => ?_⟩
  obtain ⟨s, _, haccounts⟩ := accounts_of_run hr
  obtain ⟨x, sum, hx, hsum, hnear, hfinal⟩ := final_rounds haccounts.inRange
  have hscore := Except.ok.inj (haccounts.score.symm.trans hfinal)
  refine ⟨haccounts.inRange, ⟨x, sum, hx, hsum, hnear, hscore⟩, hundredths_mod_eq_iff _, ?_⟩
  intro hstart
  rw [← run_filter, hstart] at hr
  obtain ⟨s', _, hfull⟩ := accounts_of_run hr
  rw [hscore, if_neg fun htie => hundredths_of_full hfull htie.1]

/-- Values with a weighted sum of five and a half. -/
def halfway : Fields := [
  ("security", .int 1), ("structure", .int 15), ("consistency", .int 3), ("completeness", .int 4)]

/-- Five and a half is rounded to five. -/
theorem score_rounds_halfway :
    ∃ r, (run {} 0 halfway (.record (.snapshot { name := "r" }))).result = .ok r ∧
      r.categories = ⟨3, 4, 1, 15⟩ ∧ hundredths r.categories = 550 ∧ r.score = 5 ∧
      (hundredths r.categories + 50) / 100 = 6 := by
  have hgiven : GivesIntegers halfway := by
    intro f hf _
    simp only [halfway, List.mem_cons, List.not_mem_nil, or_false] at hf
    rcases hf with rfl | rfl | rfl | rfl <;> exact ⟨_, rfl⟩
  obtain ⟨hreport, hscore⟩ :=
    score_rounds {} 0 halfway (.record (.snapshot { name := "r" }))
  obtain ⟨r, hr⟩ := hreport hgiven 7 (by decide) (by decide)
  have hcategories : (run {} 0 halfway (.record (.snapshot { name := "r" }))).result.map
      (·.categories) = .ok ⟨3, 4, 1, 15⟩ := by decide +kernel
  rw [hr] at hcategories
  replace hcategories : r.categories = ⟨3, 4, 1, 15⟩ := Except.ok.inj hcategories
  obtain ⟨_, ⟨x, sum, hx, hsum, _, hrule⟩, _⟩ := hscore r hr
  have hbelow : (weightedSum ⟨3, 4, 1, 15⟩ (Binary64.zero false) weights).toOption.bind
      (fun x => x.toRat?.map fun sum => decide (sum < ((550 : Int) : Rat) / 100)) = some true := by
    decide +kernel
  have hhundredths : hundredths r.categories = 550 := by
    rw [hcategories]
    decide
  rw [← hcategories, hx] at hbelow
  simp only [Except.toOption, Option.bind_some, hsum, Option.map_some, Option.some.injEq,
    decide_eq_true_eq] at hbelow
  rw [hhundredths, if_pos ⟨by decide, hbelow⟩] at hrule
  exact ⟨r, hr, hcategories, hhundredths, hrule, by rw [hhundredths]; decide⟩

end Assessment

end RepoSurvey
