import RepoSurvey.Proofs.Binary64.Range
import RepoSurvey.Score

/-!
# RepoSurvey.Proofs.Score

Scores of moderate size have a weighted sum: every weight is at most one, so each term is at most as
large as its score, and each addition goes up by one power of two at most.
-/

namespace RepoSurvey

/-- All categories are between zero and one hundred. -/
def CategoryScores.InRange (s : CategoryScores) : Prop := ∀ c, 0 ≤ s.get c ∧ s.get c ≤ 100

theorem CategoryScores.InRange.set {s : CategoryScores} (h : s.InRange) {n : Int} (h0 : 0 ≤ n)
    (h100 : n ≤ 100) (c : Category) : (s.set c n).InRange := by
  intro d
  rw [CategoryScores.get_set]
  split
  · exact ⟨h0, h100⟩
  · exact h d

namespace Score

open Binary64

theorem roundHalfUp_eq_ok {k : Nat} (hk : k < 1023) {x : Binary64} (hx : Within k x) :
    ∃ n, roundHalfUp x = .ok n := by
  have hhalf : Within k (ofRat (1 / 2)) :=
    (within_ofRat (k := 0) (by decide) (by norm_num [abs_of_pos])).mono (Nat.zero_le k)
  obtain ⟨n, hn⟩ := (hx.add hk hhalf).floor_eq_ok
  exact ⟨n, by rw [roundHalfUp, hn]; rfl⟩

theorem weighted_within {k : Nat} (hk : k < 1024) {n : Int} (hn : |n| ≤ 2 ^ k) {w : Rat}
    (hw : |w| ≤ 1) : ∃ x, weighted n w = .ok x ∧ Within k x := by
  obtain ⟨y, hy, hwithin⟩ := ofInt?_within hk hn
  refine ⟨y.mul (ofRat w), by rw [weighted, hy], ?_⟩
  exact hwithin.mul (l := 0) (by omega) (within_ofRat (by decide) (by simpa using hw))

theorem weightedSum_within {s : CategoryScores} {k l : Nat} (hkl : k ≤ l)
    (hs : ∀ c, |s.get c| ≤ 2 ^ k) {acc : Binary64} (hacc : Within l acc)
    {ws : List (Category × Rat)} (hws : ∀ w ∈ ws, |w.2| ≤ 1) (hl : l + ws.length < 1024) :
    ∃ x, weightedSum s acc ws = .ok x ∧ Within (l + ws.length) x := by
  induction ws generalizing acc l with
  | nil => exact ⟨acc, rfl, hacc⟩
  | cons w ws ih =>
    rw [List.length_cons] at hl
    obtain ⟨x, hx, hwithin⟩ := weighted_within (by omega) (hs w.1) (hws w List.mem_cons_self)
    obtain ⟨y, hy, hsum⟩ := ih (by omega) (hacc.add (by omega) (hwithin.mono hkl))
      (fun v hv => hws v (List.mem_cons_of_mem w hv)) (by omega)
    refine ⟨y, by rw [weightedSum, hx]; exact hy, ?_⟩
    rwa [List.length_cons, ← Nat.add_assoc, Nat.add_right_comm]

theorem final_eq_ok {s : CategoryScores} (hs : s.InRange) : ∃ n, final s = .ok n := by
  have hsmall : ∀ c, |s.get c| ≤ 2 ^ 7 := by
    intro c
    obtain ⟨h0, h100⟩ := hs c
    rw [abs_of_nonneg h0]
    exact h100.trans (by decide)
  have hweights : ∀ w ∈ weights, |w.2| ≤ 1 := by
    simp only [weights, List.forall_mem_cons]
    norm_num [abs_of_pos]
  obtain ⟨x, hx, hwithin⟩ :=
    weightedSum_within le_rfl hsmall (within_zero 7 false) hweights (by decide)
  obtain ⟨n, hn⟩ := roundHalfUp_eq_ok (by decide) hwithin
  exact ⟨clamp n, by rw [final, hx]; simp only [hn]; rfl⟩

end Score

end RepoSurvey
