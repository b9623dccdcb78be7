import RepoSurvey.Proofs.Binary64.Error

/-!
# RepoSurvey.Proofs.Binary64.Integer

Integers as numbers. An integer with at most 53 binary digits in front of its zeros is a number
itself (`Exact`); every other integer is rounded to one of these, so rounding twice changes nothing
more and the integer part of the number next to an integer is the whole of it.
-/

namespace RepoSurvey.Binary64

/-- An integer with at most 53 binary digits in front of its zeros. -/
def Exact (n : Int) : Prop := ∃ (m : Int) (k : Nat), |m| < 2 ^ 53 ∧ n = m * 2 ^ k

theorem Exact.neg {n : Int} (h : Exact n) : Exact (-n) := by
  obtain ⟨m, k, hm, rfl⟩ := h
  exact ⟨-m, k, by rwa [abs_neg], by rw [neg_mul]⟩

theorem nearest_neg (q : Rat) : nearest (-q) = -nearest q := by
  rcases lt_trichotomy q 0 with hneg | rfl | hpos
  · rw [nearest_of_pos (neg_pos.mpr hneg), nearest_of_neg hneg, neg_neg]
  · simp [nearest]
  · rw [nearest_of_neg (neg_lt_zero.mpr hpos), nearest_of_pos hpos, neg_neg]

theorem nearest_of_exact {n : Int} (h : Exact n) : nearest n = n := by
  obtain ⟨m, k, hm, rfl⟩ := h
  have hnonneg : ∀ {m : Int}, 0 ≤ m → m < 2 ^ 53 →
      nearest ((m * 2 ^ k : Int) : Rat) = ((m * 2 ^ k : Int) : Rat) := by
    intro m h0 hlt
    have hexact := nearest_multiple (e := k) h0 hlt (by simp only [minExponent]; omega)
    rw [zpow_natCast] at hexact
    exact_mod_cast hexact
  obtain ⟨hlow, hhigh⟩ := abs_lt.mp hm
  rcases le_total 0 m with h0 | h0
  · exact hnonneg h0 hhigh
  · have hneg := hnonneg (neg_nonneg.mpr h0) (neg_lt.mp hlow)
    rw [neg_mul, Int.cast_neg, nearest_neg] at hneg
    exact neg_injective hneg

theorem exists_rounded_eq {n : Int} (hn : 0 < n) :
    ∃ m : Int, rounded n = m ∧ Exact m := by
  have hpos : (0 : Rat) < n := Int.cast_pos.mpr hn
  have hscaled := scaled_lt hpos
  rcases le_or_gt (exponentOf n) 0 with hexp | hexp
  · -- The integer is a multiple of its unit, so nothing is rounded.
    refine ⟨n, rounded_of_multiple hexp (by rw [zpow_zero, mul_one]), n, 0, ?_, by simp⟩
    rw [abs_of_pos hn]
    have hle : (n : Rat) ≤ scaled n := by
      rw [scaled, le_div_iff₀ (two_zpow_pos _)]
      refine mul_le_of_le_one_right hpos.le ?_
      simpa using two_zpow_le.mpr hexp
    exact_mod_cast hle.trans_lt hscaled
  · obtain ⟨k, hk⟩ := Int.eq_ofNat_of_zero_le hexp.le
    refine ⟨roundHalfEven (scaled n) * 2 ^ k, ?_, ?_⟩
    · rw [rounded, hk]
      push_cast
      rw [zpow_natCast]
    · have h0 := roundHalfEven_scaled_nonneg hpos
      rcases (roundHalfEven_scaled_le hpos).lt_or_eq with hlt | heq
      · exact ⟨_, k, by rwa [abs_of_nonneg h0], rfl⟩
      · -- The mantissa is carried to the next power of two.
        exact ⟨1, 53 + k, by decide, by rw [heq, pow_add, one_mul]; rfl⟩

/-- An integer is rounded to an integer with a number of its own. -/
theorem exists_nearest_intCast (n : Int) : ∃ m : Int, nearest n = m ∧ Exact m := by
  rcases lt_trichotomy n 0 with hneg | rfl | hpos
  · obtain ⟨m, hm, hexact⟩ := exists_rounded_eq (neg_pos.mpr hneg)
    refine ⟨-m, ?_, hexact.neg⟩
    rw [nearest_of_neg (Int.cast_lt_zero.mpr hneg), ← Int.cast_neg, hm, Int.cast_neg]
  · exact ⟨0, by simp [nearest], 0, 0, by decide, rfl⟩
  · rw [nearest_of_pos (Int.cast_pos.mpr hpos)]
    exact exists_rounded_eq hpos

theorem nearest_intCast_eq_iff {n m : Int} (h : nearest n = m) : m = n ↔ Exact n := by
  constructor
  · rintro rfl
    obtain ⟨k, hk, hexact⟩ := exists_nearest_intCast m
    rwa [Int.cast_injective (h.symm.trans hk)]
  · intro hexact
    exact Int.cast_injective (h.symm.trans (nearest_of_exact hexact))

/-! ## Integer parts -/

theorem truncate_of_toRat? {x : Binary64} {m : Int} (h : x.toRat? = some (m : Rat)) :
    x.truncate = .ok m := by
  cases x <;> simp_all [toRat?, truncate]

theorem truncate_ofRat_intCast {n m : Int} {k : Nat} (hk : k < 1024) (hn : |n| ≤ 2 ^ k)
    (hm : nearest n = m) : (ofRat n).truncate = .ok m := by
  obtain ⟨r, hr, _⟩ := within_ofRat (q := n) hk (by exact_mod_cast hn)
  refine truncate_of_toRat? ?_
  rw [hr, toRat?_ofRat_eq_some hr, hm]

end RepoSurvey.Binary64
