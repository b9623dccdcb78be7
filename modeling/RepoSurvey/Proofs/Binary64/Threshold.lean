import RepoSurvey.Proofs.Binary64.Error

/-!
# RepoSurvey.Proofs.Binary64.Threshold

Comparisons with thresholds. The half of an integer has a number of its own unless the integer is
very large, so it is on the same side of an integer as its number (`gtInt_ofRat_half_iff`). A number
that is not below a rational may be infinite (`AtLeast`): it stays above under products, and
subtracting it leaves nothing positive (`AtLeast.not_zero_lt_sub`).
-/

namespace RepoSurvey.Binary64

/-! ## Halves of integers -/

theorem nearest_half {n : Int} (h0 : 0 ≤ n) (h : n ≤ 2 ^ 52) : nearest (n / 2) = n / 2 := by
  have := nearest_multiple (e := -1) h0 (by omega) (by decide)
  rwa [zpow_neg_one, ← div_eq_mul_inv] at this

theorem toRat?_ofRat_half {n : Int} (h0 : 0 ≤ n) (h : n ≤ 2 ^ 52) :
    (ofRat (n / 2)).toRat? = some ((n : Rat) / 2) := by
  have hle : |(n : Rat) / 2| ≤ 2 ^ (52 : Int) := by
    have hn : (n : Rat) ≤ 2 ^ (52 : Int) := by exact_mod_cast h
    have hn0 : (0 : Rat) ≤ n := Int.cast_nonneg h0
    rw [abs_of_nonneg (by positivity)]
    linarith
  obtain ⟨r, hr, _⟩ := within_ofRat (k := 52) (by decide) hle
  rw [hr, toRat?_ofRat_eq_some hr, nearest_half h0 h]

theorem gtInt_ofRat_half_iff {m : Nat} {n : Int} (h0 : 0 ≤ n) (h : n ≤ 2 ^ 50) :
    (ofRat ((m : Rat) / 2)).gtInt n = true ↔ 2 * n < m := by
  rw [gtInt_ofRat_iff (by positivity) (by decide : 50 < 1024) h]
  constructor
  · intro hlt
    by_contra hle
    have hhalf : (m : Rat) / 2 ≤ n := by
      have : (m : Rat) ≤ 2 * n := by exact_mod_cast not_lt.mp hle
      linarith
    have hnear := nearest_mono hhalf
    have hexact := nearest_multiple (e := 0) h0 (by omega) (by decide)
    rw [zpow_zero, mul_one] at hexact
    linarith
  · intro hlt
    have hhalf : ((2 * n + 1 : Int) : Rat) / 2 ≤ (m : Rat) / 2 := by
      have : ((2 * n + 1 : Int) : Rat) ≤ m := by exact_mod_cast hlt
      linarith
    have hnear := nearest_mono hhalf
    rw [nearest_half (by omega) (by omega)] at hnear
    push_cast at hnear
    linarith

theorem toRat?_neg {x : Binary64} {r : Rat} (h : x.toRat? = some r) :
    x.neg.toRat? = some (-r) := by
  obtain ⟨s, m, e, rfl, rfl⟩ := toRat?_eq_some h
  cases s <;> simp [neg, toRat?, signed]

/-! ## Numbers that are not below a rational -/

theorem eq_finite_of_pos {x : Binary64} {r : Rat} (h : x.toRat? = some r) (hr : 0 < r) :
    ∃ m e, x = .finite false (m + 1) e ∧ r = ((m + 1 : Nat) : Rat) * 2 ^ e := by
  obtain ⟨s, m, e, rfl, hvalue⟩ := toRat?_eq_some h
  have hpos : (0 : Rat) ≤ m * 2 ^ e := mul_nonneg (Nat.cast_nonneg m) (two_zpow_pos e).le
  cases s with
  | true =>
    rw [hvalue] at hr
    simp only [signed, if_true] at hr
    linarith
  | false =>
    cases m with
    | zero => simp [hvalue, signed] at hr
    | succ m => exact ⟨m, e, rfl, by simpa [signed] using hvalue⟩

/-- Whether a number is not below a rational; it may be infinite. -/
def AtLeast (q : Rat) (x : Binary64) : Prop :=
  x = .infinite false ∨ ∃ r, x.toRat? = some r ∧ q ≤ r

section AtLeast

variable {x y : Binary64} {q r t : Rat}

theorem atLeast_ofRat (hq : 0 ≤ q) (hexact : nearest q = q) (h : q ≤ t) : AtLeast q (ofRat t) := by
  obtain hfinite | ⟨_, hinfinite⟩ := ofRat_finite_or_infinite t
  · refine .inr ⟨_, hfinite, ?_⟩
    rw [← hexact]
    exact nearest_mono h
  · left
    rw [hinfinite, decide_eq_false (hq.trans h).not_gt]

theorem mul_eq_ofRat (hx : x.toRat? = some r) (hr : 0 < r) (hy : y.toRat? = some t)
    (ht : 0 < t) : x.mul y = ofRat (r * t) := by
  obtain ⟨m, e, rfl, rfl⟩ := eq_finite_of_pos hx hr
  obtain ⟨n, f, rfl, rfl⟩ := eq_finite_of_pos hy ht
  have hsigned := ofPositive_signed (mul_pos hr ht) false
  simp only [signed, Bool.false_eq_true, if_false] at hsigned
  rw [hsigned, mul, if_neg (by simp)]
  rfl

theorem AtLeast.mul (hx : AtLeast q x) (hq : 0 < q) (hy : y.toRat? = some t) (ht : 0 < t)
    (hexact : nearest (q * t) = q * t) : AtLeast (q * t) (x.mul y) := by
  obtain rfl | ⟨r, hr, hle⟩ := hx
  · obtain ⟨n, f, rfl, _⟩ := eq_finite_of_pos hy ht
    exact .inl rfl
  · rw [mul_eq_ofRat hr (hq.trans_le hle) hy ht]
    exact atLeast_ofRat (mul_pos hq ht).le hexact (mul_le_mul_of_nonneg_right hle ht.le)

theorem zero_lt_of_toRat? (h : x.toRat? = some r) : (zero false).lt x = decide (0 < r) := by
  obtain ⟨s, m, e, rfl, _⟩ := toRat?_eq_some h
  simp only [zero, lt, h, Option.getD_some]
  simp [toRat?]

theorem not_zero_lt_of_nonpos (h : q ≤ 0) : (zero false).lt (ofRat q) = false := by
  obtain hfinite | ⟨hlarge, hinfinite⟩ := ofRat_finite_or_infinite q
  · rw [zero_lt_of_toRat? hfinite]
    exact decide_eq_false (nearest_nonpos h).not_gt
  · -- What is rounded to infinity is not zero, so it is negative.
    have hneg : q < 0 := by
      refine h.lt_of_ne ?_
      rintro rfl
      have hzero : |nearest 0| = 0 := by simp [nearest]
      exact (two_zpow_pos 1024).not_ge (hzero ▸ hlarge)
    rw [hinfinite, decide_eq_true hneg]
    rfl

/-- Nothing positive is left if a number is subtracted that is not below the first one. -/
theorem AtLeast.not_zero_lt_sub (hy : AtLeast q y) (hx : x.toRat? = some r) (hr : 0 < r) (h : r ≤ q) :
    (zero false).lt (x.sub y) = false := by
  obtain ⟨m, e, rfl, hvalue⟩ := eq_finite_of_pos hx hr
  obtain rfl | ⟨t, ht, hle⟩ := hy
  · rfl
  · obtain ⟨n, f, rfl, htvalue⟩ := eq_finite_of_pos ht (hr.trans_le (h.trans hle))
    have hdifference : sub (finite false (m + 1) e) (finite false (n + 1) f) = ofRat (r + -t) := by
      rw [hvalue, htvalue]
      rfl
    rw [hdifference]
    exact not_zero_lt_of_nonpos (by linarith)

end AtLeast

end RepoSurvey.Binary64
