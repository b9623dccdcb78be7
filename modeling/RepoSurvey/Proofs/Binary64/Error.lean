import Mathlib.Tactic.Ring
import RepoSurvey.Proofs.Binary64.Order

/-!
# RepoSurvey.Proofs.Binary64.Error

How far results are from exact ones. Rounding a number not beyond `2 ^ k` moves it by `2 ^ (k - 54)`
at most (`abs_nearest_sub_le`), so a sum or a product of numbers that are near some rationals is
near the sum or the product of these (`Near.add`, `Near.mul`). What is near a quotient of integers
has the integer part of the quotient, unless the quotient is an integer itself
(`floor_of_near_quotient`).
-/

namespace RepoSurvey.Binary64

/-! ## One rounding -/

/-- A bound in units of its error. -/
theorem two_zpow_eq_mul (k : Nat) : (2 : Rat) ^ (k : Int) = 2 ^ 54 * 2 ^ ((k : Int) - 54) := by
  rw [← zpow_natCast 2 54, ← two_zpow_add]
  congr 1
  push_cast
  ring

theorem two_zpow_add_sub (k j : Nat) :
    (2 : Rat) ^ (((k + j : Nat) : Int) - 54) = 2 ^ j * 2 ^ ((k : Int) - 54) := by
  rw [← zpow_natCast, ← two_zpow_add]
  congr 1
  push_cast
  ring

theorem abs_rounded_sub_le {q : Rat} (hq : 0 < q) {k : Nat} (h : q ≤ 2 ^ (k : Int)) :
    |rounded q - q| ≤ 2 ^ ((k : Int) - 54) := by
  have hmin : minExponent ≤ k := by
    simp only [minExponent]
    omega
  rcases h.eq_or_lt with rfl | hlt
  · have heq : rounded ((2 : Rat) ^ (k : Int)) = 2 ^ (k : Int) :=
      le_antisymm (rounded_le hq hmin le_rfl) (le_rounded hq hmin le_rfl)
    rw [heq, sub_self, abs_zero]
    exact (two_zpow_pos _).le
  · have hexp : exponentOf q ≤ k - 53 := by
      have := (log2_lt_iff hq).mpr hlt
      simp only [exponentOf, minExponent]
      omega
    have hunit := two_zpow_pos (exponentOf q)
    have hscaled : rounded q - q = (roundHalfEven (scaled q) - scaled q) * 2 ^ exponentOf q := by
      rw [rounded, sub_mul, scaled, div_mul_cancel₀ q hunit.ne']
    calc |rounded q - q| = |(roundHalfEven (scaled q) - scaled q : Rat)| * 2 ^ exponentOf q := by
          rw [hscaled, abs_mul, abs_of_pos hunit]
      _ ≤ 1 / 2 * 2 ^ ((k : Int) - 53) :=
          mul_le_mul (abs_roundHalfEven_sub _) (two_zpow_le.mpr hexp) hunit.le (by norm_num)
      _ = 2 ^ ((k : Int) - 54) := by
          rw [show (k : Int) - 54 = -1 + (k - 53) by ring, two_zpow_add, zpow_neg_one, one_div]

theorem abs_nearest_sub_le {q : Rat} {k : Nat} (h : |q| ≤ 2 ^ (k : Int)) :
    |nearest q - q| ≤ 2 ^ ((k : Int) - 54) := by
  rcases lt_trichotomy q 0 with hneg | rfl | hpos
  · rw [abs_of_neg hneg] at h
    rw [nearest_of_neg hneg, show -rounded (-q) - q = -(rounded (-q) - -q) by ring, abs_neg]
    exact abs_rounded_sub_le (neg_pos.mpr hneg) h
  · simpa [nearest] using (two_zpow_pos _).le
  · rw [abs_of_pos hpos] at h
    rw [nearest_of_pos hpos]
    exact abs_rounded_sub_le hpos h

/-! ## Numbers that rounding leaves as they are -/

theorem roundHalfEven_intCast (n : Int) : roundHalfEven n = n :=
  le_antisymm (roundHalfEven_le le_rfl) (le_roundHalfEven le_rfl)

theorem rounded_of_multiple {q : Rat} {n e : Int} (he : exponentOf q ≤ e) (h : q = n * 2 ^ e) :
    rounded q = q := by
  obtain ⟨j, hj⟩ := exists_two_zpow_div he
  have hscaled : scaled q = (n * j : Int) := by
    rw [scaled, Int.cast_mul, ← hj, ← mul_div_assoc, ← h]
  rw [rounded, hscaled, roundHalfEven_intCast, ← hscaled, scaled,
    div_mul_cancel₀ q (two_zpow_pos _).ne']

theorem nearest_multiple {n e : Int} (h0 : 0 ≤ n) (h : n < 2 ^ 53) (he : minExponent ≤ e) :
    nearest (n * 2 ^ e) = n * 2 ^ e := by
  rcases h0.eq_or_lt with rfl | hpos
  · simp [nearest]
  · have hlt : (n : Rat) < 2 ^ (53 : Int) := by exact_mod_cast h
    have hq : (0 : Rat) < n * 2 ^ e := mul_pos (Int.cast_pos.mpr hpos) (two_zpow_pos e)
    have hexp : exponentOf (n * 2 ^ e) ≤ e := by
      have := (log2_lt_iff hq (k := 53 + e)).mpr (by
        rw [two_zpow_add]
        exact mul_lt_mul_of_pos_right hlt (two_zpow_pos e))
      simp only [exponentOf]
      omega
    rw [nearest_of_pos hq]
    exact rounded_of_multiple hexp rfl

theorem nearest_intCast {n : Int} (h0 : 0 < n) (h : n ≤ 2 ^ 52) : nearest n = n := by
  simpa using nearest_multiple (e := 0) h0.le (by omega) (by decide)

theorem log2_eq_of_rounded {p : Rat} (hp : 0 < p) {j : Int} (hmin : minExponent ≤ j)
    (hlow : 2 ^ j < rounded p) (hhigh : rounded p < 2 ^ (j + 1)) : log2 p = j := by
  have h1 : j ≤ log2 p := by
    rw [le_log2_iff hp]
    by_contra hlt
    exact hlow.not_ge (rounded_le hp hmin (not_le.mp hlt).le)
  have h2 : log2 p < j + 1 := by
    rw [log2_lt_iff hp]
    by_contra hle
    exact hhigh.not_ge (le_rounded hp (by omega) (not_lt.mp hle))
  omega

/-- Below an integer there is a number of its own one unit away. -/
theorem nearest_sub_unit {m j : Int} (hm : 2 ≤ m) (hj : 0 ≤ j) (hj' : j < 52)
    (h : (m : Rat) ≤ 2 ^ (j + 1)) : nearest (m - 2 ^ (j - 52)) = m - 2 ^ (j - 52) := by
  have hunit := two_zpow_pos (j - 52)
  have hsmall : (2 : Rat) ^ (j - 52) ≤ 2 ^ (0 : Int) := two_zpow_le.mpr (by omega)
  have hm2 : (2 : Rat) ≤ m := by exact_mod_cast hm
  have hpos : (0 : Rat) < m - 2 ^ (j - 52) := by
    rw [zpow_zero] at hsmall
    linarith
  obtain ⟨n, hn⟩ := exists_two_zpow_div (by omega : j - 52 ≤ 0)
  rw [zpow_zero, div_eq_iff hunit.ne'] at hn
  rw [nearest_of_pos hpos]
  refine rounded_of_multiple (n := m * n - 1) (e := j - 52) ?_ ?_
  · have hlog := (log2_lt_iff hpos).mpr ((sub_lt_self _ hunit).trans_le h)
    simp only [exponentOf, minExponent]
    omega
  · push_cast
    rw [sub_mul, one_mul, mul_assoc, ← hn, mul_one]

/-- A power of two that is above the integer below `m` is not below `m`. -/
theorem le_two_zpow_of_sub_one_lt {m k : Int} (hk : 0 ≤ k) (h : (m : Rat) - 1 < 2 ^ k) :
    (m : Rat) ≤ 2 ^ k := by
  obtain ⟨n, hn⟩ := exists_two_zpow_div hk
  rw [zpow_zero, div_one] at hn
  rw [hn] at h ⊢
  have : m - 1 < n := by exact_mod_cast h
  exact_mod_cast (by omega : m ≤ n)

/-- Below the middle of two integers a number has room for one more unit. -/
theorem rounded_add_unit_le {p : Rat} {m : Int} (hexp : exponentOf p ≤ -1)
    (h : rounded p < m - 1 / 2) : rounded p + 2 ^ exponentOf p ≤ m - 1 / 2 := by
  have hunit := two_zpow_pos (exponentOf p)
  -- Both sides are integers in units of the number.
  obtain ⟨n, hn⟩ := exists_two_zpow_div hexp
  rw [zpow_neg_one, div_eq_iff hunit.ne'] at hn
  have hmiddle : (m : Rat) - 1 / 2 = ((2 * m - 1) * n : Int) * 2 ^ exponentOf p := by
    push_cast
    rw [mul_assoc, ← hn]
    ring
  rw [rounded] at h ⊢
  rw [hmiddle, mul_lt_mul_iff_of_pos_right hunit, Int.cast_lt] at h
  rw [hmiddle, ← add_one_mul]
  refine mul_le_mul_of_nonneg_right ?_ hunit.le
  exact_mod_cast Int.add_one_le_iff.mpr h

/-- A half added to a number below the middle of two integers does not lead up to the greater one,
although the sum is rounded: what is missing to the middle is a unit at least, and the unit of the
sum is no greater. -/
theorem nearest_add_half_lt {p : Rat} {m : Int} (hm : 2 ≤ m) (hm' : m ≤ 2 ^ 50)
    (hlow : (m : Rat) - 1 < nearest p) (hhigh : nearest p < m - 1 / 2) :
    nearest (nearest p + 1 / 2) < m := by
  have hm1 : (1 : Rat) ≤ m - 1 := by
    have : (2 : Rat) ≤ m := by exact_mod_cast hm
    linarith
  have hm50 : (m : Rat) ≤ 2 ^ (50 : Int) := by exact_mod_cast hm'
  have hpos : (0 : Rat) < m - 1 := by linarith
  obtain ⟨hj, hj'⟩ := log2_bounds hpos
  have hj0 : 0 ≤ log2 ((m : Rat) - 1) := (le_log2_iff hpos).mpr (by simpa using hm1)
  have hj50 : log2 ((m : Rat) - 1) < 50 := (log2_lt_iff hpos).mpr (by linarith)
  generalize log2 ((m : Rat) - 1) = j at hj hj' hj0 hj50
  have hmj : (m : Rat) ≤ 2 ^ (j + 1) := le_two_zpow_of_sub_one_lt (by omega) hj'
  have hp : 0 < p := by
    by_contra hp
    have := nearest_nonpos (not_lt.mp hp)
    linarith
  rw [nearest_of_pos hp] at hlow hhigh ⊢
  have hexp : exponentOf p = j - 52 := by
    have := log2_eq_of_rounded hp (by simp only [minExponent]; omega) (hj.trans_lt hlow)
      (by linarith)
    simp only [exponentOf, minExponent]
    omega
  have hstep : rounded p + 2 ^ (j - 52) ≤ m - 1 / 2 := by
    rw [← hexp]
    exact rounded_add_unit_le (by omega) hhigh
  calc nearest (rounded p + 1 / 2) ≤ nearest (m - 2 ^ (j - 52)) := nearest_mono (by linarith)
    _ = m - 2 ^ (j - 52) := nearest_sub_unit hm hj0 (by omega) hmj
    _ < m := sub_lt_self _ (two_zpow_pos _)

/-! ## Results of operations -/

/-- A finite number that is not farther from a rational than a distance. -/
def Near (x : Binary64) (q ε : Rat) : Prop := ∃ r, x.toRat? = some r ∧ |r - q| ≤ ε

section Near

variable {x y : Binary64} {q t ε δ : Rat} {k : Nat}

theorem Near.mono (hx : Near x q ε) (h : ε ≤ δ) : Near x q δ := by
  obtain ⟨r, hr, hle⟩ := hx
  exact ⟨r, hr, hle.trans h⟩

/-- The number next to a rational is near whatever the rational is near. -/
theorem near_ofRat_of_abs_sub_le {r : Rat} (hk : k < 1024) (hr : |r - q| ≤ ε)
    (h : |q| + ε ≤ 2 ^ (k : Int)) : Near (ofRat r) q (ε + 2 ^ ((k : Int) - 54)) := by
  have hwithin : |r| ≤ 2 ^ (k : Int) := by
    have := abs_sub_abs_le_abs_sub r q
    linarith
  obtain ⟨z, hz, _⟩ := within_ofRat hk hwithin
  have hnear := abs_nearest_sub_le hwithin
  rw [← toRat?_ofRat_eq_some hz] at hnear
  exact ⟨z, hz, (abs_sub_le z r q).trans (by linarith)⟩

theorem near_ofRat (hk : k < 1024) (h : |q| ≤ 2 ^ (k : Int)) :
    Near (ofRat q) q (2 ^ ((k : Int) - 54)) := by
  simpa using near_ofRat_of_abs_sub_le (ε := 0) hk (by simp) (by simpa using h)

theorem near_ofRat_intCast {n : Int} (h0 : 0 < n) (h : n ≤ 2 ^ 52) : Near (ofRat n) n 0 := by
  obtain ⟨r, hr, _⟩ := near_ofRat (k := 52) (q := n) (by decide) (by
    rw [abs_of_pos (Int.cast_pos.mpr h0)]
    exact_mod_cast h)
  refine ⟨r, hr, ?_⟩
  rw [toRat?_ofRat_eq_some hr, nearest_intCast h0 h, sub_self, abs_zero]

theorem near_of_ofInt? (hk : k < 1024) {n : Int} (h : |n| ≤ 2 ^ k) :
    ∃ x, ofInt? n = some x ∧ Near x n (2 ^ ((k : Int) - 54)) := by
  obtain ⟨x, hx, r, hr, _⟩ := ofInt?_within hk h
  obtain rfl : nearest n = r := Option.some.inj ((toRat?_of_ofInt? hx).symm.trans hr)
  exact ⟨x, hx, _, hr, abs_nearest_sub_le (by exact_mod_cast h)⟩

theorem near_of_ofInt?_mul {j : Nat} (hk : k + j < 1024) {n m : Int} (hn : |n| ≤ 2 ^ k)
    (hm : |m| ≤ 2 ^ j) : ∃ x, ofInt? (n * m) = some x ∧
      Near x (n * m) (2 ^ j * 2 ^ ((k : Int) - 54)) := by
  have hnm : |n * m| ≤ 2 ^ (k + j) := by
    rw [abs_mul, pow_add]
    exact mul_le_mul hn hm (abs_nonneg m) (by positivity)
  obtain ⟨x, hx, hnear⟩ := near_of_ofInt? hk hnm
  rw [two_zpow_add_sub, Int.cast_mul] at hnear
  exact ⟨x, hx, hnear⟩

theorem near_of_ofQuotient? (hk : k < 1024) {a b : Int} (hb : 0 < b) (h : |a| ≤ 2 ^ k) :
    ∃ x, ofQuotient? a b = some x ∧ Near x ((a : Rat) / b) (2 ^ ((k : Int) - 54)) := by
  have hone : (1 : Rat) ≤ |(b : Rat)| := by
    rw [abs_of_pos (Int.cast_pos.mpr hb)]
    exact_mod_cast hb
  have hquotient : |(a : Rat) / b| ≤ 2 ^ (k : Int) := by
    rw [abs_div]
    refine (div_le_self (abs_nonneg _) hone).trans ?_
    exact_mod_cast h
  have hnear := near_ofRat hk hquotient
  rw [ofQuotient?]
  split
  · next s hinfinite =>
    obtain ⟨r, hr, _⟩ := hnear
    rw [hinfinite] at hr
    cases hr
  · exact ⟨_, rfl, hnear⟩

theorem Near.add (hk : k < 1024) (hx : Near x q ε) (hy : Near y t δ)
    (h : |q + t| + (ε + δ) ≤ 2 ^ (k : Int)) :
    Near (x.add y) (q + t) (ε + δ + 2 ^ ((k : Int) - 54)) := by
  obtain ⟨r, hr, hrq⟩ := hx
  obtain ⟨s, hs, hst⟩ := hy
  rw [Near, toRat?_add hr hs]
  refine near_ofRat_of_abs_sub_le hk ?_ h
  rw [add_sub_add_comm]
  exact (abs_add_le _ _).trans (add_le_add hrq hst)

/-- The error of a product, by bounds on its exact factors. -/
theorem Near.mul (hk : k < 1024) (hx : Near x q ε) (hy : Near y t δ) {a b : Rat} (hq : |q| ≤ a)
    (ht : |t| ≤ b) (h : a * b + (ε * b + (a + ε) * δ) ≤ 2 ^ (k : Int)) :
    Near (x.mul y) (q * t) (ε * b + (a + ε) * δ + 2 ^ ((k : Int) - 54)) := by
  obtain ⟨r, hr, hrq⟩ := hx
  obtain ⟨s, hs, hst⟩ := hy
  have ha : 0 ≤ a := (abs_nonneg q).trans hq
  have hr' : |r| ≤ a + ε := by
    have := abs_sub_abs_le_abs_sub r q
    linarith
  have hprod : |q * t| ≤ a * b := abs_mul q t ▸ mul_le_mul hq ht (abs_nonneg t) ha
  rw [Near, toRat?_mul hr hs]
  refine near_ofRat_of_abs_sub_le hk ?_ (by linarith)
  rw [show r * s - q * t = (r - q) * t + r * (s - t) by ring]
  refine (abs_add_le _ _).trans (add_le_add ?_ ?_)
  · rw [abs_mul]
    exact mul_le_mul hrq ht (abs_nonneg t) ((abs_nonneg _).trans hrq)
  · rw [abs_mul]
    exact mul_le_mul hr' hst (abs_nonneg _) ((abs_nonneg r).trans hr')

end Near

/-! ## Integer parts -/

theorem floor_of_near_quotient {r : Rat} {a b : Int} (hb : 0 < b)
    (h : |r - (a : Rat) / b| < 1 / b) :
    r.floor = if b ∣ a ∧ r < (a : Rat) / b then a / b - 1 else a / b := by
  have hb' : (0 : Rat) < b := Int.cast_pos.mpr hb
  obtain ⟨hlow, hhigh⟩ := abs_lt.mp h
  have hquot : (a : Rat) / b = (a / b : Int) + ((a % b : Int) : Rat) / b := by
    rw [div_eq_iff hb'.ne', add_mul, div_mul_cancel₀ _ hb'.ne']
    exact_mod_cast (Int.ediv_mul_add_emod a b).symm
  have hrest : ((a % b : Int) : Rat) / b + 1 / b ≤ 1 := by
    rw [← add_div, div_le_one hb']
    exact_mod_cast Int.emod_lt_of_pos a hb
  have hunit : (1 : Rat) / b ≤ 1 := by
    rw [div_le_one hb']
    exact_mod_cast hb
  refine (Int.floor_eq_iff (a := r)).mpr ?_
  by_cases hdvd : b ∣ a
  · rw [Int.emod_eq_zero_of_dvd hdvd, Int.cast_zero, zero_div, add_zero] at hquot
    by_cases hlt : r < (a : Rat) / b
    · rw [if_pos ⟨hdvd, hlt⟩]
      push_cast
      constructor <;> linarith
    · rw [if_neg fun hand => hlt hand.2]
      constructor <;> linarith
  · rw [if_neg fun hand => hdvd hand.1]
    -- The quotient is at least a unit above its integer part.
    have hone : (1 : Rat) / b ≤ ((a % b : Int) : Rat) / b := by
      refine div_le_div_of_nonneg_right ?_ hb'.le
      have := Int.emod_nonneg a hb.ne'
      have := mt Int.dvd_of_emod_eq_zero hdvd
      exact_mod_cast (by omega : 1 ≤ a % b)
    constructor <;> linarith

end RepoSurvey.Binary64
