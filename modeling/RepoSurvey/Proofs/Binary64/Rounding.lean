import Mathlib.Algebra.Order.Field.Power
import Mathlib.Algebra.Order.Floor.Ring
import Mathlib.Data.Rat.Floor
import Mathlib.Tactic.Linarith
import RepoSurvey.Binary64

/-!
# RepoSurvey.Proofs.Binary64.Rounding

Rounding a positive rational. Its exponent places it between two powers of two, so at most 53
binary digits stand in front of the point once it is divided by its unit; the nearest integer to
that is the mantissa. Rounding moves nothing across a power of two, and only what it lifts to `2 ^
1024` becomes infinite.
-/

namespace RepoSurvey.Binary64

/-! ## Powers of two -/

theorem two_zpow_pos (k : Int) : (0 : Rat) < 2 ^ k := zpow_pos two_pos k

theorem two_zpow_le {k l : Int} : (2 : Rat) ^ k ≤ 2 ^ l ↔ k ≤ l :=
  zpow_le_zpow_iff_right₀ one_lt_two

theorem two_zpow_lt {k l : Int} : (2 : Rat) ^ k < 2 ^ l ↔ k < l :=
  zpow_lt_zpow_iff_right₀ one_lt_two

theorem two_zpow_add (k l : Int) : (2 : Rat) ^ (k + l) = 2 ^ k * 2 ^ l :=
  zpow_add₀ two_ne_zero k l

theorem two_zpow_sub (k l : Int) : (2 : Rat) ^ (k - l) = 2 ^ k / 2 ^ l :=
  zpow_sub₀ two_ne_zero k l

theorem exists_two_zpow_div {k l : Int} (h : k ≤ l) : ∃ n : Int, (2 : Rat) ^ l / 2 ^ k = n := by
  obtain ⟨j, hj⟩ := Int.eq_ofNat_of_zero_le (Int.sub_nonneg.mpr h)
  refine ⟨2 ^ j, ?_⟩
  rw [← two_zpow_sub, hj]
  norm_cast

/-! ## The greatest power of two -/

theorem natLog2_bounds {n : Nat} (hn : n ≠ 0) :
    (2 : Rat) ^ (n.log2 : Int) ≤ n ∧ (n : Rat) < 2 ^ ((n.log2 : Int) + 1) := by
  constructor
  · rw [zpow_natCast]
    exact_mod_cast Nat.log2_self_le hn
  · exact_mod_cast Nat.lt_log2_self (n := n)

section Log

variable {q : Rat}

theorem log2_bounds (hq : 0 < q) : (2 : Rat) ^ log2 q ≤ q ∧ q < 2 ^ (log2 q + 1) := by
  have hquot : q = (q.num.natAbs : Rat) / q.den := by
    conv_lhs => rw [← Rat.num_div_den q]
    rw [Nat.cast_natAbs, abs_of_pos (Rat.num_pos.mpr hq)]
  have hden : (0 : Rat) < q.den := Nat.cast_pos.mpr q.den_pos
  obtain ⟨hn, hn'⟩ := natLog2_bounds (Int.natAbs_ne_zero.mpr (Rat.num_pos.mpr hq).ne')
  obtain ⟨hd, hd'⟩ := natLog2_bounds q.den_nz
  generalize hk : (q.num.natAbs.log2 : Int) = a at hn hn'
  generalize hl : (q.den.log2 : Int) = b at hd hd'
  have hlow : (2 : Rat) ^ (a - b - 1) < q := by
    rw [hquot, lt_div_iff₀ hden]
    calc (2 : Rat) ^ (a - b - 1) * q.den < 2 ^ (a - b - 1) * 2 ^ (b + 1) :=
          mul_lt_mul_of_pos_left hd' (two_zpow_pos _)
      _ = 2 ^ a := by rw [← two_zpow_add]; congr 1; omega
      _ ≤ _ := hn
  have hhigh : q < (2 : Rat) ^ (a - b + 1) := by
    rw [hquot, div_lt_iff₀ hden]
    calc (q.num.natAbs : Rat) < 2 ^ (a + 1) := hn'
      _ = 2 ^ (a - b + 1) * 2 ^ b := by rw [← two_zpow_add]; congr 1; omega
      _ ≤ _ := mul_le_mul_of_nonneg_left hd (two_zpow_pos _).le
  simp only [log2, hk, hl]
  split
  · next h => exact ⟨h, hhigh⟩
  · next h => exact ⟨hlow.le, by rw [sub_add_cancel]; exact not_le.mp h⟩

theorem le_log2_iff (hq : 0 < q) {k : Int} : k ≤ log2 q ↔ (2 : Rat) ^ k ≤ q := by
  obtain ⟨hlow, hhigh⟩ := log2_bounds hq
  constructor
  · exact fun h => (two_zpow_le.mpr h).trans hlow
  · intro h
    have := two_zpow_lt.mp (h.trans_lt hhigh)
    omega

theorem log2_lt_iff (hq : 0 < q) {k : Int} : log2 q < k ↔ q < (2 : Rat) ^ k := by
  rw [← not_le, le_log2_iff hq, not_le]

end Log

/-! ## The nearest integer -/

theorem abs_roundHalfEven_sub (q : Rat) : |(roundHalfEven q : Rat) - q| ≤ 1 / 2 := by
  have hlow : (q.floor : Rat) ≤ q := Int.floor_le q
  have hhigh : q < (q.floor : Rat) + 1 := Int.lt_floor_add_one q
  rw [abs_le]
  simp only [roundHalfEven]
  split
  · constructor <;> linarith
  · split
    · push_cast
      constructor <;> linarith
    · split <;> push_cast <;> constructor <;> linarith

theorem roundHalfEven_le {q : Rat} {n : Int} (h : q ≤ n) : roundHalfEven q ≤ n := by
  have := (abs_le.mp (abs_roundHalfEven_sub q)).2
  have hlt : (roundHalfEven q : Rat) < (n + 1 : Int) := by push_cast; linarith
  exact Int.lt_add_one_iff.mp (Int.cast_lt.mp hlt)

theorem le_roundHalfEven {q : Rat} {n : Int} (h : (n : Rat) ≤ q) : n ≤ roundHalfEven q := by
  have := (abs_le.mp (abs_roundHalfEven_sub q)).1
  have hlt : ((n - 1 : Int) : Rat) < roundHalfEven q := by push_cast; linarith
  exact Int.sub_one_lt_iff.mp (Int.cast_lt.mp hlt)

/-! ## Rounding at an exponent -/

/-- A positive rational in units of its exponent. -/
def scaled (q : Rat) : Rat := q / 2 ^ exponentOf q

/-- What rounding makes of a positive rational while the exponents last. -/
def rounded (q : Rat) : Rat := roundHalfEven (scaled q) * 2 ^ exponentOf q

section Positive

variable {q : Rat} (hq : 0 < q)
include hq

theorem scaled_pos : 0 < scaled q := div_pos hq (two_zpow_pos _)

theorem scaled_lt : scaled q < 2 ^ (53 : Int) := by
  rw [scaled, div_lt_iff₀ (two_zpow_pos _), ← two_zpow_add]
  refine (log2_bounds hq).2.trans_le (two_zpow_le.mpr ?_)
  simp only [exponentOf]
  omega

theorem le_scaled (h : minExponent < exponentOf q) : 2 ^ (52 : Int) ≤ scaled q := by
  rw [scaled, le_div_iff₀ (two_zpow_pos _), ← two_zpow_add, ← le_log2_iff hq]
  simp only [exponentOf] at h ⊢
  omega

theorem roundHalfEven_scaled_nonneg : 0 ≤ roundHalfEven (scaled q) :=
  le_roundHalfEven (by simpa using (scaled_pos hq).le)

theorem roundHalfEven_scaled_le : roundHalfEven (scaled q) ≤ mantissaLimit := by
  refine roundHalfEven_le ((scaled_lt hq).le.trans_eq ?_)
  norm_num [mantissaLimit]

theorem le_roundHalfEven_scaled (h : minExponent < exponentOf q) :
    leastNormal ≤ roundHalfEven (scaled q) := by
  refine le_roundHalfEven (le_trans (le_of_eq ?_) (le_scaled hq h))
  norm_num [leastNormal]

theorem rounded_nonneg : 0 ≤ rounded q :=
  mul_nonneg (Int.cast_nonneg (roundHalfEven_scaled_nonneg hq)) (two_zpow_pos _).le

theorem exponentOf_le {k : Int} (hk : minExponent ≤ k) (h : q ≤ 2 ^ k) : exponentOf q ≤ k := by
  have := two_zpow_le.mp ((log2_bounds hq).1.trans h)
  simp only [exponentOf]
  omega

/-- What is not above a power of two is not rounded above it. -/
theorem rounded_le {k : Int} (hk : minExponent ≤ k) (h : q ≤ 2 ^ k) : rounded q ≤ 2 ^ k := by
  obtain ⟨n, hn⟩ := exists_two_zpow_div (exponentOf_le hq hk h)
  have hle : roundHalfEven (scaled q) ≤ n :=
    roundHalfEven_le ((div_le_div_of_nonneg_right h (two_zpow_pos _).le).trans hn.le)
  rw [rounded, ← le_div_iff₀ (two_zpow_pos _), hn]
  exact Int.cast_le.mpr hle

/-- What is not below a power of two is not rounded below it. -/
theorem le_rounded {k : Int} (hk : minExponent ≤ k) (h : 2 ^ k ≤ q) : 2 ^ k ≤ rounded q := by
  rw [rounded, ← div_le_iff₀ (two_zpow_pos _)]
  by_cases he : exponentOf q ≤ k
  · obtain ⟨n, hn⟩ := exists_two_zpow_div he
    rw [hn]
    exact Int.cast_le.mpr <|
      le_roundHalfEven (hn.ge.trans (div_le_div_of_nonneg_right h (two_zpow_pos _).le))
  · have hnormal := le_roundHalfEven_scaled hq (lt_of_le_of_lt hk (not_le.mp he))
    have hone : (2 : Rat) ^ k / 2 ^ exponentOf q ≤ 1 :=
      (div_le_one (two_zpow_pos _)).mpr (two_zpow_le.mpr (not_le.mp he).le)
    have hcast : ((1 : Int) : Rat) ≤ roundHalfEven (scaled q) :=
      Int.cast_le.mpr (le_trans (by decide) hnormal)
    exact hone.trans (by simpa using hcast)

end Positive

/-! ## Packing -/

theorem mantissaLimit_eq : (mantissaLimit : Rat) = 2 ^ (53 : Int) := by norm_num [mantissaLimit]

theorem leastNormal_eq : (leastNormal : Rat) = 2 ^ (52 : Int) := by norm_num [leastNormal]

section Pack

variable {m : Nat} {e : Int} (hm : m ≤ mantissaLimit) (negative : Bool)
include hm

theorem pack_of_lt (hnormal : minExponent < e → leastNormal ≤ m)
    (h : (m : Rat) * 2 ^ e < 2 ^ (1024 : Int)) :
    ∃ n f, pack negative m e = .finite negative n f ∧ (n : Rat) * 2 ^ f = m * 2 ^ e := by
  rw [pack]
  by_cases hcarry : m = mantissaLimit
  · subst hcarry
    rw [mantissaLimit_eq, ← two_zpow_add, two_zpow_lt] at h
    simp only [if_true]
    rw [if_neg (by simp only [maxExponent]; omega)]
    refine ⟨_, _, rfl, ?_⟩
    rw [mantissaLimit_eq, leastNormal_eq, ← two_zpow_add, ← two_zpow_add]
    congr 1
    omega
  · simp only [if_neg hcarry]
    refine ⟨m, e, if_neg fun hlarge => ?_, rfl⟩
    have hleast : (leastNormal : Rat) ≤ m :=
      Nat.cast_le.mpr (hnormal (by simp only [maxExponent, minExponent] at *; omega))
    have hge : (2 : Rat) ^ (52 + e) ≤ m * 2 ^ e := by
      rw [two_zpow_add, ← leastNormal_eq]
      exact mul_le_mul_of_nonneg_right hleast (two_zpow_pos _).le
    have := two_zpow_lt.mp (hge.trans_lt h)
    simp only [maxExponent] at hlarge
    omega

theorem pack_of_le (h : 2 ^ (1024 : Int) ≤ (m : Rat) * 2 ^ e) :
    pack negative m e = .infinite negative := by
  rw [pack]
  by_cases hcarry : m = mantissaLimit
  · subst hcarry
    rw [mantissaLimit_eq, ← two_zpow_add, two_zpow_le] at h
    simp only [if_true]
    rw [if_pos (by simp only [maxExponent]; omega)]
  · simp only [if_neg hcarry]
    have hlimit : (m : Rat) < mantissaLimit := Nat.cast_lt.mpr (lt_of_le_of_ne hm hcarry)
    have hlt : (m : Rat) * 2 ^ e < 2 ^ (53 + e) := by
      rw [two_zpow_add, ← mantissaLimit_eq]
      exact mul_lt_mul_of_pos_right hlimit (two_zpow_pos _)
    have := two_zpow_lt.mp (h.trans_lt hlt)
    rw [if_pos (by simp only [maxExponent]; omega)]

end Pack

section Positive

variable {q : Rat} (hq : 0 < q)
include hq

theorem toNat_mul_eq_rounded :
    ((roundHalfEven (scaled q)).toNat : Rat) * 2 ^ exponentOf q = rounded q := by
  rw [rounded, ← Int.cast_natCast, Int.toNat_of_nonneg (roundHalfEven_scaled_nonneg hq)]

theorem toNat_roundHalfEven_le : (roundHalfEven (scaled q)).toNat ≤ mantissaLimit := by
  have := roundHalfEven_scaled_le hq
  omega

theorem ofPositive_of_lt (negative : Bool) (h : rounded q < 2 ^ (1024 : Int)) :
    ∃ m e, ofPositive negative q = .finite negative m e ∧ (m : Rat) * 2 ^ e = rounded q := by
  rw [← toNat_mul_eq_rounded hq] at h ⊢
  refine pack_of_lt (toNat_roundHalfEven_le hq) negative (fun he => ?_) h
  have := le_roundHalfEven_scaled hq he
  omega

theorem ofPositive_of_le (negative : Bool) (h : 2 ^ (1024 : Int) ≤ rounded q) :
    ofPositive negative q = .infinite negative := by
  rw [← toNat_mul_eq_rounded hq] at h
  exact pack_of_le (toNat_roundHalfEven_le hq) negative h

end Positive

end RepoSurvey.Binary64
