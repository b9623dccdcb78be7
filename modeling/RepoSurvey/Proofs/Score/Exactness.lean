import Mathlib.Algebra.Order.BigOperators.Group.List
import RepoSurvey.Proofs.Binary64.Error
import RepoSurvey.Proofs.Score

/-!
# RepoSurvey.Proofs.Score.Exactness

How the final score relates to the weighted sum without rounding. The sum in double precision is so
near the exact one (`weightedSum_near`) that it makes a difference only in the middle of two
integers, which must be rounded up: there the score is one too low if the sum in double precision
falls below the middle, and right otherwise (`final_rounds`).
-/

namespace RepoSurvey.Score

open Binary64

/-! ## Rounding -/

theorem toRat?_half : (ofRat (1 / 2)).toRat? = some (1 / 2) := by decide +kernel

theorem roundHalfUp_of_toRat? {x : Binary64} {v : Rat} (hx : x.toRat? = some v) {k : Nat}
    (hk : k < 1024) (h : |v + 1 / 2| ≤ 2 ^ (k : Int)) :
    roundHalfUp x = .ok (nearest (v + 1 / 2)).floor := by
  obtain ⟨r, hr, _⟩ := within_ofRat hk h
  have hsum := toRat?_add hx toRat?_half
  rw [hr, toRat?_ofRat_eq_some hr] at hsum
  rw [roundHalfUp, floor_of_toRat? hsum]
  rfl

theorem roundHalfUp_near {x : Binary64} {q ε : Rat} {k : Nat} (hk : k < 1024) (hx : Near x q ε)
    (h : |q + 1 / 2| + ε ≤ 2 ^ (k : Int)) :
    ∃ r, roundHalfUp x = .ok r.floor ∧ |r - (q + 1 / 2)| ≤ ε + 2 ^ ((k : Int) - 54) := by
  obtain ⟨v, hv, hnear⟩ := hx
  rw [← add_sub_add_right_eq_sub v q (1 / 2)] at hnear
  have hwithin : |v + 1 / 2| ≤ 2 ^ (k : Int) := by
    have := abs_sub_abs_le_abs_sub (v + 1 / 2) (q + 1 / 2)
    linarith
  refine ⟨_, roundHalfUp_of_toRat? hv hk hwithin, (abs_sub_le _ (v + 1 / 2) _).trans ?_⟩
  have := abs_nearest_sub_le hwithin
  linarith

/-! ## The weighted sum -/

theorem weighted_near {n : Int} (h0 : 0 ≤ n) (h100 : n ≤ 100) {w : Rat} (hw0 : 0 ≤ w)
    (hw1 : w ≤ 1) : ∃ x, weighted n w = .ok x ∧ Near x (n * w) (3 * 2 ^ (-47 : Int)) := by
  have hn : |(n : Rat)| ≤ 100 := by
    rw [abs_of_nonneg (Int.cast_nonneg h0)]
    exact_mod_cast h100
  have hw : |w| ≤ 1 := by rwa [abs_of_nonneg hw0]
  obtain ⟨y, hy, hnear⟩ := near_of_ofInt? (k := 7) (n := n) (by decide)
    (by rw [abs_of_nonneg h0]; omega)
  have hweight : Near (ofRat w) w (2 ^ (-54 : Int)) :=
    near_ofRat (k := 0) (by decide) (by simpa using hw)
  refine ⟨y.mul (ofRat w), by rw [weighted, hy], ?_⟩
  exact (hnear.mul (k := 7) (by decide) hweight hn hw (by norm_num)).mono (by norm_num)

/-- The weighted sum of some categories, without rounding. -/
def exactSum (s : CategoryScores) (ws : List (Category × Rat)) : Rat :=
  (ws.map fun w => (s.get w.1 : Rat) * w.2).sum

theorem weightedSum_near {s : CategoryScores} (hs : s.InRange) {acc : Binary64} {q ε : Rat}
    (hacc : Near acc q ε) (hq : 0 ≤ q) (hε : 0 ≤ ε) {ws : List (Category × Rat)}
    (hws : ∀ w ∈ ws, 0 ≤ w.2 ∧ w.2 ≤ 1)
    (h : q + 100 * (ws.map (·.2)).sum + (ε + ws.length * 2 ^ (-45 : Int)) ≤ 2 ^ (7 : Int)) :
    ∃ x, weightedSum s acc ws = .ok x ∧
      Near x (q + exactSum s ws) (ε + ws.length * 2 ^ (-45 : Int)) := by
  induction ws generalizing acc q ε with
  | nil => exact ⟨acc, rfl, by simpa [exactSum] using hacc⟩
  | cons w ws ih =>
    obtain ⟨h0, h100⟩ := hs w.1
    obtain ⟨hw0, hw1⟩ := hws w List.mem_cons_self
    have hrest : ∀ v ∈ ws, 0 ≤ v.2 ∧ v.2 ≤ 1 := fun v hv => hws v (List.mem_cons_of_mem w hv)
    have hweights : 0 ≤ (ws.map (·.2)).sum := List.sum_nonneg fun v hv => by
      obtain ⟨u, hu, rfl⟩ := List.mem_map.mp hv
      exact (hrest u hu).1
    have hterm0 : 0 ≤ (s.get w.1 : Rat) * w.2 := mul_nonneg (Int.cast_nonneg h0) hw0
    have hterm : (s.get w.1 : Rat) * w.2 ≤ 100 * w.2 :=
      mul_le_mul_of_nonneg_right (by exact_mod_cast h100) hw0
    have hlength : (0 : Rat) ≤ ws.length * 2 ^ (-45 : Int) := by positivity
    rw [List.map_cons, List.sum_cons, List.length_cons] at h
    push_cast at h
    obtain ⟨x, hx, hnear⟩ := weighted_near h0 h100 hw0 hw1
    have hsum : Near (acc.add x) (q + s.get w.1 * w.2) (ε + 2 ^ (-45 : Int)) := by
      refine (hacc.add (k := 7) (by decide) hnear ?_).mono ?_
      · rw [abs_of_nonneg (by linarith)]
        norm_num at h hlength ⊢
        linarith
      · norm_num
        linarith
    obtain ⟨y, hy, hnear'⟩ := ih hsum (by linarith) (by positivity) hrest (by linarith)
    refine ⟨y, by rw [weightedSum, hx]; exact hy, ?_⟩
    rw [exactSum, List.map_cons, List.sum_cons, List.length_cons]
    push_cast
    convert hnear' using 1
    · rw [exactSum]; ring
    · ring

/-! ## The final score -/

/-- The weighted sum of all categories in hundredths, without rounding. -/
def hundredths (s : CategoryScores) : Int :=
  35 * s.security + 25 * s.structural + 20 * s.consistency + 20 * s.completeness

theorem exactSum_weights (s : CategoryScores) : exactSum s weights = (hundredths s : Rat) / 100 := by
  simp only [exactSum, weights, hundredths, CategoryScores.get, List.map_cons, List.map_nil,
    List.sum_cons, List.sum_nil]
  push_cast
  ring

theorem hundredths_bounds {s : CategoryScores} (hs : s.InRange) :
    0 ≤ hundredths s ∧ hundredths s ≤ 10000 := by
  have h1 := hs .security
  have h2 := hs .structural
  have h3 := hs .consistency
  have h4 := hs .completeness
  simp only [CategoryScores.get] at h1 h2 h3 h4
  simp only [hundredths]
  omega

/-- When the exact sum lies in the middle of two integers. -/
theorem hundredths_mod_eq_iff (s : CategoryScores) :
    hundredths s % 100 = 50 ↔ s.structural % 4 = (s.security + 2) % 4 ∧
      (s.security + 2 * s.consistency + 2 * s.completeness) % 5 = 0 := by
  simp only [hundredths]
  omega

theorem weightedSum_is_nearest {s : CategoryScores} {acc x : Binary64} {ws : List (Category × Rat)}
    (hws : ws ≠ []) (h : weightedSum s acc ws = .ok x) {v : Rat} (hv : x.toRat? = some v) :
    ∃ p, v = nearest p := by
  induction ws generalizing acc with
  | nil => exact absurd rfl hws
  | cons w ws ih =>
    rw [weightedSum] at h
    split at h
    · next y _ =>
      cases ws with
      | nil =>
        cases h
        obtain ⟨a, b, _, _, rfl⟩ := toRat?_add_eq_some hv
        exact ⟨a + b, rfl⟩
      | cons w' ws => exact ih (List.cons_ne_nil w' ws) h
    · cases h

/-- Only one combination has a half as its sum, and this sum is exact. -/
theorem weightedSum_half {s : CategoryScores} (hs : s.InRange) (h : hundredths s = 50)
    {x : Binary64} (hx : weightedSum s (zero false) weights = .ok x) :
    x.toRat? = some (1 / 2) := by
  have h1 := hs .security
  have h2 := hs .structural
  have h3 := hs .consistency
  have h4 := hs .completeness
  simp only [CategoryScores.get] at h1 h2 h3 h4
  simp only [hundredths] at h
  obtain ⟨consistency, completeness, security, structural⟩ := s
  dsimp only at *
  obtain rfl : security = 0 := by
    obtain hone | hzero : security = 1 ∨ security = 0 := by omega
    · omega
    · exact hzero
  obtain rfl : structural = 2 := by omega
  obtain rfl : consistency = 0 := by omega
  obtain rfl : completeness = 0 := by omega
  have hvalue : (weightedSum ⟨0, 0, 0, 2⟩ (zero false) weights).toOption.bind toRat? =
      some (1 / 2) := by decide +kernel
  rw [hx] at hvalue
  exact hvalue

/-- The rounded sum and a half reaches an integer whenever the sum reaches the middle below it. -/
theorem nearest_add_half_lt_iff {s : CategoryScores} (hs : s.InRange) {x : Binary64}
    (hx : weightedSum s (zero false) weights = .ok x) {v : Rat} (hv : x.toRat? = some v)
    (hnear : |v - hundredths s / 100| ≤ 2 ^ (-43 : Int)) {m : Int}
    (hm : hundredths s = 100 * m - 50) :
    nearest (v + 1 / 2) < m ↔ v < hundredths s / 100 := by
  have hexact : (hundredths s : Rat) / 100 = m - 1 / 2 := by
    rw [hm]
    push_cast
    ring
  have hbounds := hundredths_bounds hs
  rw [hexact] at hnear ⊢
  constructor
  · -- Numbers from the middle on are rounded to the integer at least.
    intro hlt
    by_contra hle
    have hmono := nearest_mono (show (m : Rat) ≤ v + 1 / 2 by linarith)
    rw [nearest_intCast (by omega) (by omega)] at hmono
    exact hmono.not_gt hlt
  · intro hlt
    by_cases hone : m = 1
    · subst hone
      rw [weightedSum_half hs (by omega) hx, Option.some.injEq] at hv
      subst hv
      norm_num at hlt
    · obtain ⟨p, rfl⟩ := weightedSum_is_nearest (by simp [weights]) hx hv
      refine nearest_add_half_lt (by omega) (by omega) ?_ hlt
      have := (abs_le.mp hnear).1
      norm_num at this
      linarith

theorem weightedSum_weights {s : CategoryScores} (hs : s.InRange) :
    ∃ x v, weightedSum s (zero false) weights = .ok x ∧ x.toRat? = some v ∧
      |v - hundredths s / 100| ≤ 2 ^ (-43 : Int) := by
  have hzero : Near (zero false) 0 0 := ⟨0, toRat?_zero false, by simp⟩
  have hweights : ∀ w ∈ weights, 0 ≤ w.2 ∧ w.2 ≤ 1 := by
    simp only [weights, List.forall_mem_cons]
    norm_num
  obtain ⟨x, hx, v, hv, hnear⟩ :=
    weightedSum_near hs hzero le_rfl le_rfl hweights (by norm_num [weights])
  rw [exactSum_weights, zero_add, zero_add] at hnear
  exact ⟨x, v, hx, hv, hnear.trans (by norm_num [weights])⟩

theorem nearest_add_half_near {s : CategoryScores} (hs : s.InRange) {v : Rat}
    (hnear : |v - hundredths s / 100| ≤ 2 ^ (-43 : Int)) :
    |v + 1 / 2| ≤ 2 ^ ((7 : Nat) : Int) ∧
      |nearest (v + 1 / 2) - ((hundredths s + 50 : Int) : Rat) / (100 : Int)| <
        1 / (100 : Int) := by
  obtain ⟨h0, h10000⟩ := hundredths_bounds hs
  have hwithin : |v + 1 / 2| ≤ 2 ^ ((7 : Nat) : Int) := by
    have h0' : (0 : Rat) ≤ hundredths s / 100 := by positivity
    have h100 : (hundredths s : Rat) / 100 ≤ 100 := by
      rw [div_le_iff₀ (by norm_num)]
      exact_mod_cast h10000
    obtain ⟨hlow, hhigh⟩ := abs_le.mp hnear
    rw [abs_le]
    norm_num at hlow hhigh ⊢
    constructor <;> linarith
  refine ⟨hwithin, (abs_sub_le _ (v + 1 / 2) _).trans_lt ?_⟩
  have hstep := abs_nearest_sub_le hwithin
  rw [show v + 1 / 2 - ((hundredths s + 50 : Int) : Rat) / (100 : Int) =
    v - hundredths s / 100 by push_cast; ring]
  norm_num at hstep hnear ⊢
  linarith

theorem final_rounds {s : CategoryScores} (hs : s.InRange) :
    ∃ x v, weightedSum s (zero false) weights = .ok x ∧ x.toRat? = some v ∧
      |v - hundredths s / 100| ≤ 2 ^ (-43 : Int) ∧
      final s = .ok (if hundredths s % 100 = 50 ∧ v < hundredths s / 100
        then (hundredths s + 50) / 100 - 1 else (hundredths s + 50) / 100) := by
  obtain ⟨x, v, hx, hv, hnear⟩ := weightedSum_weights hs
  obtain ⟨hwithin, hround⟩ := nearest_add_half_near hs hnear
  refine ⟨x, v, hx, hv, hnear, ?_⟩
  have htie : ((100 : Int) ∣ hundredths s + 50 ∧
      nearest (v + 1 / 2) < ((hundredths s + 50 : Int) : Rat) / (100 : Int)) ↔
      hundredths s % 100 = 50 ∧ v < hundredths s / 100 := by
    rw [show hundredths s % 100 = 50 ↔ (100 : Int) ∣ hundredths s + 50 by omega]
    refine and_congr_right ?_
    rintro ⟨m, hm⟩
    rw [← nearest_add_half_lt_iff hs hx hv hnear (m := m) (by omega), hm]
    push_cast
    rw [mul_div_cancel_left₀ _ (by norm_num)]
  have hbounds := hundredths_bounds hs
  rw [final, hx]
  simp only [roundHalfUp_of_toRat? hv (by decide) hwithin,
    floor_of_near_quotient (by decide) hround, htie, Except.map, clamp_eq]
  congr 1
  split_ifs <;> omega

end RepoSurvey.Score
