import RepoSurvey.Proofs.Binary64.Range

/-!
# RepoSurvey.Proofs.Binary64.Order

Rounding keeps the order of numbers. `nearest q` is the value of the number next to a rational of
either sign, as long as the exponents last; sums are `nearest` of the exact sum
(`toRat?_add_eq_some`), and comparisons with an integer that is not too large see `nearest` even
where the number itself is infinite (`gtInt_ofRat_iff`).
-/

namespace RepoSurvey.Binary64

/-! ## Monotone rounding -/

theorem roundHalfEven_mono {q r : Rat} (h : q ≤ r) : roundHalfEven q ≤ roundHalfEven r := by
  have hfloor : q.floor ≤ r.floor := Int.floor_le_floor h
  by_cases heq : q.floor = r.floor
  · simp only [roundHalfEven, heq]
    split_ifs <;> first | omega | linarith
  · -- Both are rounded to integers on their own side of the floor of the greater one.
    have hlt : q < (q.floor : Rat) + 1 := Int.lt_floor_add_one q
    calc roundHalfEven q ≤ q.floor + 1 := roundHalfEven_le (by push_cast; exact hlt.le)
      _ ≤ r.floor := by omega
      _ ≤ roundHalfEven r := le_roundHalfEven (Int.floor_le r)

theorem log2_mono {q r : Rat} (hq : 0 < q) (h : q ≤ r) : log2 q ≤ log2 r := by
  rw [le_log2_iff (hq.trans_le h)]
  exact (log2_bounds hq).1.trans h

theorem rounded_mono {q r : Rat} (hq : 0 < q) (h : q ≤ r) : rounded q ≤ rounded r := by
  have hr : 0 < r := hq.trans_le h
  have hlog := log2_mono hq h
  by_cases hexp : exponentOf q = exponentOf r
  · have hscaled : scaled q ≤ scaled r := by
      rw [scaled, scaled, hexp]
      exact div_le_div_of_nonneg_right h (two_zpow_pos _).le
    rw [rounded, rounded, hexp]
    exact mul_le_mul_of_nonneg_right (Int.cast_le.mpr (roundHalfEven_mono hscaled))
      (two_zpow_pos _).le
  · -- A power of two lies between the two, and neither is rounded across it.
    have hmin : minExponent ≤ log2 r := by
      simp only [exponentOf] at hexp
      omega
    have hbetween : q ≤ 2 ^ log2 r := by
      refine (log2_bounds hq).2.le.trans (two_zpow_le.mpr ?_)
      simp only [exponentOf] at hexp
      omega
    exact (rounded_le hq hmin hbetween).trans (le_rounded hr hmin (log2_bounds hr).1)

/-- The value of the number next to a rational, as if there were no greatest exponent. -/
def nearest (q : Rat) : Rat :=
  if q = 0 then 0 else if q < 0 then -rounded (-q) else rounded q

theorem nearest_of_pos {q : Rat} (hq : 0 < q) : nearest q = rounded q := by
  rw [nearest, if_neg hq.ne', if_neg hq.le.not_gt]

theorem nearest_of_neg {q : Rat} (hq : q < 0) : nearest q = -rounded (-q) := by
  rw [nearest, if_neg hq.ne, if_pos hq]

theorem nearest_nonneg {q : Rat} (hq : 0 ≤ q) : 0 ≤ nearest q := by
  rcases hq.eq_or_lt with rfl | hpos
  · simp [nearest]
  · rw [nearest_of_pos hpos]
    exact rounded_nonneg hpos

theorem nearest_nonpos {q : Rat} (hq : q ≤ 0) : nearest q ≤ 0 := by
  rcases hq.eq_or_lt with rfl | hneg
  · simp [nearest]
  · rw [nearest_of_neg hneg, neg_nonpos]
    exact rounded_nonneg (neg_pos.mpr hneg)

theorem nearest_mono {q r : Rat} (h : q ≤ r) : nearest q ≤ nearest r := by
  by_cases hq : 0 < q
  · rw [nearest_of_pos hq, nearest_of_pos (hq.trans_le h)]
    exact rounded_mono hq h
  · by_cases hr : r < 0
    · rw [nearest_of_neg hr, nearest_of_neg (h.trans_lt hr), neg_le_neg_iff]
      exact rounded_mono (neg_pos.mpr hr) (neg_le_neg h)
    · exact (nearest_nonpos (not_lt.mp hq)).trans (nearest_nonneg (not_lt.mp hr))

/-! ## Values of results -/

/-- A number is finite and has the value of the rounded rational, or the rounded rational is beyond
the range. -/
theorem ofRat_finite_or_infinite (q : Rat) :
    (ofRat q).toRat? = some (nearest q) ∨
      (2 : Rat) ^ (1024 : Int) ≤ |nearest q| ∧ ofRat q = .infinite (decide (q < 0)) := by
  have hpositive : ∀ {p : Rat}, 0 < p → ∀ negative,
      (ofPositive negative p).toRat? = some (signed negative (rounded p)) ∨
        (2 : Rat) ^ (1024 : Int) ≤ rounded p ∧ ofPositive negative p = .infinite negative := by
    intro p hp negative
    by_cases hlt : rounded p < 2 ^ (1024 : Int)
    · exact .inl (toRat?_ofPositive hp negative hlt)
    · exact .inr ⟨not_lt.mp hlt, ofPositive_of_le hp negative (not_lt.mp hlt)⟩
  rcases lt_trichotomy q 0 with hneg | rfl | hpos
  · have hvalue : ofRat q = ofPositive true (-q) := by rw [ofRat, if_neg hneg.ne, if_pos hneg]
    rw [hvalue, nearest_of_neg hneg, abs_neg,
      abs_of_nonneg (rounded_nonneg (neg_pos.mpr hneg)), decide_eq_true hneg]
    exact hpositive (neg_pos.mpr hneg) true
  · left
    simp [ofRat, nearest, toRat?_zero]
  · have hvalue : ofRat q = ofPositive false q := by
      rw [ofRat, if_neg hpos.ne', if_neg hpos.le.not_gt]
    rw [hvalue, nearest_of_pos hpos, abs_of_nonneg (rounded_nonneg hpos),
      decide_eq_false hpos.le.not_gt]
    exact hpositive hpos false

theorem toRat?_ofRat_eq_some {q r : Rat} (h : (ofRat q).toRat? = some r) : r = nearest q := by
  obtain hfinite | ⟨_, hinfinite⟩ := ofRat_finite_or_infinite q
  · rw [hfinite] at h
    exact (Option.some.inj h).symm
  · rw [hinfinite] at h
    cases h

theorem toRat?_add_eq_some {x y : Binary64} {r : Rat} (h : (x.add y).toRat? = some r) :
    ∃ a b, x.toRat? = some a ∧ y.toRat? = some b ∧ r = nearest (a + b) := by
  cases x with
  | nan => cases h
  | infinite s =>
    cases y with
    | nan => cases h
    | infinite t => cases s <;> cases t <;> cases h
    | finite => cases h
  | finite s m e =>
    cases y with
    | nan => cases h
    | infinite t => cases h
    | finite t n f =>
      rw [toRat?_add rfl rfl] at h
      exact ⟨_, _, rfl, rfl, toRat?_ofRat_eq_some h⟩

theorem toRat?_of_ofInt? {n : Int} {x : Binary64} (h : ofInt? n = some x) :
    x.toRat? = some (nearest n) := by
  obtain hfinite | ⟨_, hinfinite⟩ := ofRat_finite_or_infinite (n : Rat)
  · rw [ofInt?] at h
    split at h
    · cases h
    · cases h
      exact hfinite
  · rw [ofInt?, hinfinite] at h
    cases h

theorem floor_eq_ok_iff {x : Binary64} {n : Int} :
    x.floor = .ok n ↔ ∃ r, x.toRat? = some r ∧ r.floor = n := by
  cases x <;> simp [floor, toRat?]

/-! ## Comparison with integers -/

theorem gtInt_of_toRat? {x : Binary64} {r : Rat} (h : x.toRat? = some r) (n : Int) :
    x.gtInt n = decide ((n : Rat) < r) := by
  cases x <;> simp_all [toRat?, gtInt]

theorem gtInt_ofRat_iff {q : Rat} (hq : 0 ≤ q) {n : Int} {k : Nat} (hk : k < 1024)
    (hn : n ≤ 2 ^ k) : (ofRat q).gtInt n = true ↔ (n : Rat) < nearest q := by
  obtain hfinite | ⟨hlarge, hinfinite⟩ := ofRat_finite_or_infinite q
  · rw [gtInt_of_toRat? hfinite, decide_eq_true_eq]
  · have hle : (n : Rat) ≤ 2 ^ (k : Int) := by
      rw [zpow_natCast]
      exact_mod_cast hn
    have hlt : (n : Rat) < 2 ^ (1024 : Int) := hle.trans_lt (two_zpow_lt.mpr (by omega))
    rw [abs_of_nonneg (nearest_nonneg hq)] at hlarge
    rw [hinfinite, decide_eq_false hq.not_gt]
    simp [gtInt, hlt.trans_le hlarge]

theorem leInt_ofRat (q : Rat) (n : Int) : (ofRat q).leInt n = !(ofRat q).gtInt n := by
  obtain hfinite | ⟨_, hinfinite⟩ := ofRat_finite_or_infinite q
  · obtain ⟨s, m, e, hx, _⟩ := toRat?_eq_some hfinite
    rw [hx]
    rfl
  · rw [hinfinite]
    rfl

end RepoSurvey.Binary64
