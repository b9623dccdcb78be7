import RepoSurvey.Proofs.Binary64.Rounding

/-!
# RepoSurvey.Proofs.Binary64.Range

The value of a result is the rounded value of the exact result, and it stays within the power of
two within which the exact result lies. So sums and products of numbers of moderate size are finite,
and an integer has no number of its own exactly if it is nearer to `2 ^ 1024` than to the greatest
number.
-/

namespace RepoSurvey.Binary64

/-! ## Values of results -/

/-- A magnitude with a sign. -/
def signed (negative : Bool) (q : Rat) : Rat := if negative then -q else q

theorem signed_zero (negative : Bool) : signed negative 0 = 0 := by cases negative <;> simp [signed]

theorem abs_signed (negative : Bool) (q : Rat) : |signed negative q| = |q| := by
  cases negative <;> simp [signed]

theorem toRat?_ofPositive {q : Rat} (hq : 0 < q) (negative : Bool)
    (h : rounded q < 2 ^ (1024 : Int)) :
    (ofPositive negative q).toRat? = some (signed negative (rounded q)) := by
  obtain ⟨m, e, hfinite, hvalue⟩ := ofPositive_of_lt hq negative h
  rw [hfinite, ← hvalue]
  rfl

theorem toRat?_zero (negative : Bool) : (zero negative).toRat? = some 0 := by
  simp [zero, toRat?]

theorem toRat?_eq_some {x : Binary64} {r : Rat} (h : x.toRat? = some r) :
    ∃ s m e, x = .finite s m e ∧ r = signed s (m * 2 ^ e) := by
  cases x with
  | finite s m e => exact ⟨s, m, e, rfl, (Option.some.inj h).symm⟩
  | _ => cases h

theorem toRat?_add {x y : Binary64} {r t : Rat} (hx : x.toRat? = some r) (hy : y.toRat? = some t) :
    (x.add y).toRat? = (ofRat (r + t)).toRat? := by
  obtain ⟨s, m, e, rfl, hr⟩ := toRat?_eq_some hx
  obtain ⟨u, n, f, rfl, ht⟩ := toRat?_eq_some hy
  have hsum : ofRat (r + t) =
      ofRat ((toRat? (.finite s m e)).getD 0 + (toRat? (.finite u n f)).getD 0) := by
    rw [hx, hy, Option.getD_some, Option.getD_some]
  cases m with
  | succ m => rw [hsum]; cases n <;> rfl
  | zero =>
    cases n with
    | succ n => rw [hsum]; rfl
    | zero =>
      -- Both are zeros, and only the sign of the sum can differ from that of the rounded value.
      rw [Nat.cast_zero, zero_mul, signed_zero] at hr ht
      subst hr ht
      simp [add, ofRat, toRat?_zero]

theorem ofPositive_signed {q : Rat} (hq : 0 < q) (negative : Bool) :
    ofRat (signed negative q) = ofPositive negative q := by
  cases negative
  · simp [signed, ofRat, hq.ne', hq.le.not_gt]
  · simp [signed, ofRat, hq.ne', hq]

theorem toRat?_mul {x y : Binary64} {r t : Rat} (hx : x.toRat? = some r) (hy : y.toRat? = some t) :
    (x.mul y).toRat? = (ofRat (r * t)).toRat? := by
  obtain ⟨s, m, e, rfl, rfl⟩ := toRat?_eq_some hx
  obtain ⟨u, n, f, rfl, rfl⟩ := toRat?_eq_some hy
  rw [mul]
  split
  · next h =>
    have hzero : signed s (m * 2 ^ e) * signed u (n * 2 ^ f) = 0 := by
      rcases h with rfl | rfl <;> simp [signed_zero]
    rw [hzero, toRat?_zero, ofRat, if_pos rfl, toRat?_zero]
  · next h =>
    obtain ⟨hm, hn⟩ := not_or.mp h
    have hpos : (0 : Rat) < m * 2 ^ e * (n * 2 ^ f) :=
      mul_pos (mul_pos (Nat.cast_pos.mpr (Nat.pos_of_ne_zero hm)) (two_zpow_pos e))
        (mul_pos (Nat.cast_pos.mpr (Nat.pos_of_ne_zero hn)) (two_zpow_pos f))
    have hsign : signed s (m * 2 ^ e) * signed u (n * 2 ^ f) =
        signed (s != u) (m * 2 ^ e * (n * 2 ^ f)) := by
      cases s <;> cases u <;> simp [signed]
    rw [hsign, ofPositive_signed hpos]

theorem floor_of_toRat? {x : Binary64} {r : Rat} (h : x.toRat? = some r) :
    x.floor = .ok r.floor := by
  cases x <;> simp_all [toRat?, floor]

/-! ## Finite numbers of moderate size -/

/-- A finite number not beyond a power of two. -/
def Within (k : Nat) (x : Binary64) : Prop := ∃ r, x.toRat? = some r ∧ |r| ≤ 2 ^ (k : Int)

theorem within_zero (k : Nat) (negative : Bool) : Within k (zero negative) :=
  ⟨0, toRat?_zero negative, abs_zero.trans_le (two_zpow_pos k).le⟩

theorem within_ofPositive {k : Nat} (hk : k < 1024) {q : Rat} (hq : 0 < q) (h : q ≤ 2 ^ (k : Int))
    (negative : Bool) : Within k (ofPositive negative q) := by
  have hle := rounded_le hq (by simp only [minExponent]; omega) h
  have hlt : rounded q < 2 ^ (1024 : Int) := hle.trans_lt (two_zpow_lt.mpr (by omega))
  refine ⟨_, toRat?_ofPositive hq negative hlt, ?_⟩
  rwa [abs_signed, abs_of_nonneg (rounded_nonneg hq)]

theorem within_ofRat {k : Nat} (hk : k < 1024) {q : Rat} (h : |q| ≤ 2 ^ (k : Int)) :
    Within k (ofRat q) := by
  rw [ofRat]
  split
  · exact within_zero k false
  · next hne =>
    split
    · next hneg => exact within_ofPositive hk (neg_pos.mpr hneg) ((neg_le_abs q).trans h) true
    · next hpos =>
      exact within_ofPositive hk (lt_of_le_of_ne (not_lt.mp hpos) (Ne.symm hne))
        ((le_abs_self q).trans h) false

theorem Within.add {k : Nat} (hk : k < 1023) {x y : Binary64} (hx : Within k x)
    (hy : Within k y) : Within (k + 1) (x.add y) := by
  obtain ⟨r, hr, hrk⟩ := hx
  obtain ⟨t, ht, htk⟩ := hy
  rw [Within, toRat?_add hr ht]
  refine within_ofRat (by omega) ((abs_add_le r t).trans ?_)
  rw [Nat.cast_succ, two_zpow_add, zpow_one]
  linarith

theorem Within.mul {k l : Nat} (hkl : k + l < 1024) {x y : Binary64} (hx : Within k x)
    (hy : Within l y) : Within (k + l) (x.mul y) := by
  obtain ⟨r, hr, hrk⟩ := hx
  obtain ⟨t, ht, htl⟩ := hy
  rw [Within, toRat?_mul hr ht]
  refine within_ofRat hkl ?_
  rw [abs_mul, Nat.cast_add, two_zpow_add]
  exact mul_le_mul hrk htl (abs_nonneg t) (two_zpow_pos k).le

theorem Within.mono {k l : Nat} (h : k ≤ l) {x : Binary64} (hx : Within k x) : Within l x := by
  obtain ⟨r, hr, hrk⟩ := hx
  exact ⟨r, hr, hrk.trans (two_zpow_le.mpr (by omega))⟩

theorem Within.floor_eq_ok {k : Nat} {x : Binary64} (hx : Within k x) : ∃ n, x.floor = .ok n := by
  obtain ⟨r, hr, _⟩ := hx
  exact ⟨_, floor_of_toRat? hr⟩

/-! ## Integers -/

theorem le_roundHalfEven_iff {n : Int} (hn : n % 2 = 0) (q : Rat) :
    n ≤ roundHalfEven q ↔ (n : Rat) - 1 / 2 ≤ q := by
  constructor
  · intro h
    have hcast : (n : Rat) ≤ roundHalfEven q := Int.cast_le.mpr h
    have := (abs_le.mp (abs_roundHalfEven_sub q)).2
    linarith
  · intro h
    by_cases hq : (n : Rat) ≤ q
    · exact le_roundHalfEven hq
    · have hfloor : q.floor = n - 1 := by
        refine (Int.floor_eq_iff (a := q)).mpr ⟨?_, ?_⟩
        · push_cast; linarith
        · push_cast; linarith
      -- On a tie the even neighbour is the upper one.
      simp only [roundHalfEven, hfloor]
      push_cast
      split
      · linarith
      · split
        · omega
        · rw [if_neg (by omega)]
          omega

/-- Rounding leaves the range from half a unit below `2 ^ 1024` on. -/
theorem overflow_iff {q : Rat} (hq : 0 < q) :
    2 ^ (1024 : Int) ≤ rounded q ↔ (2 : Rat) ^ (1024 : Int) - 2 ^ (970 : Int) ≤ q := by
  have hdouble : (2 : Rat) ^ (1024 : Int) = 2 ^ (1023 : Int) + 2 ^ (1023 : Int) := by
    rw [← two_mul, ← zpow_one_add₀ two_ne_zero]
    rfl
  have hunit : (2 : Rat) ^ (970 : Int) < 2 ^ (1023 : Int) := two_zpow_lt.mpr (by decide)
  have hpos := two_zpow_pos 970
  by_cases hlow : q < 2 ^ (1023 : Int)
  · have hle := rounded_le hq (k := 1023) (by decide) hlow.le
    rw [hdouble]
    clear hdouble
    generalize (2 : Rat) ^ (1023 : Int) = a at *
    generalize (2 : Rat) ^ (970 : Int) = b at *
    constructor <;> intro h <;> linarith
  by_cases hhigh : 2 ^ (1024 : Int) ≤ q
  · have hge := le_rounded hq (k := 1024) (by decide) hhigh
    exact ⟨fun _ => (sub_lt_self _ hpos).le.trans hhigh, fun _ => hge⟩
  have hlog : log2 q = 1023 := by
    have h1 := (le_log2_iff hq).mpr (not_lt.mp hlow)
    have h2 := (log2_lt_iff hq).mpr (not_le.mp hhigh)
    omega
  have hexp : exponentOf q = 971 := by rw [exponentOf, hlog]; rfl
  have hlimit : (2 : Rat) ^ (1024 : Int) = ((2 ^ 53 : Int) : Rat) * 2 ^ (971 : Int) := by
    rw [show (1024 : Int) = 53 + 971 from rfl, two_zpow_add]
    norm_num
  have hhalf : (2 : Rat) ^ (970 : Int) = 1 / 2 * 2 ^ (971 : Int) := by
    rw [show (970 : Int) = -1 + 971 from rfl, two_zpow_add, zpow_neg_one, one_div]
  have hunit' := two_zpow_pos 971
  rw [rounded, hexp, hlimit, mul_le_mul_iff_of_pos_right hunit', Int.cast_le,
    le_roundHalfEven_iff (by decide), scaled, hexp, le_div_iff₀ hunit', sub_mul, hhalf]

/-- The integers from here on have no number of their own. -/
def integerLimit : Int := 2 ^ 1024 - 2 ^ 970

theorem ofRat_infinite_iff (q : Rat) :
    (∃ s, ofRat q = .infinite s) ↔ (2 : Rat) ^ (1024 : Int) - 2 ^ (970 : Int) ≤ |q| := by
  have hpositive : ∀ {q : Rat} (hq : 0 < q) (negative : Bool),
      (∃ s, ofPositive negative q = .infinite s) ↔
        (2 : Rat) ^ (1024 : Int) - 2 ^ (970 : Int) ≤ q := by
    intro q hq negative
    rw [← overflow_iff hq]
    constructor
    · rintro ⟨s, hs⟩
      by_contra h
      obtain ⟨m, e, hfinite, _⟩ := ofPositive_of_lt hq negative (not_le.mp h)
      rw [hfinite] at hs
      cases hs
    · exact fun h => ⟨negative, ofPositive_of_le hq negative h⟩
  rw [ofRat]
  split
  · next h =>
    subst h
    have hlt : (2 : Rat) ^ (970 : Int) < 2 ^ (1024 : Int) := two_zpow_lt.mpr (by decide)
    simp only [zero, reduceCtorEq, exists_false, abs_zero, false_iff, not_le]
    exact sub_pos.mpr hlt
  · next hne =>
    split
    · next hneg => rw [hpositive (neg_pos.mpr hneg), abs_of_neg hneg]
    · next hnonneg =>
      have hq : 0 < q := lt_of_le_of_ne (not_lt.mp hnonneg) (Ne.symm hne)
      rw [hpositive hq, abs_of_pos hq]

/-- An integer is out of range exactly from the limit on. -/
theorem ofInt?_eq_none_iff (n : Int) : ofInt? n = none ↔ integerLimit ≤ |n| := by
  have hcast : (2 : Rat) ^ (1024 : Int) - 2 ^ (970 : Int) = (integerLimit : Rat) := by
    rw [integerLimit, Int.cast_sub, Int.cast_pow, Int.cast_pow]
    rfl
  rw [← Int.cast_le (R := Rat), Int.cast_abs, ← hcast, ← ofRat_infinite_iff, ofInt?]
  cases ofRat (n : Rat) <;> simp

theorem Within.not_infinite {k : Nat} {s : Bool} (h : Within k (.infinite s)) : False := by
  obtain ⟨r, hr, _⟩ := h
  cases hr

theorem ofInt?_within {k : Nat} (hk : k < 1024) {n : Int} (h : |n| ≤ 2 ^ k) :
    ∃ x, ofInt? n = some x ∧ Within k x := by
  have hwithin : Within k (ofRat n) := within_ofRat hk (by exact_mod_cast h)
  rw [ofInt?]
  split
  · next s hinfinite => exact (hinfinite ▸ hwithin).not_infinite.elim
  · exact ⟨_, rfl, hwithin⟩

theorem ofQuotient?_within {k : Nat} (hk : k < 1024) {a b : Int} (hb : 0 < b) (h : |a| ≤ 2 ^ k) :
    ∃ x, ofQuotient? a b = some x ∧ Within k x := by
  have hwithin : Within k (ofRat ((a : Rat) / b)) := by
    refine within_ofRat hk ?_
    have hone : (1 : Rat) ≤ |(b : Rat)| := by
      rw [abs_of_pos (Int.cast_pos.mpr hb)]
      exact_mod_cast hb
    rw [abs_div]
    refine (div_le_self (abs_nonneg _) hone).trans ?_
    exact_mod_cast h
  rw [ofQuotient?]
  split
  · next s hinfinite => exact (hinfinite ▸ hwithin).not_infinite.elim
  · exact ⟨_, rfl, hwithin⟩

end RepoSurvey.Binary64
