import RepoSurvey.Proofs.Analysis.Languages
import RepoSurvey.Proofs.Score.Exactness

/-!
# RepoSurvey.Proofs.Analysis.Percentages

How the share of a language in percent is rounded. The quotient is rounded to double precision
before it is made a percentage, which leaves the result so near the exact share
(`percentage_near`) that only a share in the middle of two integers is at stake. Such a share is an
odd number of halves of a percent, so there are one hundred cases (`percentage_halves`).
-/

namespace RepoSurvey.Analysis

open Binary64

/-! ## One percentage -/

theorem percentage_near {c n : Nat} (hn : 0 < n) (hc : c ≤ n) :
    ∃ r : Rat, percentage c n = r.floor ∧
      |r - (100 * c / n + 1 / 2)| ≤ 3 * 2 ^ (-47 : Int) := by
  have hpos : (0 : Rat) < n := Nat.cast_pos.mpr hn
  have hratio0 : (0 : Rat) ≤ c / n := by positivity
  have hratio1 : (c : Rat) / n ≤ 1 := by
    rw [div_le_one hpos]
    exact_mod_cast hc
  have hratio : |(c : Rat) / n| ≤ 1 := by rwa [abs_of_nonneg hratio0]
  have hhundred : Near (ofRat 100) 100 0 := by
    exact_mod_cast near_ofRat_intCast (n := 100) (by decide) (by decide)
  have hshare : Near (ofRat ((c : Rat) / n)) (c / n) (2 ^ (-54 : Int)) :=
    near_ofRat (k := 0) (by decide) (by simpa using hratio)
  have hproduct := hshare.mul (k := 7) (by decide) hhundred hratio
    (by norm_num : |(100 : Rat)| ≤ 100) (by norm_num)
  obtain ⟨r, hr, hnear⟩ := Score.roundHalfUp_near (k := 7) (by decide) hproduct (by
    rw [abs_of_nonneg (by linarith)]
    norm_num
    linarith)
  refine ⟨r, ?_, ?_⟩
  · rw [percentage, Nat.max_eq_right hn, hr]
    rfl
  · rw [mul_div_assoc, mul_comm (100 : Rat)]
    refine hnear.trans ?_
    norm_num

theorem percentage_of_ratio {c n k : Nat} (hn : 0 < n) (h : 200 * c = k * n) :
    percentage c n = percentage k 200 := by
  have hratio : (c : Rat) / n = k / (200 : Nat) := by
    rw [div_eq_div_iff (by exact_mod_cast hn.ne') (by norm_num)]
    exact_mod_cast (by rw [← h, Nat.mul_comm])
  rw [percentage, percentage, Nat.max_eq_right hn, Nat.max_eq_right (by decide), hratio]

/-- The percentage of a count in a total with halves rounded up. -/
def halfUp (c n : Nat) : Int := (200 * c + n) / (2 * n)

theorem halfUp_of_ratio {c n k : Nat} (hn : 0 < n) (h : 200 * c = k * n) :
    halfUp c n = halfUp k 200 := by
  have hpos : (0 : Int) < n := by exact_mod_cast hn
  rw [halfUp, halfUp, show (200 * c : Int) = k * n by exact_mod_cast h, ← add_one_mul,
    Int.mul_ediv_mul_of_pos_left _ _ hpos]
  omega

/-- The shares, in halves of a percent, that are rounded down. -/
def lowShares : List Nat := [29, 57, 113, 115]

theorem percentage_halves : ∀ j < 100, percentage (2 * j + 1) 200 =
    if 2 * j + 1 ∈ lowShares then halfUp (2 * j + 1) 200 - 1 else halfUp (2 * j + 1) 200 := by
  decide +kernel

/-- Whether a number is the percentage of a count in a total with halves rounded up, as far as
double precision allows: it is one less for a few shares in the middle of two integers, and only
enormous totals have other shares that could be taken for such ones. -/
structure IsPercentage (p : Int) (c n : Nat) : Prop where
  near : |(p : Rat) - 100 * c / n| ≤ 1 / 2 + 2 ^ (-45 : Int)
  low : ∀ k ∈ lowShares, 200 * c = k * n → p = halfUp c n - 1
  exact : (∀ k ∈ lowShares, 200 * c ≠ k * n) → 2 * n ∣ 200 * c + n ∨ n ≤ 2 ^ 44 → p = halfUp c n

theorem percentage_of_middle {k c n : Nat} (hn : 0 < n) (hc : c ≤ n) (hodd : k % 2 = 1)
    (hk : 200 * c = k * n) :
    percentage c n = if k ∈ lowShares then halfUp c n - 1 else halfUp c n := by
  have hk200 : k ≤ 200 := by
    by_contra hlt
    have := Nat.mul_le_mul_right n (not_le.mp hlt)
    omega
  have hcase := percentage_halves (k / 2) (by omega)
  rw [show 2 * (k / 2) + 1 = k by omega] at hcase
  rw [percentage_of_ratio hn hk, halfUp_of_ratio hn hk, hcase]

/-- A share that is not in the middle of two integers is far enough from it in double precision. -/
theorem percentage_of_not_middle {c n : Nat} (hn : 0 < n) (hc : c ≤ n)
    (hmiddle : ¬ 2 * n ∣ 200 * c + n) (hsmall : n ≤ 2 ^ 44) : percentage c n = halfUp c n := by
  obtain ⟨r, hr, hnear⟩ := percentage_near hn hc
  have hsmall : (n : Rat) ≤ 17592186044416 := by exact_mod_cast hsmall
  have hpos : (0 : Rat) < n := by exact_mod_cast hn
  have hquotient : |r - ((200 * c + n : Int) : Rat) / (2 * n : Int)| < 1 / (2 * n : Int) := by
    push_cast
    rw [show (200 * c + n : Rat) / (2 * n) = 100 * c / n + 1 / 2 by field_simp; ring,
      lt_div_iff₀ (by linarith)]
    refine (mul_le_mul_of_nonneg_right hnear (by linarith)).trans_lt ?_
    norm_num
    linarith
  rw [hr, floor_of_near_quotient (by omega) hquotient,
    if_neg fun hand => hmiddle (by exact_mod_cast hand.1), halfUp]

theorem isPercentage_percentage {c n : Nat} (hn : 0 < n) (hc : c ≤ n) :
    IsPercentage (percentage c n) c n := by
  constructor
  case near =>
    obtain ⟨r, hr, hnear⟩ := percentage_near hn hc
    have hfloor : ((r.floor : Int) : Rat) ≤ r := Int.floor_le r
    have hfloor' : r < (r.floor : Int) + 1 := Int.lt_floor_add_one r
    rw [hr]
    obtain ⟨hlow, hhigh⟩ := abs_le.mp hnear
    rw [abs_le]
    norm_num at hlow hhigh ⊢
    constructor <;> linarith
  case low =>
    intro k hk h
    have hodd : ∀ k ∈ lowShares, k % 2 = 1 := by decide
    rw [percentage_of_middle hn hc (hodd k hk) h, if_pos hk]
  case exact =>
    intro hother hcase
    by_cases hmiddle : 2 * n ∣ 200 * c + n
    · -- A share in the middle of two integers is one of the cases.
      obtain ⟨m, hm⟩ := hmiddle
      have hm0 : m ≠ 0 := by
        rintro rfl
        omega
      have hk : 200 * c = (2 * m - 1) * n := by
        rw [Nat.sub_mul, one_mul, mul_right_comm, ← hm, Nat.add_sub_cancel]
      rw [percentage_of_middle hn hc (by omega) hk, if_neg fun hlow => hother _ hlow hk]
    · exact percentage_of_not_middle hn hc hmiddle (hcase.resolve_left hmiddle)

/-! ## The languages of a snapshot -/

/-- Every language of a snapshot has the percentage of its files in all files. -/
theorem percentages_of_run (limits : Limits) (now : Int) (name : Value) (manifest : List Value)
    (options : Value) {s : Snapshot}
    (h : (run limits now name manifest options).result = .ok s) :
    ∀ share ∈ s.languages, IsPercentage share.percentage
      (s.entries.filter (·.language = share.language)).length s.entries.length := by
  intro share hshare
  rw [languages_eq h, mem_languageShares_iff] at hshare
  obtain ⟨l, hl, rfl⟩ := hshare
  have hcount : (s.entries.map (·.language)).count l ≤ s.entries.length :=
    List.count_le_length.trans_eq (List.length_map _)
  rw [length_filter_eq_count]
  exact isPercentage_percentage ((List.count_pos_iff.mpr hl).trans_le hcount) hcount

/-- Twenty-three files in one language and seventeen in another. -/
def fortyFiles : List Value :=
  ((List.range 23).map fun i => .object [("name", .text ("a" ++ toString i ++ ".py"))]) ++
    (List.range 17).map fun i => .object [("name", .text ("b" ++ toString i ++ ".ts"))]

/-- Twenty-three of forty files are fifty-seven and a half percent, which is rounded down. -/
theorem percentages_of_forty :
    ∃ s, (run {} 0 (.text "r") fortyFiles .null).result = .ok s ∧
      ∃ share ∈ s.languages, share.language = "Python" ∧ share.fileCount = 23 ∧
        s.entries.length = 40 ∧ share.percentage = 57 ∧ halfUp 23 40 = 58 := by
  have hentries : (run {} 0 (.text "r") fortyFiles .null).result.toOption.map
      (fun s => s.entries.map (·.language)) =
      some (List.replicate 23 "Python" ++ List.replicate 17 "TypeScript") := by decide +kernel
  obtain ⟨s, hrun, hs⟩ := Except.toOption_map_eq_some_iff.mp hentries
  have hcount : (s.entries.map (·.language)).count "Python" = 23 := by
    rw [hs]
    decide
  have hlength : s.entries.length = 40 := by
    rw [← List.length_map (f := Entry.language), hs]
    decide
  have hshare : ⟨"Python", 23, percentage 23 40⟩ ∈ s.languages := by
    rw [languages_eq hrun, mem_languageShares_iff]
    refine ⟨"Python", List.count_pos_iff.mp (by omega), ?_⟩
    rw [hcount, hlength]
    rfl
  have hpercentage := percentages_of_run {} 0 (.text "r") fortyFiles .null hrun _ hshare
  rw [length_filter_eq_count, hcount, hlength] at hpercentage
  exact ⟨s, hrun, _, hshare, rfl, rfl, hlength, hpercentage.low 115 (by decide) (by decide),
    by decide⟩

end RepoSurvey.Analysis
