import Mathlib.Data.List.TakeWhile
import RepoSurvey.Decimal.Numeral
import RepoSurvey.Proofs.Binary64.Order

/-!
# RepoSurvey.Proofs.Decimal.Integer

Reading the decimal text of an integer as a real number. Its digits are read back as they are, and
the integer is rounded once, so the text stands for the double-precision number next to the integer
(`real_toString`).
-/

namespace RepoSurvey

/-! ## Digits -/

namespace Text

theorem toNat_of_isDigit {c : Char} (h : c.isDigit = true) : 48 ≤ c.toNat ∧ c.toNat ≤ 57 := by
  simp only [Char.isDigit, Bool.and_eq_true, decide_eq_true_eq] at h
  exact ⟨UInt32.le_iff_toNat_le.mp h.1, UInt32.le_iff_toNat_le.mp h.2⟩

theorem digit?_of_isDigit {c : Char} (h : c.isDigit = true) : digit? c = some (c.toNat - 48) := by
  obtain ⟨hlow, hhigh⟩ := toNat_of_isDigit h
  have hascii : 48 ≤ c.toNat ∧ c.toNat < 48 + 10 := ⟨hlow, by omega⟩
  simp [digit?, digitStarts, hascii]

theorem isSpace_of_isDigit {c : Char} (h : c.isDigit = true) : isSpace c = false := by
  obtain ⟨hlow, hhigh⟩ := toNat_of_isDigit h
  simp only [isSpace, Bool.or_eq_false_iff, Bool.and_eq_false_iff, decide_eq_false_iff_not,
    beq_eq_false_iff_ne]
  omega

theorem toLower_of_isDigit {c : Char} (h : c.isDigit = true) : c.toLower = c := by
  obtain ⟨hlow, hhigh⟩ := toNat_of_isDigit h
  refine dif_neg ?_
  rintro ⟨hletter, -⟩
  have : 65 ≤ c.toNat := UInt32.le_iff_toNat_le.mp hletter
  omega

theorem trimBy_of_forall {p : Char → Bool} {cs : List Char} (h : ∀ c ∈ cs, p c = false) :
    trimBy p cs = cs := by
  have hkept : ∀ {cs : List Char}, (∀ c ∈ cs, p c = false) → cs.dropWhile p = cs := by
    intro cs h
    rw [List.dropWhile_eq_self_iff]
    intro hpos
    simp [h cs[0] (List.getElem_mem hpos)]
  rw [trimBy, hkept h, hkept fun c hc => h c (List.mem_reverse.mp hc), List.reverse_reverse]

end Text

namespace Decimal

theorem takeDigits_of_isDigit {cs : List Char} (h : ∀ c ∈ cs, c.isDigit = true)
    (underscores : Bool) (acc : List Nat) :
    takeDigits Text.digit? underscores acc cs =
      ((cs.map fun c => c.toNat - 48).reverse ++ acc, []) := by
  induction cs generalizing acc with
  | nil => rfl
  | cons c cs ih =>
    obtain ⟨hc, hcs⟩ := List.forall_mem_cons.mp h
    rw [takeDigits.eq_def]
    simp [Text.digit?_of_isDigit hc, ih hcs]

theorem ofDigits_reverse (cs : List Char) (acc : List Nat) :
    ofDigits 10 ((cs.map fun c => c.toNat - 48).reverse ++ acc) =
      Nat.ofDigitChars 10 cs (ofDigits 10 acc) := by
  induction cs generalizing acc with
  | nil => rfl
  | cons c cs ih =>
    have hacc : ofDigits 10 ((c.toNat - 48) :: acc) = 10 * ofDigits 10 acc + (c.toNat - 48) := by
      rw [ofDigits, Nat.mul_comm]
    rw [List.map_cons, List.reverse_cons, List.append_assoc, List.singleton_append, ih, hacc]
    rfl

theorem isDigit_of_mem_toDigits (n : Nat) : ∀ c ∈ Nat.toDigits 10 n, c.isDigit = true :=
  fun _ hc => Nat.isDigit_of_mem_toDigits (by decide) (by decide) hc

theorem takeDigits_toDigits (n : Nat) :
    ∃ ds, takeDigits Text.digit? true [] (Nat.toDigits 10 n) = (ds, []) ∧ ds ≠ [] ∧
      ofDigits 10 ds = n := by
  refine ⟨_, takeDigits_of_isDigit (isDigit_of_mem_toDigits n) true [], ?_, ?_⟩
  · simp [Nat.toDigits_ne_nil]
  · rw [ofDigits_reverse, ofDigits, Nat.ofDigitChars_toDigits (by decide) (by decide)]

/-! ## Numerals -/

theorem realOf_toDigits {cs : List Char} {negative : Bool} {n : Nat}
    (h : takeSign cs = (negative, Nat.toDigits 10 n)) :
    realOf Text.digit? true cs = some (.decimal negative n 0) := by
  have hword : ∀ w : List Char, 'n' ∈ w → (Nat.toDigits 10 n).map Char.toLower ≠ w := by
    rintro w hw rfl
    obtain ⟨c, hc, hlower⟩ := List.mem_map.mp hw
    have hdigit := isDigit_of_mem_toDigits n c hc
    rw [Text.toLower_of_isDigit hdigit] at hlower
    rw [hlower] at hdigit
    cases hdigit
  obtain ⟨ds, htake, hne, hvalue⟩ := takeDigits_toDigits n
  rw [realOf, h]
  simp only [hword "inf".toList (by decide), hword "infinity".toList (by decide),
    hword "nan".toList (by decide), or_self, if_false]
  simp [unsignedDecimal, htake, hne, hvalue]

theorem takeSign_toDigits (n : Nat) :
    takeSign (Nat.toDigits 10 n) = (false, Nat.toDigits 10 n) := by
  have hdigits := isDigit_of_mem_toDigits n
  rw [takeSign.eq_def]
  split
  · next h => exact absurd (hdigits '-' (h ▸ List.mem_cons_self)) (by decide)
  · next h => exact absurd (hdigits '+' (h ▸ List.mem_cons_self)) (by decide)
  · rfl

/-! ## Rounding -/

/-- An integer with so many digits that it is not computed is beyond the range. -/
theorem ofPositive_of_digitsCount {n : Nat} (h : 400 < Real.toBinary64.digitsCount n)
    (negative : Bool) : Binary64.ofPositive negative n = .infinite negative := by
  have hlog : 1024 ≤ n.log2 := by
    rw [Real.toBinary64.digitsCount] at h
    omega
  have hn : n ≠ 0 := by
    rintro rfl
    exact absurd hlog (by decide)
  have hpos : (0 : Rat) < n := Nat.cast_pos.mpr (Nat.pos_of_ne_zero hn)
  have hlarge : (2 : Rat) ^ (1024 : Int) ≤ n :=
    (Binary64.two_zpow_le.mpr (by exact_mod_cast hlog)).trans (Binary64.natLog2_bounds hn).1
  exact Binary64.ofPositive_of_le hpos negative (Binary64.le_rounded hpos (by decide) hlarge)

theorem toBinary64_decimal {n : Nat} (hn : n ≠ 0) (negative : Bool) :
    (Real.decimal negative n 0).toBinary64 = Binary64.ofPositive negative n := by
  have hnear : ¬ (n = 0 ∨ (Real.toBinary64.digitsCount n : Int) + 0 < -400) := by omega
  rw [Real.toBinary64]
  simp only [if_neg hnear]
  split
  · next hfar => rw [ofPositive_of_digitsCount (by omega)]
  · rw [zpow_zero, mul_one]

/-- The text of an integer stands for the number nearest to it. -/
theorem real_toString (n : Int) : real (toString n) = some (Binary64.ofRat n) := by
  cases n with
  | ofNat n =>
    have hchars : (toString (Int.ofNat n)).toList = Nat.toDigits 10 n := Nat.toList_repr
    have htrim : Text.trimBy Text.isSpace (Nat.toDigits 10 n) = Nat.toDigits 10 n :=
      Text.trimBy_of_forall fun c hc => Text.isSpace_of_isDigit (isDigit_of_mem_toDigits n c hc)
    rw [real, hchars, htrim, realOf_toDigits (takeSign_toDigits n), Option.map_some]
    by_cases hzero : n = 0
    · subst hzero
      rfl
    · have hpos : (0 : Rat) < n := Nat.cast_pos.mpr (Nat.pos_of_ne_zero hzero)
      simp [toBinary64_decimal hzero, Binary64.ofRat, hpos.ne', hpos.not_gt]
  | negSucc n =>
    have hchars : (toString (Int.negSucc n)).toList = '-' :: Nat.toDigits 10 (n + 1) := by
      change ("-" ++ (n + 1).repr).toList = _
      rw [String.toList_append, Nat.toList_repr]
      rfl
    have htrim : Text.trimBy Text.isSpace ('-' :: Nat.toDigits 10 (n + 1)) =
        '-' :: Nat.toDigits 10 (n + 1) := by
      refine Text.trimBy_of_forall (List.forall_mem_cons.mpr ⟨by decide, fun c hc => ?_⟩)
      exact Text.isSpace_of_isDigit (isDigit_of_mem_toDigits _ c hc)
    have hneg : ((Int.negSucc n : Int) : Rat) = -((n + 1 : Nat) : Rat) := by
      simp [Int.negSucc_eq]
    have hpos : (0 : Rat) < (n + 1 : Nat) := Nat.cast_pos.mpr n.succ_pos
    rw [real, hchars, htrim, realOf_toDigits rfl, Option.map_some,
      toBinary64_decimal n.succ_ne_zero, hneg, Binary64.ofRat, if_neg (neg_ne_zero.mpr hpos.ne'),
      if_pos (neg_lt_zero.mpr hpos), neg_neg]

end Decimal

end RepoSurvey
