import Mathlib.Algebra.BigOperators.Ring.Finset
import Mathlib.Algebra.Order.BigOperators.Group.List
import Mathlib.Algebra.Order.Group.Nat
import Mathlib.Data.List.Count
import RepoSurvey.Proofs.Graph.Arc

/-!
# RepoSurvey.Proofs.Ranking

Rankings of the names in a list: one item for every name, by a falling key, and of equal keys the
one first whose name appears first. They come from items in the order of first appearance because
the sort is stable (`ranks_mergeSort`).
-/

namespace RepoSurvey

/-! ## First appearances -/

theorem idxOf_lt_of_filter {p : String → Bool} {xs : List String} {x y : String} (hx : p x = true)
    (hy : p y = true) (h : (xs.filter p).idxOf x < (xs.filter p).idxOf y) :
    xs.idxOf x < xs.idxOf y := by
  induction xs with
  | nil => cases h
  | cons z xs ih =>
    by_cases hz : p z = true
    · rw [List.filter_cons_of_pos hz] at h
      by_cases hzx : z = x <;> by_cases hzy : z = y <;>
        simp_all [List.idxOf_cons]
    · rw [List.filter_cons_of_neg hz] at h
      have hzx : z ≠ x := by rintro rfl; exact hz hx
      have hzy : z ≠ y := by rintro rfl; exact hz hy
      simpa [List.idxOf_cons, hzx, hzy] using ih h

/-- Removal of duplicates keeps every name where it first appears. -/
theorem pairwise_idxOf_eraseDups (xs : List String) :
    xs.eraseDups.Pairwise fun x y => xs.idxOf x < xs.idxOf y := by
  induction xs using Graph.eraseDups_induction with
  | nil => simp
  | cons x xs ih =>
    have hmem : ∀ y ∈ (xs.filter fun y => !y == x).eraseDups, (!y == x) = true := fun y hy =>
      (List.mem_filter.mp (List.mem_eraseDups.mp hy)).2
    have hidx : ∀ y ∈ (xs.filter fun y => !y == x).eraseDups,
        (x :: xs).idxOf y = xs.idxOf y + 1 := by
      intro y hy
      have hne : y ≠ x := by simpa using hmem y hy
      simp [hne.symm]
    rw [List.eraseDups_cons, List.pairwise_cons]
    refine ⟨fun y hy => ?_, ih.imp_of_mem fun {y z} hy hz hlt => ?_⟩
    · rw [hidx y hy]
      simp
    · rw [hidx y hy, hidx z hz]
      have := idxOf_lt_of_filter (hmem y hy) (hmem z hz) hlt
      omega

/-! ## Counts -/

theorem length_filter_eq_count {α : Type} (f : α → String) (as : List α) (s : String) :
    (as.filter fun a => f a = s).length = (as.map f).count s := by
  rw [List.count_eq_countP, List.countP_map, List.countP_eq_length_filter]
  simp only [Function.comp_def, beq_eq_decide]

theorem sum_map_indicator (keys : List String) (x : String) :
    (keys.map fun k => if x == k then 1 else 0).sum = keys.count x := by
  induction keys with
  | nil => rfl
  | cons k keys ih =>
    rw [List.map_cons, List.sum_cons, ih, List.count_cons, Nat.add_comm, BEq.comm]

/-- The counts of distinct keys count every element at most once. -/
theorem sum_map_count {keys : List String} (h : keys.Nodup) (xs : List String) :
    (keys.map fun k => xs.count k).sum = xs.countP fun x => decide (x ∈ keys) := by
  induction xs with
  | nil => simp
  | cons x xs ih =>
    simp only [List.count_cons, List.countP_cons, List.sum_map_add, ih, sum_map_indicator,
      h.count, decide_eq_true_eq]

/-- Distinct keys cannot all be counted more often than there are elements for all of them. -/
theorem mul_length_le_of_count {keys xs : List String} (h : keys.Nodup) {n : Nat}
    (hn : ∀ k ∈ keys, n ≤ xs.count k) : n * keys.length ≤ xs.length := by
  have hcounts : ∀ m ∈ keys.map fun k => xs.count k, n ≤ m := by
    intro m hm
    obtain ⟨k, hk, rfl⟩ := List.mem_map.mp hm
    exact hn k hk
  calc n * keys.length = (keys.map fun k => xs.count k).length • n := by
        rw [List.length_map, Nat.nsmul_eq_mul, Nat.mul_comm]
    _ ≤ (keys.map fun k => xs.count k).sum := List.card_nsmul_le_sum _ n hcounts
    _ = xs.countP fun x => decide (x ∈ keys) := sum_map_count h xs
    _ ≤ xs.length := List.countP_le_length

/-! ## Stable sorting -/

section Stable

variable {α : Type} (key : α → Int)

theorem falling_trans (a b c : α) (hab : decide (key b ≤ key a) = true)
    (hbc : decide (key c ≤ key b) = true) : decide (key c ≤ key a) = true :=
  decide_eq_true (Int.le_trans (of_decide_eq_true hbc) (of_decide_eq_true hab))

theorem falling_total (a b : α) : (decide (key b ≤ key a) || decide (key a ≤ key b)) = true := by
  simpa using Int.le_total (key b) (key a)

/-- The items of one key stand in the order in which they stood before they were sorted. -/
theorem filter_mergeSort (as : List α) (k : Int) :
    (as.mergeSort fun a b => key b ≤ key a).filter (fun a => key a = k) =
      as.filter fun a => key a = k := by
  have hsorted : (as.filter fun a => key a = k).Pairwise fun a b => decide (key b ≤ key a) := by
    refine List.Pairwise.imp_of_mem (R := fun _ _ => True) (fun {a b} ha hb _ => ?_)
      (List.pairwise_of_forall fun _ _ => trivial)
    rw [List.mem_filter, decide_eq_true_eq] at ha hb
    rw [decide_eq_true_eq, ha.2, hb.2]
  have hsub := (List.sublist_mergeSort (falling_trans key) (falling_total key) hsorted
    List.filter_sublist).filter fun a => key a = k
  rw [List.filter_filter] at hsub
  simp only [Bool.and_self] at hsub
  refine (hsub.eq_of_length_le ?_).symm
  exact Nat.le_of_eq ((List.mergeSort_perm as _).filter _).length_eq

theorem pairwise_mergeSort_stable {R : α → α → Prop} {as : List α} (h : as.Pairwise R) :
    (as.mergeSort fun a b => key b ≤ key a).Pairwise fun a b =>
      key b < key a ∨ key b = key a ∧ R a b := by
  have hsorted := List.pairwise_mergeSort (falling_trans key) (falling_total key) as
  rw [List.pairwise_iff_forall_sublist] at h hsorted ⊢
  intro a b hab
  have hle : key b ≤ key a := by simpa using hsorted hab
  by_cases heq : key b = key a
  case neg => exact .inl (Int.lt_iff_le_and_ne.mpr ⟨hle, heq⟩)
  case pos =>
    have hpair : [a, b].filter (fun c => key c = key a) = [a, b] := by simp [heq]
    have hfilter := hab.filter fun c => decide (key c = key a)
    rw [hpair, filter_mergeSort] at hfilter
    exact .inr ⟨heq, h (hfilter.trans List.filter_sublist)⟩

end Stable

/-! ## Rankings -/

/-- Whether some items rank the names of a list: there is one for every name, they stand by falling
key, and of equal keys the one comes first whose name appears first. -/
structure Ranks {α : Type} (names : List String) (name : α → String) (key : α → Int)
    (as : List α) : Prop where
  once : (as.map name).Nodup
  mem_iff : ∀ n, n ∈ as.map name ↔ n ∈ names
  order : as.Pairwise fun a b =>
    key b < key a ∨ key b = key a ∧ names.idxOf (name a) < names.idxOf (name b)

section Ranks

variable {α : Type} {names : List String} {name : α → String} {key : α → Int} {as : List α}

theorem ranks_mergeSort (h : as.map name = names.eraseDups) :
    Ranks names name key (as.mergeSort fun a b => key b ≤ key a) := by
  have hperm := (List.mergeSort_perm as fun a b => decide (key b ≤ key a)).map name
  rw [h] at hperm
  constructor
  case once => exact hperm.nodup_iff.mpr (Graph.nodup_eraseDups names)
  case mem_iff =>
    intro n
    rw [hperm.mem_iff, List.mem_eraseDups]
  case order =>
    apply pairwise_mergeSort_stable
    rw [← List.pairwise_map (f := name) (R := fun m n => names.idxOf m < names.idxOf n), h]
    exact pairwise_idxOf_eraseDups names

/-- Every name of the list is counted by one item. -/
theorem Ranks.sum_eq_length (h : Ranks names name key as) {f : α → Int}
    (hf : ∀ a ∈ as, f a = names.count (name a)) : (as.map f).sum = names.length := by
  have hsum := sum_map_count h.once names
  rw [List.map_map,
    List.countP_eq_length.mpr fun n hn => decide_eq_true ((h.mem_iff n).mpr hn)] at hsum
  rw [List.map_congr_left hf, ← hsum, Nat.cast_list_sum, List.map_map]
  rfl

theorem Ranks.le_head {a : α} (h : Ranks names name key (a :: as)) {b : α} (hb : b ∈ a :: as) :
    key b ≤ key a := by
  rcases List.mem_cons.mp hb with rfl | hb
  · exact Int.le_refl _
  · rcases (List.pairwise_cons.mp h.order).1 b hb with hlt | ⟨heq, _⟩
    · exact Int.le_of_lt hlt
    · exact Int.le_of_eq heq

end Ranks

end RepoSurvey
