import Mathlib.Data.List.Perm.Subperm
import RepoSurvey.Proofs.Keyed
import RepoSurvey.Value.Same

/-!
# RepoSurvey.Proofs.Value.Same

When lists and objects hold the same data. Lists do place by place, and objects with as many keys do
if every key of the one leads to the same data in the other. So objects that are written with the
same distinct keys are compared value by value (`same_object_map_iff`).
-/

namespace RepoSurvey

/-- Whether two lists of keys and values are one mapping: they have as many entries, and what is
found under a key of the first is found under it in the second. -/
def Keyed.Agree {α : Type} (fs gs : List (String × α)) : Prop :=
  fs.length = gs.length ∧ ∀ f ∈ fs, gs.lookup f.1 = some f.2

/-- Without repeated keys, agreeing means to have the same entries in some order. -/
theorem Keyed.Distinct.agree_iff_perm {α : Type} {fs gs : List (String × α)} (h : Distinct fs) :
    Agree fs gs ↔ fs.Perm gs := by
  constructor
  · rintro ⟨hlength, hfound⟩
    have hsubset : fs ⊆ gs := fun f hf => mem_of_lookup (hfound f hf)
    have hnodup : fs.Nodup := List.Nodup.of_map _ h
    exact (List.subperm_of_subset hnodup hsubset).perm_of_length_le (Nat.le_of_eq hlength.symm)
  · intro hperm
    have hdistinct : Distinct gs := (hperm.map _).nodup_iff.mp h
    exact ⟨hperm.length_eq, fun f hf => hdistinct.lookup_eq_some_iff.mpr (hperm.mem_iff.mp hf)⟩

namespace Value

/-! ## Single values -/

theorem same_bool (a b : Bool) : same (.bool a) (.bool b) = (a == b) := rfl

theorem same_int (a b : Int) : same (.int a) (.int b) = (a == b) := rfl

theorem same_real (a b : Binary64) : same (.real a) (.real b) = a.same b := rfl

theorem same_text (a b : String) : same (.text a) (.text b) = (a == b) := rfl

theorem same_null_left {v : Value} : same .null v = true ↔ v = .null := by
  cases v <;> simp [same]

theorem same_null_right {v : Value} : same v .null = true ↔ v = .null := by
  cases v <;> simp [same]

/-! ## Lists and objects -/

theorem same_list_iff {vs ws : List Value} :
    same (.list vs) (.list ws) = true ↔ List.Forall₂ (fun v w => same v w = true) vs ws := by
  rw [same]
  induction vs generalizing ws with
  | nil => cases ws <;> simp [sameList]
  | cons v vs ih => cases ws <;> simp [sameList, ih]

theorem sameFields_iff {fs gs : List (String × Value)} :
    sameFields fs gs = true ↔
      ∀ f ∈ fs, ∃ v, gs.lookup f.1 = some v ∧ same f.2 v = true := by
  induction fs with
  | nil => simp [sameFields]
  | cons f fs ih =>
    obtain ⟨key, v⟩ := f
    rw [sameFields, Bool.and_eq_true, ih, List.forall_mem_cons]
    refine and_congr_left fun _ => ?_
    cases gs.lookup key <;> simp

theorem same_object_iff {fs gs : List (String × Value)} :
    same (.object fs) (.object gs) = true ↔
      fs.length = gs.length ∧ ∀ f ∈ fs, ∃ v, gs.lookup f.1 = some v ∧ same f.2 v = true := by
  rw [same, Bool.and_eq_true, beq_iff_eq, sameFields_iff]

/-- Objects with the same distinct keys in the same order hold the same data if and only if their
values do, one by one. -/
theorem same_object_map_iff {ι : Type} {is : List ι} {key : ι → String}
    (hdistinct : (is.map key).Nodup) (v w : ι → Value) :
    same (.object (is.map fun i => (key i, v i))) (.object (is.map fun i => (key i, w i))) = true ↔
      ∀ i ∈ is, same (v i) (w i) = true := by
  have hfound : ∀ i ∈ is, (is.map fun i => (key i, w i)).lookup (key i) = some (w i) := by
    intro i hi
    have hkeys : Keyed.Distinct (is.map fun i => (key i, w i)) := by
      rwa [Keyed.Distinct, List.map_map]
    exact hkeys.lookup_eq_some_iff.mpr (List.mem_map_of_mem hi)
  rw [same_object_iff, List.length_map, List.length_map, List.forall_mem_map]
  simp only [true_and]
  refine forall₂_congr fun i hi => ?_
  simp only [hfound i hi, Option.some.injEq, exists_eq_left']

end Value

end RepoSurvey
