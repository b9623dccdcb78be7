import RepoSurvey.Proofs.Keyed
import RepoSurvey.Value

/-!
# RepoSurvey.Proofs.Fields

What stands under a key after fields were appended, filtered by their keys, changed in place or put.
Everything is said of the value that stands last under a key, the one that a reading takes.
-/

namespace RepoSurvey.Fields

@[simp] theorem last?_nil (key : String) : last? [] key = none := rfl

theorem last?_singleton (f : String × Value) (key : String) :
    last? [f] key = if f.1 = key then some f.2 else none := by
  obtain ⟨k, v⟩ := f
  by_cases h : k = key
  · simp [last?, h]
  · have hk : (key == k) = false := by simp [Ne.symm h]
    simp [last?, List.lookup_cons, h, hk]

theorem last?_append (fs gs : Fields) (key : String) :
    last? (fs ++ gs) key = (last? gs key).or (last? fs key) := by
  simp only [last?, List.reverse_append, List.lookup_append]

theorem last?_cons (f : String × Value) (fs : Fields) (key : String) :
    last? (f :: fs) key = (last? fs key).or (if f.1 = key then some f.2 else none) := by
  rw [← List.singleton_append, last?_append, last?_singleton]

theorem last?_eq_none_iff {fs : Fields} {key : String} :
    last? fs key = none ↔ ∀ f ∈ fs, f.1 ≠ key := by
  simp only [last?, List.lookup_eq_none_iff, List.mem_reverse, bne_iff_ne, ne_comm]

theorem mem_of_last? {fs : Fields} {key : String} {v : Value} (h : last? fs key = some v) :
    (key, v) ∈ fs :=
  List.mem_reverse.mp (Keyed.mem_of_lookup h)

theorem has_eq_isSome (fs : Fields) (key : String) : has fs key = (last? fs key).isSome := by
  rw [Bool.eq_iff_iff, has, get?, last?, List.lookup_isSome_iff, List.lookup_isSome_iff]
  simp only [List.mem_reverse]

theorem has_iff {fs : Fields} {key : String} :
    has fs key = true ↔ ∃ v, last? fs key = some v := by
  rw [has_eq_isSome, Option.isSome_iff_exists]

theorem last?_filter (p : String → Bool) (fs : Fields) (key : String) :
    last? (fs.filter fun f => p f.1) key = if p key then last? fs key else none := by
  induction fs with
  | nil => simp
  | cons f fs ih =>
    rw [last?_cons, List.filter_cons]
    by_cases hk : f.1 = key
    · subst hk
      by_cases hp : p f.1 <;> simp [hp, last?_cons, ih]
    · by_cases hp : p f.1 <;> simp [hp, hk, last?_cons, ih]

theorem last?_map (g : String → Value → Value) (fs : Fields) (key : String) :
    last? (fs.map fun f => (f.1, g f.1 f.2)) key = (last? fs key).map (g key) := by
  induction fs with
  | nil => simp
  | cons f fs ih =>
    rw [List.map_cons, last?_cons, last?_cons, ih]
    by_cases hk : f.1 = key
    · subst hk
      cases last? fs f.1 <;> simp
    · simp [hk]

/-! ## Putting a key that is not there -/

theorem put_of_absent {fs : Fields} {key : String} (v : Value) (h : ∀ f ∈ fs, f.1 ≠ key) :
    fs.put key v = fs ++ [(key, v)] :=
  Keyed.put_of_absent v h

theorem last?_put_of_absent {fs : Fields} {key : String} (v : Value) (h : last? fs key = none)
    (other : String) :
    last? (fs.put key v) other = if other = key then some v else last? fs other := by
  rw [put_of_absent v (last?_eq_none_iff.mp h), last?_append, last?_singleton]
  by_cases hk : other = key
  · simp [hk]
  · simp [hk, Ne.symm hk]

theorem last?_putAll {fs : Fields} (h : Keyed.Distinct fs) (later : Fields) (key : String) :
    last? (Keyed.putAll fs later) key = (last? later key).or (last? fs key) := by
  rw [last?, (h.putAll later).lookup_reverse, Keyed.lookup_putAll, ← h.lookup_reverse key]
  rfl

end RepoSurvey.Fields
