import Mathlib.Data.List.Nodup
import RepoSurvey.Keyed

/-!
# RepoSurvey.Proofs.Keyed

What stands under a key after values were put, and lists in which no key is repeated. Putting a
value never repeats a key, so a merged list has each key once.
-/

namespace RepoSurvey.Keyed

variable {κ α : Type}

def Distinct (fs : List (κ × α)) : Prop := (fs.map (·.1)).Nodup

theorem distinct_nil : Distinct ([] : List (κ × α)) := List.nodup_nil

variable [BEq κ] [LawfulBEq κ]

theorem put_of_absent {fs : List (κ × α)} {key : κ} (a : α) (h : ∀ f ∈ fs, f.1 ≠ key) :
    put fs key a = fs ++ [(key, a)] := by
  induction fs with
  | nil => rfl
  | cons f fs ih =>
    obtain ⟨k, b⟩ := f
    have hk : (k == key) = false := by simpa using h _ List.mem_cons_self
    simp only [put, hk, Bool.false_eq_true, if_false, List.cons_append]
    rw [ih fun f hf => h f (List.mem_cons_of_mem _ hf)]

theorem keys_put_of_mem {fs : List (κ × α)} {key : κ} (a : α)
    (h : key ∈ fs.map (·.1)) : (put fs key a).map (·.1) = fs.map (·.1) := by
  induction fs with
  | nil => cases h
  | cons f fs ih =>
    obtain ⟨k, b⟩ := f
    by_cases hk : k = key
    · simp [put, hk]
    · have hmem : key ∈ fs.map (·.1) := by simpa [Ne.symm hk] using h
      simp only [put, beq_iff_eq, hk, if_false, List.map_cons, ih hmem]

theorem Distinct.put {fs : List (κ × α)} (h : Distinct fs) (key : κ) (a : α) :
    Distinct (put fs key a) := by
  by_cases hmem : key ∈ fs.map (·.1)
  · rw [Distinct, keys_put_of_mem a hmem]
    exact h
  · have habsent : ∀ f ∈ fs, f.1 ≠ key := by
      rintro f hf rfl
      exact hmem (List.mem_map_of_mem hf)
    rw [Distinct, put_of_absent a habsent, List.map_append, List.nodup_append]
    refine ⟨h, List.nodup_singleton _, ?_⟩
    rintro k hk _ hkey rfl
    rw [List.mem_singleton.mp hkey] at hk
    exact hmem hk

theorem Distinct.putAll {fs : List (κ × α)} (h : Distinct fs) (later : List (κ × α)) :
    Distinct (putAll fs later) := by
  induction later generalizing fs with
  | nil => exact h
  | cons f later ih => exact ih (h.put f.1 f.2)

theorem distinct_merged (fs : List (κ × α)) : Distinct (merged fs) := distinct_nil.putAll fs

theorem putAll_of_distinct {fs later : List (κ × α)} (h : Distinct (fs ++ later)) :
    putAll fs later = fs ++ later := by
  induction later generalizing fs with
  | nil => rw [List.append_nil]; rfl
  | cons f later ih =>
    have habsent : ∀ g ∈ fs, g.1 ≠ f.1 := by
      intro g hg hkey
      rw [Distinct, List.map_append, List.nodup_append] at h
      exact h.2.2 _ (List.mem_map_of_mem hg) _ List.mem_cons_self hkey
    rw [List.append_cons] at h ⊢
    rw [← ih h, ← put_of_absent f.2 habsent]
    rfl

theorem merged_of_distinct {fs : List (κ × α)} (h : Distinct fs) : merged fs = fs :=
  putAll_of_distinct h

/-! ## Entries -/

theorem mem_or_eq_of_mem_put {fs : List (κ × α)} {key : κ} {a : α} {f : κ × α}
    (h : f ∈ put fs key a) : f ∈ fs ∨ f = (key, a) := by
  induction fs with
  | nil => exact .inr (List.mem_singleton.mp h)
  | cons g fs ih =>
    rw [put] at h
    split at h
    · next hkey =>
      rcases List.mem_cons.mp h with rfl | h
      · exact .inr (by rw [eq_of_beq hkey])
      · exact .inl (List.mem_cons_of_mem g h)
    · rcases List.mem_cons.mp h with rfl | h
      · exact .inl List.mem_cons_self
      · exact (ih h).imp_left (List.mem_cons_of_mem g)

theorem mem_of_mem_putAll {fs later : List (κ × α)} {f : κ × α}
    (h : f ∈ putAll fs later) : f ∈ fs ∨ f ∈ later := by
  induction later generalizing fs with
  | nil => exact .inl h
  | cons g later ih =>
    rcases ih h with hput | hlater
    · rcases mem_or_eq_of_mem_put hput with hf | rfl
      · exact .inl hf
      · exact .inr List.mem_cons_self
    · exact .inr (List.mem_cons_of_mem g hlater)

/-- A merged list makes up no entries. -/
theorem mem_of_mem_merged {fs : List (κ × α)} {f : κ × α} (h : f ∈ merged fs) :
    f ∈ fs :=
  (mem_of_mem_putAll h).resolve_left List.not_mem_nil

/-! ## Lookups -/

theorem lookup_cons [DecidableEq κ] (f : κ × α) (fs : List (κ × α)) (key : κ) :
    (f :: fs).lookup key = if key = f.1 then some f.2 else fs.lookup key := by
  obtain ⟨k, b⟩ := f
  rw [List.lookup_cons]
  by_cases h : key = k
  · simp [h]
  · have hk : (key == k) = false := by simp [h]
    simp [h, hk]

theorem lookup_put [DecidableEq κ] (fs : List (κ × α)) (key : κ) (a : α) (other : κ) :
    (put fs key a).lookup other = if other = key then some a else fs.lookup other := by
  induction fs with
  | nil => exact lookup_cons (key, a) [] other
  | cons f fs ih =>
    obtain ⟨k, b⟩ := f
    by_cases hk : k = key
    · subst hk
      simp only [put, beq_self_eq_true, if_true, lookup_cons]
      by_cases h : other = k
      · rw [if_pos h, if_pos h]
      · rw [if_neg h, if_neg h, if_neg h]
    · simp only [put, beq_iff_eq, hk, if_false, lookup_cons, ih]
      by_cases h : other = k
      · subst h
        rw [if_pos rfl, if_neg hk, if_pos rfl]
      · rw [if_neg h, if_neg h]

theorem lookup_putAll [DecidableEq κ] (fs later : List (κ × α)) (key : κ) :
    (putAll fs later).lookup key = (later.reverse.lookup key).or (fs.lookup key) := by
  induction later generalizing fs with
  | nil => rfl
  | cons f later ih =>
    show (putAll (put fs f.1 f.2) later).lookup key = _
    rw [ih, lookup_put, List.reverse_cons, List.lookup_append, lookup_cons]
    cases later.reverse.lookup key with
    | some a => rfl
    | none =>
      by_cases h : key = f.1
      · rw [if_pos h, if_pos h]
        rfl
      · rw [if_neg h, if_neg h]
        rfl

theorem mem_of_lookup {fs : List (κ × α)} {key : κ} {a : α}
    (h : fs.lookup key = some a) : (key, a) ∈ fs := by
  obtain ⟨before, after, rfl, _⟩ := List.lookup_eq_some_iff.mp h
  exact List.mem_append_right before List.mem_cons_self

theorem Distinct.lookup_eq_some_iff {fs : List (κ × α)} (h : Distinct fs) {key : κ}
    {a : α} : fs.lookup key = some a ↔ (key, a) ∈ fs := by
  refine ⟨mem_of_lookup, fun hmem => ?_⟩
  obtain ⟨before, after, rfl⟩ := List.append_of_mem hmem
  rw [Distinct, List.map_append, List.map_cons, List.nodup_append] at h
  refine List.lookup_eq_some_iff.mpr ⟨before, after, rfl, fun f hf => ?_⟩
  rw [bne_iff_ne]
  rintro rfl
  exact h.2.2 f.1 (List.mem_map_of_mem hf) f.1 List.mem_cons_self rfl

theorem Distinct.lookup_reverse [DecidableEq κ] {fs : List (κ × α)} (h : Distinct fs)
    (key : κ) : fs.reverse.lookup key = fs.lookup key := by
  have hmerged := lookup_putAll [] fs key
  rw [show Keyed.putAll [] fs = fs from merged_of_distinct h] at hmerged
  rw [hmerged, List.lookup_nil, Option.or_none]

end RepoSurvey.Keyed
