import Mathlib.Data.List.Forall2

/-!
# RepoSurvey.Proofs.Sublist

Lists with more in them than others have, up to a relation between their members.
-/

namespace RepoSurvey

variable {α β : Type} {R : β → β → Prop}

theorem sublistForall₂_append {as as' bs bs' : List β} (has : List.SublistForall₂ R as as')
    (hbs : List.SublistForall₂ R bs bs') : List.SublistForall₂ R (as ++ bs) (as' ++ bs') := by
  induction has with
  | @nil as' =>
    induction as' with
    | nil => exact hbs
    | cons a as' ih => exact .cons_right ih
  | cons h _ ih => exact .cons h ih
  | cons_right _ ih => exact .cons_right ih

theorem sublistForall₂_filterMap {f f' : α → Option β} {as : List α}
    (h : ∀ a ∈ as, ∀ b, f a = some b → ∃ b', f' a = some b' ∧ R b b') :
    List.SublistForall₂ R (as.filterMap f) (as.filterMap f') := by
  induction as with
  | nil => exact .nil
  | cons a as ih =>
    have hrest := ih fun a' ha' => h a' (List.mem_cons_of_mem a ha')
    cases hf : f a with
    | none =>
      rw [List.filterMap_cons_none hf]
      cases hf' : f' a with
      | none => rwa [List.filterMap_cons_none hf']
      | some b' =>
        rw [List.filterMap_cons_some hf']
        exact .cons_right hrest
    | some b =>
      obtain ⟨b', hf', hb⟩ := h a List.mem_cons_self b hf
      rw [List.filterMap_cons_some hf, List.filterMap_cons_some hf']
      exact .cons hb hrest

theorem length_le_of_sublistForall₂ {bs bs' : List β} (h : List.SublistForall₂ R bs bs') :
    bs.length ≤ bs'.length := by
  obtain ⟨cs, hcs, hsub⟩ := List.sublistForall₂_iff.mp h
  rw [hcs.length_eq]
  exact hsub.length_le

end RepoSurvey
