import RepoSurvey.Path
import RepoSurvey.Proofs.Text.Lower

/-!
# RepoSurvey.Proofs.Path

The name of a path and its extension. The name is the last segment, which holds no slash, except
where the path ends in a slash: there it is the whole path (`baseName_eq`). The extension is what
follows the last dot of the name (`extension_cases`), so it holds a slash exactly if the path ends
in one and holds a dot (`slash_mem_extension_iff`).
-/

namespace RepoSurvey

/-! ## After the last separator -/

namespace Text

variable {sep : Char} {s : List Char}

theorem not_mem_afterLast (sep : Char) (s : List Char) : sep ∉ afterLast sep s := by
  induction s with
  | nil => exact List.not_mem_nil
  | cons c cs ih =>
    rw [afterLast]
    split
    · exact ih
    · next hcs =>
      have hcs : sep ∉ cs := by simpa using hcs
      split
      · exact hcs
      · next hc => exact List.not_mem_cons_of_ne_of_not_mem (Ne.symm hc) hcs

theorem afterLast_of_not_mem (h : sep ∉ s) : afterLast sep s = s :=
  (afterLast_suffix sep s).eq_of_length_le (suffix_afterLast h List.suffix_rfl).length_le

theorem exists_append_afterLast (h : sep ∈ s) : ∃ front, s = front ++ sep :: afterLast sep s := by
  obtain ⟨back, front, hs, hback⟩ := List.eq_append_cons_of_mem (List.mem_reverse.mpr h)
  have hsplit : s = front.reverse ++ sep :: back.reverse := by
    rw [← List.reverse_reverse s, hs]
    simp
  refine ⟨front.reverse, ?_⟩
  rw [hsplit, afterLast_append_cons (by simpa using hback)]

/-- Nothing follows the last separator exactly if it stands at the end, or if there is nothing. -/
theorem afterLast_eq_nil_iff : afterLast sep s = [] ↔ s = [] ∨ s.getLast? = some sep := by
  by_cases h : sep ∈ s
  · obtain ⟨front, hs⟩ := exists_append_afterLast h
    have hlast : s.getLast? = some ((afterLast sep s).getLast?.getD sep) := by
      rw [hs, List.getLast?_append_of_ne_nil _ (List.cons_ne_nil _ _), List.getLast?_cons, ← hs]
    rw [hlast, or_iff_right (List.ne_nil_of_mem h), Option.some.injEq]
    constructor
    · intro hnil
      rw [hnil]
      rfl
    · intro hsep
      cases hback : (afterLast sep s).getLast? with
      | none => exact List.getLast?_eq_none_iff.mp hback
      | some c =>
        rw [hback, Option.getD_some] at hsep
        rw [hsep] at hback
        exact absurd (List.mem_of_getLast? hback) (not_mem_afterLast sep s)
  · rw [afterLast_of_not_mem h, or_iff_left (mt List.mem_of_getLast? h)]

end Text

namespace Path

variable {path : String}

/-! ## Names -/

theorem toList_lastSegment (path : String) :
    (lastSegment path).toList = Text.afterLast '/' path.toList := String.toList_ofList

theorem slash_not_mem_lastSegment (path : String) : '/' ∉ (lastSegment path).toList := by
  rw [toList_lastSegment]
  exact Text.not_mem_afterLast _ _

theorem lastSegment_eq_empty_iff :
    lastSegment path = "" ↔ path = "" ∨ path.toList.getLast? = some '/' := by
  rw [← String.toList_inj, toList_lastSegment, ← String.toList_inj]
  exact Text.afterLast_eq_nil_iff

theorem baseName_eq (path : String) :
    baseName path = if path.toList.getLast? = some '/' then path else lastSegment path := by
  rw [baseName]
  by_cases hlast : path.toList.getLast? = some '/'
  · rw [if_pos hlast, if_pos (lastSegment_eq_empty_iff.mpr (.inr hlast))]
  · rw [if_neg hlast]
    split
    · next hempty =>
      rw [hempty]
      exact (lastSegment_eq_empty_iff.mp hempty).resolve_right hlast
    · rfl

/-- The name is not the last segment exactly if the path ends in a slash. -/
theorem baseName_eq_lastSegment_iff :
    baseName path = lastSegment path ↔ path.toList.getLast? ≠ some '/' := by
  rw [baseName_eq]
  split
  · next hlast =>
    refine iff_of_false (fun heq => ?_) (not_not_intro hlast)
    rw [lastSegment_eq_empty_iff.mpr (.inr hlast)] at heq
    rw [heq] at hlast
    cases hlast
  · next hlast => exact iff_of_true rfl hlast

/-! ## Extensions -/

/-- Whether a text is the extension of a name: the lower case of what follows the last dot, if
anything does. -/
def IsExtensionOf (name ext : String) : Prop :=
  ∃ front tail, name.toList = front ++ '.' :: tail ∧ '.' ∉ tail ∧ tail ≠ [] ∧
    ext = Text.lower (String.ofList tail)

/-- An extension is taken from the name, if it has any to take. -/
theorem extension_cases (path : String) :
    IsExtensionOf (baseName path) (extension path) ∨
      extension path = noExtension ∧ ∀ ext, ¬ IsExtensionOf (baseName path) ext := by
  by_cases hdot : '.' ∈ (baseName path).toList
  · obtain ⟨front, hname⟩ := Text.exists_append_afterLast hdot
    by_cases hnil : Text.afterLast '.' (baseName path).toList = []
    · refine .inr ⟨?_, ?_⟩
      · simp [extension, hdot, hnil, Text.lower_eq_empty_iff]
      · rintro ext ⟨front', tail, hname', htail, hne, -⟩
        rw [hname', Text.afterLast_append_cons htail] at hnil
        exact hne hnil
    · refine .inl ⟨front, _, hname, Text.not_mem_afterLast _ _, hnil, ?_⟩
      simp [extension, hdot, hnil, Text.lower_eq_empty_iff]
  · refine .inr ⟨by simp [extension, hdot], ?_⟩
    rintro ext ⟨front, tail, hname, -⟩
    exact hdot (hname ▸ List.mem_append_right _ List.mem_cons_self)

theorem IsExtensionOf.ne_empty {name ext : String} (h : IsExtensionOf name ext) : ext ≠ "" := by
  obtain ⟨_, tail, _, _, hne, rfl⟩ := h
  rw [Ne, Text.lower_eq_empty_iff, ← String.toList_inj, String.toList_ofList]
  exact hne

theorem IsExtensionOf.dot_not_mem {name ext : String} (h : IsExtensionOf name ext) :
    '.' ∉ ext.toList := by
  obtain ⟨_, tail, _, hdot, _, rfl⟩ := h
  rwa [Text.mem_lower_iff (by decide) (by decide), String.toList_ofList]

/-- An extension holds a slash exactly if the path ends in one and holds a dot. -/
theorem slash_mem_extension_iff :
    '/' ∈ (extension path).toList ↔ path.toList.getLast? = some '/' ∧ '.' ∈ path.toList := by
  obtain ⟨front, tail, hname, -, -, hext⟩ | ⟨hnone, hno⟩ := extension_cases path
  · rw [hext, Text.mem_lower_iff (by decide) (by decide), String.toList_ofList]
    rw [baseName_eq] at hname
    split at hname
    · next hlast =>
      refine iff_of_true ?_ ⟨hlast, hname ▸ List.mem_append_right _ List.mem_cons_self⟩
      rw [hname, List.getLast?_append_of_ne_nil _ (List.cons_ne_nil _ _)] at hlast
      exact (List.mem_cons.mp (List.mem_of_getLast? hlast)).resolve_left (by decide)
    · next hlast =>
      refine iff_of_false (fun hmem => slash_not_mem_lastSegment path ?_) fun h => hlast h.1
      rw [hname]
      exact List.mem_append_right _ (List.mem_cons_of_mem _ hmem)
  · rw [hnone]
    refine iff_of_false (by decide) ?_
    rintro ⟨hlast, hdot⟩
    -- The last character is a slash and not a dot, so something follows the last dot.
    obtain ⟨front, hpath⟩ := Text.exists_append_afterLast hdot
    have hname : (baseName path).toList = front ++ '.' :: Text.afterLast '.' path.toList := by
      rwa [baseName_eq, if_pos hlast]
    refine hno _ ⟨front, _, hname, Text.not_mem_afterLast _ _, fun hnil => ?_, rfl⟩
    obtain hempty | hend := Text.afterLast_eq_nil_iff.mp hnil
    · exact absurd hdot (hempty ▸ List.not_mem_nil)
    · cases hlast.symm.trans hend

example : extension "v1.0/" = "0/" ∧ extension "v1.0" = "0" := by decide +kernel

end Path

end RepoSurvey
