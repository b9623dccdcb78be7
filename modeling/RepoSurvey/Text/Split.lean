/-!
# RepoSurvey.Text.Split

Cutting texts at a separator, joining them again, and looking for one text inside another.
-/

namespace RepoSurvey.Text

/-- The pieces of `s` between the separators; there is always at least one. -/
def splitAt (sep : Char) : List Char → List (List Char)
  | [] => [[]]
  | c :: cs =>
    if c = sep then [] :: splitAt sep cs
    else match splitAt sep cs with
      | [] => [[c]]
      | p :: ps => (c :: p) :: ps

def split (sep : Char) (s : String) : List String :=
  (splitAt sep s.toList).map String.ofList

/-- What follows the last separator; the whole where there is none. -/
def afterLast (sep : Char) : List Char → List Char
  | [] => []
  | c :: cs => if cs.contains sep then afterLast sep cs else if c = sep then cs else c :: cs

theorem afterLast_suffix (sep : Char) (s : List Char) : afterLast sep s <:+ s := by
  induction s with
  | nil => exact List.suffix_rfl
  | cons c cs ih =>
    rw [afterLast]
    split
    · exact ih.trans (List.suffix_cons c cs)
    · split
      · exact List.suffix_cons c cs
      · exact List.suffix_rfl

theorem suffix_afterLast {sep : Char} {t s : List Char} (hsep : sep ∉ t) (h : t <:+ s) :
    t <:+ afterLast sep s := by
  induction s with
  | nil => exact h
  | cons c cs ih =>
    rcases List.suffix_cons_iff.mp h with rfl | h
    · obtain ⟨hc, hcs⟩ := not_or.mp (mt List.mem_cons.mpr hsep)
      have hwhole : afterLast sep (c :: cs) = c :: cs := by
        rw [afterLast, if_neg (by simpa using hcs), if_neg (Ne.symm hc)]
      exact ⟨[], hwhole.symm⟩
    · rw [afterLast]
      split
      · exact ih h
      · split
        · exact h
        · exact h.trans (List.suffix_cons c cs)

theorem afterLast_append_cons {sep : Char} {t : List Char} (hsep : sep ∉ t) (s : List Char) :
    afterLast sep (s ++ sep :: t) = t := by
  induction s with
  | nil => rw [List.nil_append, afterLast, if_neg (by simpa using hsep), if_pos rfl]
  | cons c cs ih => rw [List.cons_append, afterLast, if_pos (by simp), ih]

/-- Whether `needle` starts at some place of the list. -/
def containsList (needle : List Char) : List Char → Bool
  | [] => needle.isEmpty
  | c :: cs => needle.isPrefixOf (c :: cs) || containsList needle cs

def contains (s needle : String) : Bool := containsList needle.toList s.toList

theorem containsList_iff {needle s : List Char} : containsList needle s = true ↔ needle <:+: s := by
  induction s with
  | nil => rw [containsList, List.isEmpty_iff, List.infix_nil]
  | cons c s ih =>
    rw [containsList, Bool.or_eq_true, List.isPrefixOf_iff_prefix, ih, List.infix_cons_iff]

theorem contains_iff {s needle : String} : contains s needle = true ↔ needle.toList <:+: s.toList :=
  containsList_iff

def endsWith (s tail : String) : Bool := tail.toList.reverse.isPrefixOf s.toList.reverse

theorem endsWith_iff {s tail : String} : endsWith s tail = true ↔ tail.toList <:+ s.toList := by
  rw [endsWith, List.isPrefixOf_iff_prefix, List.reverse_prefix]

end RepoSurvey.Text
