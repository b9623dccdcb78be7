import RepoSurvey.Proofs.Scan
import RepoSurvey.Proofs.Sublist

/-!
# RepoSurvey.Proofs.Scan.Covers

Where in a text the matches of a pattern stand, and patterns that miss no match of another one. A
pattern covers another if it matches wherever the other does, and if from inside one of its matches
the other reads at least to the end of that match. Then each match of the other pattern starts
inside a match of this one, and no two inside the same (`Pattern.Covers.sublistForall₂_find`).

The two searches are not in step, since each goes on behind its own matches. What carries the
induction is that it holds for the other search with any number of characters still to skip.
-/

namespace RepoSurvey.Pattern

variable {α β : Type} {p : Pattern α} {before : Option Char} {cs front rest : List Char}

/-! ## Places -/

/-- The place of a match: how much of the text is left where it starts and where it ends. -/
structure Place where
  atStart : Nat
  atEnd : Nat
deriving DecidableEq, Repr

/-- Whether a match starts inside another one. -/
def Place.StartsIn (m n : Place) : Prop := n.atEnd < m.atStart ∧ m.atStart ≤ n.atStart

/-- The pattern with the places of its matches. -/
def placed (p : Pattern α) : Pattern Place where
  opens := p.opens
  scan cs := (p.scan cs).map fun r => (⟨cs.length, r.2.length⟩, r.2)

theorem opens_placed (p : Pattern α) (before : Option Char) :
    p.placed.opens before = p.opens before := rfl

theorem scan_placed (p : Pattern α) (cs : List Char) :
    p.placed.scan cs = (p.scan cs).map fun r => (⟨cs.length, r.2.length⟩, r.2) := rfl

/-- What a pattern does at the front of a text: it matches and goes on behind the match, or it goes
on behind the first character. Its places are found likewise. -/
theorem findFrom_cons_cases (p : Pattern α) (before : Option Char) (c : Char) (cs : List Char) :
    (∃ a rest, p.opens before = true ∧ p.scan (c :: cs) = some (a, rest) ∧
      p.findFrom 0 before (c :: cs) = a :: p.findFrom (cs.length - rest.length) (some c) cs ∧
      p.placed.findFrom 0 before (c :: cs) =
        ⟨(c :: cs).length, rest.length⟩ ::
          p.placed.findFrom (cs.length - rest.length) (some c) cs) ∨
    ((p.opens before = false ∨ p.scan (c :: cs) = none) ∧
      p.findFrom 0 before (c :: cs) = p.findFrom 0 (some c) cs ∧
      p.placed.findFrom 0 before (c :: cs) = p.placed.findFrom 0 (some c) cs) := by
  by_cases hmatch : p.opens before = false ∨ p.scan (c :: cs) = none
  · refine .inr ⟨hmatch, findFrom_cons_of_not_match hmatch, findFrom_cons_of_not_match ?_⟩
    rw [opens_placed, scan_placed]
    exact hmatch.imp_right fun hscan => by rw [hscan, Option.map_none]
  · rw [not_or, Bool.not_eq_false, ← ne_eq, Option.ne_none_iff_exists'] at hmatch
    obtain ⟨hopens, ⟨a, rest⟩, hscan⟩ := hmatch
    refine .inl ⟨a, rest, hopens, hscan, findFrom_cons_of_match hopens hscan,
      findFrom_cons_of_match hopens ?_⟩
    rw [scan_placed, hscan, Option.map_some]

theorem length_findFrom_placed (p : Pattern α) (skip : Nat) (before : Option Char)
    (cs : List Char) :
    (p.placed.findFrom skip before cs).length = (p.findFrom skip before cs).length := by
  induction cs generalizing skip before with
  | nil => rw [findFrom_nil, findFrom_nil, List.length_nil, List.length_nil]
  | cons c cs ih =>
    cases skip with
    | succ skip => exact ih skip (some c)
    | zero =>
      rcases p.findFrom_cons_cases before c cs with
        ⟨a, rest, _, _, hfound, hplaced⟩ | ⟨_, hfound, hplaced⟩
      · rw [hfound, hplaced, List.length_cons, List.length_cons, ih]
      · rw [hfound, hplaced, ih]

/-! ## Patterns that cover others -/

/-- From inside a text that reads at least to its end, a pattern finds at most one match. -/
theorem findFrom_placed_within
    (h : ∀ tail, tail <:+ front → tail ≠ [] → ∀ r, p.scan (tail ++ rest) = some r → r.2 <:+ rest)
    (skip : Nat) (before : Option Char) :
    ∃ skip' found, p.placed.findFrom skip before (front ++ rest) =
        found ++ p.placed.findFrom skip' (after before front) rest ∧
      (found = [] ∨ ∃ m, found = [m] ∧ rest.length < m.atStart ∧
        m.atStart ≤ (front ++ rest).length) := by
  induction front generalizing skip before with
  | nil => exact ⟨skip, [], rfl, .inl rfl⟩
  | cons c front ih =>
    have hlater : ∀ skip, ∃ skip' found, p.placed.findFrom skip (some c) (front ++ rest) =
          found ++ p.placed.findFrom skip' (after before (c :: front)) rest ∧
        (found = [] ∨ ∃ m, found = [m] ∧ rest.length < m.atStart ∧
          m.atStart ≤ (c :: front ++ rest).length) := by
      intro skip
      obtain ⟨skip', found, heq, hfound⟩ :=
        ih (fun tail htail => h tail (List.IsSuffix.trans htail (List.suffix_cons c front))) skip
          (some c)
      rw [after_cons]
      refine ⟨skip', found, heq, hfound.imp_right ?_⟩
      rintro ⟨m, rfl, hend, hstart⟩
      exact ⟨m, rfl, hend, Nat.le_succ_of_le hstart⟩
    cases skip with
    | succ skip => exact hlater skip
    | zero =>
      rcases p.findFrom_cons_cases before c (front ++ rest) with
        ⟨a, tail, _, hscan, _, hplaced⟩ | ⟨_, _, hplaced⟩
      · -- The match reads all of the text, so behind it some of the rest is left to skip.
        obtain ⟨more, rfl⟩ := h (c :: front) List.suffix_rfl (List.cons_ne_nil c front) _ hscan
        have hskip : (front ++ (more ++ tail)).length - tail.length =
            front.length + more.length := by
          rw [← List.append_assoc, List.length_append, Nat.add_sub_cancel, List.length_append]
        rw [List.cons_append, hplaced, hskip, findFrom_add, after_cons]
        refine ⟨more.length, [_], rfl, .inr ⟨_, rfl, ?_, Nat.le_refl _⟩⟩
        simp only [List.length_cons, List.length_append]
        omega
      · rw [List.cons_append, hplaced]
        exact hlater 0

/-- Whether a pattern matches wherever another one does, and is read by that one at least to its end
from inside each of its matches. -/
structure Covers (wide : Pattern α) (narrow : Pattern β) : Prop where
  opens : ∀ before, narrow.opens before = true → wide.opens before = true
  scans : ∀ cs r, narrow.scan cs = some r → ∃ r', wide.scan cs = some r'
  advances : ∀ cs r, wide.scan cs = some r → ∃ front, front ≠ [] ∧ cs = front ++ r.2
  reaches : ∀ front rest a, wide.scan (front ++ rest) = some (a, rest) →
    ∀ tail, tail <:+ front → tail ≠ [] → ∀ r, narrow.scan (tail ++ rest) = some r → r.2 <:+ rest

namespace Covers

variable {wide : Pattern α} {narrow : Pattern β}

theorem sublistForall₂_findFrom (h : wide.Covers narrow) (cs : List Char) (skip : Nat)
    (before : Option Char) : List.SublistForall₂ Place.StartsIn
      (narrow.placed.findFrom skip before cs) (wide.placed.findFrom 0 before cs) := by
  induction hlength : cs.length using Nat.strongRecOn generalizing cs skip before with
  | ind n ih =>
    cases cs with
    | nil =>
      rw [findFrom_nil]
      exact .nil
    | cons c cs =>
      rcases wide.findFrom_cons_cases before c cs with
        ⟨a, rest, hopens, hscan, _, _⟩ | ⟨hmatch, _, hplaced⟩
      · obtain ⟨front, hfront, hsplit : c :: cs = front ++ rest⟩ := h.advances _ _ hscan
        rw [hsplit] at hscan hlength ⊢
        have hplaced : wide.placed.scan (front ++ rest) =
            some (⟨(front ++ rest).length, rest.length⟩, rest) := by
          rw [scan_placed, hscan, Option.map_some]
        obtain ⟨skip', found, hnarrow, hfound⟩ :=
          findFrom_placed_within (h.reaches front rest a hscan) skip before
        have hrest := ih rest.length (by
          rw [← hlength, List.length_append]
          exact Nat.lt_add_of_pos_left (List.length_pos_iff.mpr hfront)) rest skip'
            (after before front) rfl
        rw [hnarrow, findFrom_of_scan (p := wide.placed) hopens hfront hplaced]
        rcases hfound with rfl | ⟨m, rfl, hend, hstart⟩
        · exact .cons_right hrest
        · exact .cons ⟨hend, hstart⟩ hrest
      · have hnext : ∀ skip, List.SublistForall₂ Place.StartsIn
            (narrow.placed.findFrom skip (some c) cs) (wide.placed.findFrom 0 (some c) cs) :=
          fun skip => ih cs.length (hlength ▸ Nat.lt_succ_self _) cs skip (some c) rfl
        rw [hplaced]
        cases skip with
        | succ skip => exact hnext skip
        | zero =>
          rcases narrow.findFrom_cons_cases before c cs with
            ⟨a, rest, hopens, hscan, _, _⟩ | ⟨_, _, hnarrow⟩
          · rcases hmatch with hwide | hwide
            · exact absurd (h.opens before hopens) (Bool.not_eq_true _ ▸ hwide)
            · obtain ⟨r, hr⟩ := h.scans _ _ hscan
              cases hwide.symm.trans hr
          · rw [hnarrow]
            exact hnext 0

/-- Each match of the pattern that is covered starts inside a match of the pattern that covers it,
later ones inside later ones. -/
theorem sublistForall₂_find (h : wide.Covers narrow) (text : List Char) :
    List.SublistForall₂ Place.StartsIn (narrow.placed.find text) (wide.placed.find text) :=
  h.sublistForall₂_findFrom text 0 none

theorem length_find_le (h : wide.Covers narrow) (text : List Char) :
    (narrow.find text).length ≤ (wide.find text).length := by
  have hlength := length_le_of_sublistForall₂ (h.sublistForall₂_find text)
  rwa [find, find, length_findFrom_placed, length_findFrom_placed] at hlength

end Covers

theorem count_append (ps qs : List (Pattern Unit)) (text : List Char) :
    count (ps ++ qs) text = count ps text + count qs text := by
  rw [count, List.flatMap_append, List.length_append, Int.natCast_add]
  rfl

/-- A text holds at most as many matches of some patterns as of patterns that cover them. -/
theorem count_le_of_covers {wides narrows : List (Pattern Unit)}
    (h : List.Forall₂ (fun wide narrow => wide.Covers narrow) wides narrows) (text : List Char) :
    count narrows text ≤ count wides text := by
  rw [count, count, Int.ofNat_le]
  induction h with
  | nil => exact Nat.le_refl _
  | cons hcovers _ ih =>
    rw [List.flatMap_cons, List.flatMap_cons, List.length_append, List.length_append]
    exact Nat.add_le_add (hcovers.length_find_le text) ih

end RepoSurvey.Pattern
