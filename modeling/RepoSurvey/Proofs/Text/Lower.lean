import Mathlib.Data.List.Basic
import RepoSurvey.Text.Case

/-!
# RepoSurvey.Proofs.Text.Lower

Lower case of a part of a text. Only a capital sigma looks at its neighbours, and not further than
to the nearest character on either side that it does not skip (`nearestCased`). So a part keeps its
lower case inside every text exactly if these characters settle the form of each of its sigmas
(`lower_infix_iff`). Characters that stand before the letters, such as dots and slashes, stay where
they are and do not come from others (`mem_lower_iff`).
-/

namespace RepoSurvey.Text

/-! ## Neighbours of a sigma -/

/-- Whether the nearest character that a sigma does not skip has case, if there is one. -/
def nearestCased : List Char → Option Bool
  | [] => none
  | c :: cs =>
    if inside skippedBoundaries c.toNat then nearestCased cs
    else some (inside casedBoundaries c.toNat)

theorem meetsCased_eq (cs : List Char) : meetsCased cs = (nearestCased cs).getD false := by
  induction cs with
  | nil => rfl
  | cons c cs ih =>
    rw [meetsCased, nearestCased]
    split
    · exact ih
    · rfl

theorem nearestCased_append (cs ds : List Char) :
    nearestCased (cs ++ ds) = (nearestCased cs).or (nearestCased ds) := by
  induction cs with
  | nil => rfl
  | cons c cs ih =>
    rw [List.cons_append, nearestCased, nearestCased]
    split
    · exact ih
    · rfl

/-- A text in which nothing is met holds no sigma. -/
theorem sigma_not_mem {cs : List Char} (h : nearestCased cs = none) : 'Σ' ∉ cs := by
  induction cs with
  | nil => exact List.not_mem_nil
  | cons c cs ih =>
    rw [nearestCased] at h
    split at h
    · next hskipped =>
      rw [List.mem_cons, not_or]
      refine ⟨?_, ih h⟩
      rintro rfl
      exact absurd hskipped (by decide +kernel)
    · cases h

/-- Whether a sigma takes its final form, with what stands before it listed nearest first. -/
def isFinal (before after : List Char) : Bool := meetsCased before && !meetsCased after

/-- Whether a sigma takes one form whatever stands around the characters next to it: there is one
without case before it, or one with case after it, or any on both sides. -/
def Settled (before after : List Char) : Prop :=
  nearestCased before = some false ∨ nearestCased after = some true ∨
    (nearestCased before).isSome ∧ (nearestCased after).isSome

instance (before after : List Char) : Decidable (Settled before after) :=
  inferInstanceAs (Decidable (_ ∨ _ ∨ _ ∧ _))

theorem isFinal_append {before after : List Char} (h : Settled before after)
    (farther later : List Char) :
    isFinal (before ++ farther) (after ++ later) = isFinal before after := by
  simp only [isFinal, meetsCased_eq, nearestCased_append]
  obtain hbefore | hafter | ⟨hbefore, hafter⟩ := h
  · simp [hbefore]
  · simp [hafter]
  · obtain ⟨b, hb⟩ := Option.isSome_iff_exists.mp hbefore
    obtain ⟨a, ha⟩ := Option.isSome_iff_exists.mp hafter
    simp [hb, ha]

/-- A form that is not settled changes next to a letter on a side where nothing is met. -/
theorem isFinal_of_not_settled {before after : List Char} (h : ¬ Settled before after) :
    (nearestCased before = none ∧ isFinal before after = false ∧
        isFinal (before ++ ['A']) after = true) ∨
      (nearestCased after = none ∧ isFinal before after = true ∧
        isFinal before (after ++ ['A']) = false) := by
  have hletter : nearestCased ['A'] = some true := by decide +kernel
  simp only [isFinal, meetsCased_eq, nearestCased_append, hletter]
  rw [Settled] at h
  cases hb : nearestCased before with
  | none =>
    cases ha : nearestCased after with
    | none => simp
    | some a => cases a <;> simp_all
  | some b =>
    cases ha : nearestCased after with
    | none => cases b <;> simp_all
    | some a => simp_all

/-! ## Lower case between other characters -/

def lowerChar (before after : List Char) (c : Char) : List Char :=
  if c.toNat < 128 then [c.toLower]
  else if c.toNat == 0x3A3 then [Char.ofNat (if isFinal before after then 0x3C2 else 0x3C3)]
  else lowerWide c

def lowerBetween (before : List Char) : List Char → List Char → List Char
  | [], _ => []
  | c :: cs, after => lowerChar before (cs ++ after) c ++ lowerBetween (c :: before) cs after

theorem lowerFrom_cons (before : List Char) (c : Char) (cs : List Char) :
    lowerFrom before (c :: cs) = lowerChar before cs c ++ lowerFrom (c :: before) cs := rfl

theorem lowerFrom_append (before cs after : List Char) :
    lowerFrom before (cs ++ after) =
      lowerBetween before cs after ++ lowerFrom (cs.reverse ++ before) after := by
  induction cs generalizing before with
  | nil => rfl
  | cons c cs ih =>
    rw [List.cons_append, lowerFrom_cons, ih, lowerBetween, List.reverse_cons, List.append_assoc,
      List.append_assoc, List.singleton_append]

theorem lowerFrom_eq (before cs : List Char) : lowerFrom before cs = lowerBetween before cs [] := by
  have h := lowerFrom_append before cs []
  rwa [List.append_nil, lowerFrom, List.append_nil] at h

theorem lowerChar_sigma (before after : List Char) :
    lowerChar before after 'Σ' = [if isFinal before after then 'ς' else 'σ'] := by
  have hascii : ¬ 'Σ'.toNat < 128 := by decide
  have hsigma : ('Σ'.toNat == 0x3A3) = true := rfl
  rw [lowerChar, if_neg hascii, if_pos hsigma]
  cases isFinal before after <;> rfl

theorem lowerChar_of_ne {c : Char} (h : c ≠ 'Σ') (before after before' after' : List Char) :
    lowerChar before after c = lowerChar before' after' c := by
  have hsigma : ¬ (c.toNat == 0x3A3) = true := by
    intro heq
    exact h (Char.toNat_inj.mp (beq_iff_eq.mp heq))
  rw [lowerChar, lowerChar, if_neg hsigma, if_neg hsigma]

theorem length_lowerChar (before after before' after' : List Char) (c : Char) :
    (lowerChar before after c).length = (lowerChar before' after' c).length := by
  by_cases h : c = 'Σ'
  · subst h
    rw [lowerChar_sigma, lowerChar_sigma]
    rfl
  · rw [lowerChar_of_ne h]

theorem length_lowerBetween (before cs after before' after' : List Char) :
    (lowerBetween before cs after).length = (lowerBetween before' cs after').length := by
  induction cs generalizing before before' with
  | nil => rfl
  | cons c cs ih =>
    rw [lowerBetween, lowerBetween, List.length_append, List.length_append,
      length_lowerChar before (cs ++ after) before' (cs ++ after'), ih]

theorem lowerBetween_of_not_mem {cs : List Char} (h : 'Σ' ∉ cs)
    (before after before' after' : List Char) :
    lowerBetween before cs after = lowerBetween before' cs after' := by
  induction cs generalizing before before' with
  | nil => rfl
  | cons c cs ih =>
    rw [List.mem_cons, not_or] at h
    rw [lowerBetween, lowerBetween, lowerChar_of_ne (Ne.symm h.1) before (cs ++ after), ih h.2]

/-! ## Parts that keep their lower case -/

/-- Whether the form of every sigma is settled, where `before` holds what stands in front. -/
def SteadyFrom : List Char → List Char → Prop
  | _, [] => True
  | before, c :: cs => (c = 'Σ' → Settled before cs) ∧ SteadyFrom (c :: before) cs

/-- Whether the form of every sigma of a text is settled inside the text. -/
def Steady (s : String) : Prop := SteadyFrom [] s.toList

instance decidableSteadyFrom : (before cs : List Char) → Decidable (SteadyFrom before cs)
  | _, [] => isTrue trivial
  | before, c :: cs =>
    have := decidableSteadyFrom (c :: before) cs
    inferInstanceAs (Decidable ((c = 'Σ' → Settled before cs) ∧ SteadyFrom (c :: before) cs))

instance (s : String) : Decidable (Steady s) :=
  inferInstanceAs (Decidable (SteadyFrom [] s.toList))

theorem steadyFrom_of_not_mem {cs : List Char} (h : 'Σ' ∉ cs) (before : List Char) :
    SteadyFrom before cs := by
  induction cs generalizing before with
  | nil => trivial
  | cons c cs ih =>
    rw [List.mem_cons, not_or] at h
    exact ⟨fun hc => absurd hc.symm h.1, ih h.2 _⟩

theorem lowerBetween_of_steady {before cs : List Char} (h : SteadyFrom before cs)
    (farther after : List Char) :
    lowerBetween (before ++ farther) cs after = lowerFrom before cs := by
  induction cs generalizing before with
  | nil => rfl
  | cons c cs ih =>
    have hchar : lowerChar (before ++ farther) (cs ++ after) c = lowerChar before cs c := by
      by_cases hc : c = 'Σ'
      · rw [hc, lowerChar_sigma, lowerChar_sigma, isFinal_append (h.1 hc)]
      · exact lowerChar_of_ne hc ..
    rw [lowerBetween, lowerFrom_cons, hchar, ← ih h.2, List.cons_append]

theorem lower_infix {p s : String} (hp : Steady p) (h : p.toList <:+: s.toList) :
    (lower p).toList <:+: (lower s).toList := by
  obtain ⟨front, back, hs⟩ := h
  have hpart : lowerBetween front.reverse p.toList back = lowerFrom [] p.toList := by
    simpa using lowerBetween_of_steady hp front.reverse back
  refine ⟨lowerBetween [] front (p.toList ++ back),
    lowerFrom (p.toList.reverse ++ front.reverse) back, ?_⟩
  simp only [lower, String.toList_ofList]
  rw [← hs, List.append_assoc front, lowerFrom_append, lowerFrom_append, List.append_nil, hpart,
    List.append_assoc]

/-! ## Parts that do not -/

theorem exists_not_settled {before cs : List Char} (h : ¬ SteadyFrom before cs) :
    ∃ front back, cs = front ++ 'Σ' :: back ∧ ¬ Settled (front.reverse ++ before) back := by
  induction cs generalizing before with
  | nil => exact absurd trivial h
  | cons c cs ih =>
    rw [SteadyFrom, not_and_or, Classical.not_imp] at h
    obtain ⟨rfl, hsettled⟩ | hrest := h
    · exact ⟨[], cs, rfl, hsettled⟩
    · obtain ⟨front, back, rfl, hsettled⟩ := ih hrest
      exact ⟨c :: front, back, rfl, by simpa using hsettled⟩

theorem lowerFrom_sigma (before front back : List Char) :
    lowerFrom before (front ++ 'Σ' :: back) =
      lowerBetween before front ('Σ' :: back) ++
        (if isFinal (front.reverse ++ before) back then 'ς' else 'σ') ::
          lowerFrom ('Σ' :: (front.reverse ++ before)) back := by
  rw [lowerFrom_append, lowerFrom_cons, lowerChar_sigma, List.singleton_append]

theorem length_lowerFrom (before before' cs : List Char) :
    (lowerFrom before cs).length = (lowerFrom before' cs).length := by
  rw [lowerFrom_eq, lowerFrom_eq, length_lowerBetween]

/-- One more character in front makes up for no change behind the same front. -/
theorem not_infix_cons {front rest rest' : List Char} {x y z : Char} (hxy : x ≠ y) (hxz : x ≠ z)
    (hlength : rest.length = rest'.length) :
    ¬ front ++ x :: rest <:+: z :: (front ++ y :: rest') := by
  rintro ⟨u, v, heq⟩
  match u with
  | [] =>
    have hsplit : front ++ [x] ++ (rest ++ v) = z :: front ++ y :: rest' := by simpa using heq
    have hfront : front ++ [x] = z :: front := (List.append_inj hsplit (by simp)).1
    have hcount := congrArg (List.count z) hfront
    simp [hxz] at hcount
  | [w] =>
    have hv : v = [] := by
      have hlengths := congrArg List.length heq
      simp only [List.length_append, List.length_cons, List.length_nil] at hlengths
      exact List.length_eq_zero_iff.mp (by omega)
    subst hv
    have hsame : front ++ x :: rest = front ++ y :: rest' := by simpa using (List.cons.inj heq).2
    exact hxy (List.cons.inj (List.append_cancel_left hsame)).1
  | w :: w' :: u =>
    have hlengths := congrArg List.length heq
    simp only [List.length_append, List.length_cons] at hlengths
    omega

theorem not_infix_concat {front front' rest : List Char} {x y z : Char} (hxy : x ≠ y) (hxz : x ≠ z)
    (hlength : front.length = front'.length) :
    ¬ front ++ x :: rest <:+: front' ++ y :: (rest ++ [z]) := by
  intro h
  have hreverse := List.reverse_infix.mpr h
  simp only [List.reverse_append, List.reverse_cons, List.append_assoc, List.reverse_nil,
    List.nil_append, List.cons_append] at hreverse
  exact not_infix_cons hxy hxz (by simpa using hlength) hreverse

/-- A letter next to a sigma that is not settled changes its form. -/
theorem exists_not_infix {p : String} (h : ¬ Steady p) :
    ∃ s : String, p.toList <:+: s.toList ∧ ¬ (lower p).toList <:+: (lower s).toList := by
  obtain ⟨front, back, hp, hsettled⟩ := exists_not_settled h
  simp only [lower, String.toList_ofList, hp]
  obtain ⟨hnone, hform, hform'⟩ | ⟨hnone, hform, hform'⟩ := isFinal_of_not_settled hsettled
  · have hfront : 'Σ' ∉ front := by
      simpa using sigma_not_mem hnone
    have hlower : lowerFrom [] ('A' :: (front ++ 'Σ' :: back)) =
        'a' :: lowerFrom ['A'] (front ++ 'Σ' :: back) := rfl
    refine ⟨String.ofList ('A' :: (front ++ 'Σ' :: back)), ⟨['A'], [], by simp⟩, ?_⟩
    rw [List.append_nil] at hform hform'
    rw [String.toList_ofList, hlower, lowerFrom_sigma, lowerFrom_sigma, List.append_nil, hform,
      hform', lowerBetween_of_not_mem hfront ['A'] ('Σ' :: back) [] ('Σ' :: back)]
    exact not_infix_cons (by decide) (by decide) (length_lowerFrom ..)
  · have hback := sigma_not_mem hnone
    have hlower : ∀ before, lowerFrom before (back ++ ['A']) = lowerFrom before back ++ ['a'] := by
      intro before
      rw [lowerFrom_append, lowerFrom_eq before back,
        lowerBetween_of_not_mem hback before ['A'] before []]
      rfl
    refine ⟨String.ofList (front ++ 'Σ' :: (back ++ ['A'])), ⟨[], ['A'], by simp⟩, ?_⟩
    rw [String.toList_ofList, lowerFrom_sigma, lowerFrom_sigma, hform, hform', hlower]
    exact not_infix_concat (by decide) (by decide) (length_lowerBetween ..)

/-- A text keeps its lower case inside every other text exactly if it settles its sigmas. -/
theorem lower_infix_iff (p : String) :
    (∀ s : String, p.toList <:+: s.toList → (lower p).toList <:+: (lower s).toList) ↔ Steady p := by
  refine ⟨fun h => ?_, fun hp s h => lower_infix hp h⟩
  by_contra hsteady
  obtain ⟨s, hpart, hlower⟩ := exists_not_infix hsteady
  exact hlower (h s hpart)

/-! ## Characters before the letters -/

theorem toNat_ofNat_cases (n : Nat) : (Char.ofNat n).toNat = n ∨ (Char.ofNat n).toNat = 0 := by
  by_cases h : n.isValidChar
  · exact .inl (congrArg Char.toNat (dif_pos h))
  · exact .inr (congrArg Char.toNat (dif_neg h))

theorem le_add_shift_of_mem {r : CaseRun} (h : r ∈ lowerRuns) :
    ('A'.toNat : Int) ≤ r.first + r.shift := by
  have hall : (lowerRuns.all fun r => decide (('A'.toNat : Int) ≤ r.first + r.shift)) = true := by
    decide +kernel
  exact of_decide_eq_true (List.all_eq_true.mp hall r h)

theorem lowerChar_wide {c : Char} (hwide : 128 ≤ c.toNat) (h : c ≠ 'Σ')
    (before after : List Char) : lowerChar before after c = lowerWide c := by
  have hcode : ¬ (c.toNat == 0x3A3) = true := fun heq =>
    h (Char.toNat_inj.mp (beq_iff_eq.mp heq))
  rw [lowerChar, if_neg (Nat.not_lt.mpr hwide), if_neg hcode]

section BeforeLetters

variable {d : Char} (hpos : 0 < d.toNat) (hd : d.toNat < 'A'.toNat)
include hd

theorem eq_toLower_iff (c : Char) : d = c.toLower ↔ d = c := by
  by_cases hupper : c.val ≥ 'A'.val ∧ c.val ≤ 'Z'.val
  · have hfirst : 'A'.toNat ≤ c.toNat := UInt32.le_iff_toNat_le.mp hupper.1
    have hlast : c.toNat ≤ 'Z'.toNat := UInt32.le_iff_toNat_le.mp hupper.2
    have hletters : 'A'.toNat = 65 ∧ 'Z'.toNat = 90 := ⟨rfl, rfl⟩
    have hlower : c.toLower.toNat = (c.toNat + 32) % 2 ^ 32 := congrArg Char.toNat (dif_pos hupper)
    refine iff_of_false ?_ ?_ <;> rintro rfl <;> omega
  · have hsame : c.toLower = c := dif_neg hupper
    rw [hsame]

include hpos

theorem not_mem_lowerWide {c : Char} (hc : 128 ≤ c.toNat) : d ∉ lowerWide c := by
  have hletter : 'A'.toNat = 65 := rfl
  rw [lowerWide]
  split
  · rw [List.mem_cons, List.mem_singleton, not_or]
    constructor <;> rintro rfl <;> exact absurd hd (by decide)
  · rw [List.mem_singleton, shiftBy]
    split
    · next r hr =>
      have hinside := List.find?_some hr
      simp only [Bool.and_eq_true, decide_eq_true_eq] at hinside
      have hleast := le_add_shift_of_mem (List.mem_of_find?_eq_some hr)
      rintro rfl
      -- The run moves the code point to a letter at least, or to none at all.
      obtain h | h := toNat_ofNat_cases (c.toNat + r.shift).toNat <;> omega
    · rintro rfl
      omega

theorem mem_lowerChar_iff (before after : List Char) (c : Char) :
    d ∈ lowerChar before after c ↔ d = c := by
  by_cases hascii : c.toNat < 128
  · rw [lowerChar, if_pos hascii, List.mem_singleton, eq_toLower_iff hd]
  · have hwide : 128 ≤ c.toNat := Nat.le_of_not_lt hascii
    have hne : d ≠ c := by
      rintro rfl
      exact hascii (Nat.lt_trans hd (by decide))
    refine iff_of_false ?_ hne
    by_cases hsigma : c = 'Σ'
    · rw [hsigma, lowerChar_sigma, List.mem_singleton]
      rintro rfl
      revert hd
      cases isFinal before after <;> decide
    · rw [lowerChar_wide hwide hsigma]
      exact not_mem_lowerWide hpos hd hwide

/-- Lower case neither takes away nor brings in a character that stands before the letters. -/
theorem mem_lower_iff (s : String) : d ∈ (lower s).toList ↔ d ∈ s.toList := by
  have hfrom : ∀ before cs, d ∈ lowerFrom before cs ↔ d ∈ cs := by
    intro before cs
    induction cs generalizing before with
    | nil => rfl
    | cons c cs ih =>
      rw [lowerFrom_cons, List.mem_append, mem_lowerChar_iff hpos hd, ih, List.mem_cons]
  rw [lower, String.toList_ofList, hfrom]

end BeforeLetters

theorem lower_eq_empty_iff {s : String} : lower s = "" ↔ s = "" := by
  have hfrom : ∀ cs, lowerFrom [] cs = [] ↔ cs = [] := by
    intro cs
    cases cs with
    | nil => exact iff_of_true rfl rfl
    | cons c cs =>
      refine iff_of_false (fun h => ?_) (List.cons_ne_nil _ _)
      obtain ⟨hchar, -⟩ := List.append_eq_nil_iff.mp h
      split at hchar
      · cases hchar
      · split at hchar
        · cases hchar
        · rw [lowerWide] at hchar
          split at hchar <;> cases hchar
  rw [lower, ← String.toList_inj, String.toList_ofList, ← String.toList_inj]
  exact hfrom s.toList

end RepoSurvey.Text
