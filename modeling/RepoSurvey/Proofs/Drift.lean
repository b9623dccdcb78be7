import Mathlib.Data.Finset.Card
import RepoSurvey.Drift
import RepoSurvey.Proofs.Binary64.Threshold
import RepoSurvey.Proofs.Except
import RepoSurvey.Proofs.Graph.Arc

/-!
# RepoSurvey.Proofs.Drift

How the comparisons of some snapshots hang together. What is counted is the difference of two sets,
however often their members are listed, so the counts obey the laws of sets (`missing_eq_card`). Of
the remarks only one depends on the size of a change, and it says of a rise what it says of the fall
that undoes it (`Contents.mem_improvements_iff`, `Contents.mem_regressions_iff`).
-/

namespace RepoSurvey.Drift

open Binary64

/-! ## Missing texts -/

section Missing

variable (xs ys zs : List String)

theorem missing_eq_card : missing xs ys = ((xs.toFinset \ ys.toFinset).card : Int) := by
  have hnodup : (xs.eraseDups.filter fun x => !ys.contains x).Nodup :=
    (Graph.nodup_eraseDups xs).filter _
  have hset : (xs.eraseDups.filter fun x => !ys.contains x).toFinset =
      xs.toFinset \ ys.toFinset := by
    ext x
    simp
  rw [missing, ← hset, List.toFinset_card_of_nodup hnodup]

theorem missing_self : missing xs xs = 0 := by
  rw [missing_eq_card, Finset.sdiff_self, Finset.card_empty, Nat.cast_zero]

theorem missing_le_add : missing xs zs ≤ missing xs ys + missing ys zs := by
  simp only [missing_eq_card]
  have htriangle : xs.toFinset \ zs.toFinset ⊆
      xs.toFinset \ ys.toFinset ∪ ys.toFinset \ zs.toFinset :=
    sdiff_triangle xs.toFinset ys.toFinset zs.toFinset
  exact_mod_cast (Finset.card_le_card htriangle).trans (Finset.card_union_le _ _)

theorem missing_sub_missing :
    missing xs ys - missing ys xs = (xs.toFinset.card : Int) - ys.toFinset.card := by
  have hxs := Finset.card_sdiff_add_card_inter xs.toFinset ys.toFinset
  have hys := Finset.card_sdiff_add_card_inter ys.toFinset xs.toFinset
  rw [Finset.inter_comm] at hys
  simp only [missing_eq_card]
  omega

end Missing

/-! ## Remarks on the score -/

/-- The remark on the score that names a change and its size. -/
def healthLine (verb size : String) : String := "Overall health " ++ verb ++ " by " ++ size ++ "%"

theorem healthLine_inj {verb size size' : String} :
    healthLine verb size = healthLine verb size' ↔ size = size' := by
  unfold healthLine
  rw [String.append_left_inj, String.append_right_inj]

theorem healthLine_ne {remark : String} (h : remark.toList.head? ≠ some 'O') (verb size : String) :
    healthLine verb size ≠ remark := by
  have hfirst : "Overall health ".toList.head? = some 'O' := by decide +kernel
  rintro rfl
  unfold healthLine at h
  simp only [String.toList_append, List.head?_append, hfirst, Option.some_or] at h
  exact h rfl

/-- Whether a text is the size of a change, written out, and the change goes upwards. -/
def Sized (n : Int) (size : String) : Prop :=
  0 < n ∧ ∃ x, ofInt? n = some x ∧ size = Decimal.onePlace x

theorem Sized.unique {n : Int} {size size' : String} (h : Sized n size) (h' : Sized n size') :
    size = size' := by
  obtain ⟨_, x, hx, rfl⟩ := h
  obtain ⟨_, y, hy, rfl⟩ := h'
  obtain rfl : x = y := Option.some.inj (hx.symm.trans hy)
  rfl

/-- The remarks on a change of the score that goes upwards. -/
def healthLines (verb : String) (n : Int) : Except Failure (List String) :=
  if 0 < n then (healthRemark verb n).map ([·]) else .ok []

section Health

variable {verb size : String} {n : Int} {lines : List String}

theorem healthRemark_of_some {x : Binary64} (h : ofInt? n = some x) :
    healthRemark verb n = .ok (healthLine verb (Decimal.onePlace x)) := by
  unfold healthRemark
  rw [h]
  rfl

theorem healthRemark_of_none (h : ofInt? n = none) : healthRemark verb n = .error .outOfRange := by
  unfold healthRemark
  rw [h]

theorem healthLines_cases (h : healthLines verb n = .ok lines) :
    (∃ size, Sized n size ∧ lines = [healthLine verb size]) ∨ n ≤ 0 ∧ lines = [] := by
  rw [healthLines] at h
  split at h
  · next hn =>
    obtain ⟨line, hline, rfl⟩ := Except.map_eq_ok_iff.mp h
    cases hx : ofInt? n with
    | none =>
      rw [healthRemark_of_none hx] at hline
      cases hline
    | some x =>
      rw [healthRemark_of_some hx] at hline
      cases hline
      exact .inl ⟨_, ⟨hn, x, hx, rfl⟩, rfl⟩
  · next hn =>
    cases h
    exact .inr ⟨not_lt.mp hn, rfl⟩

theorem mem_healthLines_iff (h : healthLines verb n = .ok lines) :
    healthLine verb size ∈ lines ↔ Sized n size := by
  obtain ⟨size', hsize, rfl⟩ | ⟨hn, rfl⟩ := healthLines_cases h
  · rw [List.mem_singleton, healthLine_inj]
    exact ⟨fun heq => heq ▸ hsize, fun hsized => hsized.unique hsize⟩
  · refine ⟨fun hmem => (List.not_mem_nil hmem).elim, fun hsized => ?_⟩
    exact absurd hsized.1 (not_lt.mpr hn)

theorem pos_of_mem_healthLines (h : healthLines verb n = .ok lines) {line : String}
    (hline : line ∈ lines) : 0 < n := by
  obtain ⟨_, hsize, _⟩ | ⟨_, rfl⟩ := healthLines_cases h
  · exact hsize.1
  · exact (List.not_mem_nil hline).elim

theorem exists_healthLines_iff (verb : String) :
    (∃ lines, healthLines verb n = .ok lines) ↔ n < integerLimit := by
  have hlimit : 0 < integerLimit := by decide +kernel
  rw [healthLines]
  split
  · next hn =>
    have hrange := ofInt?_eq_none_iff n
    rw [abs_of_pos hn] at hrange
    cases hx : ofInt? n with
    | none =>
      rw [healthRemark_of_none hx]
      constructor
      · rintro ⟨_, h⟩
        cases h
      · exact fun h => absurd (hrange.mp hx) (not_le.mpr h)
    | some x =>
      rw [healthRemark_of_some hx]
      refine ⟨fun _ => ?_, fun _ => ⟨_, rfl⟩⟩
      by_contra hge
      rw [hrange.mpr (not_lt.mp hge)] at hx
      cases hx
  · next hn => exact ⟨fun _ => (not_lt.mp hn).trans_lt hlimit, fun _ => ⟨[], rfl⟩⟩

end Health

theorem onePlace_of_toRat? {x : Binary64} {n : Nat} (hn : 0 < n) (h : x.toRat? = some (n : Rat)) :
    Decimal.onePlace x = toString n ++ ".0" := by
  obtain ⟨m, e, rfl, hvalue⟩ := eq_finite_of_pos h (by exact_mod_cast hn)
  have htenths : (roundHalfEven (((m + 1 : Nat) : Rat) * 2 ^ e * 10)).toNat = 10 * n := by
    have hcast : ((m + 1 : Nat) : Rat) * 2 ^ e * 10 = ((10 * n : Int) : Rat) := by
      rw [← hvalue]
      push_cast
      ring
    rw [hcast, roundHalfEven_intCast]
    omega
  have hquot : 10 * n / 10 = n := by omega
  have hrem : 10 * n % 10 = 0 := by omega
  simp only [Decimal.onePlace, htenths, hquot, hrem, Bool.false_eq_true, if_false]
  rw [← String.toList_inj, String.toList_ofList, String.toList_append]
  exact congrArg (· ++ ['.', '0']) String.toList_ofList.symm

theorem sized_toString {n : Int} (hpos : 0 < n) (h : n ≤ 100) : Sized n (toString n ++ ".0") := by
  have habs : |n| ≤ 2 ^ 7 := by
    rw [abs_of_pos hpos]
    omega
  obtain ⟨x, hx, _⟩ := ofInt?_within (by decide) habs
  have hvalue := toRat?_of_ofInt? hx
  rw [nearest_intCast hpos (by omega)] at hvalue
  obtain ⟨m, rfl⟩ := Int.eq_ofNat_of_zero_le hpos.le
  refine ⟨hpos, x, hx, ?_⟩
  exact (onePlace_of_toRat? (by exact_mod_cast hpos) (by exact_mod_cast hvalue)).symm

/-- A small whole number of points is written with a zero behind the point. -/
theorem sized_iff {n : Int} (h : n ≤ 100) {size : String} :
    Sized n size ↔ 0 < n ∧ size = toString n ++ ".0" := by
  constructor
  · exact fun hsized => ⟨hsized.1, hsized.unique (sized_toString hsized.1 h)⟩
  · rintro ⟨hpos, rfl⟩
    exact sized_toString hpos h

/-! ## Comparisons -/

/-- The paths of a snapshot, each of them once. -/
def paths (s : Snapshot) : Finset String := (s.entries.map (·.path)).toFinset

/-- The remarks on cycles and growth. -/
def structureRemarks (current baseline : Snapshot) : List String :=
  (if hasCycles current && !hasCycles baseline then [cyclesRemark] else []) ++
    if baseline.totalFiles + growthLimit < current.totalFiles then [growthRemark] else []

theorem structureRemarks_self (s : Snapshot) : structureRemarks s s = [] := by
  have hfiles : ¬ s.totalFiles + growthLimit < s.totalFiles := by
    rw [growthLimit]
    omega
  rw [structureRemarks, Bool.and_not_self, if_neg hfiles]
  rfl

theorem healthLine_not_mem_structureRemarks (verb size : String) (current baseline : Snapshot) :
    healthLine verb size ∉ structureRemarks current baseline := by
  have hcycles : healthLine verb size ≠ cyclesRemark := healthLine_ne (by decide +kernel) verb size
  have hgrowth : healthLine verb size ≠ growthRemark := healthLine_ne (by decide +kernel) verb size
  rw [structureRemarks]
  split <;> split <;> simp [hcycles, hgrowth]

theorem worsened_eq (current baseline : Snapshot) :
    worsened current baseline = (healthLines "decreased" (baseline.score - current.score)).map
      (· ++ structureRemarks current baseline) := by
  have hsign : current.score - baseline.score < 0 ↔ 0 < baseline.score - current.score := by omega
  simp only [worsened, healthLines, neg_sub, hsign]
  split
  · cases healthRemark "decreased" (baseline.score - current.score) <;> rfl
  · rfl

/-- Whether a report tells, at some time, what changed from a baseline to a current snapshot. -/
def Compares (current baseline : Snapshot) (d : Drift) : Prop :=
  ∃ now, (run now current baseline).result = .ok d

/-- What a report on two snapshots says. -/
structure Contents (current baseline : Snapshot) (d : Drift) : Prop where
  delta : d.delta = current.score - baseline.score
  addedFiles : d.addedFiles =
    missing (current.entries.map (·.path)) (baseline.entries.map (·.path))
  removedFiles : d.removedFiles =
    missing (baseline.entries.map (·.path)) (current.entries.map (·.path))
  newDependencies : d.newDependencies =
    missing (current.dependencies.map (·.key)) (baseline.dependencies.map (·.key))
  improvements : healthLines "increased" (current.score - baseline.score) = .ok d.improvements
  regressions : ∃ health, healthLines "decreased" (baseline.score - current.score) = .ok health ∧
    d.regressions = health ++ structureRemarks current baseline

section Comparison

variable {current baseline : Snapshot} {d : Drift}

theorem result_run_eq_ok_iff {now : Int} :
    (run now current baseline).result = .ok d ↔
      ∃ health improvements,
        healthLines "decreased" (baseline.score - current.score) = .ok health ∧
        healthLines "increased" (current.score - baseline.score) = .ok improvements ∧
        d = {
          previousScore := baseline.score
          currentScore := current.score
          delta := current.score - baseline.score
          addedFiles :=
            missing (current.entries.map (·.path)) (baseline.entries.map (·.path))
          removedFiles :=
            missing (baseline.entries.map (·.path)) (current.entries.map (·.path))
          newDependencies :=
            missing (current.dependencies.map (·.key)) (baseline.dependencies.map (·.key))
          regressions := health ++ structureRemarks current baseline
          improvements
          timestamp := now } := by
  simp only [run, between, Logged.bind_eq_ok_iff, Logged.result_ofExcept, Logged.result_pure,
    Except.bind_eq_ok_iff, worsened_eq, Except.map_eq_ok_iff]
  constructor
  · rintro ⟨_, ⟨_, ⟨health, hhealth, rfl⟩, improvements, himprovements, h⟩, _, _, hd⟩
    cases h
    cases hd
    exact ⟨health, improvements, hhealth, himprovements, rfl⟩
  · rintro ⟨health, improvements, hhealth, himprovements, rfl⟩
    exact ⟨_, ⟨_, ⟨health, hhealth, rfl⟩, improvements, himprovements, rfl⟩, (), rfl, rfl⟩

/-- A comparison comes about unless the difference of the scores is out of range. -/
theorem exists_run_iff (now : Int) :
    (∃ d, (run now current baseline).result = .ok d) ↔
      |current.score - baseline.score| < integerLimit := by
  simp only [result_run_eq_ok_iff]
  rw [abs_sub_lt_iff, ← exists_healthLines_iff "increased", ← exists_healthLines_iff "decreased"]
  constructor
  · rintro ⟨_, health, improvements, hhealth, himprovements, _⟩
    exact ⟨⟨improvements, himprovements⟩, health, hhealth⟩
  · rintro ⟨⟨improvements, himprovements⟩, health, hhealth⟩
    exact ⟨_, health, improvements, hhealth, himprovements, rfl⟩

theorem Compares.contents (h : Compares current baseline d) : Contents current baseline d := by
  obtain ⟨now, h⟩ := h
  obtain ⟨health, improvements, hhealth, himprovements, rfl⟩ := result_run_eq_ok_iff.mp h
  exact ⟨rfl, rfl, rfl, rfl, himprovements, health, hhealth, rfl⟩

theorem Contents.mem_improvements_iff (h : Contents current baseline d) {size : String} :
    healthLine "increased" size ∈ d.improvements ↔ Sized (current.score - baseline.score) size :=
  mem_healthLines_iff h.improvements

theorem Contents.mem_regressions_iff (h : Contents current baseline d) {size : String} :
    healthLine "decreased" size ∈ d.regressions ↔ Sized (baseline.score - current.score) size := by
  obtain ⟨health, hhealth, hregressions⟩ := h.regressions
  rw [hregressions, List.mem_append, ← mem_healthLines_iff hhealth]
  exact or_iff_left (healthLine_not_mem_structureRemarks _ _ _ _)

/-- A rise and a fall are never both remarked on. -/
theorem Contents.healthLine_not_both (h : Contents current baseline d)
    {verb verb' size size' : String}
    (himproved : healthLine verb size ∈ d.improvements) :
    healthLine verb' size' ∉ d.regressions := by
  obtain ⟨health, hhealth, hregressions⟩ := h.regressions
  have hup := pos_of_mem_healthLines h.improvements himproved
  intro hworsened
  rw [hregressions, List.mem_append] at hworsened
  obtain hworsened | hworsened := hworsened
  · have hdown := pos_of_mem_healthLines hhealth hworsened
    omega
  · exact healthLine_not_mem_structureRemarks _ _ _ _ hworsened

theorem healthLines_zero {verb : String} {lines : List String}
    (h : healthLines verb 0 = .ok lines) : lines = [] := (Except.ok.inj h).symm

theorem Contents.unchanged {s : Snapshot} (h : Contents s s d) :
    d.delta = 0 ∧ (d.addedFiles = 0 ∧ d.removedFiles = 0 ∧ d.newDependencies = 0) ∧
      d.regressions = [] ∧ d.improvements = [] := by
  obtain ⟨health, hhealth, hregressions⟩ := h.regressions
  have himprovements := h.improvements
  rw [sub_self] at hhealth himprovements
  refine ⟨by rw [h.delta, sub_self], ⟨?_, ?_, ?_⟩, ?_, healthLines_zero himprovements⟩
  · rw [h.addedFiles, missing_self]
  · rw [h.removedFiles, missing_self]
  · rw [h.newDependencies, missing_self]
  · rw [hregressions, healthLines_zero hhealth, structureRemarks_self]
    rfl

end Comparison

/-- Whether a snapshot is scored from zero to one hundred, if at all. -/
def Scored (s : Snapshot) : Prop := ∀ r, s.validation = some r → 0 ≤ r.score ∧ r.score ≤ 100

theorem Scored.score_bounds {s : Snapshot} (h : Scored s) : 0 ≤ s.score ∧ s.score ≤ 100 := by
  rw [Snapshot.score]
  cases hr : s.validation with
  | none => exact ⟨le_refl 0, by decide⟩
  | some r => exact h r hr

/-- Comparisons of snapshots that are scored from zero to one hundred, or not at all, come about at
any time and agree with each other. Nothing changes from a snapshot to itself; turning a comparison
round turns the change round; and along a way over another snapshot the changes of the scores add
up, while what is added cannot be more than what is added on the way. -/
theorem comparisons_agree {a b c : Snapshot} (ha : Scored a) (hb : Scored b) (hc : Scored c) :
    (∀ x ∈ [a, b, c], ∀ y ∈ [a, b, c], ∀ now, ∃ d, (run now x y).result = .ok d) ∧
      (∀ d, Compares a a d → d.delta = 0 ∧
        (d.addedFiles = 0 ∧ d.removedFiles = 0 ∧ d.newDependencies = 0) ∧
        d.regressions = [] ∧ d.improvements = []) ∧
      (∀ d d', Compares a b d → Compares b a d' →
        d'.delta = -d.delta ∧
        (d'.addedFiles = d.removedFiles ∧ d'.removedFiles = d.addedFiles) ∧
        ∀ size, healthLine "increased" size ∈ d.improvements ↔
          healthLine "decreased" size ∈ d'.regressions) ∧
      (∀ d d₁ d₂, Compares c a d → Compares b a d₁ → Compares c b d₂ →
        d.delta = d₂.delta + d₁.delta ∧ d.addedFiles ≤ d₂.addedFiles + d₁.addedFiles ∧
        d.newDependencies ≤ d₂.newDependencies + d₁.newDependencies) ∧
      ∀ d, Compares a b d →
        d.addedFiles - d.removedFiles = (paths a).card - (paths b).card ∧
        (∀ size, healthLine "increased" size ∈ d.improvements ↔
          0 < d.delta ∧ size = toString d.delta ++ ".0") ∧
        (∀ size, healthLine "decreased" size ∈ d.regressions ↔
          d.delta < 0 ∧ size = toString (-d.delta) ++ ".0") ∧
        ∀ verb size verb' size', healthLine verb size ∈ d.improvements →
          healthLine verb' size' ∉ d.regressions := by
  have habounds := ha.score_bounds
  have hbbounds := hb.score_bounds
  refine ⟨?_, fun d h => h.contents.unchanged, ?_, ?_, ?_⟩
  · have hall : ∀ x ∈ [a, b, c], 0 ≤ x.score ∧ x.score ≤ 100 := by
      simp only [List.forall_mem_cons]
      exact ⟨habounds, hbbounds, hc.score_bounds, fun x hx => (List.not_mem_nil hx).elim⟩
    intro x hx y hy now
    obtain ⟨hx0, hx100⟩ := hall x hx
    obtain ⟨hy0, hy100⟩ := hall y hy
    have hclose : |x.score - y.score| ≤ 100 := abs_sub_le_iff.mpr ⟨by omega, by omega⟩
    exact (exists_run_iff now).mpr (hclose.trans_lt (by decide +kernel))
  · intro d d' h h'
    have hd := h.contents
    have hd' := h'.contents
    refine ⟨?_, ⟨?_, ?_⟩, fun size => ?_⟩
    · rw [hd.delta, hd'.delta, neg_sub]
    · rw [hd.removedFiles, hd'.addedFiles]
    · rw [hd.addedFiles, hd'.removedFiles]
    · rw [hd.mem_improvements_iff, hd'.mem_regressions_iff]
  · intro d d₁ d₂ h h₁ h₂
    have hd := h.contents
    have hd₁ := h₁.contents
    have hd₂ := h₂.contents
    refine ⟨?_, ?_, ?_⟩
    · rw [hd.delta, hd₁.delta, hd₂.delta, sub_add_sub_cancel]
    · rw [hd.addedFiles, hd₁.addedFiles, hd₂.addedFiles]
      exact missing_le_add _ _ _
    · rw [hd.newDependencies, hd₁.newDependencies, hd₂.newDependencies]
      exact missing_le_add _ _ _
  · intro d h
    have hd := h.contents
    refine ⟨?_, fun size => ?_, fun size => ?_, fun _ _ _ _ => hd.healthLine_not_both⟩
    · rw [hd.addedFiles, hd.removedFiles, missing_sub_missing]
      rfl
    · rw [hd.mem_improvements_iff, sized_iff (by omega), hd.delta]
    · rw [hd.mem_regressions_iff, sized_iff (by omega), hd.delta, neg_sub, sub_neg, sub_pos]

/-- A snapshot with one file, listed twice, that nobody has assessed yet. -/
def unassessed : Snapshot where
  name := "r"
  entries := [{ path := "a.ts", name := "a.ts" }, { path := "a.ts", name := "a.ts" }]

/-- Another file instead of that one. -/
def exchanged : Snapshot where
  name := "r"
  entries := [{ path := "b.ts", name := "b.ts" }]
  validation := some { score := 85 }

/-- The first file is back. -/
def restored : Snapshot := { unassessed with validation := some { score := 70 } }

/-- On the way files are added that are not new in the end. -/
theorem comparisons_agree_restored :
    ∃ d d₁ d₂, Compares restored unassessed d ∧ Compares exchanged unassessed d₁ ∧
      Compares restored exchanged d₂ ∧ d.delta = d₂.delta + d₁.delta ∧
      (d.addedFiles, d₁.addedFiles, d₂.addedFiles) = (0, 1, 1) ∧
      d₂.regressions = ["Overall health decreased by 15.0%"] := by
  obtain ⟨hexists, _, _, hchain, _⟩ := comparisons_agree (a := unassessed) (b := exchanged)
    (c := restored) (fun r hr => by cases hr) (fun r hr => by cases hr; decide)
    (fun r hr => by cases hr; decide)
  obtain ⟨d, hd⟩ := hexists restored (by simp) unassessed (by simp) 0
  obtain ⟨d₁, hd₁⟩ := hexists exchanged (by simp) unassessed (by simp) 0
  obtain ⟨d₂, hd₂⟩ := hexists restored (by simp) exchanged (by simp) 0
  refine ⟨d, d₁, d₂, ⟨0, hd⟩, ⟨0, hd₁⟩, ⟨0, hd₂⟩, (hchain d d₁ d₂ ⟨0, hd⟩ ⟨0, hd₁⟩ ⟨0, hd₂⟩).1, ?_⟩
  have h : (run 0 restored unassessed).result.map (·.addedFiles) = .ok 0 := by decide +kernel
  have h₁ : (run 0 exchanged unassessed).result.map (·.addedFiles) = .ok 1 := by decide +kernel
  have h₂ : (run 0 restored exchanged).result.map (fun d => (d.addedFiles, d.regressions)) =
      .ok (1, ["Overall health decreased by 15.0%"]) := by
    decide +kernel
  rw [hd] at h
  rw [hd₁] at h₁
  rw [hd₂] at h₂
  obtain ⟨hadded, hregressions⟩ := Prod.ext_iff.mp (Except.ok.inj h₂)
  exact ⟨Prod.ext_iff.mpr ⟨Except.ok.inj h, Prod.ext_iff.mpr ⟨Except.ok.inj h₁, hadded⟩⟩,
    hregressions⟩

end RepoSurvey.Drift
