import Mathlib.Tactic.MkIffOfInductiveProp
import RepoSurvey.Proofs.Codec.Tells
import RepoSurvey.Proofs.Snapshot.RoundTrip

/-!
# RepoSurvey.Proofs.Snapshot.Comparable

Snapshots compared without their times. What is written of two snapshots holds the same data exactly
if they are equal as data (`Snapshot.write_same_iff`), so nothing in a snapshot is lost on the way.
Dropping a field from two objects makes no difference where they agree on it, and so the comparison
without times is that of the snapshots with their times made equal (`comparable_same_iff`).
-/

namespace RepoSurvey

open Codec Slot

/-! ## Equality as data -/

/-- Equality of metrics, with their two numbers compared as numbers. -/
@[mk_iff]
structure RiskMetrics.Same (m n : RiskMetrics) : Prop where
  couplingIndex : m.couplingIndex.same n.couplingIndex = true
  isolationScore : m.isolationScore.same n.isolationScore = true
  others : { m with couplingIndex := n.couplingIndex, isolationScore := n.isolationScore } = n

/-- Equality of reports, up to that of their metrics. -/
@[mk_iff]
structure Report.Same (r q : Report) : Prop where
  riskMetrics : r.riskMetrics.Same q.riskMetrics
  others : { r with riskMetrics := q.riskMetrics } = q

/-- Equality of snapshots, up to that of their reports and to the order of their documents. -/
@[mk_iff]
structure Snapshot.Same (s t : Snapshot) : Prop where
  documentation : s.documentation.Perm t.documentation
  validation : Option.Rel Report.Same s.validation t.validation
  others : { s with documentation := t.documentation, validation := t.validation } = t

/-! ## Parts of reports -/

theorem Option.rel_eq_iff {α : Type} {o p : Option α} : Option.Rel Eq o p ↔ o = p := by
  constructor
  · rintro (h | _)
    · rw [h]
    · rfl
  · rintro rfl
    cases o with
    | none => exact .none
    | some a => exact .some rfl

theorem Issue.codec_tells : Issue.codec.Tells Eq :=
  record_tells (separate_of_nodup (by decide))
    (.cons (tells_required text_tells) <|
      .cons (tells_required named_tells) <|
      .cons (tells_required named_tells) <|
      .cons (tells_required text_tells) <|
      .cons (tells_optional (optional_tells text_tells nofun)) <|
      .cons (tells_optional flag_tells) .nil)
    fun x y => by cases x; cases y; simp [Option.rel_eq_iff]

theorem Check.codec_tells : Check.codec.Tells Eq :=
  record_tells (separate_of_nodup (by decide))
    (.cons (tells_required text_tells) <|
      .cons (tells_required named_tells) <|
      .cons (tells_required text_tells) .nil)
    fun x y => by cases x; cases y; simp

theorem CategoryScores.codec_tells : CategoryScores.codec.Tells Eq :=
  record_tells (separate_of_nodup (by decide))
    (.cons (tells_optional integer_tells) <|
      .cons (tells_optional integer_tells) <|
      .cons (tells_optional integer_tells) <|
      .cons (tells_optional integer_tells) .nil)
    fun x y => by cases x; cases y; simp

theorem HeatNode.codec_tells : HeatNode.codec.Tells Eq :=
  record_tells (separate_of_nodup (by decide))
    (.cons (tells_required text_tells) <|
      .cons (tells_required integer_tells) <|
      .cons (tells_required named_tells) <|
      .cons (tells_required integer_tells) .nil)
    fun x y => by cases x; cases y; simp

theorem RiskMetrics.codec_tells : RiskMetrics.codec.Tells RiskMetrics.Same :=
  record_tells (separate_of_nodup (by decide))
    (.cons (tells_optional integer_tells) <|
      .cons (tells_optional integer_tells) <|
      .cons (tells_optional number_tells) <|
      .cons (tells_optional number_tells) <|
      .cons (tells_optional flag_tells) <|
      .cons (tells_optional (list_tells text_tells)) .nil)
    fun x y => by
      cases x
      cases y
      simp only [List.forall_mem_cons, List.not_mem_nil, IsEmpty.forall_iff, implies_true,
        RiskMetrics.same_iff, RiskMetrics.mk.injEq, true_and]
      tauto

theorem Report.codec_tells : Report.codec.Tells Report.Same :=
  record_tells (separate_of_nodup (by decide))
    (.cons (tells_required integer_tells) <|
      .cons (tells_optional CategoryScores.codec_tells) <|
      .cons (tells_optional (list_tells Issue.codec_tells)) <|
      .cons (tells_optional (list_tells Check.codec_tells)) <|
      .cons (tells_optional (list_tells HeatNode.codec_tells)) <|
      .cons (tells_optional (list_tells text_tells)) <|
      .cons (tells_optional RiskMetrics.codec_tells) <|
      .cons (tells_optional named_tells) <|
      .cons (tells_optional integer_tells) .nil)
    fun x y => by
      cases x
      cases y
      simp only [List.forall_mem_cons, List.not_mem_nil, IsEmpty.forall_iff, implies_true,
        Report.same_iff, Report.mk.injEq, true_and]
      tauto

/-! ## Parts of snapshots -/

theorem SymbolCounts.codec_tells : SymbolCounts.codec.Tells Eq :=
  record_tells (separate_of_nodup (by decide))
    (.cons (tells_optional integer_tells) <|
      .cons (tells_optional integer_tells) <|
      .cons (tells_optional integer_tells) .nil)
    fun x y => by cases x; cases y; simp

theorem Entry.codec_tells : Entry.codec.Tells Eq :=
  after_tells (record_tells (separate_of_nodup (by decide))
    (.cons (tells_required text_tells) <|
      .cons (tells_required text_tells) <|
      .cons (tells_optional integer_tells) <|
      .cons (tells_optional named_tells) <|
      .cons (tells_optional text_tells) <|
      .cons (tells_optional text_tells) <|
      .cons (tells_optional SymbolCounts.codec_tells) .nil)
    fun x y => by cases x; cases y; simp) namedByPath

theorem LanguageShare.codec_tells : LanguageShare.codec.Tells Eq :=
  record_tells (separate_of_nodup (by decide))
    (.cons (tells_required text_tells) <|
      .cons (tells_required integer_tells) <|
      .cons (tells_required integer_tells) .nil)
    fun x y => by cases x; cases y; simp

theorem Edge.codec_tells : Edge.codec.Tells Eq :=
  record_tells (separate_of_nodup (by decide))
    (.cons (tells_required text_tells) <|
      .cons (tells_required text_tells) <|
      .cons (tells_optional named_tells) .nil)
    fun x y => by cases x; cases y; simp

theorem Philosophy.codec_tells : Philosophy.codec.Tells Eq :=
  record_tells (separate_of_nodup (by decide))
    (.cons (tells_optional text_tells) <|
      .cons (tells_optional text_tells) .nil)
    fun x y => by cases x; cases y; simp

theorem Milestone.codec_tells : Milestone.codec.Tells Eq :=
  record_tells (separate_of_nodup (by decide))
    (.cons (tells_required text_tells) <|
      .cons (tells_optional text_tells) .nil)
    fun x y => by cases x; cases y; simp

namespace Snapshot

/-! ## Snapshots -/

/-- What is written of two snapshots holds the same data if and only if they are equal as data. -/
theorem write_same_iff {s t : Snapshot} (h : Keyed.Distinct s.documentation) (sp : Spelling) :
    (codec.write sp s).same (codec.write sp t) = true ↔ s.Same t := by
  refine (same_write_iff separate_slots
    (.cons (tells_required text_tells) <|
      .cons (tells_optional integer_tells) <|
      .cons (tells_optional integer_tells) <|
      .cons (tells_optional integer_tells) <|
      .cons (tells_optional text_tells) <|
      .cons (tells_optional (list_tells LanguageShare.codec_tells)) <|
      .cons (tells_optional (list_tells Entry.codec_tells)) <|
      .cons (tells_optional (list_tells Edge.codec_tells)) <|
      .cons (tells_optional flag_tells) <|
      .cons (tells_optional (list_tells text_tells)) <|
      .cons (tells_optional text_tells) <|
      .cons (tells_optional Philosophy.codec_tells) <|
      .cons (tells_optional (list_tells Milestone.codec_tells)) <|
      .cons (tells_optional (mapping_tells text_tells)) <|
      .cons (tells_optional (optional_tells Report.codec_tells fun _ _ => record_write_ne_null)) <|
      .cons (tells_optional integer_tells) .nil) sp s t).trans ?_
  cases s
  cases t
  simp only [List.forall_mem_cons, List.not_mem_nil, IsEmpty.forall_iff, implies_true,
    h.agree_iff_perm, same_iff, mk.injEq, true_and]
  tauto

/-! ## Times -/

/-- A snapshot with the time at which it was made set, and that of its report if it has one. -/
def timedAt (analyzed updated : Int) (s : Snapshot) : Snapshot :=
  { s with
    analyzedAt := analyzed
    validation := s.validation.map fun r => { r with updatedAt := updated } }

theorem same_without_updatedAt (v w : Option Report) (updated : Int) :
    (((Codec.optional Report.codec).write .camel v).without "updatedAt").same
        (((Codec.optional Report.codec).write .camel w).without "updatedAt") = true ↔
      ((Codec.optional Report.codec).write .camel
        (v.map fun r => { r with updatedAt := updated })).same
          ((Codec.optional Report.codec).write .camel
            (w.map fun r => { r with updatedAt := updated })) = true := by
  cases v with
  | none => cases w <;> rfl
  | some r =>
    cases w with
    | none => rfl
    | some q =>
      have hdrop : ∀ t : Report, (Report.codec.write .camel t).without "updatedAt" =
          (Report.codec.write .camel { t with updatedAt := updated }).without "updatedAt" :=
        fun _ => rfl
      show ((Report.codec.write .camel r).without "updatedAt").same
          ((Report.codec.write .camel q).without "updatedAt") = true ↔ _
      rw [hdrop r, hdrop q]
      refine Codec.same_without_iff (separate_of_nodup (by decide)) .camel ?_
      simp [Slot.optional, Slot.required, Label.plain, Label.spelled, Codec.integer, Value.same]

/-- The slots by their times: one writes the time of the snapshot, one the report with its time, and
the others write neither. -/
theorem slot_cases {l : Slot Snapshot} (hl : l ∈ slots) :
    (l.label.camel = "analyzedAt" ∧ ∀ s, l.write .camel s = .int s.analyzedAt) ∨
    (l.label.camel = "validation" ∧
      ∀ s, l.write .camel s = (Codec.optional Report.codec).write .camel s.validation) ∨
    (l.label.camel ≠ "analyzedAt" ∧ l.label.camel ≠ "validation" ∧
      ∀ analyzed updated s, l.write .camel (timedAt analyzed updated s) = l.write .camel s) := by
  have hothers : ∀ l ∈ slots, l.label.camel ≠ "analyzedAt" → l.label.camel ≠ "validation" →
      ∀ analyzed updated s, l.write .camel (timedAt analyzed updated s) = l.write .camel s := by
    simp [slots, Slot.optional, Slot.required, timedAt, Label.plain]
  by_cases hanalyzed : l.label.camel = "analyzedAt"
  · refine .inl ⟨hanalyzed, ?_⟩
    revert l
    simp [slots, Slot.optional, Slot.required, Label.plain, Codec.integer]
  · by_cases hvalidation : l.label.camel = "validation"
    · refine .inr (.inl ⟨hvalidation, ?_⟩)
      revert l
      simp [slots, Slot.optional, Slot.required, Label.plain]
    · exact .inr (.inr ⟨hanalyzed, hvalidation, hothers l hl hanalyzed hvalidation⟩)

theorem comparable_eq (s : Snapshot) :
    s.comparable = .object ((slots.filter fun l => l.label.camel != "analyzedAt").map fun l =>
      (l.label.camel, if l.label.camel == "validation" then
        (l.write .camel s).without "updatedAt" else l.write .camel s)) := by
  rw [comparable, Fields.drop, Slot.fields, List.filter_map, List.map_map]
  congr 2
  funext l
  simp only [Function.comp_apply, Label.spelled]
  split <;> rfl

/-- Comparing without times is comparing with the times made equal: nothing else is hidden. -/
theorem comparable_same_iff {s t : Snapshot} (h : Keyed.Distinct s.documentation)
    (analyzed updated : Int) :
    s.comparable.same t.comparable = true ↔
      (s.timedAt analyzed updated).Same (t.timedAt analyzed updated) := by
  have hdistinct := separate_slots.nodup_spelled .camel
  have hkept : ((slots.filter fun l => l.label.camel != "analyzedAt").map fun l =>
      l.label.camel).Nodup := hdistinct.sublist (List.filter_sublist.map _)
  rw [comparable_eq, comparable_eq, Value.same_object_map_iff hkept,
    ← write_same_iff (s := s.timedAt analyzed updated) h .camel]
  refine Iff.trans ?_ (Value.same_object_map_iff hdistinct _ _).symm
  simp only [List.mem_filter, bne_iff_ne, and_imp]
  refine forall₂_congr fun l hl => ?_
  obtain ⟨hkey, hwrite⟩ | ⟨hkey, hwrite⟩ | ⟨hanalyzed, hvalidation, hwrite⟩ := slot_cases hl
  · refine iff_of_true (fun hne => absurd hkey hne) ?_
    rw [hwrite, hwrite]
    simp [Value.same, timedAt]
  · have htimes := same_without_updatedAt s.validation t.validation updated
    simpa [hkey, hwrite, timedAt] using htimes
  · simp [hanalyzed, hvalidation, hwrite]

/-- A snapshot with two documents and a report. -/
def documented : Snapshot where
  name := "r"
  documentation := [("README.md", "r"), ("NOTES.md", "")]
  validation := some
    { score := 90, riskMetrics := { isolationScore := Binary64.zero false }, updatedAt := 5 }
  analyzedAt := 4

/-- It differs from one made at another time, with its documents in another order and a zero of
another sign, in nothing; and from one with another score in that score, although the times are
those of the first. -/
theorem comparable_documented :
    Keyed.Distinct documented.documentation ∧
      documented.comparable.same { documented with
        documentation := [("NOTES.md", ""), ("README.md", "r")]
        validation := some
          { score := 90, riskMetrics := { isolationScore := Binary64.zero true }, updatedAt := 8 }
        analyzedAt := 7 : Snapshot }.comparable = true ∧
      documented.comparable.same (documented.withValidation
        { score := 89, riskMetrics := { isolationScore := Binary64.zero false }, updatedAt := 5 }
        ).comparable = false := by
  have hdistinct : Keyed.Distinct documented.documentation := by simp [Keyed.Distinct, documented]
  refine ⟨hdistinct, (comparable_same_iff hdistinct 0 0).mpr ⟨?_, ?_, rfl⟩, ?_⟩
  · exact .swap ..
  · exact .some ⟨⟨rfl, rfl, rfl⟩, rfl⟩
  · refine Bool.eq_false_iff.mpr fun hsame => ?_
    obtain ⟨-, hreport, -⟩ := (comparable_same_iff hdistinct 0 0).mp hsame
    cases hreport with
    | some hreport => exact absurd (congrArg Report.score hreport.others) (by decide)

end Snapshot

end RepoSurvey
