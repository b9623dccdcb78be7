import RepoSurvey.Assessment
import RepoSurvey.Proofs.Risk
import RepoSurvey.Proofs.Snapshot.Recovery
import RepoSurvey.Proofs.Value.Size

/-!
# RepoSurvey.Proofs.Assessment

An assessment never fails. Recovery hands over a snapshot, the penalties keep every category in
range, and the only numbers that could be out of range count the parts of the value that was handed
over.
-/

namespace RepoSurvey

/-! ## The size of what is recovered -/

theorem Entry.length_path_lt {v : Value} {e : Entry} (h : Entry.codec.read v = .ok e) :
    e.path.length < v.size := by
  cases v with
  | record r =>
    cases r with
    | entry e' =>
      cases h
      exact Nat.lt_succ_self _
    | _ => cases h
  | object fs =>
    -- Taking the name from the path leaves the path as it is.
    obtain ⟨gs, hgs, hpath⟩ : ∃ gs, namedByPath (.object fs) = .object gs ∧
        Fields.last? gs "path" = Fields.last? fs "path" := by
      rw [namedByPath]
      split
      · refine ⟨_, rfl, ?_⟩
        rw [Fields.last?_append, Fields.last?_singleton, Fields.drop,
          Fields.last?_filter (· != "name")]
        rfl
      · exact ⟨fs, rfl, rfl⟩
    change Codec.read (Codec.record _ _ _) (namedByPath (.object fs)) = .ok e at h
    rw [hgs] at h
    obtain ⟨f, hf, rfl⟩ := Decoded.map_eq_ok.mp h
    have hread : Codec.text.readField? gs (.plain "path") =
        Codec.text.readField? fs (.plain "path") := by
      rw [Codec.readField?_plain, Codec.readField?_plain, hpath]
    rw [Slot.updates_eq_ok hf]
    simp only [Slot.bests, Slot.best_required, Slot.best_optional, hread]
    cases hs : Codec.text.readField? fs (.plain "path") with
    | none => exact Nat.succ_pos _
    | some s => exact Nat.lt_succ_of_lt (Codec.length_lt_of_readField? hs)
  | _ => cases h

theorem Codec.size_of_readItems {α : Type} (c : Codec α) (fs : Fields) (key : String) :
    (c.readItems fs key).length ≤ Value.sizeFields fs ∧
      ∀ a ∈ c.readItems fs key, ∃ v, c.read v = .ok a ∧ v.size ≤ Value.sizeFields fs := by
  rw [Codec.readItems]
  split
  · next vs hvs =>
    have hsize := Value.size_le_of_last? hvs
    rw [Value.size] at hsize
    constructor
    · have := List.length_filterMap_le (fun v => (c.read v).toOption) vs
      have := Value.length_le_sizeItems vs
      omega
    · intro a ha
      obtain ⟨v, hv, hread⟩ := List.mem_filterMap.mp ha
      have := Value.size_le_of_mem hv
      exact ⟨v, Decoded.toOption_eq_some.mp hread, by omega⟩
  · exact ⟨Nat.zero_le _, fun a ha => by cases ha⟩

namespace Snapshot

/-- Whether a snapshot holds no more than some number of entries and of dependencies, and no longer
paths. -/
structure Fits (n : Nat) (s : Snapshot) : Prop where
  entries : s.entries.length ≤ n
  dependencies : s.dependencies.length ≤ n
  paths : ∀ e ∈ s.entries, e.path.length < n

theorem fits_recover (v : Value) : ∃ s, (recover v).result = .ok s ∧ s.Fits v.size := by
  have hempty : Fits v.size { name := unnamed } :=
    ⟨Nat.zero_le _, Nat.zero_le _, fun e he => by cases he⟩
  cases v with
  | object fs =>
    refine ⟨_, recover_object fs, ?_⟩
    have hentries := congrArg Snapshot.entries (fieldwise_recoverFields fs)
    have hdependencies := congrArg Snapshot.dependencies (fieldwise_recoverFields fs)
    change (recoverFields fs).entries = Entry.codec.readItems fs "structure" at hentries
    change (recoverFields fs).dependencies = Edge.codec.readItems fs "dependencies" at hdependencies
    have hstructure := Entry.codec.size_of_readItems fs "structure"
    refine ⟨?_, ?_, fun e he => ?_⟩
    · rw [hentries]
      exact Nat.le_succ_of_le hstructure.1
    · rw [hdependencies]
      exact Nat.le_succ_of_le (Edge.codec.size_of_readItems fs "dependencies").1
    · rw [hentries] at he
      obtain ⟨w, hread, hsize⟩ := hstructure.2 e he
      exact Nat.lt_succ_of_lt (Nat.lt_of_lt_of_le (Entry.length_path_lt hread) hsize)
  | record r =>
    cases r with
    | snapshot s =>
      have hpaths := Entry.le_sizeAll s.entries
      refine ⟨s, rfl, ?_, ?_, fun e he => ?_⟩
      · simp only [Value.size, Record.size]
        omega
      · simp only [Value.size, Record.size]
        omega
      · have := hpaths.2 e he
        simp only [Value.size, Record.size]
        omega
    | _ => exact ⟨_, rfl, hempty⟩
  | _ => exact ⟨_, rfl, hempty⟩

end Snapshot

/-! ## Reports -/

namespace Assessment

theorem inRange_penalise {scores : CategoryScores} (h : scores.InRange) (r : Rule) :
    (penalise scores r).InRange := by
  have hget := h r.category
  have hpenalty : 0 ≤ r.penalty := by cases r <;> decide
  exact h.set (Int.le_max_left 0 _) (by omega) r.category

theorem inRange_foldl_penalise {scores : CategoryScores} (h : scores.InRange) (rs : List Rule) :
    (rs.foldl penalise scores).InRange := by
  induction rs generalizing scores with
  | nil => exact h
  | cons r rs ih => exact ih (inRange_penalise h r)

def isCategory (name : String) : Bool :=
  (Named.all : List Category).any fun c => Named.name c == name

/-- Whether every value given for a category is an integer or stands for one. -/
def GivesIntegers (start : Fields) : Prop :=
  ∀ f ∈ start, isCategory f.1 → ∃ n, f.2.toInteger = .ok n

theorem isCategory_eq (name : String) :
    isCategory name = (Named.find? name : Option Category).isSome := by
  rw [isCategory, Named.find?, List.isSome_find?]

theorem category_eq_some_iff {name : String} {c : Category} :
    Named.find? name = some c ↔ name = Named.name c := by
  constructor
  · intro h
    exact (Named.name_of_find? h).symm
  · rintro rfl
    cases c <;> rfl

theorem starting_eq_ok {start : Fields} (hstart : GivesIntegers start) (scores : CategoryScores) :
    ∃ first, starting scores start = .ok first := by
  induction start generalizing scores with
  | nil => exact ⟨scores, rfl⟩
  | cons f rest ih =>
    have hrest : GivesIntegers rest := fun g hg => hstart g (List.mem_cons_of_mem f hg)
    rw [starting]
    cases hfind : (Named.find? f.1 : Option Category) with
    | none => exact ih hrest scores
    | some c =>
      obtain ⟨n, hn⟩ := hstart f List.mem_cons_self (by rw [isCategory_eq, hfind]; rfl)
      simp only [hn]
      exact ih hrest _

/-- What the first of the given values can do. -/
theorem starting_cons_cases {f : String × Value} {rest : Fields} {scores first : CategoryScores}
    (h : starting scores (f :: rest) = .ok first) :
    ((∀ c : Category, f.1 ≠ Named.name c) ∧ starting scores rest = .ok first) ∨
      ∃ (c : Category) (n : Int), f.1 = Named.name c ∧ f.2.toInteger = .ok n ∧
        starting (scores.set c (max 0 (min 100 n))) rest = .ok first := by
  rw [starting] at h
  cases hfind : (Named.find? f.1 : Option Category) with
  | none =>
    simp only [hfind] at h
    refine .inl ⟨fun c hc => ?_, h⟩
    rw [category_eq_some_iff.mpr hc] at hfind
    cases hfind
  | some c =>
    simp only [hfind] at h
    cases hn : f.2.toInteger with
    | error e => simp only [hn] at h; cases h
    | ok n =>
      simp only [hn, Score.clamp_eq] at h
      exact .inr ⟨c, n, category_eq_some_iff.mp hfind, rfl, h⟩

theorem inRange_of_starting {start : Fields} {scores first : CategoryScores} (h : scores.InRange)
    (hfirst : starting scores start = .ok first) : first.InRange := by
  induction start generalizing scores with
  | nil => cases hfirst; exact h
  | cons f rest ih =>
    obtain ⟨_, hrest⟩ | ⟨c, n, _, _, hrest⟩ := starting_cons_cases hfirst
    · exact ih h hrest
    · exact ih (h.set (by omega) (by omega) c) hrest

theorem inRange_full : ({} : CategoryScores).InRange := fun c => by cases c <;> decide

theorem report_eq_ok (options : ScoringOptions) (now : Int) {start : Fields}
    (hstart : GivesIntegers start) {s : Snapshot} {k : Nat} (hk : k < 1000)
    (hs : s.Fits (2 ^ k)) : ∃ r, report options now start s = .ok r := by
  obtain ⟨first, hfirst⟩ := starting_eq_ok hstart {}
  have hrange := inRange_of_starting inRange_full hfirst
  obtain ⟨score, hscore⟩ := Score.final_eq_ok (inRange_foldl_penalise hrange
    ((fired s (Risk.metrics s.dependencies (Risk.buckets (s.entries.map (·.path)) s.dependencies)
      options.cycleDetection)).map (·.1)))
  have hpaths : (s.entries.map (·.path)).length ≤ 2 ^ k := by simpa using hs.entries
  obtain ⟨nodes, hnodes⟩ :=
    Risk.heatmap_eq_ok hk hpaths hs.dependencies (by simpa using hs.paths)
  exact ⟨_, by simp only [report, hfirst, hscore, hnodes, bind, Except.bind]; rfl⟩

theorem run_eq_ok_of_integers (options : ScoringOptions) (now : Int) {start : Fields}
    (hstart : GivesIntegers start) {v : Value} {k : Nat} (hk : k < 1000) (hv : v.size ≤ 2 ^ k) :
    ∃ r, (run options now start v).result = .ok r := by
  obtain ⟨s, hs, hfits⟩ := Snapshot.fits_recover v
  have hfits' : s.Fits (2 ^ k) := ⟨hfits.entries.trans hv, hfits.dependencies.trans hv,
    fun e he => (hfits.paths e he).trans_le hv⟩
  obtain ⟨r, hr⟩ := report_eq_ok options now hstart hk hfits'
  refine ⟨r, ?_⟩
  simp [run, hs, hr, Except.bind]

theorem run_eq_ok (options : ScoringOptions) (now : Int) {v : Value} {k : Nat} (hk : k < 1000)
    (hv : v.size ≤ 2 ^ k) : ∃ r, (run options now [] v).result = .ok r :=
  run_eq_ok_of_integers options now (fun f hf => by cases hf) hk hv

open Snapshot in
/-- Whatever is handed over, a report comes of it; left out are values that no memory holds, whose
parts could outnumber the numbers computed with. Of the attempts to recover fields one succeeds
before they are used up, so nothing is ever recovered by the name alone: each attempt that fails
costs an original key, or the name that could not be read is replaced. -/
theorem run_reports (options : ScoringOptions) (now : Int) (v : Value) :
    (∀ k < 1000, v.size ≤ 2 ^ k → ∃ r, (run options now [] v).result = .ok r) ∧
      ∀ fs : Fields, v = .object fs →
        (∃ n last s, n ≤ (cleaned fs).length ∧ Attempted fs n last ∧
          codec.read (.object last) = .ok s ∧
          attempt ((cleaned fs).length + 1) (cleaned fs) = some s ∧
          ∀ f more, codec.read (.object fs) = .failed f more → recoverFields fs = s) ∧
        ∀ n gs f more, Attempted fs n gs → codec.read (.object gs) = .failed f more →
          n < (cleaned fs).length ∧
            ((∃ key ∈ keysOf (f :: more), key ≠ "name" ∧ fs.has key = true ∧ gs.has key = true ∧
              (withoutKeys gs (keysOf (f :: more))).has key = false) ∨
            (nameless gs = true ∧
              (withoutKeys gs (keysOf (f :: more))).last? "name" = some (.text unnamed))) := by
  refine ⟨fun k hk => run_eq_ok options now hk, fun fs _ => ⟨?_, fun n gs f more hrun hread => ?_⟩⟩
  · obtain ⟨n, last, hn, hrun, hlast⟩ := (Attempted.first : Attempted fs 0 _).exists_read
    refine ⟨n, last, _, hn, hrun, hlast, attempt_cleaned fs, fun f more hfailed => ?_⟩
    rw [recoverFields, hfailed, attempt_cleaned, Option.getD_some]
  · have hle := hrun.spare_le
    have hlt := spare_withoutKeys hrun.has_name hread
    exact ⟨by omega, hrun.loses hread⟩

/-- Fields with a name, a number and a report that cannot be read. -/
def misread : Fields := [
  ("name", .int 7), ("totalFiles", .list []), ("total_files", .int 2), ("validation", .bool true)]

/-- A report comes of misread fields, although the first attempt to recover them fails. -/
theorem run_reports_misread :
    (∃ r, (run {} 0 [] (.object misread)).result = .ok r) ∧
      0 < (Snapshot.cleaned misread).length := by
  obtain ⟨hreport, hattempts⟩ := run_reports {} 0 (.object misread)
  have hsize : (Value.object misread).size ≤ 2 ^ 3 := by decide
  have hfails : Snapshot.codec.read (.object (Snapshot.cleaned misread)) =
      .failed ⟨[.key "name"], .noText⟩ [⟨[.key "totalFiles"], .noInteger⟩] := rfl
  exact ⟨hreport 3 (by decide) hsize, ((hattempts misread rfl).2 0 _ _ _ .first hfails).1⟩

end Assessment

end RepoSurvey
