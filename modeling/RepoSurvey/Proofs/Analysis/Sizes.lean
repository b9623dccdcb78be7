import Mathlib.Tactic.TFAE
import RepoSurvey.Proofs.Analysis.Edges
import RepoSurvey.Proofs.Binary64.Integer
import RepoSurvey.Proofs.Decimal.Integer

/-!
# RepoSurvey.Proofs.Analysis.Sizes

Sizes that are given as text. The text of an integer is read as the number next to the integer, so
exactly the integers with a number of their own come out the same as text; with the others the
record has another size, and so has the repository (`reads_text_of_size`).
-/

namespace RepoSurvey

/-! ## Records -/

namespace SourceFile

/-- Fields that give their size as an integer, and the same fields with the text of it. -/
structure Respelled (n : Int) (fs gs : Fields) : Prop where
  integer : fs.last? "size" = some (.int n)
  text : gs.last? "size" = some (.text (toString n))
  others : ∀ key ≠ "size", gs.last? key = fs.last? key

def withSize (m : Int) (f : SourceFile) : SourceFile := { f with size := m }

/-- What is read of a record apart from its size. -/
def readUnsized (fs : Fields) : Decoded SourceFile :=
  (pathOf fs).map fun path => {
    path
    entryType := typeOf (((fs.field? typeLabel).map (·.2)).getD .null)
    content := contentOf ((fs.last? "content").getD .null) }

theorem read?_of_sizeOf? {fs : Fields} {v : Value} {m : Int} (hv : fs.last? "size" = some v)
    (hm : sizeOf? v = some m) :
    read? (.object fs) = some ((readUnsized fs).map (withSize m)) := by
  rw [read?, ofFields?, hv, Option.getD_some, hm, readUnsized]
  cases pathOf fs <;> rfl

theorem size_of_map_withSize {d : Decoded SourceFile} {m : Int} {f : SourceFile}
    (h : d.map (withSize m) = .ok f) : f.size = m := by
  obtain ⟨g, _, rfl⟩ := Decoded.map_eq_ok.mp h
  rfl

theorem map_withSize_map (d : Decoded SourceFile) (n m : Int) :
    (d.map (withSize n)).map (withSize m) = d.map (withSize m) := by
  cases d <;> rfl

theorem Respelled.readUnsized_eq {n : Int} {fs gs : Fields} (h : Respelled n fs gs) :
    readUnsized gs = readUnsized fs := by
  simp only [readUnsized, pathOf, Fields.field?, pathLabel, typeLabel,
    h.others "name" (by decide), h.others "path" (by decide), h.others "type" (by decide),
    h.others "entry_type" (by decide), h.others "content" (by decide)]

section Size

variable {n m : Int} {k : Nat} (hk : k < 1024) (hn : |n| ≤ 2 ^ k)
include hk hn

theorem sizeOf?_int : sizeOf? (.int n) = some n := by
  obtain ⟨x, hx, _⟩ := Binary64.ofInt?_within hk hn
  rw [sizeOf?, hx]
  rfl

theorem sizeOf?_toString (hm : Binary64.nearest n = m) :
    sizeOf? (.text (toString n)) = some m := by
  rw [sizeOf?, Decimal.real_toString, Option.bind_some,
    Binary64.truncate_ofRat_intCast hk hn hm]
  rfl

theorem Respelled.reads {fs gs : Fields} (h : Respelled n fs gs) (hm : Binary64.nearest n = m) :
    read? (.object fs) = some ((readUnsized fs).map (withSize n)) ∧
      read? (.object gs) = some ((readUnsized fs).map (withSize m)) :=
  ⟨read?_of_sizeOf? h.integer (sizeOf?_int hk hn),
    h.readUnsized_eq ▸ read?_of_sizeOf? h.text (sizeOf?_toString hk hn hm)⟩

end Size

end SourceFile

namespace Analysis

open SourceFile

/-! ## Runs -/

theorem readRecords_congr {vs ws : List Value} (h : vs.map SourceFile.read? = ws.map read?)
    (position : Nat) : readRecords position vs = readRecords position ws := by
  induction vs generalizing ws position with
  | nil => rw [List.map_eq_nil_iff.mp h.symm]
  | cons v vs ih =>
    obtain ⟨w, ws, rfl, hread, hrest⟩ := List.map_eq_cons_iff.mp h.symm
    simp only [readRecords, ih hrest.symm, hread]

theorem totalSize_of_run {limits : Limits} {now : Int} {name options : Value}
    {manifest : List Value} {opts : AnalysisOptions} {s : Snapshot}
    (hopts : (readOptions options).result = .ok opts)
    (h : (run limits now name manifest options).result = .ok s) :
    s.totalSize = total ((kept opts (manifest.filterMap record?)).map (·.size)) := by
  obtain ⟨text, workspace, packages, rfl⟩ := exists_snapshot_of_run hopts h
  simp only [snapshot, List.map_map, Function.comp_def, entry_scan]

/-! ## Sizes as text -/

/-- Whether a record is the same with the text of an integer as its size. -/
def ReadsAlike (n : Int) : Prop :=
  ∀ fs gs, Respelled n fs gs → SourceFile.read? (.object gs) = SourceFile.read? (.object fs)

/-- Whether an analysis is the same with the text of an integer as the size of a record. -/
def RunsAlike (n : Int) : Prop :=
  ∀ (limits : Limits) (now : Int) (name options : Value) (before after : List Value) (fs gs),
    Respelled n fs gs → run limits now name (before ++ .object gs :: after) options =
      run limits now name (before ++ .object fs :: after) options

/-- Whether a repository has the same size with the text of an integer as the size of a record. -/
def TotalsAlike (n : Int) : Prop :=
  ∀ (limits : Limits) (now : Int) (name options : Value) (before after : List Value) (fs gs),
    Respelled n fs gs →
      (run limits now name (before ++ .object gs :: after) options).result.map (·.totalSize) =
        (run limits now name (before ++ .object fs :: after) options).result.map (·.totalSize)

/-- A record with a path and a size. -/
def sizedAs (v : Value) : Fields := [("name", .text "a.ts"), ("size", v)]

theorem respelled_sizedAs (n : Int) :
    Respelled n (sizedAs (.int n)) (sizedAs (.text (toString n))) where
  integer := rfl
  text := rfl
  others key hkey := by
    simp [sizedAs, Fields.last?, List.lookup_cons, beq_eq_false_iff_ne.mpr hkey]

theorem totalSize_sizedAs {v : Value} {m : Int} (hm : sizeOf? v = some m) :
    (run {} 0 (.text "r") [.object (sizedAs v)] .null).result.map (·.totalSize) = .ok m := by
  have hread : SourceFile.read? (.object (sizedAs v)) = some (.ok { path := "a.ts", size := m }) :=
    read?_of_sizeOf? rfl hm
  have hopts : (readOptions .null).result = .ok {} := rfl
  have hrecord : record? (.object (sizedAs v)) = some { path := "a.ts", size := m } := by
    rw [record?, hread]
    rfl
  obtain ⟨s, hs, _⟩ := run_singleton {} 0 "r" hread rfl hopts
  rw [hs, Except.map, totalSize_of_run hopts hs, List.filterMap_cons_some hrecord]
  exact congrArg Except.ok (add_zero m)

/-- A record whose size is the text of an integer has the number next to the integer as its size.
Only with an integer that is a number itself are the record, the analysis and the size of the
repository the same as with the integer in place of its text. -/
theorem reads_text_of_size {n : Int} (hn : |n| < 2 ^ 1023) :
    (∃ m : Int, Binary64.nearest n = m ∧ ∀ fs gs, Respelled n fs gs →
        ∃ d, SourceFile.read? (.object fs) = some d ∧ (∀ f, d = .ok f → f.size = n) ∧
          SourceFile.read? (.object gs) = some (d.map (withSize m))) ∧
      List.TFAE [Binary64.Exact n, ReadsAlike n, RunsAlike n, TotalsAlike n] := by
  obtain ⟨m, hm, _⟩ := Binary64.exists_nearest_intCast n
  have hsame : m = n ↔ Binary64.Exact n := Binary64.nearest_intCast_eq_iff hm
  refine ⟨⟨m, hm, fun fs gs h => ?_⟩, ?_⟩
  · obtain ⟨hfs, hgs⟩ := h.reads (by decide) hn.le hm
    exact ⟨_, hfs, fun f => size_of_map_withSize, by rw [map_withSize_map, hgs]⟩
  · tfae_have 1 → 2 := by
      intro hexact fs gs h
      obtain ⟨hfs, hgs⟩ := h.reads (by decide) hn.le hm
      rw [hfs, hgs, hsame.mpr hexact]
    tfae_have 2 → 3 := by
      intro halike limits now name options before after fs gs h
      have hreads : (before ++ .object gs :: after).map SourceFile.read? =
          (before ++ .object fs :: after).map SourceFile.read? := by
        rw [List.map_append, List.map_cons, halike fs gs h, List.map_append, List.map_cons]
      rw [run, run, readRecords_congr hreads]
    tfae_have 3 → 4 := by
      intro halike limits now name options before after fs gs h
      rw [halike limits now name options before after fs gs h]
    tfae_have 4 → 1 := by
      intro halike
      -- The total of a repository of one file tells the size of the file.
      have htotals := halike {} 0 (.text "r") .null [] [] _ _ (respelled_sizedAs n)
      rw [List.nil_append, List.nil_append,
        totalSize_sizedAs (sizeOf?_toString (by decide) hn.le hm),
        totalSize_sizedAs (sizeOf?_int (by decide) hn.le)] at htotals
      exact hsame.mp (Except.ok.inj htotals)
    tfae_finish

/-- The even one of two neighbours is a number itself; the text of the odd one is rounded up. -/
theorem reads_text_of_size_beyond :
    RunsAlike 9007199254740994 ∧ ¬ TotalsAlike 9007199254740995 ∧
      SourceFile.read? (.object (sizedAs (.text "9007199254740995"))) =
        some (.ok { path := "a.ts", size := 9007199254740996 }) := by
  have hexact : Binary64.Exact 9007199254740994 := ⟨4503599627370497, 1, by decide, rfl⟩
  have hnearest : Binary64.nearest (9007199254740995 : Int) = (9007199254740996 : Int) := by
    decide +kernel
  have heven := (reads_text_of_size (n := 9007199254740994) (by decide +kernel)).2
  obtain ⟨⟨m, hm, hreads⟩, hodd⟩ := reads_text_of_size (n := 9007199254740995) (by decide +kernel)
  refine ⟨(heven.out 0 2).mp hexact, fun h => ?_, ?_⟩
  · have hsame := (Binary64.nearest_intCast_eq_iff hnearest).mpr ((hodd.out 3 0).mp h)
    exact absurd hsame (by decide)
  · obtain rfl : m = 9007199254740996 := Int.cast_injective (hm.symm.trans hnearest)
    obtain ⟨d, hd, _, htext⟩ := hreads _ _ (respelled_sizedAs 9007199254740995)
    have hinteger : SourceFile.read? (.object (sizedAs (.int 9007199254740995))) =
        some (.ok { path := "a.ts", size := 9007199254740995 }) :=
      read?_of_sizeOf? rfl (sizeOf?_int (k := 54) (by decide) (by decide))
    cases hd.symm.trans hinteger
    exact htext

end Analysis

end RepoSurvey
