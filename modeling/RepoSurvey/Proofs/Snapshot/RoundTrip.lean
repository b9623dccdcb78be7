import RepoSurvey.Proofs.Analysis.Edges
import RepoSurvey.Proofs.Codec.Restores
import RepoSurvey.Service

/-!
# RepoSurvey.Proofs.Snapshot.RoundTrip

Snapshots are read back as they were written. All their parts restore themselves, reports included,
with two exceptions: an entry whose name is empty takes one from its path when it is read, and
documents of one name are merged. A snapshot in which neither happens is `Storable`, and all those
that the program makes are (`Made.storable`): an analysis names entries by their paths, and what was
read from a JSON value has been through both already.
-/

namespace RepoSurvey

open Codec Slot

/-! ## Named members -/

instance : Named.Lawful Severity := ⟨fun s => by cases s <;> rfl⟩

instance : Named.Lawful Category := ⟨fun c => by cases c <;> rfl⟩

instance : Named.Lawful RiskLevel := ⟨fun l => by cases l <;> rfl⟩

instance : Named.Lawful Outcome := ⟨fun o => by cases o <;> rfl⟩

instance : Named.Lawful Badge := ⟨fun b => by cases b <;> rfl⟩

instance : Named.Lawful EntryType := ⟨fun t => by cases t <;> rfl⟩

instance : Named.Lawful EdgeKind := ⟨fun k => by cases k <;> rfl⟩

/-! ## Reports -/

theorem Issue.codec_restores (i : Issue) : Issue.codec.Restores i :=
  record_restores (separate_of_nodup (by decide))
    (.cons (restores_required (text_restores _)) <|
      .cons (restores_required (named_restores _)) <|
      .cons (restores_required (named_restores _)) <|
      .cons (restores_required (text_restores _)) <|
      .cons (restores_optional (optional_restores (fun _ _ => text_restores _) nofun)) <|
      .cons (restores_optional (flag_restores _)) .nil) rfl

theorem Check.codec_restores (c : Check) : Check.codec.Restores c :=
  record_restores (separate_of_nodup (by decide))
    (.cons (restores_required (text_restores _)) <|
      .cons (restores_required (named_restores _)) <|
      .cons (restores_required (text_restores _)) .nil) rfl

theorem CategoryScores.codec_restores (s : CategoryScores) : CategoryScores.codec.Restores s :=
  record_restores (separate_of_nodup (by decide))
    (.cons (restores_optional (integer_restores _)) <|
      .cons (restores_optional (integer_restores _)) <|
      .cons (restores_optional (integer_restores _)) <|
      .cons (restores_optional (integer_restores _)) .nil) rfl

theorem HeatNode.codec_restores (n : HeatNode) : HeatNode.codec.Restores n :=
  record_restores (separate_of_nodup (by decide))
    (.cons (restores_required (text_restores _)) <|
      .cons (restores_required (integer_restores _)) <|
      .cons (restores_required (named_restores _)) <|
      .cons (restores_required (integer_restores _)) .nil) rfl

theorem RiskMetrics.codec_restores (m : RiskMetrics) : RiskMetrics.codec.Restores m :=
  record_restores (separate_of_nodup (by decide))
    (.cons (restores_optional (integer_restores _)) <|
      .cons (restores_optional (integer_restores _)) <|
      .cons (restores_optional (number_restores _)) <|
      .cons (restores_optional (number_restores _)) <|
      .cons (restores_optional (flag_restores _)) <|
      .cons (restores_optional (list_restores fun _ _ => text_restores _)) .nil) rfl

theorem Report.codec_restores (r : Report) : Report.codec.Restores r :=
  record_restores (separate_of_nodup (by decide))
    (.cons (restores_required (integer_restores _)) <|
      .cons (restores_optional (CategoryScores.codec_restores _)) <|
      .cons (restores_optional (list_restores fun _ _ => Issue.codec_restores _)) <|
      .cons (restores_optional (list_restores fun _ _ => Check.codec_restores _)) <|
      .cons (restores_optional (list_restores fun _ _ => HeatNode.codec_restores _)) <|
      .cons (restores_optional (list_restores fun _ _ => text_restores _)) <|
      .cons (restores_optional (RiskMetrics.codec_restores _)) <|
      .cons (restores_optional (named_restores _)) <|
      .cons (restores_optional (integer_restores _)) .nil) rfl

/-! ## Parts of snapshots -/

theorem SymbolCounts.codec_restores (s : SymbolCounts) : SymbolCounts.codec.Restores s :=
  record_restores (separate_of_nodup (by decide))
    (.cons (restores_optional (integer_restores _)) <|
      .cons (restores_optional (integer_restores _)) <|
      .cons (restores_optional (integer_restores _)) .nil) rfl

theorem LanguageShare.codec_restores (s : LanguageShare) : LanguageShare.codec.Restores s :=
  record_restores (separate_of_nodup (by decide))
    (.cons (restores_required (text_restores _)) <|
      .cons (restores_required (integer_restores _)) <|
      .cons (restores_required (integer_restores _)) .nil) rfl

theorem Edge.codec_restores (e : Edge) : Edge.codec.Restores e :=
  record_restores (separate_of_nodup (by decide))
    (.cons (restores_required (text_restores _)) <|
      .cons (restores_required (text_restores _)) <|
      .cons (restores_optional (named_restores _)) .nil) rfl

theorem Philosophy.codec_restores (p : Philosophy) : Philosophy.codec.Restores p :=
  record_restores (separate_of_nodup (by decide))
    (.cons (restores_optional (text_restores _)) <|
      .cons (restores_optional (text_restores _)) .nil) rfl

theorem Milestone.codec_restores (m : Milestone) : Milestone.codec.Restores m :=
  record_restores (separate_of_nodup (by decide))
    (.cons (restores_required (text_restores _)) <|
      .cons (restores_optional (text_restores _)) .nil) rfl

/-! ## Entries -/

/-- Whether an entry keeps its name when it is stored: a name that is empty is taken from the path
when the entry is read. -/
def Entry.Storable (e : Entry) : Prop := e.name = "" → Path.lastSegment e.path = ""

theorem namedByPath_of_storable {fs : Fields} {e : Entry} (h : e.Storable)
    (hname : fs.last? "name" = some (.text e.name))
    (hpath : fs.last? "path" = some (.text e.path)) :
    ∃ gs : Fields, namedByPath (.object fs) = .object gs ∧
      ∀ key, gs.last? key = fs.last? key := by
  by_cases hempty : e.name = ""
  · refine ⟨fs.drop "name" ++ [("name", .text "")], ?_, fun key => ?_⟩
    · simp [namedByPath, hname, hpath, hempty, h hempty, Value.isTruthy]
    · rw [Fields.last?_append, Fields.last?_singleton, Fields.drop,
        Fields.last?_filter (· != "name")]
      by_cases hkey : key = "name"
      · simp [hkey, hname, hempty]
      · simp [hkey, Ne.symm hkey]
  · exact ⟨fs, by simp [namedByPath, hname, hempty, Value.isTruthy], fun _ => rfl⟩

theorem Entry.codec_restores {e : Entry} (h : e.Storable) : Entry.codec.Restores e := by
  intro sp
  obtain ⟨fs, hwrite, hname, hpath⟩ : ∃ fs : Fields, Entry.codec.write sp e = .object fs ∧
      fs.last? "name" = some (.text e.name) ∧ fs.last? "path" = some (.text e.path) := by
    cases sp <;> exact ⟨_, rfl, rfl, rfl⟩
  obtain ⟨gs, hnamed, hsame⟩ := namedByPath_of_storable h hname hpath
  rw [hwrite]
  show Codec.read (Codec.record _ _ _) (namedByPath (.object fs)) = .ok e
  rw [hnamed, record_read_congr hsame, ← hwrite]
  exact record_restores (separate_of_nodup (by decide))
    (.cons (restores_required (text_restores _)) <|
      .cons (restores_required (text_restores _)) <|
      .cons (restores_optional (integer_restores _)) <|
      .cons (restores_optional (named_restores _)) <|
      .cons (restores_optional (text_restores _)) <|
      .cons (restores_optional (text_restores _)) <|
      .cons (restores_optional (SymbolCounts.codec_restores _)) .nil) rfl sp

namespace Snapshot

/-! ## Snapshots -/

/-- Whether a snapshot is read back as it was stored. -/
structure Storable (s : Snapshot) : Prop where
  entries : ∀ e ∈ s.entries, e.Storable
  documentation : Keyed.Distinct s.documentation

theorem codec_restores {s : Snapshot} (h : s.Storable) : codec.Restores s :=
  record_restores separate_slots
    (.cons (restores_required (text_restores _)) <|
      .cons (restores_optional (integer_restores _)) <|
      .cons (restores_optional (integer_restores _)) <|
      .cons (restores_optional (integer_restores _)) <|
      .cons (restores_optional (text_restores _)) <|
      .cons (restores_optional (list_restores fun _ _ => LanguageShare.codec_restores _)) <|
      .cons (restores_optional (list_restores fun e he => Entry.codec_restores (h.entries e he))) <|
      .cons (restores_optional (list_restores fun _ _ => Edge.codec_restores _)) <|
      .cons (restores_optional (flag_restores _)) <|
      .cons (restores_optional (list_restores fun _ _ => text_restores _)) <|
      .cons (restores_optional (text_restores _)) <|
      .cons (restores_optional (Philosophy.codec_restores _)) <|
      .cons (restores_optional (list_restores fun _ _ => Milestone.codec_restores _)) <|
      .cons (restores_optional (mapping_restores (fun _ _ => text_restores _) h.documentation)) <|
      .cons (restores_optional (optional_restores (fun _ _ => Report.codec_restores _)
        fun _ _ _ => record_write_ne_null)) <|
      .cons (restores_optional (integer_restores _)) .nil) rfl

end Snapshot

/-! ## JSON values -/

namespace Value

mutual

/-- Whether a value is one that a JSON text stands for: no byte string, moment or record is in it. -/
def isJson : Value → Bool
  | .bytes _ | .moment _ | .record _ => false
  | .list vs => areJson vs
  | .object fs => fieldsAreJson fs
  | _ => true

def areJson : List Value → Bool
  | [] => true
  | v :: vs => isJson v && areJson vs

def fieldsAreJson : List (String × Value) → Bool
  | [] => true
  | (_, v) :: fs => isJson v && fieldsAreJson fs

end

theorem isJson_of_mem {vs : List Value} (h : isJson (.list vs) = true) {v : Value} (hv : v ∈ vs) :
    isJson v = true := by
  rw [isJson] at h
  induction vs with
  | nil => cases hv
  | cons w vs ih =>
    rw [areJson, Bool.and_eq_true] at h
    rcases List.mem_cons.mp hv with rfl | hv
    · exact h.1
    · exact ih h.2 hv

theorem isJson_of_last? {fs : Fields} (h : isJson (.object fs) = true) {key : String} {v : Value}
    (hv : fs.last? key = some v) : isJson v = true := by
  have hmem := Fields.mem_of_last? hv
  clear hv
  rw [isJson] at h
  induction fs with
  | nil => cases hmem
  | cons f fs ih =>
    rw [fieldsAreJson, Bool.and_eq_true] at h
    rcases List.mem_cons.mp hmem with rfl | hmem
    · exact h.1
    · exact ih h.2 hmem

end Value

theorem Decoded.eq_text_of_isJson {v : Value} (hv : v.isJson = true) {s : String}
    (h : Decoded.text v = .ok s) : v = .text s := by
  cases v with
  | text t =>
    cases h
    rfl
  | bytes bs => cases hv
  | _ => cases h

theorem Codec.exists_of_mem_list {α : Type} {c : Codec α} {fs : Fields} {key : String}
    (hjson : (Value.object fs).isJson = true) {a : α}
    (ha : a ∈ (c.list.readField? fs (.plain key)).getD []) :
    ∃ v : Value, v.isJson = true ∧ c.read v = .ok a := by
  obtain ⟨as, has, ha⟩ : ∃ as, c.list.readField? fs (.plain key) = some as ∧ a ∈ as := by
    cases h : c.list.readField? fs (.plain key) with
    | none =>
      rw [h] at ha
      cases ha
    | some as =>
      rw [h] at ha
      exact ⟨as, rfl, ha⟩
  rw [Codec.readField?_plain] at has
  obtain ⟨v, hv, hread⟩ := Option.bind_eq_some_iff.mp has
  have hvalue := Value.isJson_of_last? hjson hv
  cases v with
  | list vs =>
    have hreads : vs.map c.read = as.map .ok :=
      Decoded.list_eq_ok.mp (Decoded.toOption_eq_some.mp hread)
    have hmem : Decoded.ok a ∈ vs.map c.read := by
      rw [hreads]
      exact List.mem_map_of_mem ha
    obtain ⟨w, hw, hok⟩ := List.mem_map.mp hmem
    exact ⟨w, Value.isJson_of_mem hvalue hw, hok⟩
  | record r => cases hvalue
  | _ => cases hread

/-! ## Where snapshots come from -/

theorem Slot.read_of_required {α σ : Type} {key : String} {c : Codec α} {get : σ → α}
    {set : α → σ → σ} {fs : Fields} {f : σ → σ}
    (h : (required (.plain key) c get set).update fs = .ok f) :
    ∃ v a, fs.last? key = some v ∧ c.read v = .ok a := by
  cases hv : fs.last? key with
  | none =>
    simp only [update, Fields.field?, required, optional, Label.plain, hv] at h
    cases h
  | some v =>
    simp only [update, Fields.field?, required, optional, Label.plain, hv,
      Decoded.under_eq_ok] at h
    obtain ⟨a, ha, _⟩ := Decoded.map_eq_ok.mp h
    exact ⟨v, a, rfl, ha⟩

theorem Entry.texts_of_read {fs : Fields} {e : Entry} (h : Entry.codec.read (.object fs) = .ok e) :
    ∃ gs : Fields, namedByPath (.object fs) = .object gs ∧
      (∃ v, gs.last? "path" = some v ∧ Decoded.text v = .ok e.path) ∧
      ∃ v, gs.last? "name" = some v ∧ Decoded.text v = .ok e.name := by
  obtain ⟨gs, hgs⟩ : ∃ gs, namedByPath (.object fs) = .object gs := by
    rw [namedByPath]
    split <;> exact ⟨_, rfl⟩
  change Codec.read (Codec.record _ _ _) (namedByPath (.object fs)) = .ok e at h
  rw [hgs] at h
  obtain ⟨f, hf, rfl⟩ := Decoded.map_eq_ok.mp h
  obtain ⟨_, hpath⟩ := Slot.update_of_updates hf List.mem_cons_self
  obtain ⟨_, hname⟩ := Slot.update_of_updates hf (List.mem_cons_of_mem _ List.mem_cons_self)
  obtain ⟨v, path, hv, hpath⟩ := Slot.read_of_required hpath
  obtain ⟨w, name, hw, hname⟩ := Slot.read_of_required hname
  rw [Slot.updates_eq_ok hf]
  simp only [Slot.bests, Slot.best_required, Slot.best_optional, Codec.readField?_plain, hv, hw,
    Option.bind_some, hpath, hname, Decoded.toOption_ok, Option.getD_some]
  exact ⟨gs, hgs, ⟨v, hv, hpath⟩, w, hw, hname⟩

theorem Entry.storable_of_read {v : Value} (hjson : v.isJson = true) {e : Entry}
    (h : Entry.codec.read v = .ok e) : e.Storable := by
  cases v with
  | object fs =>
    obtain ⟨gs, hgs, ⟨v, hv, hpath⟩, w, hw, hname⟩ := Entry.texts_of_read h
    rw [namedByPath] at hgs
    split at hgs
    · next path _ hfound =>
      -- The name was taken from the path, so it is the last segment already.
      cases hgs
      rw [Fields.last?_append_self] at hw
      rw [Fields.last?_append, Fields.last?_singleton, Fields.drop,
        Fields.last?_filter (· != "name")] at hv
      cases hw
      cases hv.symm.trans hfound
      have hname : Path.lastSegment path = e.name := Decoded.ok.inj hname
      have hpath : path = e.path := Decoded.ok.inj hpath
      rw [Entry.Storable, ← hname, ← hpath]
      exact id
    · next hkept =>
      cases hgs
      obtain rfl := Decoded.eq_text_of_isJson (Value.isJson_of_last? hjson hv) hpath
      obtain rfl := Decoded.eq_text_of_isJson (Value.isJson_of_last? hjson hw) hname
      intro hempty
      refine absurd hv (hkept e.path ?_)
      simp [hw, hempty, Value.isTruthy]
  | record r => cases hjson
  | _ => cases h

theorem Path.lastSegment_of_baseName {path : String} (h : baseName path = "") :
    lastSegment path = "" := by
  simp only [baseName] at h
  split at h
  · next hlast => exact hlast
  · exact h

namespace Snapshot

theorem storable_of_run {limits : Limits} {now : Int} {name options : Value}
    {manifest : List Value} {s : Snapshot}
    (h : (Analysis.run limits now name manifest options).result = .ok s) : s.Storable := by
  obtain ⟨_, _, _, hrun⟩ := Analysis.run_eq_ok_iff.mp h
  obtain ⟨_, _, _, _, _, _, rfl⟩ := Analysis.ofRecords_eq_ok_iff.mp hrun
  refine ⟨fun e he => ?_, Keyed.distinct_nil⟩
  obtain ⟨f, _, rfl⟩ := List.mem_map.mp he
  exact Path.lastSegment_of_baseName

theorem storable_of_read {v : Value} (hjson : v.isJson = true) {s : Snapshot}
    (h : codec.read v = .ok s) : s.Storable := by
  cases v with
  | object fs =>
    rw [← recovered_of_read h, recovered_eq]
    constructor
    · intro e he
      obtain ⟨v, hv, hread⟩ := Codec.exists_of_mem_list hjson he
      exact Entry.storable_of_read hv hread
    · show Keyed.Distinct ((Codec.text.mapping.readField? fs (.plain "documentation")).getD [])
      rw [Codec.readField?_plain]
      cases Fields.last? fs "documentation" with
      | none => exact Keyed.distinct_nil
      | some v =>
        rw [Option.bind_some]
        cases v with
        | object ds =>
          simp only [Codec.mapping, Decoded.toOption_map]
          cases (Decoded.mapping Codec.text.read ds).toOption with
          | none => exact Keyed.distinct_nil
          | some ds => exact Keyed.distinct_merged ds
        | _ => exact Keyed.distinct_nil
  | record r => cases hjson
  | _ => cases h

/-- The snapshots that the program makes: of a manifest, with or without a report attached, and of
JSON values that can be read. -/
inductive Made : Snapshot → Prop where
  | analysed {limits : Limits} {now : Int} {name options : Value} {manifest : List Value}
      {s : Snapshot} (h : (Analysis.run limits now name manifest options).result = .ok s) : Made s
  | assessed {settings : Settings} {analysed assessed : Int} {name options : Value}
      {manifest : List Value} {s : Snapshot}
      (h : (settings.analyzeAndAssess analysed assessed name manifest options).result = .ok s) :
      Made s
  | read {v : Value} (hjson : v.isJson = true) {s : Snapshot} (h : codec.read v = .ok s) : Made s

theorem Made.storable {s : Snapshot} (h : Made s) : s.Storable := by
  cases h with
  | analysed h => exact storable_of_run h
  | assessed h =>
    obtain ⟨t, ht, h⟩ := Logged.bind_eq_ok_iff.mp h
    obtain ⟨r, _, h⟩ := Logged.bind_eq_ok_iff.mp h
    cases h
    have hstorable : t.Storable := by
      unfold Settings.analyze at ht
      split at ht
      · exact storable_of_run ht
      · exact storable_of_run ht
    exact ⟨hstorable.entries, hstorable.documentation⟩
  | read hjson h => exact storable_of_read hjson h

/-! ## Stored snapshots -/

theorem mismatches_fields (sp : Spelling) (s : Snapshot) :
    mismatches (Slot.fields slots sp s) = [] := by
  have hfaults : (Slot.updates (Slot.fields slots sp s) shape).faults = [] := by
    cases sp <;> rfl
  rw [mismatches, hfaults, keysOf, List.filterMap_nil, List.eraseDups_nil, List.mergeSort_nil]

theorem recover_write {s : Snapshot} (h : s.Storable) (sp : Spelling) :
    recover (codec.write sp s) = pure s := by
  have hread : codec.read (.object (Slot.fields slots sp s)) = .ok s := codec_restores h sp
  show recover (.object (Slot.fields slots sp s)) = pure s
  simp only [recover, mismatches_fields, recoverFields, hread]

/-- A snapshot that the program made is read back as it was, in whichever spelling it was written,
and what was written is assessed just as the snapshot itself. -/
theorem read_back_of_made (s : Snapshot) (h : Made s) (sp : Spelling) :
    codec.read (codec.write sp s) = .ok s ∧
      ∀ (options : ScoringOptions) (now : Int) (start : Fields),
        Assessment.run options now start (codec.write sp s) =
          Assessment.run options now start (.record (.snapshot s)) := by
  refine ⟨codec_restores h.storable sp, fun options now start => ?_⟩
  rw [Assessment.run, Assessment.run, recover_write h.storable sp]
  rfl

/-- A stored snapshot: the name of one entry is empty and cannot be taken from its path, and that of
the other is missing. -/
def stored : Value := .object [
  ("name", .text "r"),
  ("structure", .list [
    .object [("path", .text "src/"), ("name", .text "")],
    .object [("path", .text "src/a.ts"), ("entry_type", .text "directory")]]),
  ("documentation", .object [("a", .text "1"), ("b", .text "2"), ("a", .text "3")]),
  ("validation", .object [
    ("score", .text "7"),
    ("risk_metrics", .object [("couplingIndex", .real (.finite true 1 (-3)))])])]

/-- The stored snapshot is read back in both spellings. -/
theorem read_back_stored :
    ∃ s, codec.read stored = .ok s ∧ s.entries.map (·.name) = ["", "a.ts"] ∧
      codec.read (codec.write .camel s) = .ok s ∧ codec.read (codec.write .snake s) = .ok s := by
  have hnames : (codec.read stored).toOption.map (fun s => s.entries.map (·.name)) =
      some ["", "a.ts"] := by decide +kernel
  obtain ⟨s, hsome, hnames⟩ := Option.map_eq_some_iff.mp hnames
  have hread := Decoded.toOption_eq_some.mp hsome
  have hmade : Made s := .read (by decide +kernel) hread
  exact ⟨s, hread, hnames, (read_back_of_made s hmade .camel).1,
    (read_back_of_made s hmade .snake).1⟩

end Snapshot

end RepoSurvey
