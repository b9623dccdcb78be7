import RepoSurvey.Proofs.Settings.Tables

/-!
# RepoSurvey.Proofs.Settings.Faults

When loading fails in a way that it does not report. A fault is reported if it says which file
cannot be loaded or that the settings are not valid. All others escape: `Escapes` lists where they
come from, and `load_contained_iff` says that loading gives settings or a reported fault if and only
if none of those causes is there.

* Of a file: bytes that are no UTF-8, an integer of too many digits, nesting that is too deep.
* Of a table: something else in its place, found either by the environment or by the codecs.
* Of the log: a file name that is no text, and a number that is infinite or of no number type.
-/

namespace RepoSurvey.Settings

/-! ## Reported faults -/

/-- Whether a fault says that a file cannot be loaded or that the settings are not valid. -/
def LoadFault.isReported : LoadFault → Bool
  | malformed _ | isDirectory _ | invalid .. | unreadNumber => true
  | infiniteNumber | noNumber | undecodable | integerTooLong | tooDeep | noTable | noLogText => false

/-- Whether loading gave settings or a reported fault. -/
def Loaded.Contained (l : Loaded) : Prop :=
  (∃ s, l.settings = .ok s) ∨ ∃ e, l.settings = .error e ∧ e.isReported = true

variable {e : LoadFault}

theorem orInvalid_ne_error {α : Type} (he : e.isReported = false) (kind : Kind) (d : Decoded α) :
    orInvalid kind d ≠ .error e := by
  intro h
  cases d with
  | ok a => cases h
  | failed f more =>
    cases h
    cases he

/-! ## Files -/

/-- The faults of what stands in place of a file that loading does not report. -/
inductive Unread (content : FileContent) : LoadFault → Prop where
  | undecodable {bs : List UInt8} (hbytes : content = .bytes bs)
      (hdecode : Text.Utf8.decode? bs = none) : Unread content .undecodable
  | integerTooLong {bs : List UInt8} {text : String} (hbytes : content = .bytes bs)
      (hdecode : Text.Utf8.decode? bs = some text)
      (hparse : Toml.parse text = .error .integerTooLong) : Unread content .integerTooLong
  | tooDeep {bs : List UInt8} {text : String} (hbytes : content = .bytes bs)
      (hdecode : Text.Utf8.decode? bs = some text)
      (hparse : Toml.parse text = .error .tooDeep) : Unread content .tooDeep

theorem readFileTables_of_unread {content : FileContent} (h : Unread content e) (name : String) :
    readFileTables name content = .error e := by
  cases h with
  | undecodable hbytes hdecode => simp only [readFileTables, hbytes, hdecode]
  | integerTooLong hbytes hdecode hparse => simp only [readFileTables, hbytes, hdecode, hparse]
  | tooDeep hbytes hdecode hparse => simp only [readFileTables, hbytes, hdecode, hparse]

theorem unread_of_readFileTables {content : FileContent} {name : String}
    (he : e.isReported = false) (h : readFileTables name content = .error e) :
    Unread content e := by
  cases content with
  | bytes bs =>
    simp only [readFileTables] at h
    split at h
    · next hdecode =>
      cases h
      exact .undecodable rfl hdecode
    · next text hdecode =>
      split at h
      · cases h
      · cases h
        cases he
      · next hparse =>
        cases h
        exact .integerTooLong rfl hdecode hparse
      · next hparse =>
        cases h
        exact .tooDeep rfl hdecode hparse
  | directory =>
    cases h
    cases he
  | _ => cases h

/-! ## Tables -/

section Tables

variable {config : Fields}

theorem obstructed_of_readTable {α : Type} {name : String} {kind : Kind} {c : Codec α}
    (he : e.isReported = false) (h : readTable config name kind c = .error e) :
    Obstructed config name ∧ e = .noTable := by
  by_cases hobstructed : Obstructed config name
  · rw [readTable_obstructed hobstructed] at h
    cases h
    exact ⟨hobstructed, rfl⟩
  · rw [readTable_eq hobstructed] at h
    exact absurd h (orInvalid_ne_error he kind _)

/-- Whether a value stands in place of a file name and is neither text nor empty. -/
def NoFileName (v? : Option Value) : Prop :=
  ∃ v, v? = some v ∧ v.isTruthy = true ∧ ∀ s, v ≠ .text s

theorem logFileName_of_no_text {v : Value} (h : ∀ s, v ≠ .text s) :
    logFileName (some v) = if v.isTruthy then .error .noLogText else .ok "" := by
  cases v with
  | text s => exact absurd rfl (h s)
  | _ => rfl

theorem logFileName_of_noFileName {v? : Option Value} (h : NoFileName v?) :
    logFileName v? = .error .noLogText := by
  obtain ⟨v, rfl, htruthy, hne⟩ := h
  rw [logFileName_of_no_text hne, if_pos htruthy]

theorem noFileName_of_logFileName {v? : Option Value} (h : logFileName v? = .error e) :
    NoFileName v? ∧ e = .noLogText := by
  cases v? with
  | none => cases h
  | some v =>
    by_cases htext : ∃ s, v = .text s
    · obtain ⟨s, rfl⟩ := htext
      cases h
    · have hne : ∀ s, v ≠ .text s := fun s hs => htext ⟨s, hs⟩
      rw [logFileName_of_no_text hne] at h
      split at h
      · next htruthy =>
        cases h
        exact ⟨⟨v, rfl, htruthy, hne⟩, rfl⟩
      · cases h

/-- The fault of a value in place of a number that loading does not report. -/
def numberFault? : Value → Option LoadFault
  | .real (.infinite _) => some .infiniteNumber
  | .null | .list _ | .object _ | .moment _ | .record _ => some .noNumber
  | _ => none

theorem rotationNumber_of_fault {default : Int} {v? : Option Value}
    (h : v?.bind numberFault? = some e) : rotationNumber default v? = .error e := by
  obtain ⟨v, rfl, hfault⟩ := Option.bind_eq_some_iff.mp h
  cases v with
  | real x =>
    cases x with
    | infinite negative =>
      cases hfault
      rfl
    | _ => cases hfault
  | null | list | object | moment | record =>
    cases hfault
    rfl
  | _ => cases hfault

theorem integerOfText_eq_error {s : String} {f : Failure} (h : Value.integerOfText s = .error f) :
    f = .unreadNumber := by
  rw [Value.integerOfText] at h
  cases hread : Decimal.integer s with
  | ok n =>
    rw [hread] at h
    cases h
  | error _ =>
    rw [hread] at h
    cases h
    rfl

theorem rotationNumber_text_ne_error (he : e.isReported = false) (default : Int) (s : String) :
    rotationNumber default (some (.text s)) ≠ .error e := by
  intro h
  rw [rotationNumber, Value.toInteger] at h
  cases hread : Value.integerOfText s with
  | ok n =>
    rw [hread] at h
    cases h
  | error f =>
    rw [hread, integerOfText_eq_error hread] at h
    cases h
    cases he

theorem fault_of_rotationNumber {default : Int} {v? : Option Value} (he : e.isReported = false)
    (h : rotationNumber default v? = .error e) : v?.bind numberFault? = some e := by
  cases v? with
  | none => cases h
  | some v =>
    cases v with
    | real x =>
      cases x with
      | nan =>
        cases h
        cases he
      | infinite negative =>
        cases h
        rfl
      | finite negative mantissa exponent => cases h
    | text s => exact absurd h (rotationNumber_text_ne_error he default s)
    | bytes bs =>
      rw [rotationNumber, Value.toInteger] at h
      by_cases hascii : bs.all Value.isAscii = true
      · rw [if_pos hascii] at h
        exact absurd h (rotationNumber_text_ne_error he default (Text.Utf8.decode bs))
      · rw [if_neg hascii] at h
        cases h
        cases he
    | null | list | object | moment | record =>
      cases h
      rfl
    | _ => cases h

/-- Whether the tables before that of the log can be read. -/
structure TablesRead (config : Fields) : Prop where
  analysis : ∃ o, readTable config "analysis" .analysisOptions AnalysisOptions.codec = .ok o
  limits : ∃ l, readTable config "limits" .limits Limits.codec = .ok l
  validation : ∃ o, readTable config "validation" .scoringOptions ScoringOptions.codec = .ok o

/-- The faults of tables that loading does not report. Each comes up if everything before it is in
order. -/
inductive TablesEscape (config : Fields) : LoadFault → Prop where
  | analysis (h : Obstructed config "analysis") : TablesEscape config .noTable
  | limits (hanalysis : ∃ o,
        readTable config "analysis" .analysisOptions AnalysisOptions.codec = .ok o)
      (h : Obstructed config "limits") : TablesEscape config .noTable
  | validation (hanalysis : ∃ o,
        readTable config "analysis" .analysisOptions AnalysisOptions.codec = .ok o)
      (hlimits : ∃ l, readTable config "limits" .limits Limits.codec = .ok l)
      (h : Obstructed config "validation") : TablesEscape config .noTable
  | logging (hread : TablesRead config) (h : Obstructed config "logging") :
      TablesEscape config .noLogText
  | logFile (hread : TablesRead config) (hlogging : ¬ Obstructed config "logging")
      (h : NoFileName ((tableOf config "logging").get? "file")) : TablesEscape config .noLogText
  | megabytes {e : LoadFault} (hread : TablesRead config) (hlogging : ¬ Obstructed config "logging")
      (hfile : ∃ s, logFileName ((tableOf config "logging").get? "file") = .ok s)
      (h : ((tableOf config "logging").get? "log_rotation_max_mb").bind numberFault? = some e) :
      TablesEscape config e
  | backups {e : LoadFault} (hread : TablesRead config) (hlogging : ¬ Obstructed config "logging")
      (hfile : ∃ s, logFileName ((tableOf config "logging").get? "file") = .ok s)
      (hmegabytes : ∃ n,
        rotationNumber 5 ((tableOf config "logging").get? "log_rotation_max_mb") = .ok n)
      (h : ((tableOf config "logging").get? "log_rotation_backups").bind numberFault? = some e) :
      TablesEscape config e

theorem ofTables_of_tablesEscape (h : TablesEscape config e) : ofTables config = .error e := by
  cases h with
  | analysis h =>
    simp only [ofTables, readTable_obstructed h, bind, Except.bind]
  | limits hanalysis h =>
    obtain ⟨options, hanalysis⟩ := hanalysis
    simp only [ofTables, hanalysis, readTable_obstructed h, bind, Except.bind]
  | validation hanalysis hlimits h =>
    obtain ⟨options, hanalysis⟩ := hanalysis
    obtain ⟨limits, hlimits⟩ := hlimits
    simp only [ofTables, hanalysis, hlimits, readTable_obstructed h, bind, Except.bind]
  | logging hread h =>
    obtain ⟨⟨options, hanalysis⟩, ⟨limits, hlimits⟩, ⟨scoring, hvalidation⟩⟩ := hread
    simp only [ofTables, hanalysis, hlimits, hvalidation, bind, Except.bind]
    split
    · next log hlog => exact absurd hlog (tableValue_ne_object h log)
    · rfl
  | logFile hread hlogging h =>
    obtain ⟨⟨options, hanalysis⟩, ⟨limits, hlimits⟩, ⟨scoring, hvalidation⟩⟩ := hread
    simp only [ofTables, hanalysis, hlimits, hvalidation, tableValue_of_not_obstructed hlogging,
      logFileName_of_noFileName h, bind, Except.bind]
  | megabytes hread hlogging hfile h =>
    obtain ⟨⟨options, hanalysis⟩, ⟨limits, hlimits⟩, ⟨scoring, hvalidation⟩⟩ := hread
    obtain ⟨file, hfile⟩ := hfile
    simp only [ofTables, hanalysis, hlimits, hvalidation, tableValue_of_not_obstructed hlogging,
      hfile, rotationNumber_of_fault h, bind, Except.bind]
  | backups hread hlogging hfile hmegabytes h =>
    obtain ⟨⟨options, hanalysis⟩, ⟨limits, hlimits⟩, ⟨scoring, hvalidation⟩⟩ := hread
    obtain ⟨file, hfile⟩ := hfile
    obtain ⟨megabytes, hmegabytes⟩ := hmegabytes
    simp only [ofTables, hanalysis, hlimits, hvalidation, tableValue_of_not_obstructed hlogging,
      hfile, hmegabytes, rotationNumber_of_fault h, bind, Except.bind]

theorem tablesEscape_of_ofTables (he : e.isReported = false) (h : ofTables config = .error e) :
    TablesEscape config e := by
  -- Stage by stage: one fails itself, or it hands on what it read and a later one fails.
  obtain h | ⟨options, hanalysis, h⟩ := Except.bind_eq_error_iff.mp h
  · obtain ⟨hobstructed, rfl⟩ := obstructed_of_readTable he h
    exact .analysis hobstructed
  obtain h | ⟨limits, hlimits, h⟩ := Except.bind_eq_error_iff.mp h
  · obtain ⟨hobstructed, rfl⟩ := obstructed_of_readTable he h
    exact .limits ⟨options, hanalysis⟩ hobstructed
  obtain h | ⟨scoring, hvalidation, h⟩ := Except.bind_eq_error_iff.mp h
  · obtain ⟨hobstructed, rfl⟩ := obstructed_of_readTable he h
    exact .validation ⟨options, hanalysis⟩ ⟨limits, hlimits⟩ hobstructed
  have hread : TablesRead config :=
    ⟨⟨options, hanalysis⟩, ⟨limits, hlimits⟩, ⟨scoring, hvalidation⟩⟩
  by_cases hlogging : Obstructed config "logging"
  · split at h
    · next log hlog => exact absurd hlog (tableValue_ne_object hlogging log)
    · cases h
      exact .logging hread hlogging
  · rw [tableValue_of_not_obstructed hlogging] at h
    obtain h | ⟨file, hfile, h⟩ := Except.bind_eq_error_iff.mp h
    · obtain ⟨hno, rfl⟩ := noFileName_of_logFileName h
      exact .logFile hread hlogging hno
    obtain h | ⟨megabytes, hmegabytes, h⟩ := Except.bind_eq_error_iff.mp h
    · exact .megabytes hread hlogging ⟨file, hfile⟩ (fault_of_rotationNumber he h)
    obtain h | ⟨backups, hbackups, h⟩ := Except.bind_eq_error_iff.mp h
    · exact .backups hread hlogging ⟨file, hfile⟩ ⟨megabytes, hmegabytes⟩
        (fault_of_rotationNumber he h)
    obtain h | ⟨level, _, h⟩ := Except.bind_eq_error_iff.mp h
    · exact absurd h (orInvalid_ne_error he _ _)
    · cases h

end Tables

/-! ## Loading -/

variable {env : Environment} {default development : FileContent}

/-- The faults that loading does not report, with their causes. Each comes up if everything before
it is in order. -/
inductive Escapes (env : Environment) (default development : FileContent) : LoadFault → Prop where
  | defaults {e : LoadFault} (h : Unread default e) : Escapes env default development e
  | development {e : LoadFault} {base : Fields}
      (hbase : readFileTables defaultFile default = .ok base) (h : Unread development e) :
      Escapes env default development e
  | environment {base later : Fields} {o : Override} {v : Value}
      (hbase : readFileTables defaultFile default = .ok base)
      (hlater : readFileTables developmentFile development = .ok later)
      (ho : o ∈ overrides) (hread : o.read env = .value v)
      (h : Blocked (merge base later) o.table) : Escapes env default development .noTable
  | tables {e : LoadFault} {base later config : Fields}
      (hbase : readFileTables defaultFile default = .ok base)
      (hlater : readFileTables developmentFile development = .ok later)
      (hconfig : (applyEnvironment env (merge base later)).config = some config)
      (h : TablesEscape config e) : Escapes env default development e

theorem readTables_eq_ok {base later : Fields}
    (hbase : readFileTables defaultFile default = .ok base)
    (hlater : readFileTables developmentFile development = .ok later) :
    readTables default development = .ok (merge base later) := by
  simp only [readTables, hbase, hlater, bind, Except.bind, pure, Except.pure]

theorem settings_of_escapes (h : Escapes env default development e) :
    (load env default development).settings = .error e := by
  cases h with
  | defaults h =>
    simp only [load, readTables, readFileTables_of_unread h, bind, Except.bind]
  | development hbase h =>
    simp only [load, readTables, hbase, readFileTables_of_unread h, bind, Except.bind]
  | environment hbase hlater ho hread h =>
    have hconfig := applyOverrides_eq_none_iff.mpr ⟨_, ho, _, hread, h⟩
    simp only [load, readTables_eq_ok hbase hlater, applyEnvironment, hconfig]
  | tables hbase hlater hconfig h =>
    simp only [load, readTables_eq_ok hbase hlater, hconfig]
    exact ofTables_of_tablesEscape h

theorem escapes_of_settings (he : e.isReported = false)
    (h : (load env default development).settings = .error e) :
    Escapes env default development e := by
  cases hbase : readFileTables defaultFile default with
  | error f =>
    simp only [load, readTables, hbase, bind, Except.bind] at h
    cases h
    exact .defaults (unread_of_readFileTables he hbase)
  | ok base =>
    cases hlater : readFileTables developmentFile development with
    | error f =>
      simp only [load, readTables, hbase, hlater, bind, Except.bind] at h
      cases h
      exact .development hbase (unread_of_readFileTables he hlater)
    | ok later =>
      simp only [load, readTables_eq_ok hbase hlater] at h
      cases hconfig : (applyEnvironment env (merge base later)).config with
      | none =>
        rw [hconfig] at h
        cases h
        obtain ⟨o, ho, v, hread, hblocked⟩ := applyOverrides_eq_none_iff.mp hconfig
        exact .environment hbase hlater ho hread hblocked
      | some config =>
        rw [hconfig] at h
        exact .tables hbase hlater hconfig (tablesEscape_of_ofTables he h)

theorem not_reported_of_unread {content : FileContent} (h : Unread content e) :
    e.isReported = false := by
  cases h <;> rfl

theorem not_reported_of_fault {v? : Option Value} (h : v?.bind numberFault? = some e) :
    e.isReported = false := by
  obtain ⟨v, rfl, hfault⟩ := Option.bind_eq_some_iff.mp h
  rw [numberFault?.eq_def] at hfault
  split at hfault <;> cases hfault <;> rfl

theorem not_reported_of_escapes (h : Escapes env default development e) :
    e.isReported = false := by
  cases h with
  | defaults h => exact not_reported_of_unread h
  | development _ h => exact not_reported_of_unread h
  | environment => rfl
  | tables _ _ _ h =>
    cases h with
    | megabytes _ _ _ h => exact not_reported_of_fault h
    | backups _ _ _ _ h => exact not_reported_of_fault h
    | _ => rfl

/-- Loading gives settings or a reported fault if and only if there is no cause for another one, and
it gives the fault of such a cause otherwise. -/
theorem load_contained_iff (env : Environment) (default development : FileContent) :
    ((load env default development).Contained ↔ ∀ e, ¬ Escapes env default development e) ∧
      ∀ e, Escapes env default development e →
        (load env default development).settings = .error e := by
  refine ⟨⟨?_, fun hnone => ?_⟩, fun e h => settings_of_escapes h⟩
  · rintro (⟨s, hs⟩ | ⟨f, hf, hreported⟩) e h
    · rw [settings_of_escapes h] at hs
      cases hs
    · rw [settings_of_escapes h] at hf
      cases hf
      rw [not_reported_of_escapes h] at hreported
      cases hreported
  · cases hsettings : (load env default development).settings with
    | ok s => exact .inl ⟨s, hsettings⟩
    | error e =>
      refine .inr ⟨e, hsettings, ?_⟩
      by_contra he
      exact hnone e (escapes_of_settings (by simpa using he) hsettings)

/-- A file of one byte that stands in no text escapes. -/
theorem load_undecodable_file :
    (load [] (.bytes [0xff]) .absent).settings = .error .undecodable ∧
      ¬ (load [] (.bytes [0xff]) .absent).Contained := by
  have hescapes : Escapes [] (.bytes [0xff]) .absent .undecodable :=
    .defaults (.undecodable rfl (by decide +kernel))
  have hload := load_contained_iff [] (.bytes [0xff]) .absent
  exact ⟨hload.2 _ hescapes, fun h => hload.1.mp h _ hescapes⟩

end RepoSurvey.Settings
