import RepoSurvey.Proofs.Toml.Tables
import RepoSurvey.Settings.Load

/-!
# RepoSurvey.Proofs.Settings.Tables

The tables of the settings on their way from the files to the codecs. Merging two files and applying
the environment change a table in the same way, by putting fields into it (`tableOf_merge`,
`tableOf_applyOverrides`). The environment stops only where it has to change something that is no
table (`applyOverrides_eq_none_iff`).
-/

namespace RepoSurvey.Settings

/-! ## What stands under a name -/

/-- The table under a name, empty if there is none. -/
def tableOf (config : Fields) (name : String) : Fields :=
  match config.get? name with
  | some (.object fs) => fs
  | _ => []

/-- Whether something other than a table stands under a name. -/
def Blocked (config : Fields) (name : String) : Prop :=
  ∃ v, config.get? name = some v ∧ ∀ fs, v ≠ .object fs

variable {config config' : Fields} {name : String}

theorem tableOf_of_get? {fs : Fields} (h : config.get? name = some (.object fs)) :
    tableOf config name = fs := by
  rw [tableOf, h]

theorem tableOf_of_absent (h : config.get? name = none) : tableOf config name = [] := by
  rw [tableOf, h]

theorem tableOf_of_blocked (h : Blocked config name) : tableOf config name = [] := by
  obtain ⟨v, hv, hne⟩ := h
  rw [tableOf, hv]
  cases v with
  | object fs => exact absurd rfl (hne fs)
  | _ => rfl

theorem not_blocked_of_get? {fs : Fields} (h : config.get? name = some (.object fs)) :
    ¬ Blocked config name := by
  rintro ⟨v, hv, hne⟩
  rw [h] at hv
  exact hne fs (Option.some.inj hv).symm

theorem not_blocked_of_absent (h : config.get? name = none) : ¬ Blocked config name := by
  rintro ⟨v, hv, _⟩
  rw [h] at hv
  cases hv

/-- Under a name stands nothing, a table, or something that blocks it. -/
theorem absent_or_table_or_blocked (config : Fields) (name : String) :
    config.get? name = none ∨ (∃ fs, config.get? name = some (.object fs)) ∨
      Blocked config name := by
  cases h : config.get? name with
  | none => exact .inl rfl
  | some v =>
    cases v with
    | object fs => exact .inr (.inl ⟨fs, rfl⟩)
    | _ => exact .inr (.inr ⟨_, h, nofun⟩)

/-- Whether something other than a table stands under a name and does not count as an empty one. -/
def Obstructed (config : Fields) (name : String) : Prop :=
  ∃ v, config.get? name = some v ∧ v.isTruthy = true ∧ ∀ fs, v ≠ .object fs

theorem tableValue_ne_object (h : Obstructed config name) (fs : Fields) :
    tableValue config name ≠ .object fs := by
  obtain ⟨v, hv, htruthy, hne⟩ := h
  rw [tableValue, hv]
  simpa [htruthy] using hne fs

theorem tableValue_of_not_obstructed (h : ¬ Obstructed config name) :
    tableValue config name = .object (tableOf config name) := by
  obtain habsent | ⟨fs, hfound⟩ | ⟨v, hv, hne⟩ := absent_or_table_or_blocked config name
  · rw [tableValue, tableOf, habsent]
  · rw [tableValue, tableOf, hfound]
    cases fs <;> rfl
  · have hfalsy : v.isTruthy = false := by
      by_contra htruthy
      exact h ⟨v, hv, by simpa using htruthy, hne⟩
    rw [tableOf_of_blocked ⟨v, hv, hne⟩, tableValue, hv]
    simp [hfalsy]

theorem readTable_eq {α : Type} (h : ¬ Obstructed config name) (kind : Kind) (c : Codec α) :
    readTable config name kind c = orInvalid kind (c.read (.object (tableOf config name))) := by
  rw [readTable, tableValue_of_not_obstructed h]

theorem readTable_obstructed {α : Type} (h : Obstructed config name) (kind : Kind) (c : Codec α) :
    readTable config name kind c = .error .noTable := by
  rw [readTable]
  split
  · next fs hfs => exact absurd hfs (tableValue_ne_object h fs)
  · rfl

theorem read_of_readTable {α : Type} {kind : Kind} {c : Codec α} {a : α}
    (h : readTable config name kind c = .ok a) : c.read (.object (tableOf config name)) = .ok a := by
  by_cases hobstructed : Obstructed config name
  · rw [readTable_obstructed hobstructed] at h
    cases h
  · rw [readTable_eq hobstructed] at h
    cases hread : c.read (.object (tableOf config name)) with
    | ok b =>
      rw [hread] at h
      cases h
      rfl
    | failed f more =>
      rw [hread] at h
      cases h

/-! ## Files over files -/

/-- What a value of a later file becomes over what stood in its place. -/
def mergeValue : Value → Option Value → Value
  | .object later, some (.object earlier) => .object (Keyed.putAll earlier later)
  | v, _ => v

theorem mergeValue_none (v : Value) : mergeValue v none = v := by
  cases v <;> rfl

theorem mergeValue_of_no_table {v : Value} (h : ∀ fs, v ≠ .object fs) (earlier : Option Value) :
    mergeValue v earlier = v := by
  cases v with
  | object fs => exact absurd rfl (h fs)
  | _ => rfl

theorem mergeValue_over_no_table (v : Value) {earlier : Value} (h : ∀ fs, earlier ≠ .object fs) :
    mergeValue v (some earlier) = v := by
  cases earlier with
  | object fs => exact absurd rfl (h fs)
  | _ => cases v <;> rfl

theorem mergeField_eq_put (base : Fields) (f : String × Value) :
    mergeField base f = base.put f.1 (mergeValue f.2 (base.get? f.1)) := by
  rw [mergeField]
  split
  · next hlater hearlier =>
    rw [hlater, hearlier]
    rfl
  · next hnot =>
    rw [mergeValue]
    exact hnot

theorem get?_mergeField (base : Fields) (f : String × Value) (name : String) :
    (mergeField base f).get? name =
      if name = f.1 then some (mergeValue f.2 (base.get? name)) else base.get? name := by
  rw [mergeField_eq_put, Fields.get?, Keyed.lookup_put]
  by_cases h : name = f.1
  · rw [if_pos h, if_pos h, h]
  · rw [if_neg h, if_neg h]
    rfl

theorem get?_merge (base : Fields) {later : Fields} (hlater : Keyed.Distinct later)
    (name : String) :
    (merge base later).get? name =
      ((later.get? name).map fun v => mergeValue v (base.get? name)).or (base.get? name) := by
  induction later generalizing base with
  | nil => rfl
  | cons f later ih =>
    obtain ⟨hfirst, hrest⟩ := List.nodup_cons.mp hlater
    show (merge (mergeField base f) later).get? name = _
    rw [ih (mergeField base f) hrest, get?_mergeField]
    simp only [Fields.get?, Keyed.lookup_cons]
    by_cases h : name = f.1
    · -- A file holds the key once, so the rest of it leaves the merged value alone.
      have habsent : later.lookup name = none := by
        refine List.lookup_eq_none_iff.mpr fun g hg => ?_
        have hne : f.1 ≠ g.1 := fun hkey => hfirst (List.mem_map.mpr ⟨g, hg, hkey.symm⟩)
        simpa [h] using hne
      rw [habsent, if_pos h, if_pos h]
      rfl
    · rw [if_neg h, if_neg h]

/-- The table that the first of two files adds to the merged one: none if the second file has
something other than a table in its place. -/
def keptTable (base later : Fields) (name : String) : Fields :=
  match later.get? name with
  | none | some (.object _) => tableOf base name
  | some _ => []

theorem keptTable_of_blocked (base : Fields) {later : Fields} (h : Blocked later name) :
    keptTable base later name = [] := by
  obtain ⟨v, hv, hne⟩ := h
  rw [keptTable, hv]
  cases v with
  | object fs => exact absurd rfl (hne fs)
  | _ => rfl

/-- A merged table holds that of the first file with that of the second put over it. -/
theorem tableOf_merge (base : Fields) {later : Fields} (hlater : Keyed.Distinct later)
    (htable : Keyed.Distinct (tableOf later name)) :
    tableOf (merge base later) name =
      Keyed.putAll (keptTable base later name) (tableOf later name) := by
  have hmerged := get?_merge base hlater name
  -- The second file has nothing under the name, a table, or something else.
  obtain h | ⟨fs, h⟩ | ⟨v, h, hne⟩ := absent_or_table_or_blocked later name
  · rw [h, Option.map_none, Option.none_or] at hmerged
    rw [keptTable, tableOf_of_absent h, h, tableOf, hmerged]
    rfl
  · rw [h, Option.map_some, Option.some_or] at hmerged
    rw [tableOf_of_get? h] at htable
    rw [keptTable, tableOf_of_get? h, h]
    obtain hbase | ⟨earlier, hbase⟩ | ⟨w, hbase, hne⟩ := absent_or_table_or_blocked base name
    · rw [hbase, mergeValue_none] at hmerged
      rw [tableOf_of_get? hmerged, tableOf_of_absent hbase]
      exact (Keyed.merged_of_distinct htable).symm
    · rw [hbase] at hmerged
      rw [tableOf_of_get? hmerged, tableOf_of_get? hbase]
    · rw [hbase, mergeValue_over_no_table _ hne] at hmerged
      rw [tableOf_of_get? hmerged, tableOf_of_blocked ⟨w, hbase, hne⟩]
      exact (Keyed.merged_of_distinct htable).symm
  · rw [h, Option.map_some, Option.some_or, mergeValue_of_no_table hne] at hmerged
    rw [tableOf_of_blocked ⟨v, hmerged, hne⟩, tableOf_of_blocked ⟨v, h, hne⟩,
      keptTable_of_blocked base ⟨v, h, hne⟩]
    rfl

/-! ## The environment over files -/

variable {table key : String} {v : Value} {env : Environment}

theorem setIn_eq_none_iff : setIn table key v config = none ↔ Blocked config table := by
  obtain h | ⟨fs, h⟩ | hblocked := absent_or_table_or_blocked config table
  · simp [setIn, h, not_blocked_of_absent h]
  · simp [setIn, h, not_blocked_of_get? h]
  · refine iff_of_true ?_ hblocked
    obtain ⟨w, hw, hne⟩ := hblocked
    rw [setIn, hw]
    cases w with
    | object fs => exact absurd rfl (hne fs)
    | _ => rfl

theorem get?_setIn (h : setIn table key v config = some config') (name : String) :
    config'.get? name =
      if name = table then some (.object (Fields.put (tableOf config table) key v))
      else config.get? name := by
  obtain habsent | ⟨fs, hfound⟩ | hblocked := absent_or_table_or_blocked config table
  · rw [setIn, habsent] at h
    cases h
    rw [tableOf_of_absent habsent]
    exact Keyed.lookup_put _ _ _ _
  · rw [setIn, hfound] at h
    cases h
    rw [tableOf_of_get? hfound]
    exact Keyed.lookup_put _ _ _ _
  · rw [setIn_eq_none_iff.mpr hblocked] at h
    cases h

theorem tableOf_setIn (h : setIn table key v config = some config') (name : String) :
    tableOf config' name =
      if name = table then Fields.put (tableOf config name) key v else tableOf config name := by
  rw [tableOf, get?_setIn h]
  by_cases hname : name = table
  · rw [if_pos hname, if_pos hname, hname]
  · rw [if_neg hname, if_neg hname, tableOf]

theorem blocked_setIn_iff (h : setIn table key v config = some config') :
    Blocked config' name ↔ Blocked config name := by
  by_cases hname : name = table
  · have hfound := get?_setIn h name
    rw [if_pos hname] at hfound
    refine iff_of_false (not_blocked_of_get? hfound) fun hblocked => ?_
    rw [setIn_eq_none_iff.mpr (hname ▸ hblocked)] at h
    cases h
  · rw [Blocked, Blocked, get?_setIn h, if_neg hname]

/-- What a variable puts into a table. -/
def Override.field? (env : Environment) (name : String) (o : Override) : Option (String × Value) :=
  match o.read env with
  | .value v => if o.table = name then some (o.key, v) else none
  | _ => none

theorem Override.field?_of_value {o : Override} (h : o.read env = .value v) (name : String) :
    o.field? env name = if o.table = name then some (o.key, v) else none := by
  rw [Override.field?, h]

theorem Override.field?_eq_none {o : Override} (h : ∀ v, o.read env ≠ .value v) (name : String) :
    o.field? env name = none := by
  rw [Override.field?]
  split
  · next v hv => exact absurd hv (h v)
  · rfl

/-- The fields that the environment puts into a table. -/
def environmentTable (env : Environment) (os : List Override) (name : String) : Fields :=
  os.filterMap (Override.field? env name)

section Overrides

variable {o : Override} {os : List Override}

theorem config_applyOverrides_of_no_value (h : ∀ v, o.read env ≠ .value v) :
    (applyOverrides env (o :: os) config).config = (applyOverrides env os config).config := by
  rw [applyOverrides]
  split
  · rfl
  · rfl
  · next v hv => exact absurd hv (h v)

theorem config_applyOverrides_of_value (h : o.read env = .value v) :
    (applyOverrides env (o :: os) config).config =
      (setIn o.table o.key v config).bind fun next => (applyOverrides env os next).config := by
  rw [applyOverrides, h]
  cases hset : setIn o.table o.key v config <;> simp only [hset] <;> rfl

/-- A variable gives a value to its setting, or it changes nothing. -/
theorem Override.value_or_not (env : Environment) (o : Override) :
    (∃ v, o.read env = .value v) ∨ ∀ v, o.read env ≠ .value v := by
  by_cases h : ∃ v, o.read env = .value v
  · exact .inl h
  · exact .inr fun v hv => h ⟨v, hv⟩

/-- The environment changes a table by what it puts into it. -/
theorem tableOf_applyOverrides (h : (applyOverrides env os config).config = some config')
    (name : String) :
    tableOf config' name = Keyed.putAll (tableOf config name) (environmentTable env os name) := by
  induction os generalizing config with
  | nil =>
    cases h
    rfl
  | cons o os ih =>
    rw [environmentTable, List.filterMap_cons]
    obtain ⟨v, hread⟩ | hread := o.value_or_not env
    · rw [config_applyOverrides_of_value hread] at h
      obtain ⟨next, hset, h⟩ := Option.bind_eq_some_iff.mp h
      rw [ih h, tableOf_setIn hset, Override.field?_of_value hread]
      by_cases hname : o.table = name
      · rw [if_pos hname, if_pos hname.symm]
        rfl
      · rw [if_neg hname, if_neg (Ne.symm hname)]
        rfl
    · rw [config_applyOverrides_of_no_value hread] at h
      rw [Override.field?_eq_none hread]
      exact ih h

/-- The environment stops if and only if a variable gives a value to a setting of a table in whose
place something else stands. -/
theorem applyOverrides_eq_none_iff :
    (applyOverrides env os config).config = none ↔
      ∃ o ∈ os, ∃ v, o.read env = .value v ∧ Blocked config o.table := by
  induction os generalizing config with
  | nil => simp [applyOverrides]
  | cons o os ih =>
    simp only [List.mem_cons, exists_eq_or_imp]
    obtain ⟨v, hread⟩ | hread := o.value_or_not env
    · rw [config_applyOverrides_of_value hread]
      cases hset : setIn o.table o.key v config with
      | none =>
        have hblocked := setIn_eq_none_iff.mp hset
        exact iff_of_true rfl (.inl ⟨v, hread, hblocked⟩)
      | some next =>
        have hfree : ¬ Blocked config o.table := fun hblocked => by
          rw [setIn_eq_none_iff.mpr hblocked] at hset
          cases hset
        rw [Option.bind_some, ih]
        simp only [blocked_setIn_iff hset, hfree, and_false, exists_false, false_or]
    · rw [config_applyOverrides_of_no_value hread, ih]
      simp only [hread, false_and, exists_false, false_or]

end Overrides

/-! ## Loading -/

/-- Settings are loaded in three stages: the files are read, the environment is put over them, and
the tables are read by their codecs. -/
theorem load_eq_ok {default development : FileContent} {s : Settings}
    (h : (load env default development).settings = .ok s) :
    ∃ base later config, readFileTables defaultFile default = .ok base ∧
      readFileTables developmentFile development = .ok later ∧
      (applyEnvironment env (merge base later)).config = some config ∧
      ofTables config = .ok s := by
  rw [load] at h
  cases htables : readTables default development with
  | error e =>
    rw [htables] at h
    cases h
  | ok tables =>
    obtain ⟨base, hbase, htables'⟩ := Except.bind_eq_ok_iff.mp htables
    obtain ⟨later, hlater, hmerge⟩ := Except.bind_eq_ok_iff.mp htables'
    cases hmerge
    simp only [htables] at h
    split at h
    · next config hconfig => exact ⟨base, later, config, hbase, hlater, hconfig, h⟩
    · cases h

theorem readTable_of_ofTables {s : Settings} (h : ofTables config = .ok s) :
    readTable config "analysis" .analysisOptions AnalysisOptions.codec = .ok s.analysis := by
  obtain ⟨analysis, hanalysis, h⟩ := Except.bind_eq_ok_iff.mp h
  obtain ⟨_, _, h⟩ := Except.bind_eq_ok_iff.mp h
  obtain ⟨_, _, h⟩ := Except.bind_eq_ok_iff.mp h
  split at h
  · obtain ⟨_, _, h⟩ := Except.bind_eq_ok_iff.mp h
    obtain ⟨_, _, h⟩ := Except.bind_eq_ok_iff.mp h
    obtain ⟨_, _, h⟩ := Except.bind_eq_ok_iff.mp h
    obtain ⟨_, _, h⟩ := Except.bind_eq_ok_iff.mp h
    cases h
    exact hanalysis
  · cases h

end RepoSurvey.Settings
