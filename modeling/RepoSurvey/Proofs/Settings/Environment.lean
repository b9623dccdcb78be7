import RepoSurvey.Proofs.Settings.Tables

/-!
# RepoSurvey.Proofs.Settings.Environment

What the environment leaves alone. One variable after the other puts its value under its own key, so
every setting ends up with what its variables say, or with what it had if they say nothing
(`get?_tableOf_of_mem`). Applying the environment again therefore puts values where they are already
(`applyOverrides_of_set`), and a number that is not spelled right counts as no number at all
(`applyEnvironment_settles`).
-/

namespace RepoSurvey

theorem Keyed.put_of_lookup {α : Type} {fs : List (String × α)} {key : String} {a : α}
    (h : fs.lookup key = some a) : put fs key a = fs := by
  induction fs with
  | nil => cases h
  | cons f fs ih =>
    obtain ⟨k, b⟩ := f
    rw [lookup_cons] at h
    by_cases hk : key = k
    · rw [if_pos hk] at h
      cases h
      simp [put, hk]
    · rw [if_neg hk] at h
      have hk' : (k == key) = false := by simp [Ne.symm hk]
      simp only [put, hk', ih h, Bool.false_eq_true, if_false]

namespace Settings

variable {env env' : Environment} {config config' : Fields} {o : Override} {os : List Override}

/-! ## Variables -/

def Environment.without (env : Environment) (name : String) : Environment :=
  env.filter fun v => v.1 ≠ name

theorem Environment.get?_without (env : Environment) (name other : String) :
    (env.without name).get? other = if other = name then none else env.get? other := by
  have hlookup : (env.without name).lookup other =
      if other = name then none else env.lookup other := by
    induction env with
    | nil => simp [without]
    | cons v env ih =>
      rw [without] at ih
      by_cases hv : v.1 = name
      · rw [without, List.filter_cons_of_neg (by simpa using hv), ih, Keyed.lookup_cons, hv]
        split <;> rfl
      · rw [without, List.filter_cons_of_pos (by simpa using hv), Keyed.lookup_cons, ih,
          Keyed.lookup_cons]
        by_cases hother : other = v.1
        · rw [if_pos hother, if_neg (hother ▸ hv), if_pos hother]
        · rw [if_neg hother, if_neg hother]
  rw [get?, hlookup]
  split <;> rfl

/-- The value that its variables give to a setting. -/
def Override.value? (env : Environment) (o : Override) : Option Value :=
  match o.read env with
  | .value v => some v
  | .unset | .ignored .. => none

theorem Override.value?_eq_some_iff {v : Value} : o.value? env = some v ↔ o.read env = .value v := by
  rw [value?]
  split <;> simp_all

theorem Override.value?_eq_none_iff : o.value? env = none ↔ ∀ v, o.read env ≠ .value v := by
  rw [value?]
  split <;> simp_all

theorem Override.value?_ofText (table key : String) (names : List String) (f : String → Value)
    (env : Environment) :
    (ofText table key names f).value? env = (names.findSome? env.get?).map f := by
  simp only [value?, ofText]
  cases names.findSome? env.get? <;> rfl

theorem Override.value?_ofInteger (table key name : String) (env : Environment) :
    (ofInteger table key name).value? env =
      (env.get? name).bind fun s => (Decimal.integer s).toOption.map .int := by
  simp only [value?, ofInteger]
  cases env.get? name with
  | none => rfl
  | some s => cases hs : Decimal.integer s <;> simp [hs, Except.toOption]

/-! ## The overridden settings -/

/-- The settings that variables override, by table and key, with their variables. -/
def overridden : List ((String × String) × List String) := [
  (("logging", "level"), ["ARCHLENS_LOG_LEVEL", "LOG_LEVEL"]),
  (("logging", "file"), ["LOG_FILE"]),
  (("limits", "max_dependency_edges"), ["ARCHLENS_MAX_EDGES"]),
  (("limits", "max_workers"), ["ARCHLENS_MAX_WORKERS"]),
  (("validation", "cycle_detection"), ["ARCHLENS_CYCLE_DETECTION"]),
  (("analysis", "exclude_patterns"), ["ARCHLENS_EXCLUDE"])]

/-- The variables that have to spell integers. -/
def integerVariables : List String := ["ARCHLENS_MAX_EDGES", "ARCHLENS_MAX_WORKERS"]

def Override.setting (o : Override) : String × String := (o.table, o.key)

theorem map_overrides : overrides.map (fun o => (o.setting, o.names)) = overridden := rfl

theorem nodup_settings : (overrides.map Override.setting).Nodup := by decide

theorem text_or_integer (ho : o ∈ overrides) :
    (∃ f, o = .ofText o.table o.key o.names f) ∨ ∃ name, o = .ofInteger o.table o.key name := by
  simp only [overrides, List.mem_cons, List.not_mem_nil, or_false] at ho
  obtain rfl | rfl | rfl | rfl | rfl | rfl := ho
  · exact .inl ⟨_, rfl⟩
  · exact .inl ⟨_, rfl⟩
  · exact .inr ⟨_, rfl⟩
  · exact .inr ⟨_, rfl⟩
  · exact .inl ⟨_, rfl⟩
  · exact .inl ⟨_, rfl⟩

theorem eq_ofInteger {name : String} (ho : o ∈ overrides) (hname : name ∈ integerVariables)
    (h : name ∈ o.names) : o = .ofInteger o.table o.key name := by
  simp only [overrides, integerVariables, List.mem_cons, List.not_mem_nil, or_false] at ho hname
  obtain rfl | rfl | rfl | rfl | rfl | rfl := ho <;> obtain rfl | rfl := hname <;>
    first
    | rfl
    | exact absurd h (by decide)

/-- A setting depends on its own variables alone. -/
theorem value?_congr (ho : o ∈ overrides) (h : ∀ name ∈ o.names, env'.get? name = env.get? name) :
    o.value? env' = o.value? env := by
  obtain ⟨f, heq⟩ | ⟨name, heq⟩ := text_or_integer ho
  · have hmap : o.names.map env'.get? = o.names.map env.get? := List.map_congr_left h
    have hfound := congrArg (List.findSome? id) hmap
    rw [List.findSome?_map, List.findSome?_map, Function.id_comp, Function.id_comp] at hfound
    rw [heq, Override.value?_ofText, Override.value?_ofText, hfound]
  · have hfound : env'.get? name = env.get? name := h name (by rw [heq]; exact List.mem_cons_self)
    rw [heq, Override.value?_ofInteger, Override.value?_ofInteger, hfound]

theorem value?_of_unset (ho : o ∈ overrides) (h : ∀ name ∈ o.names, env.get? name = none) :
    o.value? env = none := by
  have hempty : ∀ p ∈ overrides, p.value? [] = none := by
    simp only [overrides, List.forall_mem_cons]
    exact ⟨rfl, rfl, rfl, rfl, rfl, rfl, nofun⟩
  have hnone : ∀ name ∈ o.names, env.get? name = Environment.get? [] name := h
  rw [value?_congr ho hnone]
  exact hempty o ho

/-- A variable that spells no integer is as good as unset. -/
theorem value?_without {name raw : String} (hname : name ∈ integerVariables)
    (hraw : env.get? name = some raw) (h : (Decimal.integer raw).toOption = none)
    (ho : o ∈ overrides) : o.value? (env.without name) = o.value? env := by
  by_cases hmem : name ∈ o.names
  · rw [eq_ofInteger ho hname hmem, Override.value?_ofInteger, Override.value?_ofInteger,
      Environment.get?_without, if_pos rfl, hraw, Option.bind_some, h]
    rfl
  · refine value?_congr ho fun other hother => ?_
    rw [Environment.get?_without, if_neg]
    rintro rfl
    exact hmem hother

/-! ## One override after the other -/

theorem config_applyOverrides_cons (env : Environment) (o : Override) (os : List Override)
    (config : Fields) :
    (applyOverrides env (o :: os) config).config =
      match o.value? env with
      | some v => (setIn o.table o.key v config).bind fun next =>
          (applyOverrides env os next).config
      | none => (applyOverrides env os config).config := by
  cases h : o.value? env with
  | some v => exact config_applyOverrides_of_value (Override.value?_eq_some_iff.mp h)
  | none => exact config_applyOverrides_of_no_value (Override.value?_eq_none_iff.mp h)

/-- The environment acts by the values that it gives to settings. -/
theorem config_applyOverrides_congr (h : ∀ o ∈ os, o.value? env' = o.value? env) :
    (applyOverrides env' os config).config = (applyOverrides env os config).config := by
  induction os generalizing config with
  | nil => rfl
  | cons o os ih =>
    have hrest : ∀ next,
        (applyOverrides env' os next).config = (applyOverrides env os next).config :=
      fun _ => ih fun p hp => h p (List.mem_cons_of_mem o hp)
    simp only [config_applyOverrides_cons, h o List.mem_cons_self, hrest]

theorem get?_tableOf_setIn {table key : String} {v : Value}
    (h : setIn table key v config = some config') (name other : String) :
    (tableOf config' name).get? other =
      if (name, other) = (table, key) then some v else (tableOf config name).get? other := by
  rw [tableOf_setIn h]
  by_cases hname : name = table
  · rw [if_pos hname, Fields.get?, Keyed.lookup_put]
    simp [hname, Fields.get?]
  · rw [if_neg hname, if_neg (by simp [hname])]

theorem get?_tableOf_of_not_mem (h : (applyOverrides env os config).config = some config')
    {table key : String} (hsetting : (table, key) ∉ os.map Override.setting) :
    (tableOf config' table).get? key = (tableOf config table).get? key := by
  induction os generalizing config with
  | nil =>
    cases h
    rfl
  | cons o os ih =>
    obtain ⟨hne, hrest⟩ := not_or.mp (mt List.mem_cons.mpr hsetting)
    rw [config_applyOverrides_cons] at h
    split at h
    · obtain ⟨next, hset, h⟩ := Option.bind_eq_some_iff.mp h
      rw [ih h hrest, get?_tableOf_setIn hset]
      exact if_neg hne
    · exact ih h hrest

/-- Every setting is what its variables say, or what it was if they say nothing. -/
theorem get?_tableOf_of_mem (h : (applyOverrides env os config).config = some config')
    (hdistinct : (os.map Override.setting).Nodup) (ho : o ∈ os) :
    (tableOf config' o.table).get? o.key =
      (o.value? env).or ((tableOf config o.table).get? o.key) := by
  induction os generalizing config with
  | nil => cases ho
  | cons p os ih =>
    obtain ⟨hfirst, hrest⟩ := List.nodup_cons.mp hdistinct
    rw [config_applyOverrides_cons] at h
    rcases List.mem_cons.mp ho with rfl | ho
    · split at h
      · next v hv =>
        obtain ⟨next, hset, h⟩ := Option.bind_eq_some_iff.mp h
        rw [get?_tableOf_of_not_mem h hfirst, get?_tableOf_setIn hset, if_pos rfl, hv]
        rfl
      · next hnone =>
        rw [get?_tableOf_of_not_mem h hfirst, hnone]
        rfl
    · have hne : o.setting ≠ p.setting := fun heq =>
        hfirst (heq ▸ List.mem_map_of_mem ho)
      split at h
      · obtain ⟨next, hset, h⟩ := Option.bind_eq_some_iff.mp h
        rw [ih h hrest ho, get?_tableOf_setIn hset]
        exact congrArg _ (if_neg hne)
      · exact ih h hrest ho

/-- What stands under a name is left as it is if no variable gives a value to a setting of the table
of that name. -/
theorem get?_of_no_value (h : (applyOverrides env os config).config = some config') {name : String}
    (hname : ∀ o ∈ os, o.table = name → o.value? env = none) :
    config'.get? name = config.get? name := by
  induction os generalizing config with
  | nil =>
    cases h
    rfl
  | cons o os ih =>
    have hrest := fun p hp => hname p (List.mem_cons_of_mem o hp)
    rw [config_applyOverrides_cons] at h
    split at h
    · next v hv =>
      obtain ⟨next, hset, h⟩ := Option.bind_eq_some_iff.mp h
      rw [ih h hrest, get?_setIn hset, if_neg]
      rintro rfl
      rw [hname o List.mem_cons_self rfl] at hv
      cases hv
    · exact ih h hrest

/-! ## Twice -/

theorem setIn_of_get? {table key : String} {v : Value}
    (h : (tableOf config table).get? key = some v) : setIn table key v config = some config := by
  obtain habsent | ⟨fs, hfound⟩ | hblocked := absent_or_table_or_blocked config table
  · rw [tableOf_of_absent habsent] at h
    cases h
  · rw [tableOf_of_get? hfound] at h
    rw [setIn, hfound]
    simp only [Fields.put, Keyed.put_of_lookup h]
    rw [Keyed.put_of_lookup hfound]
  · rw [tableOf_of_blocked hblocked] at h
    cases h

/-- Settings that are what their variables say stay as they are, and all else with them. -/
theorem applyOverrides_of_set
    (h : ∀ o ∈ os, ∀ v, o.value? env = some v → (tableOf config o.table).get? o.key = some v) :
    (applyOverrides env os config).config = some config := by
  induction os with
  | nil => rfl
  | cons o os ih =>
    have hrest := ih fun p hp => h p (List.mem_cons_of_mem o hp)
    rw [config_applyOverrides_cons]
    cases hv : o.value? env with
    | some v =>
      simp only [setIn_of_get? (h o List.mem_cons_self v hv)]
      exact hrest
    | none => exact hrest

/-! ## The environment -/

/-- What the environment makes of some tables. A setting that is overridden is what its variables
say, unless they are unset or say nothing; no other entry changes, and what stands under a name
changes only if a setting of that table is given a value. -/
structure Settled (env : Environment) (config config' : Fields) : Prop where
  given : ∀ o ∈ overrides, ∀ v, o.read env = .value v →
    (tableOf config' o.table).get? o.key = some v
  unset : ∀ setting ∈ overridden, (∀ name ∈ setting.2, env.get? name = none) →
    (tableOf config' setting.1.1).get? setting.1.2 = (tableOf config setting.1.1).get? setting.1.2
  others : ∀ table key, (table, key) ∉ overridden.map (·.1) →
    (tableOf config' table).get? key = (tableOf config table).get? key
  untouched : ∀ name, (∀ o ∈ overrides, o.table = name → ∀ v, o.read env ≠ .value v) →
    config'.get? name = config.get? name

theorem settled_of_applyEnvironment (h : (applyEnvironment env config).config = some config') :
    Settled env config config' where
  given o ho v hv := by
    rw [get?_tableOf_of_mem h nodup_settings ho, Override.value?_eq_some_iff.mpr hv]
    rfl
  unset setting hsetting hnames := by
    rw [← map_overrides] at hsetting
    obtain ⟨o, ho, rfl⟩ := List.mem_map.mp hsetting
    exact (get?_tableOf_of_mem h nodup_settings ho).trans (by rw [value?_of_unset ho hnames]; rfl)
  others table key hne := get?_tableOf_of_not_mem h hne
  untouched name hname := get?_of_no_value h fun o ho htable =>
    Override.value?_eq_none_iff.mpr (hname o ho htable)

/-- Where the settings that variables override stand in tables or nowhere, the environment can be
applied, and it changes these settings alone. Applying it again changes nothing. A variable that has
to spell an integer and does not might as well be unset. -/
theorem applyEnvironment_settles (env : Environment) {config : Fields}
    (htables : ∀ table ∈ ["logging", "limits", "validation", "analysis"],
      ¬ Blocked config table) :
    ∃ config', (applyEnvironment env config).config = some config' ∧
      Settled env config config' ∧
      (applyEnvironment env config').config = some config' ∧
      ∀ name ∈ integerVariables, ∀ raw, env.get? name = some raw →
        (Decimal.integer raw).toOption = none →
          (applyEnvironment (env.without name) config).config = some config' := by
  have hfree : ∀ o ∈ overrides, ¬ Blocked config o.table := by
    intro o ho
    refine htables o.table ?_
    revert o
    decide
  obtain ⟨config', h⟩ : ∃ config', (applyEnvironment env config).config = some config' := by
    rw [← Option.ne_none_iff_exists']
    intro hnone
    obtain ⟨o, ho, _, _, hblocked⟩ := applyOverrides_eq_none_iff.mp hnone
    exact hfree o ho hblocked
  refine ⟨config', h, settled_of_applyEnvironment h, ?_, fun name hname raw hraw hinvalid => ?_⟩
  · refine applyOverrides_of_set fun o ho v hv => ?_
    rw [get?_tableOf_of_mem h nodup_settings ho, hv]
    rfl
  · rw [← h]
    exact config_applyOverrides_congr fun o ho => value?_without hname hraw hinvalid ho

def withoutLimits : Fields := [("analysis", .object [("project_type", .text "api")])]

/-- An environment that spells a limit with a letter. -/
def misspeltLimit : Environment := [("ARCHLENS_MAX_EDGES", "1O"), ("LOG_FILE", " a.log ")]

/-- The misspelt limit leaves no table of limits behind. -/
theorem applyEnvironment_settles_misspelt :
    (∀ table ∈ ["logging", "limits", "validation", "analysis"], ¬ Blocked withoutLimits table) ∧
      ∃ config, (applyEnvironment misspeltLimit withoutLimits).config = some config ∧
        config = withoutLimits ++ [("logging", .object [("file", .text "a.log")])] ∧
        (applyEnvironment misspeltLimit config).config = some config ∧
        (applyEnvironment [("LOG_FILE", " a.log ")] withoutLimits).config = some config := by
  have htables : ∀ table ∈ ["logging", "limits", "validation", "analysis"],
      ¬ Blocked withoutLimits table := by
    simp only [List.forall_mem_cons]
    exact ⟨not_blocked_of_absent rfl, not_blocked_of_absent rfl, not_blocked_of_absent rfl,
      not_blocked_of_get? rfl, nofun⟩
  obtain ⟨config, hconfig, _, htwice, hinvalid⟩ := applyEnvironment_settles misspeltLimit htables
  have hwithout := hinvalid "ARCHLENS_MAX_EDGES" (by decide) "1O" (by decide) (by decide +kernel)
  have hvalue : (applyEnvironment misspeltLimit withoutLimits).config =
      some (withoutLimits ++ [("logging", .object [("file", .text "a.log")])]) := by rfl
  exact ⟨htables, config, hconfig, Option.some.inj (hconfig.symm.trans hvalue), htwice, hwithout⟩

end Settings

end RepoSurvey
