import RepoSurvey.Proofs.Slot
import RepoSurvey.Snapshot.Recovery

/-!
# RepoSurvey.Proofs.Snapshot.Attempt

The attempts to read fields from which the keys at fault are dropped. Two things are said of an
attempt that fails:

* the next one would recover the same snapshot (`recovered_withoutKeys`), since no slot could read
  the keys that were dropped;
* it spends some of what the fields have left to lose (`spare_withoutKeys`): a key other than the
  name, or the name that cannot be read. There is never more of it than there are fields.
-/

namespace RepoSurvey.Snapshot

/-- What fields are recovered as when each slot is read by itself. -/
def recovered (fs : Fields) : Snapshot := Slot.bests fs slots { name := unnamed }

/-! ## The slots of a snapshot -/

theorem separate_slots : Slot.Separate slots := by
  simp [Slot.Separate, slots, Slot.required, Slot.optional, Label.Spells, Label.plain]

theorem slot_of_name {s : Slot Snapshot} (hs : s ∈ slots) (h : s.label.Spells "name") :
    s = .required (.plain "name") .text (·.name) fun v x => { x with name := v } :=
  separate_slots.eq_of_spells hs List.mem_cons_self h (.inl rfl)

theorem label_of_mandatory {s : Slot Snapshot} (hs : s ∈ slots) (h : s.mandatory = true) :
    s.label = .plain "name" := by
  simp only [slots, List.mem_cons, List.not_mem_nil, or_false] at hs
  rcases hs with rfl | rfl | rfl | rfl | rfl | rfl | rfl | rfl | rfl | rfl | rfl | rfl | rfl | rfl |
    rfl | rfl
  · rfl
  all_goals cases h

/-! ## The name -/

theorem last?_withName (fs : Fields) (key : String) :
    (withName fs).last? key =
      (fs.last? key).or (if key = "name" then some (.text unnamed) else none) := by
  rw [withName, Fields.has_eq_isSome]
  cases h : fs.last? "name" with
  | some v =>
    by_cases hk : key = "name"
    · simp [hk, h]
    · simp [hk]
  | none =>
    simp only [Option.isSome_none, Bool.false_eq_true, if_false, Fields.last?_put_of_absent _ h]
    by_cases hk : key = "name"
    · simp [hk, h]
    · simp [hk]

theorem last?_withName_of_ne (fs : Fields) {key : String} (h : key ≠ "name") :
    (withName fs).last? key = fs.last? key := by
  simp [last?_withName, h]

theorem recovered_withName (fs : Fields) : recovered (withName fs) = recovered fs := by
  have hname : ∀ fs : Fields, recovered fs = Slot.bests fs slots.tail
      { name := (Codec.text.readField? fs (.plain "name")).getD unnamed } := fun fs => by
    rw [recovered, slots, Slot.bests, Slot.best_required fs rfl]
    rfl
  rw [hname, hname]
  have hread : (Codec.text.readField? (withName fs) (.plain "name")).getD unnamed =
      (Codec.text.readField? fs (.plain "name")).getD unnamed := by
    cases h : fs.last? "name" with
    | some v => simp [Codec.readField?, Label.plain, last?_withName, h]
    | none =>
      simp [Codec.readField?, Label.plain, last?_withName, h, Codec.text, Decoded.text]
  rw [hread]
  refine Slot.bests_congr (fun s hs => Slot.best_congr fun key hkey => ?_) _
  refine last?_withName_of_ne fs fun hname => ?_
  subst hname
  exact (List.pairwise_cons.mp separate_slots).1 s hs "name" (.inl rfl) hkey

theorem last?_withoutKeys (fs : Fields) (keys : List String) {key : String} (h : key ≠ "name") :
    (withoutKeys fs keys).last? key = if key ∈ keys then none else fs.last? key := by
  rw [withoutKeys, last?_withName_of_ne _ h, Fields.last?_filter fun k => !keys.contains k]
  by_cases hmem : key ∈ keys <;> simp [hmem]

theorem last?_withoutKeys_name (fs : Fields) {keys : List String} (h : "name" ∈ keys) :
    (withoutKeys fs keys).last? "name" = some (.text unnamed) := by
  rw [withoutKeys, last?_withName, Fields.last?_filter fun k => !keys.contains k, if_neg (by simpa)]
  rfl

/-! ## One attempt -/

theorem mem_keysOf {faults : List Fault} {key : String} :
    key ∈ keysOf faults ↔ ∃ f ∈ faults, f.path.head? = some (.key key) := by
  simp only [keysOf, List.mem_filterMap]
  refine exists_congr fun f => and_congr_right fun _ => ?_
  rw [keyOf]
  cases f.path with
  | nil => simp
  | cons s rest => cases s <;> simp

theorem read_failed {fs : Fields} {f : Fault} {more : List Fault}
    (h : codec.read (.object fs) = .failed f more) :
    (Slot.updates fs slots).faults = f :: more := by
  change (Slot.updates fs slots).map _ = _ at h
  cases hu : Slot.updates fs slots with
  | ok g => rw [hu] at h; cases h
  | failed f' more' => rw [hu] at h; cases h; rfl

theorem mem_keysOf_read {fs : Fields} {f : Fault} {more : List Fault}
    (h : codec.read (.object fs) = .failed f more) (key : String) :
    key ∈ keysOf (f :: more) ↔ ∃ s ∈ slots, s.faultKey? fs = some key := by
  rw [mem_keysOf, ← read_failed h, Slot.mem_faults_updates]

theorem recovered_of_read {fs : Fields} {s : Snapshot} (h : codec.read (.object fs) = .ok s) :
    recovered fs = s := by
  obtain ⟨g, hg, rfl⟩ := Decoded.map_eq_ok.mp h
  -- The name was read, so it does not matter which one there was before.
  obtain ⟨setName, rest, hname, hrest, rfl⟩ := Decoded.zipWith_eq_ok.mp hg
  rw [Slot.updates_eq_ok hrest]
  have hset : setName { name := "" } = setName { name := unnamed } := by
    rw [Slot.update] at hname
    split at hname
    · obtain ⟨t, _, rfl⟩ := Decoded.map_eq_ok.mp (Decoded.under_eq_ok.mp hname)
      rfl
    · cases hname
  show _ = Slot.bests fs _ (setName _)
  rw [hset, Slot.update_eq_ok hname]
  rfl

theorem recovered_withoutKeys {fs : Fields} {f : Fault} {more : List Fault}
    (h : codec.read (.object fs) = .failed f more) :
    recovered (withoutKeys fs (keysOf (f :: more))) = recovered fs := by
  rw [withoutKeys, recovered_withName]
  exact Slot.bests_congr
    (fun s hs => Slot.best_without_faults separate_slots (mem_keysOf_read h) hs) _

/-! ## What is left to lose -/

/-- Whether the name cannot be read. -/
def nameless (fs : Fields) : Bool :=
  ((fs.last? "name").bind fun v => (Codec.text.read v).toOption).isNone

/-- How many fields can still be dropped or replaced. -/
def spare (fs : Fields) : Nat :=
  (fs.filter fun f => f.1 != "name").length + if nameless fs then 1 else 0

theorem has_withName (fs : Fields) : (withName fs).has "name" = true := by
  rw [Fields.has_eq_isSome, last?_withName]
  cases fs.last? "name" <;> simp

theorem spare_le_length {fs : Fields} (h : fs.has "name" = true) : spare fs ≤ fs.length := by
  obtain ⟨v, hv⟩ := Fields.has_iff.mp h
  have hlt : (fs.filter fun f => f.1 != "name").length < fs.length :=
    List.length_filter_lt_length_iff_exists.mpr ⟨_, Fields.mem_of_last? hv, by simp⟩
  rw [spare]
  split <;> omega

theorem nonnames_withName (fs : Fields) :
    (withName fs).filter (fun f => f.1 != "name") = fs.filter fun f => f.1 != "name" := by
  rw [withName, Fields.has_eq_isSome]
  cases h : fs.last? "name" with
  | some v => simp
  | none =>
    rw [if_neg (by simp), Fields.put_of_absent _ (Fields.last?_eq_none_iff.mp h)]
    simp

section Failed

variable {fs : Fields} {f : Fault} {more : List Fault}

theorem exists_mem_keysOf (h : codec.read (.object fs) = .failed f more) :
    ∃ key, key ∈ keysOf (f :: more) := by
  have hf : f ∈ (Slot.updates fs slots).faults := read_failed h ▸ List.mem_cons_self
  rw [Slot.faults_updates, List.mem_flatMap] at hf
  obtain ⟨s, _, hf⟩ := hf
  obtain ⟨key, hkey⟩ := Slot.head_faults_update hf
  exact ⟨key, mem_keysOf.mpr ⟨f, List.mem_cons_self, hkey⟩⟩

theorem has_of_mem_keysOf (hname : fs.has "name" = true)
    (h : codec.read (.object fs) = .failed f more) {key : String}
    (hkey : key ∈ keysOf (f :: more)) : fs.has key = true := by
  obtain ⟨s, hs, hfault⟩ := (mem_keysOf_read h key).mp hkey
  rcases (Slot.faultKey?_eq_some hfault).2.2 with hhas | ⟨hmandatory, rfl, hmissing⟩
  · exact hhas
  · rw [label_of_mandatory hs hmandatory] at hmissing ⊢
    exact absurd (hmissing.symm.trans hname) (by simp)

theorem nameless_of_mem (h : codec.read (.object fs) = .failed f more)
    (hname : "name" ∈ keysOf (f :: more)) : nameless fs = true := by
  obtain ⟨s, hs, hfault⟩ := (mem_keysOf_read h "name").mp hname
  obtain ⟨hspells, hread, _⟩ := Slot.faultKey?_eq_some hfault
  obtain rfl := slot_of_name hs hspells
  rw [Slot.readAt_required, Option.map_eq_none_iff] at hread
  rw [nameless, hread]
  rfl

theorem nameless_withoutKeys {keys : List String} (hname : fs.has "name" = true)
    (h : nameless (withoutKeys fs keys) = true) : nameless fs = true ∧ "name" ∉ keys := by
  have hlast := Fields.last?_filter (fun k => !keys.contains k) fs "name"
  rw [nameless, withoutKeys, last?_withName, hlast] at h
  by_cases hmem : "name" ∈ keys
  · simp [hmem, Codec.text, Decoded.text] at h
  · obtain ⟨v, hv⟩ := Fields.has_iff.mp hname
    refine ⟨?_, hmem⟩
    simpa [nameless, hmem, hv] using h

theorem nonnames_withoutKeys (fs : Fields) (keys : List String) :
    (withoutKeys fs keys).filter (fun f => f.1 != "name") =
      (fs.filter fun f => f.1 != "name").filter fun f => !keys.contains f.1 := by
  rw [withoutKeys, nonnames_withName, List.filter_filter, List.filter_filter]
  simp only [Bool.and_comm]

theorem spare_withoutKeys (hname : fs.has "name" = true)
    (h : codec.read (.object fs) = .failed f more) :
    spare (withoutKeys fs (keysOf (f :: more))) < spare fs := by
  obtain ⟨key, hkey⟩ := exists_mem_keysOf h
  have hnext := @nameless_withoutKeys fs (keysOf (f :: more)) hname
  rw [spare, spare, nonnames_withoutKeys]
  by_cases hk : key = "name"
  · -- No field is gained, and the name can be read from now on.
    subst hk
    have hle := List.length_filter_le (fun g : String × Value =>
      !(keysOf (f :: more)).contains g.1) (fs.filter fun f => f.1 != "name")
    rw [if_neg fun hless => (hnext hless).2 hkey, if_pos (nameless_of_mem h hkey)]
    omega
  · -- A field is lost, and the name is no worse than before.
    obtain ⟨v, hv⟩ := Fields.has_iff.mp (has_of_mem_keysOf hname h hkey)
    have hmem : (key, v) ∈ fs.filter fun f => f.1 != "name" :=
      List.mem_filter.mpr ⟨Fields.mem_of_last? hv, by simpa using hk⟩
    have hlt : ((fs.filter fun f => f.1 != "name").filter fun g =>
        !(keysOf (f :: more)).contains g.1).length < (fs.filter fun f => f.1 != "name").length :=
      List.length_filter_lt_length_iff_exists.mpr ⟨_, hmem, by simpa using hkey⟩
    by_cases hless : nameless (withoutKeys fs (keysOf (f :: more))) = true
    · rw [if_pos hless, if_pos (hnext hless).1]
      omega
    · rw [if_neg hless]
      omega

end Failed

/-! ## All attempts -/

theorem attempt_eq_some {n : Nat} {fs : Fields} {s : Snapshot} (h : attempt n fs = some s) :
    s = recovered fs := by
  induction n generalizing fs with
  | zero => cases h
  | succ n ih =>
    rw [attempt] at h
    split at h
    · next hread =>
      cases h
      exact (recovered_of_read hread).symm
    · next hread => rw [ih h, recovered_withoutKeys hread]

theorem attempt_of_spare_lt {n : Nat} {fs : Fields} (hname : fs.has "name" = true)
    (h : spare fs < n) : attempt n fs = some (recovered fs) := by
  suffices hsome : (attempt n fs).isSome by
    obtain ⟨s, hs⟩ := Option.isSome_iff_exists.mp hsome
    rw [hs, attempt_eq_some hs]
  induction n generalizing fs with
  | zero => omega
  | succ n ih =>
    rw [attempt]
    cases hread : codec.read (.object fs) with
    | ok s => rfl
    | failed f more =>
      have hspent := spare_withoutKeys hname hread
      exact ih (has_withName _) (by omega)

theorem attempt_cleaned (fs : Fields) :
    attempt ((cleaned fs).length + 1) (cleaned fs) = some (recovered (cleaned fs)) :=
  attempt_of_spare_lt (has_withName _) (Nat.lt_succ_of_le (spare_le_length (has_withName _)))

/-! ## The run of attempts -/

theorem last?_withReadableLists (fs : Fields) (key : String) :
    (withReadableLists fs).last? key = (fs.last? key).map ((listReaders.lookup key).getD id) := by
  have hlists : withReadableLists fs =
      fs.map fun f => (f.1, (listReaders.lookup f.1).getD id f.2) := by
    refine List.map_congr_left fun f _ => ?_
    cases listReaders.lookup f.1 <;> rfl
  rw [hlists, Fields.last?_map fun key v => (listReaders.lookup key).getD id v]

/-- After `n` failed attempts to recover `fs`, the next one is to read `gs`. -/
inductive Attempted (fs : Fields) : Nat → Fields → Prop
  | first : Attempted fs 0 (cleaned fs)
  | again {n : Nat} {gs : Fields} {f : Fault} {more : List Fault} :
    Attempted fs n gs → codec.read (.object gs) = .failed f more →
    Attempted fs (n + 1) (withoutKeys gs (keysOf (f :: more)))

namespace Attempted

variable {fs gs : Fields} {n : Nat}

theorem has_name (h : Attempted fs n gs) : gs.has "name" = true := by
  cases h <;> exact has_withName _

theorem spare_le (h : Attempted fs n gs) : n + spare gs ≤ (cleaned fs).length := by
  induction h with
  | first =>
    rw [Nat.zero_add]
    exact spare_le_length (has_withName _)
  | again h hread ih =>
    have := spare_withoutKeys h.has_name hread
    omega

theorem has_original (h : Attempted fs n gs) {key : String} (hname : key ≠ "name")
    (hkey : gs.has key = true) : fs.has key = true := by
  induction h with
  | first =>
    rw [Fields.has_eq_isSome, cleaned, last?_withName_of_ne _ hname, last?_withReadableLists,
      Option.isSome_map, Fields.drop, Fields.last?_filter (· != "validation")] at hkey
    rw [Fields.has_eq_isSome]
    split at hkey
    · exact hkey
    · cases hkey
  | again h hread ih =>
    apply ih
    rw [Fields.has_eq_isSome, last?_withoutKeys _ _ hname] at hkey
    rw [Fields.has_eq_isSome]
    split at hkey
    · cases hkey
    · exact hkey

/-- A failed attempt costs one of the original keys other than the name, or else the name that could
not be read is replaced. -/
theorem loses (h : Attempted fs n gs) {f : Fault} {more : List Fault}
    (hread : codec.read (.object gs) = .failed f more) :
    (∃ key ∈ keysOf (f :: more), key ≠ "name" ∧ fs.has key = true ∧ gs.has key = true ∧
      (withoutKeys gs (keysOf (f :: more))).has key = false) ∨
    (nameless gs = true ∧
      (withoutKeys gs (keysOf (f :: more))).last? "name" = some (.text unnamed)) := by
  obtain ⟨key, hkey⟩ := exists_mem_keysOf hread
  by_cases hname : key = "name"
  · subst hname
    exact .inr ⟨nameless_of_mem hread hkey, last?_withoutKeys_name _ hkey⟩
  · have hhas := has_of_mem_keysOf h.has_name hread hkey
    refine .inl ⟨key, hkey, hname, h.has_original hname hhas, hhas, ?_⟩
    rw [Fields.has_eq_isSome, last?_withoutKeys _ _ hname, if_pos hkey]
    rfl

/-- Before the attempts are used up one of them succeeds. -/
theorem exists_read (h : Attempted fs n gs) :
    ∃ m last, m ≤ (cleaned fs).length ∧ Attempted fs m last ∧
      codec.read (.object last) = .ok (recovered gs) := by
  induction hk : spare gs using Nat.strongRecOn generalizing n gs with
  | _ k ih =>
    have hle := h.spare_le
    cases hread : codec.read (.object gs) with
    | ok s =>
      rw [← recovered_of_read hread] at hread
      exact ⟨n, gs, by omega, h, hread⟩
    | failed f more =>
      have hlt := spare_withoutKeys h.has_name hread
      obtain ⟨m, last, hm, hrun, hlast⟩ := ih _ (hk ▸ hlt) (h.again hread) rfl
      exact ⟨m, last, hm, hrun, by rw [hlast, recovered_withoutKeys hread]⟩

end Attempted

end RepoSurvey.Snapshot
