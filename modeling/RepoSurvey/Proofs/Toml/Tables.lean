import RepoSurvey.Proofs.Except
import RepoSurvey.Proofs.Keyed
import RepoSurvey.Toml.Parser

/-!
# RepoSurvey.Proofs.Toml.Tables

The tables of a document never repeat a key. Every operation that changes them keeps that
(`Entries.Sound`), and so does every line of the document; inline tables are built by the same
operations.
-/

namespace RepoSurvey.Toml

/-! ## Sound entries -/

/-- Whether a value is no table that repeats a key. -/
def KeysDistinct (v : Value) : Prop := ∀ fs, v = .object fs → Keyed.Distinct fs

/-- Whether no table in a node repeats a key. -/
inductive Node.Sound : Node → Prop where
  | value {v : Value} (h : KeysDistinct v) : Sound (.value v)
  | table {mark : Mark} {es : List (String × Node)} (hkeys : Keyed.Distinct es)
      (hnodes : ∀ e ∈ es, Sound e.2) : Sound (.table mark es)
  | tables {earlier : List Value} {last : List (String × Node)} (hkeys : Keyed.Distinct last)
      (hnodes : ∀ e ∈ last, Sound e.2) : Sound (.tables earlier last)

namespace Entries

/-- Whether no table among some entries repeats a key, and the entries do not either. -/
structure Sound (es : Entries) : Prop where
  keys : Keyed.Distinct es
  nodes : ∀ e ∈ es, e.2.Sound

theorem sound_nil : Sound [] := ⟨Keyed.distinct_nil, fun e he => by cases he⟩

variable {es es' : Entries} {key : String} {n : Node}

theorem Sound.append (h : Sound es) (habsent : es.lookup key = none) (hn : n.Sound) :
    Sound (es ++ [(key, n)]) := by
  have hkey : ∀ e ∈ es, e.1 ≠ key := fun e he hkey => by
    simpa [hkey] using List.lookup_eq_none_iff.mp habsent e he
  refine ⟨?_, fun e he => ?_⟩
  · rw [← Keyed.put_of_absent n hkey]
    exact h.keys.put key n
  · rcases List.mem_append.mp he with he | he
    · exact h.nodes e he
    · rw [List.mem_singleton.mp he]
      exact hn

theorem keys_replace (es : Entries) (key : String) (n : Node) :
    (replace es key n).map (·.1) = es.map (·.1) := by
  rw [replace, List.map_map]
  refine List.map_congr_left fun e _ => ?_
  by_cases h : e.1 = key <;> simp [h]

theorem Sound.replace (h : Sound es) (hn : n.Sound) : Sound (replace es key n) := by
  refine ⟨?_, fun e he => ?_⟩
  · rw [Keyed.Distinct, keys_replace]
    exact h.keys
  · obtain ⟨d, hd, rfl⟩ := List.mem_map.mp he
    split
    · exact hn
    · exact h.nodes d hd

theorem Sound.of_lookup (h : Sound es) (hn : es.lookup key = some n) : n.Sound :=
  h.nodes (key, n) (Keyed.mem_of_lookup hn)

theorem Sound.toTable {mark : Mark} (h : Sound es) : (Node.table mark es).Sound :=
  .table h.keys h.nodes

theorem Sound.toTables {earlier : List Value} (h : Sound es) : (Node.tables earlier es).Sound :=
  .tables h.keys h.nodes

theorem sound_of_table {mark : Mark} (h : (Node.table mark es).Sound) : Sound es := by
  cases h with
  | table hkeys hnodes => exact ⟨hkeys, hnodes⟩

theorem sound_of_tables {earlier : List Value} (h : (Node.tables earlier es).Sound) : Sound es := by
  cases h with
  | tables hkeys hnodes => exact ⟨hkeys, hnodes⟩

/-! ## Changes -/

theorem sound_modify {change : Entries → Option Entries}
    (hchange : ∀ {es es'}, Sound es → change es = some es' → Sound es') {path : List String}
    (h : Sound es) (hmodify : modify change path es = some es') : Sound es' := by
  -- On every step of the path the table below is sound by induction and put in the old place.
  induction path generalizing es es' with
  | nil => exact hchange h hmodify
  | cons k ks ih =>
    rw [modify] at hmodify
    split at hmodify
    · next habsent =>
      obtain ⟨t, ht, rfl⟩ := Option.map_eq_some_iff.mp hmodify
      exact h.append habsent (ih sound_nil ht).toTable
    · next hfound =>
      obtain ⟨t, ht, rfl⟩ := Option.map_eq_some_iff.mp hmodify
      exact h.replace (ih (sound_of_table (h.of_lookup hfound)) ht).toTable
    · next hfound =>
      obtain ⟨t, ht, rfl⟩ := Option.map_eq_some_iff.mp hmodify
      exact h.replace (ih (sound_of_tables (h.of_lookup hfound)) ht).toTables
    · cases hmodify

theorem sound_declare (h : Sound es) (hdeclare : declare key es = some es') : Sound es' := by
  rw [declare] at hdeclare
  split at hdeclare
  · next habsent =>
    cases hdeclare
    exact h.append habsent sound_nil.toTable
  · next hfound =>
    cases hdeclare
    exact h.replace (sound_of_table (h.of_lookup hfound)).toTable
  · cases hdeclare

theorem sound_extend (h : Sound es) (hextend : extend key es = some es') : Sound es' := by
  rw [extend] at hextend
  split at hextend
  · next habsent =>
    cases hextend
    exact h.append habsent sound_nil.toTables
  · cases hextend
    exact h.replace sound_nil.toTables
  · cases hextend

theorem sound_assign {part : Nat} {v : Value} (hv : KeysDistinct v) {path : List String}
    (h : Sound es) (hassign : assign part v path es = some es') : Sound es' := by
  induction path generalizing es es' with
  | nil => cases hassign
  | cons k ks ih =>
    cases ks with
    | nil =>
      obtain ⟨habsent, hassign⟩ := Option.ite_none_left_eq_some.mp hassign
      cases hassign
      exact h.append (Option.not_isSome_iff_eq_none.mp habsent) (.value hv)
    | cons k' ks =>
      simp only [assign] at hassign
      split at hassign
      · next habsent =>
        obtain ⟨t, ht, rfl⟩ := Option.map_eq_some_iff.mp hassign
        exact h.append habsent (ih sound_nil ht).toTable
      · next hfound =>
        obtain ⟨_, hassign⟩ := Option.ite_none_right_eq_some.mp hassign
        obtain ⟨t, ht, rfl⟩ := Option.map_eq_some_iff.mp hassign
        exact h.replace (ih (sound_of_table (h.of_lookup hfound)) ht).toTable
      · cases hassign

/-! ## Values -/

theorem keys_entryValues (es : Entries) : (entryValues es).map (·.1) = es.map (·.1) := by
  induction es with
  | nil => rfl
  | cons e es ih =>
    obtain ⟨k, n⟩ := e
    rw [entryValues, List.map_cons, List.map_cons, ih]

theorem Sound.entryValues (h : Sound es) : Keyed.Distinct (entryValues es) := by
  rw [Keyed.Distinct, keys_entryValues]
  exact h.keys

theorem mem_entryValues {f : String × Value} (h : f ∈ Toml.entryValues es) :
    ∃ e ∈ es, e.2.toValue = f.2 := by
  induction es with
  | nil => cases h
  | cons e es ih =>
    obtain ⟨k, n⟩ := e
    rw [Toml.entryValues] at h
    rcases List.mem_cons.mp h with rfl | h
    · exact ⟨(k, n), List.mem_cons_self, rfl⟩
    · obtain ⟨e, he, hvalue⟩ := ih h
      exact ⟨e, List.mem_cons_of_mem _ he, hvalue⟩

theorem keysDistinct_toValue (h : n.Sound) : KeysDistinct n.toValue := by
  intro fs hfs
  cases h with
  | value hv => exact hv fs hfs
  | table hkeys hnodes =>
    cases hfs
    exact Sound.entryValues ⟨hkeys, hnodes⟩
  | tables _ _ => cases hfs

end Entries

/-! ## Readers -/

theorem Reader.bind_eq_ok_iff {α β : Type} {x : Reader α} {f : α → Reader β} {cs : List Char}
    {r : β × List Char} :
    (x >>= f) cs = .ok r ↔ ∃ a rest, x cs = .ok (a, rest) ∧ f a rest = .ok r := by
  show (x cs >>= fun p => f p.1 p.2) = .ok r ↔ _
  rw [Except.bind_eq_ok_iff, Prod.exists]

theorem Reader.rest_bind {α : Type} (f : List Char → Reader α) (cs : List Char) :
    (Reader.rest >>= f) cs = f cs cs := rfl

theorem Reader.goTo_bind {α : Type} (f : Unit → Reader α) (target cs : List Char) :
    (Reader.goTo target >>= f) cs = f () target := rfl

/-! ## Values of a document -/

theorem ne_object_of_moment {cs rest : List Char} {v : Value}
    (h : moment cs = some (.ok (v, rest))) (fs : Fields) : v ≠ .object fs := by
  rw [moment] at h
  split at h
  · simp only [Option.some.injEq] at h
    split at h
    · cases h
      exact nofun
    · cases h
  · obtain ⟨r, _, h⟩ := Option.map_eq_some_iff.mp h
    cases h
    exact nofun

theorem ne_object_of_decimal {cs rest : List Char} {v : Value}
    (h : decimal cs = some (.ok (v, rest))) (fs : Fields) : v ≠ .object fs := by
  obtain ⟨_, h⟩ := Option.ite_none_left_eq_some.mp h
  have hread := Option.some.inj h
  split_ifs at hread
  · cases hread
    exact nofun
  · cases hread
    exact nofun

theorem ne_object_of_number {cs rest : List Char} {v : Value}
    (h : number cs = some (.ok (v, rest))) (fs : Fields) : v ≠ .object fs := by
  unfold number at h
  split at h
  · split at h
    · next hr =>
      cases h
      obtain ⟨base, _, hbased⟩ := Option.bind_eq_some_iff.mp hr
      rw [basedInteger] at hbased
      split at hbased
      · cases hbased
      · cases hbased
        exact nofun
    · exact ne_object_of_decimal h fs
  · exact ne_object_of_decimal h fs

theorem ne_object_of_words {w : List Char × Value} (h : w ∈ words) (fs : Fields) :
    w.2 ≠ .object fs := by
  simp only [words, List.mem_cons, List.not_mem_nil, or_false] at h
  rcases h with rfl | rfl | rfl | rfl | rfl | rfl | rfl | rfl <;> exact nofun

theorem ne_object_of_scalar {cs rest : List Char} {v : Value} (h : scalar cs = .ok (v, rest))
    (fs : Fields) : v ≠ .object fs := by
  rw [scalar] at h
  split at h
  · cases h
    exact nofun
  · cases h
  · split at h
    · next w hw =>
      cases h
      exact ne_object_of_words (List.mem_of_find?_eq_some hw) fs
    · split at h
      · next hmoment =>
        subst h
        exact ne_object_of_moment hmoment fs
      · cases hnumber : number cs with
        | none =>
          rw [hnumber] at h
          cases h
        | some r =>
          rw [hnumber] at h
          obtain rfl : r = .ok (v, rest) := h
          exact ne_object_of_number hnumber fs

theorem elements_eq_ok {fuel room : Nat} {acc : List Value} {cs rest : List Char} {v : Value}
    (h : elements fuel room acc cs = .ok (v, rest)) : ∃ vs, v = .list vs := by
  induction fuel generalizing acc cs with
  | zero => cases h
  | succ fuel ih =>
    rw [elements, Reader.rest_bind] at h
    split at h
    · cases h
      exact ⟨_, rfl⟩
    · obtain ⟨w, cs₁, _, h⟩ := Reader.bind_eq_ok_iff.mp h
      obtain ⟨_, cs₂, _, h⟩ := Reader.bind_eq_ok_iff.mp h
      rw [Reader.rest_bind] at h
      split at h
      · cases h
        exact ⟨_, rfl⟩
      · rw [Reader.goTo_bind] at h
        obtain ⟨_, cs₃, _, h⟩ := Reader.bind_eq_ok_iff.mp h
        exact ih h
      · cases h

/-- Whether no table that is read with some fuel repeats a key, if what was read of it before does
not. Values and the members of inline tables are read by turns, so the induction on the fuel is for
both. -/
structure ReadsDistinct (fuel : Nat) : Prop where
  value : ∀ {room cs v rest}, value fuel room cs = .ok (v, rest) → KeysDistinct v
  members : ∀ {room es cs v rest}, Entries.Sound es →
    members fuel room es cs = .ok (v, rest) → KeysDistinct v

namespace ReadsDistinct

variable {fuel room : Nat} {cs rest : List Char} {v : Value}

theorem value_succ (reads : ReadsDistinct fuel)
    (h : Toml.value (fuel + 1) room cs = .ok (v, rest)) : KeysDistinct v := by
  rw [Toml.value, Reader.rest_bind] at h
  split at h
  · rw [Reader.goTo_bind] at h
    obtain ⟨_, _, _, h⟩ := Reader.bind_eq_ok_iff.mp h
    obtain ⟨vs, rfl⟩ := elements_eq_ok h
    exact nofun
  · cases h
  · rw [Reader.goTo_bind] at h
    obtain ⟨_, _, _, h⟩ := Reader.bind_eq_ok_iff.mp h
    rw [Reader.rest_bind] at h
    split at h
    · cases h
      rintro fs hfs
      cases hfs
      exact Keyed.distinct_nil
    · exact reads.members Entries.sound_nil h
  · cases h
  · exact fun fs hfs => absurd hfs (ne_object_of_scalar h fs)

theorem members_succ (reads : ReadsDistinct fuel) {es : Entries} (hes : es.Sound)
    (h : Toml.members (fuel + 1) room es cs = .ok (v, rest)) : KeysDistinct v := by
  rw [Toml.members, Reader.rest_bind] at h
  obtain ⟨path, _, _, h⟩ := Reader.bind_eq_ok_iff.mp h
  obtain ⟨_, _, _, h⟩ := Reader.bind_eq_ok_iff.mp h
  obtain ⟨_, _, _, h⟩ := Reader.bind_eq_ok_iff.mp h
  obtain ⟨w, _, hw, h⟩ := Reader.bind_eq_ok_iff.mp h
  cases hassign : Entries.assign 0 w path es with
  | none =>
    rw [hassign] at h
    cases h
  | some es' =>
    rw [hassign] at h
    have hes' := Entries.sound_assign (reads.value hw) hes hassign
    obtain ⟨_, _, _, h⟩ := Reader.bind_eq_ok_iff.mp h
    rw [Reader.rest_bind] at h
    split at h
    · cases h
      rintro fs hfs
      cases hfs
      exact hes'.entryValues
    · rw [Reader.goTo_bind] at h
      obtain ⟨_, _, _, h⟩ := Reader.bind_eq_ok_iff.mp h
      exact reads.members hes' h
    · cases h

end ReadsDistinct

theorem readsDistinct (fuel : Nat) : ReadsDistinct fuel := by
  induction fuel with
  | zero => exact ⟨nofun, fun _ => nofun⟩
  | succ fuel ih => exact ⟨ih.value_succ, ih.members_succ⟩

/-! ## Lines of a document -/

theorem withRoot_eq_ok {s s' : State} {root : Option Entries} {cs rest : List Char}
    (h : s.withRoot root cs = .ok (s', rest)) : ∃ es, root = some es ∧ s'.root = es := by
  cases root with
  | none => cases h
  | some es =>
    cases h
    exact ⟨es, rfl, rfl⟩

theorem sound_headerLine {change : String → Entries → Option Entries} {close : String}
    (hchange : ∀ {key es es'}, Entries.Sound es → change key es = some es' → Entries.Sound es')
    {s s' : State} {cs rest : List Char} (hs : s.root.Sound)
    (h : headerLine change close s cs = .ok (s', rest)) : s'.root.Sound := by
  rw [headerLine] at h
  obtain ⟨_, _, _, h⟩ := Reader.bind_eq_ok_iff.mp h
  rw [Reader.rest_bind] at h
  obtain ⟨path, _, _, h⟩ := Reader.bind_eq_ok_iff.mp h
  obtain ⟨t, _, ht, h⟩ := Reader.bind_eq_ok_iff.mp h
  obtain ⟨_, _, _, h⟩ := Reader.bind_eq_ok_iff.mp h
  cases h
  obtain ⟨es, hes, hroot⟩ := withRoot_eq_ok ht
  split at hes
  · show t.root.Sound
    rw [hroot]
    exact Entries.sound_modify hchange hs hes
  · cases hes

theorem sound_pairLine {s s' : State} {cs rest : List Char} (hs : s.root.Sound)
    (h : pairLine s cs = .ok (s', rest)) : s'.root.Sound := by
  rw [pairLine, Reader.rest_bind] at h
  obtain ⟨path, _, _, h⟩ := Reader.bind_eq_ok_iff.mp h
  obtain ⟨_, _, _, h⟩ := Reader.bind_eq_ok_iff.mp h
  obtain ⟨_, _, _, h⟩ := Reader.bind_eq_ok_iff.mp h
  obtain ⟨v, _, hv, h⟩ := Reader.bind_eq_ok_iff.mp h
  obtain ⟨es, hes, hroot⟩ := withRoot_eq_ok h
  rw [hroot]
  have hdistinct := (readsDistinct _).value hv
  exact Entries.sound_modify (Entries.sound_assign hdistinct) hs hes

theorem sound_statement {s s' : State} {cs rest : List Char} (hs : s.root.Sound)
    (h : statement s cs = .ok (s', rest)) : s'.root.Sound := by
  rw [statement, Reader.rest_bind] at h
  split at h
  · exact sound_headerLine Entries.sound_extend hs h
  · exact sound_headerLine Entries.sound_declare hs h
  · cases h
    exact hs
  · cases h
    exact hs
  · cases h
    exact hs
  · exact sound_pairLine hs h

theorem sound_document {fuel : Nat} {s s' : State} {cs rest : List Char} (hs : s.root.Sound)
    (h : document fuel s cs = .ok (s', rest)) : s'.root.Sound := by
  induction fuel generalizing s cs with
  | zero =>
    cases h
    exact hs
  | succ fuel ih =>
    rw [document] at h
    obtain ⟨_, _, _, h⟩ := Reader.bind_eq_ok_iff.mp h
    obtain ⟨t, _, ht, h⟩ := Reader.bind_eq_ok_iff.mp h
    obtain ⟨_, _, _, h⟩ := Reader.bind_eq_ok_iff.mp h
    obtain ⟨_, _, _, h⟩ := Reader.bind_eq_ok_iff.mp h
    rw [Reader.rest_bind] at h
    split at h
    · cases h
      exact sound_statement hs ht
    · rw [Reader.goTo_bind] at h
      exact ih (sound_statement hs ht) h
    · cases h

/-- No table at the top of a document repeats a key, and neither does the document. -/
theorem distinct_of_parse {text : String} {fs : Fields} (h : parse text = .ok fs) :
    Keyed.Distinct fs ∧ ∀ f ∈ fs, KeysDistinct f.2 := by
  rw [parse] at h
  cases hdocument : document ((plainBreaks text.toList).length + 1) {} (plainBreaks text.toList) with
  | error e =>
    rw [hdocument] at h
    cases h
  | ok r =>
    obtain ⟨s, rest⟩ := r
    have hs := sound_document Entries.sound_nil hdocument
    rw [hdocument] at h
    cases h
    refine ⟨hs.entryValues, fun f hf => ?_⟩
    obtain ⟨e, he, hvalue⟩ := Entries.mem_entryValues hf
    rw [← hvalue]
    exact Entries.keysDistinct_toValue (hs.nodes e he)

end RepoSurvey.Toml
