import RepoSurvey.Json.Parser
import RepoSurvey.Proofs.Except
import RepoSurvey.Proofs.Keyed

/-!
# RepoSurvey.Proofs.Json.Keys

The keys of data. However often the text of an object repeats a key, the object that is read holds
it once, and so do the objects inside it (`unrepeated_of_parseData`).
-/

namespace RepoSurvey.Json

namespace Data

/-- Whether data hold other data. -/
def isNested : Data → Bool
  | .list _ | .object _ => true
  | _ => false

/-- Whether no object within the data repeats a key. -/
inductive Unrepeated : Data → Prop
  | plain {d : Data} (h : d.isNested = false) : Unrepeated d
  | list {ds : List Data} (elements : ∀ d ∈ ds, Unrepeated d) : Unrepeated (.list ds)
  | object {ms : Members} (keys : Keyed.Distinct ms) (values : ∀ m ∈ ms, Unrepeated m.2) :
      Unrepeated (.object ms)

theorem unrepeated_object_iff {ms : Members} :
    (Data.object ms).Unrepeated ↔ Keyed.Distinct ms ∧ ∀ m ∈ ms, m.2.Unrepeated := by
  constructor
  · rintro (h | h | ⟨hkeys, hvalues⟩)
    · cases h
    · exact ⟨hkeys, hvalues⟩
  · rintro ⟨hkeys, hvalues⟩
    exact .object hkeys hvalues

end Data

variable {cs rest : List Char} {d : Data}

theorem isNested_of_words : ∀ w ∈ words, w.2.isNested = false := by
  decide

theorem isNested_integerOf (purpose : Purpose) (negative : Bool) (digits : List Nat) :
    (integerOf purpose negative digits).isNested = false := by
  simp only [integerOf]
  split
  · rfl
  · rfl

theorem isNested_of_unsignedNumber {purpose : Purpose} {negative : Bool}
    (h : unsignedNumber purpose negative cs = .ok (d, rest)) : d.isNested = false := by
  unfold unsignedNumber at h
  dsimp only at h
  split_ifs at h
  · cases h
    rfl
  · cases h
    exact isNested_integerOf purpose negative _

theorem isNested_of_atom {purpose : Purpose} (h : atom purpose cs = .ok (d, rest)) :
    d.isNested = false := by
  unfold atom at h
  split at h
  · next w u hw =>
    cases h
    exact isNested_of_words _ (List.mem_of_find?_eq_some hw)
  · split at h
    · exact isNested_of_unsignedNumber (Except.mapError_eq_ok_iff.mp h)
    · exact isNested_of_unsignedNumber h

theorem unrepeated_objectOf {ms : Members} (h : ∀ m ∈ ms, m.2.Unrepeated) :
    (objectOf .data ms).Unrepeated :=
  .object (Keyed.distinct_merged ms) fun m hm => h m (Keyed.mem_of_mem_merged hm)

/-- Whether what is read with some fuel repeats no key, if what was read before does not. -/
structure ReadsUnrepeated (fuel : Nat) : Prop where
  value : ∀ {room cs d rest}, value .data fuel room cs = .ok (d, rest) → d.Unrepeated
  elements : ∀ {room acc cs d rest}, (∀ e ∈ acc, Data.Unrepeated e) →
    elements .data fuel room acc cs = .ok (d, rest) → d.Unrepeated
  members : ∀ {room acc cs d rest}, (∀ m ∈ acc, Data.Unrepeated m.2) →
    members .data fuel room acc cs = .ok (d, rest) → d.Unrepeated

namespace ReadsUnrepeated

variable {fuel room : Nat}

theorem value_succ (reads : ReadsUnrepeated fuel)
    (h : Json.value .data (fuel + 1) room cs = .ok (d, rest)) : d.Unrepeated := by
  rw [Json.value] at h
  split at h
  · obtain ⟨r, _, hr⟩ := Except.map_eq_ok_iff.mp h
    cases hr
    exact .plain rfl
  · split at h
    · cases h
      exact .list nofun
    · cases h
    · exact reads.elements (List.forall_mem_nil _) h
  · split at h
    · cases h
      exact .object Keyed.distinct_nil nofun
    · cases h
    · exact reads.members (List.forall_mem_nil _) h
  · exact .plain (isNested_of_atom h)

theorem elements_succ (reads : ReadsUnrepeated fuel) {acc : List Data}
    (hacc : ∀ e ∈ acc, e.Unrepeated)
    (h : Json.elements .data (fuel + 1) room acc cs = .ok (d, rest)) : d.Unrepeated := by
  rw [Json.elements] at h
  split at h
  · cases h
  · next e more he =>
    have hread : ∀ w ∈ e :: acc, w.Unrepeated := List.forall_mem_cons.mpr ⟨reads.value he, hacc⟩
    split at h
    · exact reads.elements hread h
    · cases h
      exact .list fun w hw => hread w (List.mem_reverse.mp hw)
    · cases h

theorem members_succ (reads : ReadsUnrepeated fuel) {acc : Members}
    (hacc : ∀ m ∈ acc, m.2.Unrepeated)
    (h : Json.members .data (fuel + 1) room acc cs = .ok (d, rest)) : d.Unrepeated := by
  rw [Json.members] at h
  split at h
  · split at h
    · cases h
    · next key more _ =>
      split at h
      · split at h
        · cases h
        · next e more he =>
          have hread : ∀ m ∈ (key, e) :: acc, m.2.Unrepeated :=
            List.forall_mem_cons.mpr ⟨reads.value he, hacc⟩
          split at h
          · exact reads.members hread h
          · cases h
            exact unrepeated_objectOf fun m hm => hread m (List.mem_reverse.mp hm)
          · cases h
      · cases h
  · cases h

end ReadsUnrepeated

theorem readsUnrepeated (fuel : Nat) : ReadsUnrepeated fuel := by
  induction fuel with
  | zero => exact ⟨nofun, nofun, nofun⟩
  | succ fuel ih => exact ⟨ih.value_succ, ih.elements_succ, ih.members_succ⟩

theorem unrepeated_of_parseData {s : String} (h : parseData s = .ok d) : d.Unrepeated := by
  rw [parseData, parseFor] at h
  split at h
  · cases h
  · split at h
    · cases h
    · next e rest he =>
      split at h
      · cases h
        exact (readsUnrepeated _).value he
      · cases h

end RepoSurvey.Json
