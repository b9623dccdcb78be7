import RepoSurvey.Decoded.Scalar
import RepoSurvey.Proofs.Slot

/-!
# RepoSurvey.Proofs.Value.Size

How large a value is, and that nothing larger than a value is read from it.
-/

namespace RepoSurvey

/-- The number of some entries and of the characters of their paths. -/
def Entry.sizeAll : List Entry → Nat
  | [] => 0
  | e :: es => e.path.length + 1 + sizeAll es

theorem Entry.le_sizeAll (es : List Entry) :
    es.length ≤ sizeAll es ∧ ∀ e ∈ es, e.path.length < sizeAll es := by
  induction es with
  | nil => exact ⟨Nat.le_refl 0, fun e he => by cases he⟩
  | cons d es ih =>
    simp only [sizeAll, List.length_cons]
    refine ⟨by omega, fun e he => ?_⟩
    rcases List.mem_cons.mp he with rfl | he
    · omega
    · have := ih.2 e he
      omega

/-- The entries, the characters of their paths and the dependencies that a record holds. -/
def Record.size : Record → Nat
  | .entry e => e.path.length
  | .snapshot s => Entry.sizeAll s.entries + s.dependencies.length
  | _ => 0

namespace Value

mutual

/-- The parts of a value and the characters and bytes in them. -/
def size : Value → Nat
  | .text s => s.length + 1
  | .bytes bs => bs.length + 1
  | .list vs => sizeItems vs + 1
  | .object fs => sizeFields fs + 1
  | .record r => r.size + 1
  | _ => 1

def sizeItems : List Value → Nat
  | [] => 0
  | v :: vs => size v + sizeItems vs

def sizeFields : List (String × Value) → Nat
  | [] => 0
  | (_, v) :: fs => size v + sizeFields fs

end

theorem size_pos (v : Value) : 0 < v.size := by
  cases v <;> simp [size]

theorem size_le_of_mem {v : Value} {vs : List Value} (h : v ∈ vs) : v.size ≤ sizeItems vs := by
  induction vs with
  | nil => cases h
  | cons w vs ih =>
    rw [sizeItems]
    rcases List.mem_cons.mp h with rfl | h
    · omega
    · have := ih h
      omega

theorem length_le_sizeItems (vs : List Value) : vs.length ≤ sizeItems vs := by
  induction vs with
  | nil => exact Nat.le_refl 0
  | cons v vs ih =>
    have := size_pos v
    rw [sizeItems, List.length_cons]
    omega

theorem size_le_of_last? {fs : Fields} {key : String} {v : Value} (h : fs.last? key = some v) :
    v.size ≤ sizeFields fs := by
  have hmem := Fields.mem_of_last? h
  clear h
  induction fs with
  | nil => cases hmem
  | cons f fs ih =>
    rw [sizeFields]
    rcases List.mem_cons.mp hmem with rfl | hmem
    · exact Nat.le_add_right _ _
    · have := ih hmem
      omega

end Value

/-! ## Texts -/

theorem Text.Utf8.length_decodeFrom {broken : Option Char} {skip : Nat} {bs : List UInt8}
    {cs : List Char} (h : decodeFrom broken skip bs = some cs) : cs.length ≤ bs.length := by
  induction bs generalizing skip cs with
  | nil =>
    rw [decodeFrom] at h
    cases h
    exact Nat.le_refl 0
  | cons b bs ih =>
    -- A byte is skipped, or at most one character comes of it.
    have hone : ∀ {c : Char} {n : Nat},
        (decodeFrom broken n bs).map (c :: ·) = some cs → cs.length ≤ (b :: bs).length := by
      intro c n hmap
      obtain ⟨ds, hds, rfl⟩ := Option.map_eq_some_iff.mp hmap
      exact Nat.succ_le_succ (ih hds)
    cases skip with
    | succ skip => exact Nat.le_succ_of_le (ih h)
    | zero =>
      rw [decodeFrom] at h
      split at h
      · exact hone h
      · split at h
        · cases h
        · exact hone h

theorem Decoded.length_lt_of_text {v : Value} {s : String} (h : Decoded.text v = .ok s) :
    s.length < v.size := by
  cases v with
  | text t =>
    cases h
    exact Nat.lt_succ_self _
  | bytes bs =>
    rw [Decoded.text] at h
    split at h
    · next t ht =>
      cases h
      obtain ⟨cs, hcs, rfl⟩ := Option.map_eq_some_iff.mp ht
      rw [String.length_ofList, Value.size]
      exact Nat.lt_succ_of_le (Text.Utf8.length_decodeFrom hcs)
    · cases h
  | _ => cases h

theorem Codec.length_lt_of_readField? {fs : Fields} {l : Label} {s : String}
    (h : Codec.text.readField? fs l = some s) : s.length < Value.sizeFields fs := by
  have hkey : ∀ key, ((fs.last? key).bind fun v => (Codec.text.read v).toOption) = some s →
      s.length < Value.sizeFields fs := by
    intro key hread
    obtain ⟨v, hv, hs⟩ := Option.bind_eq_some_iff.mp hread
    exact Nat.lt_of_lt_of_le (Decoded.length_lt_of_text (Decoded.toOption_eq_some.mp hs))
      (Value.size_le_of_last? hv)
  rcases Option.or_eq_some_iff.mp h with h | ⟨_, h⟩
  · exact hkey _ h
  · exact hkey _ h

end RepoSurvey
