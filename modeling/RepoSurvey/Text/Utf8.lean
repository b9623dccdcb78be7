/-!
# RepoSurvey.Text.Utf8

Decoding bytes as UTF-8. Strict decoding refuses what is not well formed; lenient decoding
writes one replacement character for every maximal part of an ill-formed sequence, that is, for
the longest start of it that some well-formed sequence begins with.
-/

namespace RepoSurvey.Text.Utf8

/-- What stands at the front of some bytes: a character and its size, or a broken part. -/
inductive Front where
  | char (c : Char) (size : Nat)
  | broken (size : Nat)

/-- The bytes that may follow a leading byte: how many, and the range of the first of them. -/
def following (b : Nat) : Option (Nat × Nat × Nat) :=
  if 0xC2 ≤ b ∧ b ≤ 0xDF then some (1, 0x80, 0xBF)
  else if b = 0xE0 then some (2, 0xA0, 0xBF)
  else if b = 0xED then some (2, 0x80, 0x9F)
  else if 0xE1 ≤ b ∧ b ≤ 0xEF then some (2, 0x80, 0xBF)
  else if b = 0xF0 then some (3, 0x90, 0xBF)
  else if b = 0xF4 then some (3, 0x80, 0x8F)
  else if 0xF1 ≤ b ∧ b ≤ 0xF3 then some (3, 0x80, 0xBF)
  else none

/-- Reads `n` more bytes into `acc`; the first of them lies between `lo` and `hi`. -/
def rest : (n lo hi acc size : Nat) → List UInt8 → Front
  | 0, _, _, acc, size, _ => .char (Char.ofNat acc) size
  | _ + 1, _, _, _, size, [] => .broken size
  | n + 1, lo, hi, acc, size, b :: bs =>
    if lo ≤ b.toNat ∧ b.toNat ≤ hi then
      rest n 0x80 0xBF (acc * 64 + (b.toNat - 0x80)) (size + 1) bs
    else .broken size

/-- The front of a byte string that starts with `b`. -/
def front (b : UInt8) (bs : List UInt8) : Front :=
  if b.toNat < 0x80 then .char (Char.ofNat b.toNat) 1
  else match following b.toNat with
    | none => .broken 1
    | some (n, lo, hi) => rest n lo hi (b.toNat % (1 <<< (6 - n))) 1 bs

/-- Decodes bytes after skipping `skip` of them; a broken part becomes `broken`. -/
def decodeFrom (broken : Option Char) : (skip : Nat) → List UInt8 → Option (List Char)
  | _, [] => some []
  | skip + 1, _ :: bs => decodeFrom broken skip bs
  | 0, b :: bs =>
    match front b bs with
    | .char c size => (decodeFrom broken (size - 1) bs).map (c :: ·)
    | .broken size =>
      match broken with
      | none => none
      | some c => (decodeFrom broken (size - 1) bs).map (c :: ·)

def decode? (bs : List UInt8) : Option String :=
  (decodeFrom none 0 bs).map String.ofList

/-- The text of any bytes, with U+FFFD for every ill-formed part. -/
def decode (bs : List UInt8) : String :=
  ((decodeFrom (some (Char.ofNat 0xFFFD)) 0 bs).map String.ofList).getD ""

end RepoSurvey.Text.Utf8
