import RepoSurvey.Decoded.Scalar

/-!
# RepoSurvey.Codec

A codec reads a thing from a value and writes it as one. Fields have two spellings, of which a
written value uses one throughout; reading accepts both, and the camel-case one wins.
-/

namespace RepoSurvey

/-- The two ways to spell the names of fields. -/
inductive Spelling where
  | camel | snake
deriving DecidableEq, Repr

/-- The name of a field in both spellings. -/
structure Label where
  camel : String
  snake : String
deriving DecidableEq, Repr

def Label.spelled (l : Label) : Spelling → String
  | .camel => l.camel
  | .snake => l.snake

/-- A name with one spelling. -/
def Label.plain (s : String) : Label := ⟨s, s⟩

/-- The value of a field and the spelling under which it was found; of a repeated key the last
value counts. -/
def Fields.field? (fs : Fields) (l : Label) : Option (String × Value) :=
  match fs.last? l.camel with
  | some v => some (l.camel, v)
  | none => (fs.last? l.snake).map fun v => (l.snake, v)

/-- Reading and writing of one type. -/
structure Codec (α : Type) where
  read : Value → Decoded α
  write : Spelling → α → Value

namespace Codec

variable {α σ : Type}

def text : Codec String where
  read := Decoded.text
  write _ := .text

def integer : Codec Int where
  read := Decoded.integer
  write _ := .int

def integerFrom (least : Int) : Codec Int where
  read := Decoded.integerFrom least
  write _ := .int

def number : Codec Binary64 where
  read := Decoded.number
  write _ := .real

def flag : Codec Bool where
  read := Decoded.flag
  write _ := .bool

/-- The members of a finite type, by name. -/
def named [Named α] : Codec α where
  read v :=
    match (Decoded.textOf? v).bind Named.find? with
    | some a => .ok a
    | none => Decoded.fault .noMember
  write _ a := .text (Named.name a)

/-- The members of a finite type, by the very text of their name. -/
def literal [Named α] : Codec α where
  read
    | .text s =>
      match Named.find? s with
      | some a => .ok a
      | none => Decoded.fault .noLiteral
    | _ => Decoded.fault .noLiteral
  write _ a := .text (Named.name a)

/-- A thing that may be null. -/
def optional (c : Codec α) : Codec (Option α) where
  read
    | .null => .ok none
    | v => (c.read v).map some
  write sp
    | none => .null
    | some a => c.write sp a

def list (c : Codec α) : Codec (List α) where
  read v :=
    match v.elements? with
    | some vs => Decoded.list c.read 0 vs
    | none => Decoded.fault .noList
  write sp as := .list (as.map (c.write sp))

/-- Mappings from texts, in order. Of a repeated key every value is read and the last is kept. -/
def mapping (c : Codec α) : Codec (List (String × α)) where
  read
    | .object fs => (Decoded.mapping c.read fs).map Keyed.merged
    | _ => Decoded.fault .noMapping
  write sp as := .object (as.map fun a => (a.1, c.write sp a.2))

/-- A codec that changes what it is about to read. -/
def after (c : Codec α) (change : Value → Value) : Codec α where
  read v := c.read (change v)
  write := c.write

end Codec

/-! ## Records

A record type is described by its slots. Each slot knows the name of its field, how the value of
the field changes the record, and how the record writes it.
-/

/-- One field of a record type. -/
structure Slot (σ : Type) where
  label : Label
  mandatory : Bool
  read : Value → Decoded (σ → σ)
  write : Spelling → σ → Value

namespace Slot

variable {α σ : Type}

/-- A field that may be left out. -/
def optional (label : Label) (c : Codec α) (get : σ → α) (set : α → σ → σ) : Slot σ where
  label := label
  mandatory := false
  read v := (c.read v).map set
  write sp s := c.write sp (get s)

/-- A field that must be there. -/
def required (label : Label) (c : Codec α) (get : σ → α) (set : α → σ → σ) : Slot σ :=
  { optional label c get set with mandatory := true }

/-- What the fields of an object change through one slot. -/
def update (s : Slot σ) (fs : Fields) : Decoded (σ → σ) :=
  match fs.field? s.label with
  | some (key, v) => (s.read v).under (.key key)
  | none => if s.mandatory then .failed ⟨[.key s.label.camel], .missing⟩ [] else .ok id

/-- What the fields of an object change through all slots. Keys that belong to no slot do not
matter. -/
def updates (fs : Fields) : List (Slot σ) → Decoded (σ → σ)
  | [] => .ok id
  | s :: ss => Decoded.zipWith (fun f g => g ∘ f) (s.update fs) (updates fs ss)

/-- The fields of a record. -/
def fields (ss : List (Slot σ)) (sp : Spelling) (x : σ) : Fields :=
  ss.map fun s => (s.label.spelled sp, s.write sp x)

end Slot

/-- Records, given their slots and the record that an empty object leaves unchanged. A record that
was read before is taken as it is. -/
def Codec.record {σ : Type} (known : Record → Option σ) (blank : σ) (slots : List (Slot σ)) :
    Codec σ where
  read
    | .object fs => (Slot.updates fs slots).map fun f => f blank
    | .record r =>
      match known r with
      | some x => .ok x
      | none => Decoded.fault .noRecord
    | _ => Decoded.fault .noRecord
  write sp x := .object (Slot.fields slots sp x)

end RepoSurvey
