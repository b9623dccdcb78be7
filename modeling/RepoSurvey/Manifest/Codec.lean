import RepoSurvey.Codec

/-!
# RepoSurvey.Manifest.Codec

How the records of a manifest are read and written. Only the path can be at fault: a size that is
unusable counts as zero, a type other than a directory is a file, and a content that is neither
text nor bytes is none. An integer size beyond the range of double-precision numbers is the one
value that makes reading impossible altogether.
-/

namespace RepoSurvey.SourceFile

/-- The size that a value stands for; none if it is an integer beyond the range of numbers. -/
def sizeOf? : Value → Option Int
  | .int n | .long n => (Binary64.ofInt? n).map fun _ => n
  | .real x => some (x.truncate.toOption.getD 0)
  | .text s => some (((Decimal.real s).bind fun x => x.truncate.toOption).getD 0)
  | _ => some 0

/-- The type that a value stands for. -/
def typeOf : Value → EntryType
  | .text "directory" => .directory
  | _ => .file

/-- The content that a value stands for; bytes are decoded leniently. -/
def contentOf : Value → Option String
  | .text s => some s
  | .bytes bs => some (Text.Utf8.decode bs)
  | _ => none

def pathLabel : Label := ⟨"name", "path"⟩

def typeLabel : Label := ⟨"type", "entry_type"⟩

def pathOf (fs : Fields) : Decoded String :=
  match fs.field? pathLabel with
  | some (key, v) => (Decoded.text v).under (.key key)
  | none => .failed ⟨[.key pathLabel.camel], .missing⟩ []

/-- Reads the fields of a record; none if its size is beyond the range of numbers. -/
def ofFields? (fs : Fields) : Option (Decoded SourceFile) :=
  (sizeOf? ((fs.last? "size").getD .null)).map fun size =>
    (pathOf fs).map fun path => {
      path
      size
      entryType := typeOf (((fs.field? typeLabel).map (·.2)).getD .null)
      content := contentOf ((fs.last? "content").getD .null) }

/-- Reads a record; none if its size is beyond the range of numbers. -/
def read? : Value → Option (Decoded SourceFile)
  | .object fs => ofFields? fs
  | .record (.sourceFile f) => some (.ok f)
  | _ => some (Decoded.fault .noRecord)

def write (sp : Spelling) (f : SourceFile) : Value := .object [
  ("name", .text f.path),
  ("size", .int f.size),
  (typeLabel.spelled sp, .text (Named.name f.entryType)),
  ("content", (f.content.map Value.text).getD .null)]

end RepoSurvey.SourceFile
