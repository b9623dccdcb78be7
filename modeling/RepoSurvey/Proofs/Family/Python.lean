import RepoSurvey.Family
import RepoSurvey.Proofs.Scan

/-!
# RepoSurvey.Proofs.Family.Python

Import statements of modules, one on each line, and what is read back from them. A statement is read
from the front of its line to its end, so the next one is found at the front of its own line. This
holds for all words, also for those that are keywords of the statement themselves.
-/

namespace RepoSurvey.Family.Python

open Text

/-! ## Statements -/

/-- The characters of the name of a module. -/
def isModule (c : Char) : Bool := isWord c || c = '.'

/-- The characters of an indentation. -/
def isIndent (c : Char) : Bool := c = ' ' ∨ c = '\t'

/-- A statement on a line of its own: the import of a module, or of a name from a module. -/
structure Statement where
  indent : List Char
  indent_blank : ∀ c ∈ indent, isIndent c = true
  module : Run isModule
  name : Option (Run isWord)

namespace Statement

def text (s : Statement) : String :=
  String.ofList s.indent ++ match s.name with
    | .none => "import " ++ s.module.text
    | some name => "from " ++ s.module.text ++ " import " ++ name.text

def imported (s : Statement) : Import := ⟨s.module.text, s.name.map (·.text)⟩

end Statement

def content (statements : List Statement) : String := "\n".intercalate (statements.map (·.text))

/-! ## What is read -/

variable {cs rest : List Char} {i : Import}

theorem isBlank_eq_false_of_isModule {c : Char} (h : isModule c = true) : isBlank c = false := by
  simp only [isModule, Bool.or_eq_true, decide_eq_true_eq] at h
  rcases h with hword | rfl
  · exact isBlank_eq_false_of_isWord hword
  · decide

theorem moduleName_run (word : Run isModule) (rest : List Char) (hrest : EndsRun isModule rest) :
    moduleName (word.chars ++ rest) = some (word.text, rest) := by
  have hword := Scan.many1_eq_some_iff.mpr ⟨word.ne_nil, rfl, word.all, hrest⟩
  exact Scan.bind_of_eq_some hword

theorem blanks1_moduleName (word : Run isModule) (rest : List Char) :
    Scan.blanks1 (' ' :: (word.chars ++ rest)) = some ((), word.chars ++ rest) :=
  Scan.blanks1_space (word.endsRun_append (fun _ => isBlank_eq_false_of_isModule) rest)

theorem plainImport_statement (word : Run isModule) (hrest : EndsLine rest) :
    plainImport ("import".toList ++ ' ' :: (word.chars ++ rest)) =
      some (⟨word.text, .none⟩, rest) := by
  have hmodule := moduleName_run word rest (hrest.endsRun (by decide +kernel))
  rw [plainImport, Scan.bind_of_eq_some (Scan.exactly_append _ _),
    Scan.bind_of_eq_some (blanks1_moduleName word rest), Scan.bind_of_eq_some hmodule]
  rfl

theorem fromImport_statement (word : Run isModule) (name : Run isWord) (hrest : EndsLine rest) :
    fromImport ("from".toList ++ ' ' :: (word.chars ++ ' ' :: ("import".toList ++
      ' ' :: (name.chars ++ rest)))) = some (⟨word.text, some name.text⟩, rest) := by
  let nameOn := name.chars ++ rest
  have hblank : EndsRun isBlank nameOn :=
    name.endsRun_append (fun _ => isBlank_eq_false_of_isWord) rest
  have hmodule := moduleName_run word (' ' :: ("import".toList ++ ' ' :: nameOn))
    (endsRun_cons.mpr (by decide))
  have hgap : Scan.blanks1 (' ' :: ("import".toList ++ ' ' :: nameOn)) =
      some ((), "import".toList ++ ' ' :: nameOn) :=
    Scan.blanks1_space (endsRun_cons.mpr (by decide))
  have hkeyword : Scan.wordEnd (' ' :: nameOn) = some ((), ' ' :: nameOn) :=
    Scan.wordEnd_eq_some_iff.mpr ⟨rfl, endsRun_cons.mpr (by decide)⟩
  have hblanks : Scan.blanks (' ' :: nameOn) = some ((), nameOn) :=
    Scan.blanks_eq_some_iff.mpr ⟨[' '], rfl, List.forall_mem_singleton.mpr (by decide), hblank⟩
  have hparen : Scan.optional (Scan.char '(') nameOn = some ((), nameOn) := by
    refine Scan.optional_char_of_endsRun (name.endsRun_append (fun c hc => ?_) rest)
    rw [beq_eq_false_iff_ne]
    rintro rfl
    exact absurd hc (by decide)
  have hnoBlanks : Scan.blanks nameOn = some ((), nameOn) :=
    Scan.blanks_eq_some_iff.mpr ⟨[], rfl, nofun, hblank⟩
  have hname : Scan.many isWord nameOn = some (name.chars, rest) :=
    Scan.many_eq_some_iff.mpr ⟨rfl, name.all, hrest.endsRun (by decide +kernel)⟩
  rw [fromImport, Scan.bind_of_eq_some (Scan.exactly_append _ _),
    Scan.bind_of_eq_some (blanks1_moduleName word _), Scan.bind_of_eq_some hmodule,
    Scan.bind_of_eq_some hgap, Scan.bind_of_eq_some (Scan.exactly_append _ _),
    Scan.bind_of_eq_some hkeyword, Scan.bind_of_eq_some hblanks, Scan.bind_of_eq_some hparen,
    Scan.bind_of_eq_some hnoBlanks, Scan.bind_of_eq_some hname, if_neg name.ne_nil]
  rfl

/-! ## What a module depends on -/

namespace Statement

def words (s : Statement) : List Char :=
  match s.name with
  | .none => "import".toList ++ ' ' :: s.module.chars
  | some name => "from".toList ++ ' ' :: (s.module.chars ++ ' ' :: ("import".toList ++
      ' ' :: name.chars))

theorem toList_text (s : Statement) : s.text.toList = s.indent ++ s.words := by
  obtain ⟨indent, hindent, module, name⟩ := s
  cases name with
  | none => simp [text, words]
  | some name => simp [text, words]

theorem not_mem_words (s : Statement) : '\n' ∉ s.words := by
  have hmodule := s.module.not_mem (c := '\n') (by decide +kernel)
  rw [words]
  split
  · simp [hmodule]
  · next name _ =>
    have hname := name.not_mem (c := '\n') (by decide +kernel)
    simp [hmodule, hname]

theorem words_ne_nil (s : Statement) : s.words ≠ [] := by
  rw [words]
  split
  · exact List.append_ne_nil_of_right_ne_nil _ (List.cons_ne_nil _ _)
  · exact List.append_ne_nil_of_right_ne_nil _ (List.cons_ne_nil _ _)

theorem endsRun_words (s : Statement) (rest : List Char) : EndsRun isIndent (s.words ++ rest) := by
  rw [words]
  split
  · exact endsRun_cons.mpr (by decide)
  · exact endsRun_cons.mpr (by decide)

theorem scan_words (s : Statement) {rest : List Char} (hrest : EndsLine rest) :
    (fromImport <|> plainImport) (s.words ++ rest) = some (s.imported, rest) := by
  obtain ⟨indent, hindent, module, name⟩ := s
  cases name with
  | none =>
    have hother : fromImport ("import".toList ++ ' ' :: (module.chars ++ rest)) = Option.none := by
      refine Option.eq_none_iff_forall_ne_some.mpr fun r hr => ?_
      obtain ⟨_, tail, hfrom, _⟩ := Scan.bind_eq_some_iff.mp hr
      simp [Scan.exactly_eq_some_iff] at hfrom
    simp only [words, List.append_assoc, List.cons_append]
    rw [Scan.orElse_of_eq_none hother]
    exact plainImport_statement module hrest
  | some name =>
    simp only [words, List.append_assoc, List.cons_append]
    exact Scan.orElse_of_eq_some (fromImport_statement module name hrest)

end Statement

/-- A statement is read to the end of its line. -/
theorem imports_findsInLine (s : Statement) :
    Pattern.FindsInLine imports s.text.toList [s.imported] := by
  rw [s.toList_text]
  refine Pattern.findsInLine_atLine ?_ ?_ fun rest hrest => ?_
  · exact List.append_ne_nil_of_right_ne_nil _ s.words_ne_nil
  · refine fun hlast => absurd (List.mem_of_getLast? hlast) ?_
    rw [List.mem_append, not_or]
    exact ⟨fun h => absurd (s.indent_blank _ h) (by decide), s.not_mem_words⟩
  · have hindent : Scan.indent (s.indent ++ (s.words ++ rest)) = some ((), s.words ++ rest) :=
      Scan.indent_eq_some_iff.mpr ⟨s.indent, rfl,
        fun c hc => of_decide_eq_true (s.indent_blank c hc), s.endsRun_words rest⟩
    rw [List.append_assoc, Scan.bind_of_eq_some hindent]
    exact s.scan_words hrest

/-- A module of import statements depends on what they import, in their order. What is not found is
dropped, and there is nothing else. -/
theorem edges_of_imports (statements : List Statement) (path : String) (ix : PathIndex) :
    Family.python.edges path (content statements) ix = statements.filterMap fun s =>
      (Resolution.module path s.module.text (s.name.map (·.text)) ix).map fun target =>
        { source := path, target, kind := .imported } := by
  have himports := Pattern.find_lines statements fun s _ => imports_findsInLine s
  rw [← List.map_eq_flatMap] at himports
  simp only [Family.edges, edges, content, himports, List.filterMap_map, Function.comp_def,
    Statement.imported]

example : Family.python.edges "pkg/a.py" "import from\n\tfrom .import import import\nimport .b"
    (.ofList ["pkg/from.py", "pkg/import/__init__.py", "pkg/b.py"]) =
      [{ source := "pkg/a.py", target := "pkg/from.py" },
        { source := "pkg/a.py", target := "pkg/import/__init__.py" },
        { source := "pkg/a.py", target := "pkg/b.py" }] := by
  decide +kernel

end RepoSurvey.Family.Python
