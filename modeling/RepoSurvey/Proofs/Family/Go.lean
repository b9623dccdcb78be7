import RepoSurvey.Family
import RepoSurvey.Proofs.Reference.Index
import RepoSurvey.Proofs.Scan

/-!
# RepoSurvey.Proofs.Family.Go

Import declarations of a package, one after the other, and what is read back from them. A
declaration is one match, however many lines it takes: a block runs to the first parenthesis that
closes, and neither a name nor a path holds one. The lines of a block are cut at every line
boundary, of which a path holds none either, so each of them gives its own path and the others give
nothing.
-/

namespace RepoSurvey

namespace Text

/-! ## Lines and parts of a text -/

theorem isBlank_of_isLineBoundary {c : Char} (h : isLineBoundary c = true) : isBlank c = true := by
  simp only [isLineBoundary, isBlank, isSpace, Bool.or_eq_true, Bool.and_eq_true, decide_eq_true_eq,
    beq_iff_eq] at h ⊢
  omega

theorem linesFrom_append {s : List Char} (h : ∀ c ∈ s, isLineBoundary c = false)
    (line rest : List Char) :
    linesFrom line (s ++ '\n' :: rest) = (line.reverse ++ s) :: linesFrom [] rest := by
  induction s generalizing line with
  | nil => simp [linesFrom, isLineBoundary]
  | cons c s ih =>
    obtain ⟨hc, hs⟩ := List.forall_mem_cons.mp h
    have hreturn : c ≠ '\r' := by
      rintro rfl
      exact absurd hc (by decide)
    rw [List.cons_append, linesFrom, hc, if_neg Bool.false_ne_true, ih hs]
    · rw [List.reverse_cons, List.append_assoc, List.singleton_append]
    · exact fun _ hc' => absurd hc' hreturn

/-- Lines that are each ended by a line feed are the lines of the text. -/
theorem lines_flatMap {ls : List (List Char)} (h : ∀ l ∈ ls, ∀ c ∈ l, isLineBoundary c = false) :
    lines (ls.flatMap (· ++ ['\n'])) = ls := by
  induction ls with
  | nil => rfl
  | cons l ls ih =>
    obtain ⟨hl, hls⟩ := List.forall_mem_cons.mp h
    rw [List.flatMap_cons, List.append_assoc, lines, List.singleton_append, linesFrom_append hl]
    exact congrArg (l :: ·) (ih hls)

end Text

namespace Family.Go

open Text

/-! ## Declarations -/

/-- The characters of the name that a package goes by in the file. -/
def isAlias (c : Char) : Bool := isWord c || c = '.'

/-- The characters of the path of a package. -/
def isPath (c : Char) : Bool := c ≠ '"' && c ≠ ')' && !isLineBoundary c

/-- What one line imports: a package, by its own name or by another one. -/
structure Spec where
  indent : List Char
  indent_blank : ∀ c ∈ indent, c = ' ' ∨ c = '\t'
  name : Option (Run isAlias)
  path : Run isPath

/-- A declaration: a single import, or a block of any number of lines. -/
inductive Declaration where
  | single (spec : Spec)
  | block (specs : List Spec)

namespace Spec

/-- The import as it is written, without its indentation. -/
def words (s : Spec) : String :=
  match s.name with
  | .none => "\"" ++ s.path.text ++ "\""
  | some name => name.text ++ " \"" ++ s.path.text ++ "\""

def line (s : Spec) : String := String.ofList s.indent ++ s.words

end Spec

namespace Declaration

def text : Declaration → String
  | single spec => String.ofList spec.indent ++ "import " ++ spec.words
  | block specs => "import (\n" ++ String.join (specs.map (·.line ++ "\n")) ++ ")"

def paths : Declaration → List String
  | single spec => [spec.path.text]
  | block specs => specs.map (·.path.text)

end Declaration

def content (declarations : List Declaration) : String :=
  "\n".intercalate (declarations.map (·.text))

/-! ## What is read -/

variable {cs rest : List Char} {s : String}

theorem isBlank_eq_false_of_isAlias {c : Char} (h : isAlias c = true) : isBlank c = false := by
  simp only [isAlias, Bool.or_eq_true, decide_eq_true_eq] at h
  rcases h with hword | rfl
  · exact isBlank_eq_false_of_isWord hword
  · decide

theorem quoted_eq_some_iff :
    quoted cs = some (s, rest) ↔ ∃ w, cs = '"' :: (w ++ '"' :: rest) ∧ w ≠ [] ∧
      (∀ c ∈ w, c ≠ '"' ∧ c ≠ '\n') ∧ s = String.ofList w := by
  simp only [quoted, Scan.bind_eq_some_iff, Scan.char_eq_some_iff, Scan.many1_eq_some_iff,
    Scan.pure_eq_some_iff, decide_eq_true_eq]
  constructor
  · rintro ⟨_, _, rfl, w, _, ⟨hne, rfl, hw, _⟩, _, _, rfl, rfl, rfl⟩
    exact ⟨w, rfl, hne, hw, rfl⟩
  · rintro ⟨w, rfl, hne, hw, rfl⟩
    exact ⟨(), _, rfl, w, _, ⟨hne, rfl, hw, endsRun_cons.mpr (by decide)⟩, (), _, rfl, rfl, rfl⟩

theorem parenthesised_eq_some_iff {block : List Char} :
    parenthesised cs = some (block, rest) ↔
      cs = '(' :: (block ++ ')' :: rest) ∧ ∀ c ∈ block, c ≠ ')' := by
  simp only [parenthesised, Scan.bind_eq_some_iff, Scan.char_eq_some_iff, Scan.many_eq_some_iff,
    Scan.pure_eq_some_iff, decide_eq_true_eq]
  constructor
  · rintro ⟨_, _, rfl, w, _, ⟨rfl, hw, _⟩, _, _, rfl, rfl, rfl⟩
    exact ⟨rfl, hw⟩
  · rintro ⟨rfl, hw⟩
    exact ⟨(), _, rfl, block, _, ⟨rfl, hw, endsRun_cons.mpr (by decide)⟩, (), _, rfl, rfl, rfl⟩

theorem quoted_path (path : Run isPath) (rest : List Char) :
    quoted ('"' :: (path.chars ++ '"' :: rest)) = some (path.text, rest) := by
  refine quoted_eq_some_iff.mpr ⟨path.chars, rfl, path.ne_nil, fun c hc => ?_, rfl⟩
  have hpath : ∀ d, isPath d = false → c ≠ d := fun d hd heq => path.not_mem hd (heq ▸ hc)
  exact ⟨hpath '"' (by decide), hpath '\n' (by decide)⟩

theorem quoted_cons_of_ne {c : Char} (hc : c ≠ '"') : quoted (c :: rest) = Option.none := by
  refine Option.eq_none_iff_forall_ne_some.mpr fun r hr => ?_
  obtain ⟨w, heq, _⟩ := quoted_eq_some_iff.mp hr
  exact hc (List.cons.inj heq).1

/-! ## Lines of a block -/

namespace Spec

def front (s : Spec) : List Char :=
  match s.name with
  | .none => []
  | some name => name.chars ++ [' ']

theorem toList_words (s : Spec) :
    s.words.toList = s.front ++ '"' :: (s.path.chars ++ ['"']) := by
  rw [words, front]
  split <;> simp

/-- What stands in front of the path, with the indentation. -/
def lead (s : Spec) : List Char := s.indent ++ s.front

theorem toList_line (s : Spec) : s.line.toList = s.lead ++ '"' :: (s.path.chars ++ ['"']) := by
  rw [line, String.toList_append, String.toList_ofList, toList_words, lead, List.append_assoc]

theorem mem_lead {s : Spec} {c : Char} (h : c ∈ s.lead) :
    (c = ' ' ∨ c = '\t') ∨ isAlias c = true := by
  rcases List.mem_append.mp h with hindent | hfront
  · exact .inl (s.indent_blank c hindent)
  · rw [front] at hfront
    split at hfront
    · cases hfront
    · next name _ =>
      rcases List.mem_append.mp hfront with hname | hspace
      · exact .inr (name.all c hname)
      · exact .inl (.inl (List.mem_singleton.mp hspace))

theorem mem_line {s : Spec} {c : Char} (h : c ∈ s.line.toList) :
    c = ' ' ∨ c = '\t' ∨ c = '"' ∨ isAlias c = true ∨ isPath c = true := by
  rw [toList_line] at h
  simp only [List.mem_append, List.mem_cons, List.not_mem_nil, or_false] at h
  rcases h with hlead | hquote | hpath | hquote
  · rcases mem_lead hlead with (hspace | htab) | halias
    · exact .inl hspace
    · exact .inr (.inl htab)
    · exact .inr (.inr (.inr (.inl halias)))
  · exact .inr (.inr (.inl hquote))
  · exact .inr (.inr (.inr (.inr (s.path.all c hpath))))
  · exact .inr (.inr (.inl hquote))

theorem isLineBoundary_of_mem_line {s : Spec} {c : Char} (h : c ∈ s.line.toList) :
    isLineBoundary c = false := by
  rcases mem_line h with rfl | rfl | rfl | halias | hpath
  · decide
  · decide
  · decide
  · by_contra hboundary
    rw [Bool.not_eq_false] at hboundary
    exact Bool.false_ne_true ((isBlank_eq_false_of_isAlias halias).symm.trans
      (isBlank_of_isLineBoundary hboundary))
  · simp only [isPath, Bool.and_eq_true, Bool.not_eq_true'] at hpath
    exact hpath.2

theorem ne_paren_of_mem_line {s : Spec} {c : Char} (h : c ∈ s.line.toList) : c ≠ ')' := by
  rintro rfl
  rcases mem_line h with h | h | h | h | h
  · exact absurd h (by decide)
  · exact absurd h (by decide)
  · exact absurd h (by decide)
  · exact absurd h (by decide +kernel)
  · exact absurd h (by decide)

theorem find_line (s : Spec) : (Pattern.anywhere quoted).find s.line.toList = [s.path.text] := by
  have hlead : ∀ tail, tail <:+ s.lead → tail ≠ [] →
      quoted (tail ++ '"' :: (s.path.chars ++ ['"'])) = Option.none := by
    intro tail htail hne
    obtain ⟨c, tail, rfl⟩ := List.exists_cons_of_ne_nil hne
    refine quoted_cons_of_ne ?_
    rintro rfl
    rcases mem_lead (htail.subset List.mem_cons_self) with h | h
    · exact absurd h (by decide)
    · exact absurd h (by decide +kernel)
  have hpath : quoted ('"' :: (s.path.chars ++ ['"']) ++ []) = some (s.path.text, []) := by
    rw [List.append_nil]
    exact quoted_path s.path []
  have hfound : (Pattern.anywhere quoted).findFrom 0 (Pattern.after .none s.lead)
      ('"' :: (s.path.chars ++ ['"']) ++ []) = s.path.text :: [] :=
    Pattern.findFrom_of_scan rfl (List.cons_ne_nil _ _) hpath
  rw [List.append_nil] at hfound
  rw [toList_line, Pattern.find, Pattern.findFrom_of_not_match hlead, hfound]

end Spec

/-- A block gives the path of each line, in the order of the lines. -/
theorem blockPaths_specs (specs : List Spec) :
    blockPaths ('\n' :: specs.flatMap (·.line.toList ++ ['\n'])) = specs.map (·.path.text) := by
  have hlines : lines (([] :: specs.map (·.line.toList)).flatMap (· ++ ['\n'])) =
      [] :: specs.map (·.line.toList) := by
    refine lines_flatMap ?_
    rw [List.forall_mem_cons, List.forall_mem_map]
    exact ⟨nofun, fun s _ c => Spec.isLineBoundary_of_mem_line⟩
  rw [List.flatMap_cons, List.flatMap_map, List.nil_append, List.singleton_append] at hlines
  have hfound : ∀ s : Spec,
      ((Pattern.anywhere quoted).find s.line.toList).head? = some s.path.text :=
    fun s => by rw [s.find_line, List.head?_cons]
  rw [blockPaths, hlines, List.filterMap_cons_none rfl, List.filterMap_map]
  simp only [Function.comp_def, hfound, List.filterMap_eq_map']

/-! ## Declarations of a file -/

theorem Spec.endsRun_front (s : Spec) {p : Char → Bool} (hquote : p '"' = false)
    (halias : ∀ c, isAlias c = true → p c = false) (rest : List Char) :
    EndsRun p (s.front ++ '"' :: rest) := by
  rw [front]
  split
  · exact endsRun_cons.mpr hquote
  · next name _ =>
    rw [List.append_assoc]
    exact name.endsRun_append halias _

theorem optional_aliasName (s : Spec) (rest : List Char) :
    Scan.optional aliasName (s.front ++ '"' :: rest) = some ((), '"' :: rest) := by
  obtain ⟨_, _, name, path⟩ := s
  cases name with
  | none =>
    refine Scan.optional_of_eq_none (Option.eq_none_iff_forall_ne_some.mpr fun r hr => ?_)
    obtain ⟨w, tail, hname, _⟩ := Scan.bind_eq_some_iff.mp hr
    obtain ⟨hne, heq, hw, _⟩ := Scan.many1_eq_some_iff.mp hname
    obtain ⟨c, w, rfl⟩ := List.exists_cons_of_ne_nil hne
    obtain ⟨rfl, _⟩ := List.cons.inj heq
    exact absurd (hw '"' List.mem_cons_self) (by decide +kernel)
  | some name =>
    have hname : Scan.many1 isAlias (name.chars ++ ' ' :: '"' :: rest) =
        some (name.chars, ' ' :: '"' :: rest) :=
      Scan.many1_eq_some_iff.mpr
        ⟨name.ne_nil, rfl, name.all, endsRun_cons.mpr (by decide +kernel)⟩
    have hblank : Scan.blanks1 (' ' :: '"' :: rest) = some ((), '"' :: rest) :=
      Scan.blanks1_space (endsRun_cons.mpr (by decide))
    refine Scan.optional_of_eq_some ?_
    show aliasName ((name.chars ++ [' ']) ++ '"' :: rest) = _
    rw [List.append_assoc]
    exact (Scan.bind_of_eq_some hname).trans hblank

theorem keyword_blank (indent : List Char) (hindent : ∀ c ∈ indent, c = ' ' ∨ c = '\t')
    {more : List Char} (hmore : EndsRun isBlank more) {α : Type} (next : Scan α) :
    (do Scan.indent; Scan.exactly "import"; Scan.blanks; next)
      (indent ++ ("import".toList ++ ' ' :: more)) = next more := by
  have hkeyword : Scan.indent (indent ++ ("import".toList ++ ' ' :: more)) =
      some ((), "import".toList ++ ' ' :: more) :=
    Scan.indent_eq_some_iff.mpr ⟨indent, rfl, hindent, endsRun_cons.mpr (by decide)⟩
  have hblanks : Scan.blanks (' ' :: more) = some ((), more) :=
    Scan.blanks_eq_some_iff.mpr ⟨[' '], rfl, List.forall_mem_singleton.mpr (by decide), hmore⟩
  rw [Scan.bind_of_eq_some hkeyword, Scan.bind_of_eq_some (Scan.exactly_append _ _),
    Scan.bind_of_eq_some hblanks]

/-- A declaration is read as a whole, whatever follows. -/
theorem importPaths_declaration (d : Declaration) (rest : List Char) :
    importPaths (d.text.toList ++ rest) = some (d.paths, rest) := by
  cases d with
  | single spec =>
    have htext : (Declaration.single spec).text.toList ++ rest = spec.indent ++ ("import".toList ++
        ' ' :: (spec.front ++ '"' :: (spec.path.chars ++ '"' :: rest))) := by
      simp [Declaration.text, spec.toList_words]
    have hparen : EndsRun (· == '(') (spec.front ++ '"' :: (spec.path.chars ++ '"' :: rest)) := by
      refine spec.endsRun_front (by decide) (fun c hc => beq_false_of_ne ?_) _
      rintro rfl
      exact absurd hc (by decide +kernel)
    have hblock : parenthesised (spec.front ++ '"' :: (spec.path.chars ++ '"' :: rest)) =
        Option.none := by
      refine Option.eq_none_iff_forall_ne_some.mpr fun r hr => ?_
      rw [(parenthesised_eq_some_iff.mp hr).1, endsRun_cons] at hparen
      exact absurd hparen (by decide)
    have hblank := spec.endsRun_front (by decide) (fun _ => isBlank_eq_false_of_isAlias)
      (spec.path.chars ++ '"' :: rest)
    rw [htext, importPaths, keyword_blank _ spec.indent_blank hblank,
      Scan.orElse_of_eq_none (by rw [Scan.bind_apply, hblock, Option.bind_none]),
      Scan.bind_of_eq_some (optional_aliasName spec _), Scan.bind_of_eq_some (quoted_path _ _)]
    rfl
  | block specs =>
    have htext : (Declaration.block specs).text.toList ++ rest = [] ++ ("import".toList ++
        ' ' :: '(' :: ('\n' :: specs.flatMap (·.line.toList ++ ['\n']) ++ ')' :: rest)) := by
      simp [Declaration.text, String.toList_join, List.flatMap_map]
    have hblock : parenthesised
        ('(' :: ('\n' :: specs.flatMap (·.line.toList ++ ['\n']) ++ ')' :: rest)) =
          some ('\n' :: specs.flatMap (·.line.toList ++ ['\n']), rest) := by
      refine parenthesised_eq_some_iff.mpr ⟨rfl, ?_⟩
      simp only [List.forall_mem_cons, List.forall_mem_flatMap, List.forall_mem_append]
      exact ⟨by decide, fun s _ =>
        ⟨fun c => Spec.ne_paren_of_mem_line, by decide, List.forall_mem_nil _⟩⟩
    rw [htext, importPaths, keyword_blank [] nofun (endsRun_cons.mpr (by decide))]
    refine Scan.orElse_of_eq_some ?_
    rw [Scan.bind_of_eq_some hblock, blockPaths_specs]
    rfl

theorem Declaration.exists_concat (d : Declaration) :
    ∃ front c, d.text.toList = front ++ [c] ∧ c ≠ '\n' := by
  cases d with
  | single spec =>
    refine ⟨spec.indent ++ ("import ".toList ++ (spec.front ++ '"' :: spec.path.chars)), '"', ?_,
      by decide⟩
    simp [text, spec.toList_words]
  | block specs => exact ⟨_, ')', String.toList_append, by decide⟩

theorem imports_findsInLine (d : Declaration) :
    Pattern.FindsInLine (.atLine importPaths) d.text.toList [d.paths] := by
  obtain ⟨front, c, htext, hc⟩ := d.exists_concat
  refine Pattern.findsInLine_atLine ?_ ?_ fun rest _ => importPaths_declaration d rest
  · rw [htext]
    exact List.concat_ne_nil c front
  · rw [htext, List.getLast?_concat, Option.mem_some_iff]
    exact hc

/-- Whether a path is the first of some, other than `source`, that contains a text. -/
structure FirstContaining (paths : List String) (source text target : String) : Prop where
  ne_source : target ≠ source
  contains : text.toList <:+: target.toList
  first : ∃ before after, paths = before ++ target :: after ∧
    ∀ p ∈ before, p ≠ source → ¬ text.toList <:+: p.toList

theorem package_eq_some_iff {source path target : String} {paths : List String} :
    Resolution.package source path (.ofList paths) = some target ↔
      '.' ∈ path.toList ∧ FirstContaining paths source path target := by
  have hfirst : paths.find? (fun p => some p != some source && contains p path) = some target ↔
      FirstContaining paths source path target := by
    simp only [List.find?_eq_some_iff_append, Bool.and_eq_true, bne_iff_ne, ne_eq,
      Option.some.injEq, contains_iff, Bool.not_eq_true', ← Bool.not_eq_true, not_and]
    exact ⟨fun ⟨⟨hne, hcontains⟩, hbefore⟩ => ⟨hne, hcontains, hbefore⟩,
      fun h => ⟨⟨h.ne_source, h.contains⟩, h.first⟩⟩
  rw [Resolution.package, PathIndex.firstContaining, PathIndex.ofList, find?_eraseDups]
  split
  · next hdot => rw [hfirst, and_iff_right (List.contains_iff_mem.mp hdot)]
  · next hdot =>
    rw [List.contains_iff_mem] at hdot
    simp only [reduceCtorEq, hdot, false_and]

/-- A file of import declarations depends on what the packages lead to, in the order in which they
are written: those of a single import and those of the lines of a block. What leads nowhere is
dropped, and there is nothing else. A package leads to the first path of the manifest, other than
that of the file, that contains its path; without a dot in its path it leads nowhere. -/
theorem edges_of_declarations (declarations : List Declaration) (path : String)
    (manifest : List String) :
    Family.go.edges path (content declarations) (.ofList manifest) =
        (declarations.flatMap (·.paths)).filterMap (fun package =>
          (Resolution.package path package (.ofList manifest)).map fun target =>
            { source := path, target, kind := .static }) ∧
      ∀ package target, Resolution.package path package (.ofList manifest) = some target ↔
        '.' ∈ package.toList ∧ FirstContaining manifest path package target := by
  have himports := Pattern.find_lines declarations fun d _ => imports_findsInLine d
  rw [← List.map_eq_flatMap] at himports
  refine ⟨?_, fun package target => package_eq_some_iff⟩
  rw [Family.edges, edges, content, himports, List.flatMap_def]

example : Family.go.edges "cmd/main.go"
    "import (\n\tx.y \"fmt\"\n\t\"acme.io/a b\"\n)\nimport import \"main.go\"\nimport (\n)"
    (.ofList ["cmd/main.go", "acme.io/a b/c.go", "lib/main.go"]) =
      [{ source := "cmd/main.go", target := "acme.io/a b/c.go", kind := .static },
        { source := "cmd/main.go", target := "lib/main.go", kind := .static }] := by
  decide +kernel

end Family.Go

end RepoSurvey
