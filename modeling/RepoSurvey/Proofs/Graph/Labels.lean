import Mathlib.Data.List.Infix
import RepoSurvey.Proofs.Graph.Numbering
import RepoSurvey.Proofs.Scan

/-!
# RepoSurvey.Proofs.Graph.Labels

What the text of a diagram tells of the edges that were drawn. Paths stand in labels as they are. A
label ends at the first quote with a bracket after it, so the text gives the drawn edges back as
long as no path holds these two characters (`edges_of_lines`). A path that does may go on with lines
of its own: nearly every diagram is also that of a single edge (`exists_forged`).
-/

namespace RepoSurvey

theorem EdgeKind.name_injective {k l : EdgeKind} (h : Named.name k = Named.name l) : k = l := by
  cases k <;> cases l <;> first | rfl | exact absurd h (by decide)

namespace Graph

/-! ## Labels -/

/-- The characters after a label. -/
def closing : List Char := ['"', ']']

/-- Whether a label with this path would end inside the path. -/
def ClosesLabel (path : String) : Prop := closing <:+: path.toList

instance (path : String) : Decidable (ClosesLabel path) :=
  inferInstanceAs (Decidable (closing <:+: path.toList))

theorem label_inj_of_prefix {path path' rest rest' more : List Char}
    (h' : ¬ closing <:+: path') (hpath : path' = path ++ more)
    (hrest : closing ++ rest = more ++ (closing ++ rest')) : path = path' ∧ rest = rest' := by
  match more with
  | [] =>
    rw [List.append_nil] at hpath
    exact ⟨hpath.symm, List.append_cancel_left hrest⟩
  | [c] =>
    -- The bracket of one label would have to be the quote of the other.
    simp [closing] at hrest
  | c :: d :: more =>
    obtain ⟨rfl, rfl, -⟩ : '"' = c ∧ ']' = d ∧ rest = more ++ (closing ++ rest') := by
      simpa [closing] using hrest
    exact absurd ⟨path, more, by rw [hpath, List.append_assoc]; rfl⟩ h'

/-- Only one label that does not end inside its path stands at the front of a text. -/
theorem label_inj {path path' rest rest' : List Char} (h : ¬ closing <:+: path)
    (h' : ¬ closing <:+: path') (heq : path ++ (closing ++ rest) = path' ++ (closing ++ rest')) :
    path = path' ∧ rest = rest' := by
  obtain ⟨more, hpath, hrest⟩ | ⟨more, hpath, hrest⟩ := List.append_eq_append_iff.mp heq
  · exact label_inj_of_prefix h' hpath hrest
  · obtain ⟨hpaths, hrests⟩ := label_inj_of_prefix h hpath hrest
    exact ⟨hpaths.symm, hrests.symm⟩

/-! ## Lines -/

/-- A labelled node: the digits of its number, and its path. -/
def node (number : Nat) (path : String) : List Char :=
  'n' :: (Nat.toDigits 10 number ++ '[' :: '"' :: (path.toList ++ closing))

theorem toList_nodeText (nodes : List String) (path : String) :
    (nodeText nodes path).toList = node (nodes.idxOf path) path := by
  have hopen : "[\"".toList = ['[', '"'] := rfl
  have hclose : "\"]".toList = closing := rfl
  have hname : "n".toList = ['n'] := rfl
  simp only [nodeText, nodeId, String.toList_append, hopen, hclose, hname, Nat.toString_eq_repr,
    Nat.toList_repr, node, List.append_assoc, List.cons_append, List.nil_append]

theorem node_append_inj {m m' : Nat} {path path' : String} {rest rest' : List Char}
    (h : ¬ ClosesLabel path) (h' : ¬ ClosesLabel path')
    (heq : node m path ++ rest = node m' path' ++ rest') : path = path' ∧ rest = rest' := by
  simp only [node, List.cons_append, List.append_assoc, List.cons.injEq, true_and] at heq
  have hdigits : ∀ n : Nat, ∀ c ∈ Nat.toDigits 10 n, c.isDigit = true := fun n c hc =>
    Nat.isDigit_of_mem_toDigits (by decide) (by decide) hc
  have hbracket : ∀ cs, Text.EndsRun Char.isDigit ('[' :: cs) := fun cs =>
    Text.endsRun_cons.mpr (by decide)
  have hlabels := (Text.append_inj_of_endsRun (hdigits m) (hdigits m') (hbracket _) (hbracket _)
    heq).2
  simp only [List.cons.injEq, true_and] at hlabels
  obtain ⟨hpaths, hrests⟩ := label_inj h h' hlabels
  exact ⟨String.toList_inj.mp hpaths, hrests⟩

theorem toList_edgeLine (nodes : List String) (e : Edge) :
    (edgeLine nodes e).toList = "    ".toList ++ (node (nodes.idxOf e.source) e.source ++
      (" -->|".toList ++ ((Named.name e.kind).toList ++
        ('|' :: ' ' :: node (nodes.idxOf e.target) e.target)))) := by
  have hbar : "| ".toList = ['|', ' '] := rfl
  simp only [edgeLine, String.toList_append, toList_nodeText, hbar, List.append_assoc,
    List.cons_append, List.nil_append]

theorem kind_append_inj {k l : EdgeKind} {rest rest' : List Char}
    (heq : (Named.name k).toList ++ '|' :: rest = (Named.name l).toList ++ '|' :: rest') :
    k = l ∧ rest = rest' := by
  have hname : ∀ k : EdgeKind, ∀ c ∈ (Named.name k).toList, (c != '|') = true := by
    intro k
    refine List.all_eq_true.mp ?_
    cases k <;> rfl
  have hbar : ∀ cs, Text.EndsRun (· != '|') ('|' :: cs) := fun cs =>
    Text.endsRun_cons.mpr (by decide)
  obtain ⟨hnames, hrests⟩ :=
    Text.append_inj_of_endsRun (hname k) (hname l) (hbar _) (hbar _) heq
  exact ⟨EdgeKind.name_injective (String.toList_inj.mp hnames), (List.cons.inj hrests).2⟩

/-- The line of an edge tells the edge, whatever follows the line. -/
theorem edgeLine_append_inj {nodes nodes' : List String} {e e' : Edge} {rest rest' : List Char}
    (h : ∀ p ∈ [e.source, e.target], ¬ ClosesLabel p)
    (h' : ∀ p ∈ [e'.source, e'.target], ¬ ClosesLabel p)
    (heq : (edgeLine nodes e).toList ++ rest = (edgeLine nodes' e').toList ++ rest') :
    e = e' ∧ rest = rest' := by
  simp only [List.forall_mem_cons] at h h'
  simp only [toList_edgeLine, List.append_assoc] at heq
  obtain ⟨hsource, hmiddle⟩ := node_append_inj h.1 h'.1 (List.append_cancel_left heq)
  obtain ⟨hkind, hright⟩ := kind_append_inj (List.append_cancel_left hmiddle)
  obtain ⟨htarget, hrest⟩ := node_append_inj h.2.1 h'.2.1 (List.cons.inj hright).2
  refine ⟨?_, hrest⟩
  cases e
  cases e'
  cases hsource
  cases hkind
  cases htarget
  rfl

/-! ## Texts -/

/-- The characters of some lines, each after a line break. -/
def below (lines : List String) : List Char := lines.flatMap fun l => '\n' :: l.toList

theorem below_cons (l : String) (lines : List String) :
    below (l :: lines) = '\n' :: (l.toList ++ below lines) := rfl

theorem toList_intercalate_newline (heading : String) (lines : List String) :
    ("\n".intercalate (heading :: lines)).toList = heading.toList ++ below lines := by
  induction lines generalizing heading with
  | nil => simp [below]
  | cons l lines ih =>
    have hbreak : "\n".toList = ['\n'] := rfl
    rw [String.intercalate_cons_cons, String.toList_append, String.toList_append, ih, below_cons,
      hbreak, List.append_assoc, List.singleton_append]

/-- Neither a note nor the end of a diagram is taken for an edge. -/
theorem below_edgeLine_ne_notes (nodes : List String) (e : Edge) (rest : List Char)
    (edges : List Edge) (limit : Nat) :
    '\n' :: ((edgeLine nodes e).toList ++ rest) ≠ below (notes edges limit) := by
  rw [notes]
  split
  · simp [below, hiddenNote, toList_edgeLine, node]
  · simp [below]

theorem edges_of_lines {nodes nodes' : List String} {all all' : List Edge} {limit : Nat}
    {edges edges' : List Edge} (h : ∀ p ∈ ends edges, ¬ ClosesLabel p)
    (h' : ∀ p ∈ ends edges', ¬ ClosesLabel p)
    (heq : below (edges.map (edgeLine nodes) ++ notes all limit) =
      below (edges'.map (edgeLine nodes') ++ notes all' limit)) : edges = edges' := by
  induction edges generalizing edges' with
  | nil =>
    cases edges' with
    | nil => rfl
    | cons e' es' => exact absurd heq.symm (below_edgeLine_ne_notes nodes' e' _ all limit)
  | cons e es ih =>
    cases edges' with
    | nil => exact absurd heq (below_edgeLine_ne_notes nodes e _ all' limit)
    | cons e' es' =>
      have hends : ∀ (e : Edge) (es : List Edge),
          ends (e :: es) = [e.source, e.target] ++ ends es := fun _ _ => rfl
      rw [hends, List.forall_mem_append] at h h'
      simp only [List.map_cons, List.cons_append, below_cons, List.cons.injEq, true_and] at heq
      obtain ⟨rfl, hrest⟩ := edgeLine_append_inj h.1 h'.1 heq
      rw [ih h.2 h'.2 hrest]

/-! ## Forged diagrams -/

theorem closing_suffix_below {edges : List Edge} (h : edges ≠ []) (nodes : List String) :
    closing <:+ below (edges.map (edgeLine nodes)) := by
  obtain ⟨front, e, rfl⟩ := (List.eq_nil_or_concat edges).resolve_left h
  have hnode : closing <:+ node (nodes.idxOf e.target) e.target :=
    ⟨'n' :: (Nat.toDigits 10 (nodes.idxOf e.target) ++ '[' :: '"' :: e.target.toList),
      by simp [node]⟩
  have hline : node (nodes.idxOf e.target) e.target <:+ (edgeLine nodes e).toList :=
    ⟨"    ".toList ++ (node (nodes.idxOf e.source) e.source ++ (" -->|".toList ++
      ((Named.name e.kind).toList ++ ['|', ' ']))), by simp [toList_edgeLine]⟩
  have hlast : (edgeLine nodes e).toList <:+ below ((front ++ [e]).map (edgeLine nodes)) :=
    ⟨below (front.map (edgeLine nodes)) ++ ['\n'], by simp [below]⟩
  rw [List.concat_eq_append]
  exact hnode.trans (hline.trans hlast)

/-- The ends of the first edge have the first two numbers. -/
theorem idxOf_endpoints_cons {e : Edge} (h : e.source ≠ e.target) (edges : List Edge) :
    (endpoints (e :: edges)).idxOf e.source = 0 ∧ (endpoints (e :: edges)).idxOf e.target = 1 := by
  have hends : ends (e :: edges) = e.source :: e.target :: ends edges := rfl
  have hkept : (e.target :: ends edges).filter (fun path => !path == e.source) =
      e.target :: (ends edges).filter fun path => !path == e.source :=
    List.filter_cons_of_pos (by simpa using Ne.symm h)
  rw [endpoints_eq, hends, List.eraseDups_cons, hkept, List.eraseDups_cons]
  exact ⟨List.idxOf_cons_self, by simp [h]⟩

theorem diagram_of_length_le {edges : List Edge} {limit : Nat} (h : edges.length ≤ limit) :
    (diagram edges limit).toList =
      "graph LR".toList ++ below (edges.map (edgeLine (endpoints edges))) := by
  have hnotes : notes edges limit = [] := if_neg (by omega)
  rw [diagram_eq, List.take_of_length_le h, hnotes, List.append_nil, toList_intercalate_newline]

/-- An edge whose target goes on with the rest of the text is drawn like several edges. -/
theorem exists_forged {e : Edge} (hends : e.source ≠ e.target) (hsource : ¬ ClosesLabel e.source)
    {more : List Edge} (hmore : more ≠ []) {limit : Nat} (hlimit : (e :: more).length ≤ limit) :
    ∃ forged : Edge, diagram [forged] limit = diagram (e :: more) limit := by
  obtain ⟨rest, hrest⟩ := closing_suffix_below hmore (endpoints (e :: more))
  let target := String.ofList (e.target.toList ++ (closing ++ rest))
  have htarget : target.toList = e.target.toList ++ (closing ++ rest) := String.toList_ofList
  have hforged : e.source ≠ target := by
    intro hsame
    refine hsource ⟨e.target.toList, rest, ?_⟩
    rw [hsame, htarget, List.append_assoc]
  obtain ⟨hfirst, hsecond⟩ := idxOf_endpoints_cons hends more
  obtain ⟨hfirst', hsecond'⟩ := idxOf_endpoints_cons (e := ⟨e.source, target, e.kind⟩) hforged []
  have hone : [(⟨e.source, target, e.kind⟩ : Edge)].length ≤ limit := by
    simp only [List.length_cons, List.length_nil] at hlimit ⊢
    omega
  refine ⟨⟨e.source, target, e.kind⟩, ?_⟩
  rw [← String.toList_inj, diagram_of_length_le hone, diagram_of_length_le hlimit,
    List.map_singleton, List.map_cons, below_cons, below_cons, toList_edgeLine, toList_edgeLine,
    hfirst, hsecond, hfirst', hsecond', ← hrest]
  simp only [node, htarget, below, List.flatMap_nil, List.append_assoc, List.append_nil,
    List.cons_append]

/-- Diagrams of edges whose paths do not end their labels tell which edges were drawn. But several
edges that are all drawn, the first one not from a path to itself, look like a single edge with a
path that ends its label. -/
theorem diagram_identifies (limit : Nat) :
    (∀ edges edges' : List Edge,
      (∀ p ∈ ends (edges.take limit) ++ ends (edges'.take limit), ¬ ClosesLabel p) →
        diagram edges limit = diagram edges' limit → edges.take limit = edges'.take limit) ∧
      ∀ (e : Edge) (more : List Edge), e.source ≠ e.target → ¬ ClosesLabel e.source → more ≠ [] →
        (e :: more).length ≤ limit →
          ∃ forged : Edge, diagram [forged] limit = diagram (e :: more) limit := by
  refine ⟨fun edges edges' hplain heq => ?_, fun e more hends hsource hmore hlimit =>
    exists_forged hends hsource hmore hlimit⟩
  obtain ⟨h, h'⟩ := List.forall_mem_append.mp hplain
  have htexts := congrArg String.toList heq
  rw [diagram_eq, diagram_eq, List.cons_append, List.cons_append, toList_intercalate_newline,
    toList_intercalate_newline] at htexts
  exact edges_of_lines h h' (List.append_cancel_left htexts)

/-- Two files that depend on each other. -/
def toAndFro : List Edge := [{ source := "a", target := "b" }, { source := "b", target := "a" }]

/-- No other edges between plain paths are drawn like these two, but a single edge is. -/
theorem diagram_identifies_toAndFro :
    (∀ edges, (∀ p ∈ ends (edges.take 60), ¬ ClosesLabel p) →
      diagram edges (60 : Nat) = diagram toAndFro (60 : Nat) → edges.take 60 = toAndFro) ∧
      ∃ forged : Edge, diagram [forged] (60 : Nat) = diagram toAndFro (60 : Nat) := by
  obtain ⟨hplain, hforged⟩ := diagram_identifies 60
  have hends : ∀ p ∈ ends (toAndFro.take 60), ¬ ClosesLabel p := by decide +kernel
  refine ⟨fun edges hedges heq => ?_, ?_⟩
  · exact hplain edges toAndFro (List.forall_mem_append.mpr ⟨hedges, hends⟩) heq
  · exact hforged _ _ (by decide +kernel) (by decide +kernel) (by decide) (by decide)

end Graph

end RepoSurvey
