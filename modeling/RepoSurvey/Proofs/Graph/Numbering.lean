import Mathlib.Data.Finset.Image
import RepoSurvey.Graph.Diagram
import RepoSurvey.Proofs.Ranking

/-!
# RepoSurvey.Proofs.Graph.Numbering

The numbers of the nodes of a diagram. A path keeps the number that it gets where it first appears,
whatever is drawn after it (`nodeId_append`), so the lines can be written one after the other with
the identifiers given so far (`drawFrom_seen`). The identifiers tell the drawn paths apart, and no
number is left out (`numbers_nodeId`).
-/

namespace RepoSurvey.Graph

/-- The ends of some edges in the order in which they are drawn. -/
def ends (edges : List Edge) : List String := edges.flatMap fun e => [e.source, e.target]

theorem endpoints_eq (edges : List Edge) : endpoints edges = (ends edges).eraseDups := rfl

def numbered (n : Nat) : String := "n" ++ toString n

theorem numbered_injective : Function.Injective numbered := by
  intro m n h
  have htext : m.repr = n.repr := (String.append_right_inj "n").mp h
  have hdigits : Nat.toDigits 10 m = Nat.toDigits 10 n := by
    rw [← Nat.toList_repr, htext, Nat.toList_repr]
  have hvalues := congrArg (fun digits => Nat.ofDigitChars 10 digits 0) hdigits
  rwa [Nat.ofDigitChars_toDigits (by decide) (by decide),
    Nat.ofDigitChars_toDigits (by decide) (by decide)] at hvalues

/-- The line of an edge whose ends have the given identifiers. -/
def lineWith (source target : String) (e : Edge) : String :=
  "    " ++ source ++ "[\"" ++ e.source ++ "\"] -->|" ++ Named.name e.kind ++ "| " ++
    target ++ "[\"" ++ e.target ++ "\"]"

theorem edgeLine_eq (nodes : List String) (e : Edge) :
    edgeLine nodes e = lineWith (nodeId nodes e.source) (nodeId nodes e.target) e := by
  have hclose : "\"] -->|" = "\"]" ++ " -->|" := rfl
  change _ = "    " ++ nodeId nodes e.source ++ "[\"" ++ e.source ++ "\"] -->|" ++
    Named.name e.kind ++ "| " ++ nodeId nodes e.target ++ "[\"" ++ e.target ++ "\"]"
  simp only [edgeLine, nodeText, hclose, String.append_assoc]

/-! ## Paths seen so far -/

theorem eraseDups_concat (seen : List String) (path : String) :
    (seen ++ [path]).eraseDups =
      if path ∈ seen then seen.eraseDups else seen.eraseDups ++ [path] := by
  rw [List.eraseDups_append]
  by_cases h : path ∈ seen
  · simp [List.removeAll, h]
  · simp [List.removeAll, h, List.eraseDups_cons]

theorem nodeId_append {seen : List String} {path : String} (h : path ∈ seen) (more : List String) :
    nodeId (seen ++ more).eraseDups path = nodeId seen.eraseDups path := by
  rw [nodeId, nodeId, List.eraseDups_append, List.idxOf_append_of_mem (List.mem_eraseDups.mpr h)]

/-- Identifiers that were given, each with its path. -/
abbrev Identifiers := List (String × String)

namespace Identifiers

/-- The identifier of a path, and the identifiers given once it has one: a path without an
identifier gets the next. -/
def give (ids : Identifiers) (path : String) : String × Identifiers :=
  match ids.lookup path with
  | some id => (id, ids)
  | none => (numbered ids.length, ids ++ [(path, numbered ids.length)])

/-- The identifiers of the paths seen so far. -/
def ofSeen (seen : List String) : Identifiers :=
  seen.eraseDups.map fun path => (path, nodeId seen.eraseDups path)

theorem length_ofSeen (seen : List String) : (ofSeen seen).length = seen.eraseDups.length :=
  List.length_map ..

theorem lookup_ofSeen (seen : List String) (path : String) :
    (ofSeen seen).lookup path =
      if path ∈ seen then some (nodeId seen.eraseDups path) else none := by
  simp only [ofSeen, lookup_map_self, List.mem_eraseDups]

/-- A path that is seen again keeps its identifier; a new one gets the next. -/
theorem give_ofSeen (seen : List String) (path : String) :
    (ofSeen seen).give path =
      (nodeId (seen ++ [path]).eraseDups path, ofSeen (seen ++ [path])) := by
  rw [give, lookup_ofSeen]
  by_cases h : path ∈ seen
  · rw [if_pos h, nodeId_append h, ofSeen, ofSeen, eraseDups_concat, if_pos h]
  · have hnew : nodeId (seen ++ [path]).eraseDups path = numbered seen.eraseDups.length := by
      rw [nodeId, eraseDups_concat, if_neg h, List.idxOf_append_of_notMem (by simpa using h)]
      simp [numbered]
    have hold : ∀ q ∈ seen.eraseDups,
        (q, nodeId seen.eraseDups q) = (q, nodeId (seen ++ [path]).eraseDups q) := by
      intro q hq
      rw [nodeId_append (List.mem_eraseDups.mp hq)]
    simp only [if_neg h, length_ofSeen, ← hnew]
    rw [ofSeen, ofSeen, List.map_congr_left hold, eraseDups_concat, if_neg h, List.map_append,
      List.map_singleton]

end Identifiers

/-- The lines of some edges, drawn one after the other. -/
def drawFrom (ids : Identifiers) : List Edge → List String
  | [] => []
  | e :: es =>
    let (source, ids) := ids.give e.source
    let (target, ids) := ids.give e.target
    lineWith source target e :: drawFrom ids es

/-- Drawing goes on as if all identifiers had been known before. -/
theorem drawFrom_seen (seen : List String) (edges : List Edge) :
    drawFrom (.ofSeen seen) edges = edges.map (edgeLine (seen ++ ends edges).eraseDups) := by
  induction edges generalizing seen with
  | nil => rfl
  | cons e es ih =>
    have hends : seen ++ ends (e :: es) = seen ++ [e.source] ++ [e.target] ++ ends es := by
      simp [ends]
    have hsource : nodeId (seen ++ ends (e :: es)).eraseDups e.source =
        nodeId (seen ++ [e.source]).eraseDups e.source := by
      rw [hends, List.append_assoc (seen ++ [e.source]), nodeId_append (by simp)]
    have htarget : nodeId (seen ++ ends (e :: es)).eraseDups e.target =
        nodeId (seen ++ [e.source] ++ [e.target]).eraseDups e.target := by
      rw [hends, nodeId_append (by simp)]
    rw [List.map_cons, edgeLine_eq, hsource, htarget, hends, ← ih]
    simp only [drawFrom, Identifiers.give_ofSeen]

theorem drawFrom_nil (edges : List Edge) :
    drawFrom [] edges = edges.map (edgeLine (endpoints edges)) := by
  have h := drawFrom_seen [] edges
  rwa [List.nil_append, ← endpoints_eq] at h

/-! ## The numbers given -/

/-- Whether a list holds the members of another one in the order in which they first appear. -/
structure FirstSeen (paths nodes : List String) : Prop where
  mem_iff : ∀ p, p ∈ nodes ↔ p ∈ paths
  ordered : nodes.Pairwise fun p q => paths.idxOf p < paths.idxOf q

theorem firstSeen_eraseDups (paths : List String) : FirstSeen paths paths.eraseDups where
  mem_iff _ := List.mem_eraseDups
  ordered := pairwise_idxOf_eraseDups paths

theorem FirstSeen.nodup {paths nodes : List String} (h : FirstSeen paths nodes) : nodes.Nodup :=
  h.ordered.imp fun hlt => by rintro rfl; exact hlt.false

/-- Whether paths are identified by their numbers in the order of their first appearance. -/
structure Numbers (paths : List String) (id : String → String) : Prop where
  position : ∃ nodes, FirstSeen paths nodes ∧ ∀ p ∈ paths, id p = numbered (nodes.idxOf p)
  eq_iff : ∀ p ∈ paths, ∀ q ∈ paths, (id p = id q ↔ p = q)
  used : paths.toFinset.image id = (Finset.range paths.toFinset.card).image numbered

theorem numbers_nodeId (paths : List String) : Numbers paths (nodeId paths.eraseDups) := by
  have hfirst := firstSeen_eraseDups paths
  have hset : paths.eraseDups.toFinset = paths.toFinset := by
    ext p
    rw [List.mem_toFinset, List.mem_toFinset, hfirst.mem_iff]
  have hcard : paths.toFinset.card = paths.eraseDups.length := by
    rw [← hset, List.toFinset_card_of_nodup hfirst.nodup]
  refine ⟨⟨_, hfirst, fun _ _ => rfl⟩, fun p hp q _ => ?_, ?_⟩
  · exact numbered_injective.eq_iff.trans (List.idxOf_inj (List.mem_eraseDups.mpr hp))
  · have hindices : paths.toFinset.image (paths.eraseDups.idxOf ·) =
        Finset.range paths.toFinset.card := by
      ext i
      rw [Finset.mem_image, Finset.mem_range, hcard]
      constructor
      · rintro ⟨p, hp, rfl⟩
        rw [← hset, List.mem_toFinset] at hp
        exact List.idxOf_lt_length_iff.mpr hp
      · intro hi
        refine ⟨paths.eraseDups[i], ?_, hfirst.nodup.idxOf_getElem i hi⟩
        rw [← hset, List.mem_toFinset]
        exact List.getElem_mem hi
    rw [← hindices, Finset.image_image]
    rfl

/-! ## Diagrams -/

def hiddenNote (n : Nat) : String := "    %% " ++ toString n ++ " more edges not shown"

/-- The notes below a diagram: one, if there are edges beyond the limit. -/
def notes (edges : List Edge) (limit : Nat) : List String :=
  if limit < edges.length then [hiddenNote (edges.length - limit)] else []

theorem diagram_eq (edges : List Edge) (limit : Nat) :
    diagram edges limit = "\n".intercalate ("graph LR" ::
      (edges.take limit).map (edgeLine (endpoints (edges.take limit))) ++ notes edges limit) := by
  have hnotes : (if (limit : Int) < edges.length then
      ["    %% " ++ toString ((edges.length : Int) - limit) ++ " more edges not shown"]
      else []) = notes edges limit := by
    by_cases h : limit < edges.length
    · have hhidden : (edges.length : Int) - limit = (edges.length - limit : Nat) := by omega
      rw [notes, if_pos h, if_pos (Int.ofNat_lt.mpr h), hhidden]
      rfl
    · rw [notes, if_neg h, if_neg (mt Int.ofNat_lt.mp h)]
  rw [diagram, upTo_ofNat, hnotes]

/-- A diagram is a heading, a line for each edge up to the limit, and a note if the limit leaves any
out. The nodes are identified by their numbers in the order in which they are drawn, and the lines
are those that come about when the edges are drawn one after the other. -/
theorem diagram_draws (edges : List Edge) (limit : Nat) :
    let drawn := edges.take limit
    drawn.length = min limit edges.length ∧
      ∃ id, Numbers (ends drawn) id ∧
        drawFrom [] drawn = drawn.map (fun e => lineWith (id e.source) (id e.target) e) ∧
        diagram edges limit = "\n".intercalate ("graph LR" ::
          drawn.map (fun e => lineWith (id e.source) (id e.target) e) ++
            if limit < edges.length then
              ["    %% " ++ toString (edges.length - limit) ++ " more edges not shown"]
            else []) := by
  intro drawn
  have hlines : drawn.map (edgeLine (endpoints drawn)) = drawn.map fun e =>
      lineWith (nodeId (endpoints drawn) e.source) (nodeId (endpoints drawn) e.target) e :=
    List.map_congr_left fun e _ => edgeLine_eq _ e
  refine ⟨List.length_take, nodeId (endpoints drawn), numbers_nodeId _, ?_, ?_⟩
  · rw [drawFrom_nil, hlines]
  · rw [diagram_eq, hlines]
    rfl

end RepoSurvey.Graph
