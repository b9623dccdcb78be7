import RepoSurvey.Graph.Cycles
import RepoSurvey.Score
import RepoSurvey.Settings
import RepoSurvey.Text.Split

/-!
# RepoSurvey.Risk

The risk of the top-level directories and of the dependency graph. Files at the root of the
repository share one bucket; all others belong to the bucket of their first segment.
-/

namespace RepoSurvey.Risk

/-! ## Buckets -/

/-- The bucket of the files at the root. -/
def rootBucket : String := "root"

def bucketOf (path : String) : String :=
  if path.toList.contains '/' then String.ofList (path.toList.takeWhile (· ≠ '/')) else rootBucket

/-- What is counted in one bucket: its files, the greatest depth of a path, and the edges whose
target lies in it. -/
structure Bucket where
  fileCount : Int := 0
  maxDepth : Int := 0
  couplingSum : Int := 0
deriving DecidableEq, Repr

/-- The number of segments of a path, empty ones included. -/
def depth (path : String) : Nat := (Text.splitAt '/' path.toList).length

/-- The buckets of some paths in the order in which they first appear. -/
def buckets (paths : List String) (edges : List Edge) : List (String × Bucket) :=
  (paths.map bucketOf).eraseDups.map fun b =>
    let inside := paths.filter fun p => bucketOf p = b
    (b, {
      fileCount := inside.length
      maxDepth := ((inside.map depth).foldl max 0 : Nat)
      couplingSum := (edges.filter fun e => bucketOf e.target = b).length })

/-- The risk of a bucket, at most one hundred: two for every file, five for every level of depth
and two for every edge that leads into it. -/
def Bucket.riskScore (b : Bucket) : Except Failure Int :=
  match Binary64.ofQuotient? b.fileCount 10, Binary64.ofInt? (b.maxDepth * 5),
    Binary64.ofInt? (b.couplingSum * 2) with
  | some tenths, some depth, some coupling =>
    (Score.roundHalfUp (((tenths.mul (Binary64.ofRat 20)).add depth).add coupling)).map (min 100)
  | _, _, _ => .error .outOfRange

def heatNode (path : String) (b : Bucket) : Except Failure HeatNode :=
  b.riskScore.map fun risk =>
    { path, riskScore := risk, riskLevel := Score.riskLevel (.int risk), fileCount := b.fileCount }

/-- The directories by falling risk; of equal ones the first seen comes first. -/
def heatmap (bs : List (String × Bucket)) : Except Failure (List HeatNode) :=
  (bs.mapM fun b => heatNode b.1 b.2).map fun nodes =>
    nodes.mergeSort fun a b => b.riskScore ≤ a.riskScore

/-! ## The graph -/

/-- How often each text occurs, in the order in which they first appear. -/
def tally (ss : List String) : List (String × Nat) :=
  ss.eraseDups.map fun s => (s, ss.count s)

def fanIn (edges : List Edge) : List (String × Nat) := tally (edges.map (·.target))

def fanOut (edges : List Edge) : List (String × Nat) := tally (edges.map (·.source))

/-- The greatest number of a tally, zero if it is empty. -/
def greatest (counts : List (String × Nat)) : Nat := (counts.map (·.2)).foldl max 0

/-- A bucket with more incoming edges than this is a hotspot. -/
def hotspotCoupling : Int := 5

/-- A coupling index above this counts as circular. -/
def circularCoupling : Int := 30

/-- The mean of the two greatest fans. -/
def couplingIndex (fanIn fanOut : Nat) : Binary64 :=
  Binary64.ofRat (((fanIn + fanOut : Nat) : Rat) / 2)

/-- One hundred less five for every unit of coupling, not below zero. -/
def isolationScore (coupling : Binary64) : Binary64 :=
  let x := (Binary64.ofRat 100).sub (coupling.mul (Binary64.ofRat 5))
  if (Binary64.zero false).lt x then x else Binary64.zero false

def metrics (edges : List Edge) (bs : List (String × Bucket)) (mode : CycleDetection) :
    RiskMetrics :=
  let a := greatest (fanIn edges)
  let b := greatest (fanOut edges)
  let coupling := couplingIndex a b
  { fanInMax := a
    fanOutMax := b
    couplingIndex := coupling
    isolationScore := isolationScore coupling
    hasCircularDeps := match mode with
      | .graph => !(Graph.cycles edges).isEmpty
      | .heuristic => coupling.gtInt circularCoupling
    hotspotPaths := (bs.filter fun b => hotspotCoupling < b.2.couplingSum).map (·.1) }

end RepoSurvey.Risk
