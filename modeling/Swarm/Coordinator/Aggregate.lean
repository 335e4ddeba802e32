import Mathlib.Data.Finset.Card
import Mathlib.Data.Rat.Floor
import Mathlib.Data.String.Basic
import Swarm.Coordinator.Decompose
import Swarm.Coordinator.Engine
import Swarm.Lib.Greedy
import Swarm.Lib.Vec

namespace Swarm

def TaskKind.isReportable : TaskKind → Bool
  | .work | .map | .reduce | .answer | .judge | .merge | .summarize => true
  | _ => false

def ExecutionStrategy.needsConsensus : ExecutionStrategy → Bool
  | .debate | .consensus => true
  | _ => false

/-- The Unicode tables that reading a text needs. -/
structure Alphabet where
  isAlphanumeric : Char → Bool
  toLowercase : String → String

namespace Aggregate

def sameAnswer : Rat := 60 / 100

def redundant : Rat := 85 / 100

def disagreement : Rat := 30 / 100

def maxEvidence : Nat := 20

inductive ConsensusMode where
  | majority | confidenceWeighted
  deriving DecidableEq, Repr

structure ConsensusReport where
  mode : ConsensusMode
  winner : String
  winningTask : TaskId
  agreementRate : Rat
  votes : Nat
  distinctPositions : Nat
  deriving DecidableEq, Repr

/-- Significant words of a text. Their length is counted in bytes. -/
def tokens (alphabet : Alphabet) (text : String) : Finset String :=
  (((splitChars (fun c => !alphabet.isAlphanumeric c) [] text.toList).filter
    (fun word => 3 < (Utf8.encode word).length)).map
    (fun word => alphabet.toLowercase (String.ofList word))).toFinset

/-- Jaccard similarity of two token sets. -/
def similarity (left right : Finset String) : Rat :=
  if left = ∅ ∧ right = ∅ then 1
  else
    let intersection : Rat := (left ∩ right).card
    let union : Rat := (left ∪ right).card
    if union = 0 then 0 else intersection / union

/-- The questions that the merge asks about two results. -/
structure Comparison where
  sameAnswer : TaskResult → TaskResult → Bool
  redundant : TaskResult → TaskResult → Bool
  related : TaskResult → TaskResult → Bool

/-- The questions as the source answers them. -/
def comparison (alphabet : Alphabet) : Comparison where
  sameAnswer left right := sameAnswer ≤ similarity (tokens alphabet left.output) (tokens alphabet right.output)
  redundant left right := redundant ≤ similarity (tokens alphabet left.output) (tokens alphabet right.output)
  related left right := disagreement < similarity (tokens alphabet left.output) (tokens alphabet right.output)

section
variable (tests : Comparison)

/-- Whether the results at two places pass a test. -/
def atPlaces (test : TaskResult → TaskResult → Bool) (results : List TaskResult) (left right : Nat) : Bool :=
  match results[left]?, results[right]? with
  | some first, some second => test first second
  | _, _ => false

/-- Greedily group results whose outputs say the same thing. -/
def cluster (results : List TaskResult) : List (List Nat) :=
  Greedy.group (atPlaces tests.sameAnswer results) results.length

def confidenceAt (results : List TaskResult) (index : Nat) : Rat := results[index]?.elim 0 TaskResult.confidence

def weight (results : List TaskResult) (members : List Nat) : Rat := (members.map (confidenceAt results)).sum

/-- The winning cluster and its share. -/
def elect (results : List TaskResult) (clusters : List (List Nat)) : ConsensusMode → Option (List Nat × Rat)
  | .majority => do
    let total : Rat := results.length
    let winner ← Vec.maxBy (fun left right => right.length < left.length) clusters
    pure (winner, winner.length / total)
  | .confidenceWeighted => do
    let total := (results.map TaskResult.confidence).sum
    let winner ← Vec.maxBy (fun left right => weight results right < weight results left) clusters
    let share := if 0 < total then weight results winner / total else 0
    pure (winner, share)

/-- Decide between competing answers. -/
def consensus (results : List TaskResult) (mode : ConsensusMode) : Option ConsensusReport :=
  if results.length < 2 then none
  else do
    let clusters := cluster tests results
    let (winningCluster, agreementRate) ← elect results clusters mode
    let best ← Vec.maxBy (fun left right => confidenceAt results right < confidenceAt results left) winningCluster
    let result ← results[best]?
    pure
      { mode := mode
        winner := result.output
        winningTask := result.taskId
        agreementRate := agreementRate
        votes := results.length
        distinctPositions := clusters.length }

/-- First sentence of the first line of an output. -/
def headline (output : String) : String :=
  let firstLine := trim (output.toList.takeWhile (· ≠ '\n'))
  String.ofList (((splitText ". ".toList 0 [] firstLine).headD []).take 240)

/-- Every two entries of a list, the earlier one first. -/
def pairs : List TaskResult → List (TaskResult × TaskResult)
  | [] => []
  | first :: rest => rest.map (fun second => (first, second)) ++ pairs rest

/-- Disagreements between competing answers that consensus could not settle. -/
def conflicts (results : List TaskResult) : List Conflict :=
  let clusters := cluster tests results
  if clusters.length < 2 then []
  else
    let representatives := clusters.filterMap (fun members => members.head?.bind (fun index => results[index]?))
    ((pairs representatives).filter (fun (first, second) => !tests.related first second)).map (fun (first, second) =>
      { description := s!"`{first.title}` and `{second.title}` reached materially different conclusions"
        claims := [headline first.output, headline second.output]
        taskIds := [first.taskId, second.taskId]
        attemptedResolution := "similarity clustering" })

/-- Drop outputs that merely restate an earlier one. -/
def dropRedundant (ordered : List TaskResult) : List TaskResult := Greedy.keep tests.redundant [] ordered

end

/-- `stage_of`: the stage of every task of the graph. -/
def stageOf (graph : TaskGraph) : Dict TaskId Nat :=
  graph.nodes.values.foldl (fun stages node => stages.insert node.id node.stage) .empty

/-- The place of a stage that is looked up; a task outside the graph comes first. -/
def stageRank (graph : TaskGraph) (result : TaskResult) : Nat := ((stageOf graph).get? result.taskId).elim 0 (· + 1)

def comesBefore (graph : TaskGraph) (left right : TaskResult) : Bool :=
  stageRank graph left < stageRank graph right ||
    (stageRank graph left == stageRank graph right && left.title ≤ right.title)

/-- The results that count, by stage and title. -/
def ordered (graph : TaskGraph) (results : List TaskResult) : List TaskResult :=
  (results.filter (fun result => result.passedValidation && result.kind.isReportable)).insertionSort
    (comesBefore graph · ·)

/-- A number to the nearest integer, halves to the even one. -/
def roundHalfEven (number : Rat) : Int :=
  let rest := number - number.floor
  if rest < 1 / 2 then number.floor
  else if 1 / 2 < rest then number.floor + 1
  else if number.floor % 2 = 0 then number.floor
  else number.floor + 1

/-- Prefer a task whose whole job was to conclude; fall back to consensus, then to the
most confident findings. -/
def summarize (kept : List TaskResult) (agreement : Option ConsensusReport) (objective : String) : String :=
  let concluding := kept.reverse.find? (fun result => match result.kind with
    | .merge | .summarize | .reduce | .judge => true
    | _ => false)
  match concluding, agreement with
  | some result, _ => result.output
  | none, some report =>
    let percent := roundHalfEven (report.agreementRate * 100)
    s!"Consensus ({percent}% agreement across {report.votes} answers): {report.winner}"
  | none, none =>
    if kept.isEmpty then s!"No validated output was produced for: {objective}"
    else
      let best := kept.insertionSort (fun left right => right.confidence ≤ left.confidence)
      (best.take 3).foldl (fun summary result => summary ++ s!"\n- {result.title}: {headline result.output}")
        s!"Findings for: {objective}\n"

/-- Confidence in the job as a whole. -/
def confidence (kept : List TaskResult) (graph : TaskGraph) (conflictCount : Nat) : Rat :=
  if kept.isEmpty then 0
  else
    let mean := (kept.map TaskResult.confidence).sum / kept.length
    let counts := graph.counts
    let completion : Rat := if counts.total = 0 then 0 else counts.completed / counts.total
    let penalty : Rat := conflictCount / 10
    max 0 (min 1 (mean * completion - penalty))

/-- The same source for the same claim. -/
def sameCitation (left right : Evidence) : Bool := left.source == right.source && left.claim == right.claim

/-- The first item of every citation. -/
def citations (kept : List TaskResult) : List Evidence :=
  Greedy.keep sameCitation [] (kept.flatMap TaskResult.evidence)

/-- Deduplicate evidence and keep the best-supported items. -/
def mergeEvidence (kept : List TaskResult) : List Evidence :=
  ((citations kept).insertionSort (fun left right => right.support ≤ left.support)).take maxEvidence

def structuredOutput (result : TaskResult) : StructuredOutput where
  taskId := result.taskId
  kind := result.kind.asStr
  title := result.title
  content := result.output
  data := result.structured
  confidence := result.confidence

/-- Merge every completed task result into the job's final answer. -/
def aggregate (tests : Comparison) (job : Job) (graph : TaskGraph) (results : List TaskResult) (status : JobStatus)
    (statistics : ExecutionStatistics) : FinalResult :=
  let ordered := ordered graph results
  let answers := ordered.filter (fun result => result.kind == .answer)
  let kept := dropRedundant tests ordered
  let unresolvedConflicts := conflicts tests answers
  let agreement :=
    if job.request.executionStrategy.needsConsensus then consensus tests answers .confidenceWeighted else none
  Engine.aggregate job status statistics
    { summary := summarize kept agreement job.request.objective
      outputs := kept.map structuredOutput
      supportingEvidence := mergeEvidence kept
      confidenceScore := confidence kept graph unresolvedConflicts.length
      unresolvedConflicts := unresolvedConflicts }

end Aggregate

end Swarm
