import Swarm.Agent.Output
import Swarm.Domain.Job
import Swarm.Domain.Panic
import Swarm.Domain.Plan
import Swarm.Lib.Act

namespace Swarm

/-- `split_whitespace`. `word` holds the characters of the current word, last first. -/
def splitWhitespace (word : List Char) : List Char → List (List Char)
  | [] => if word.isEmpty then [] else [word.reverse]
  | c :: rest =>
    if isWhitespace c then (if word.isEmpty then splitWhitespace [] rest else word.reverse :: splitWhitespace [] rest)
    else splitWhitespace (c :: word) rest

/-- `split` on a set of characters. -/
def splitChars (isSeparator : Char → Bool) (piece : List Char) : List Char → List (List Char)
  | [] => [piece.reverse]
  | c :: rest =>
    if isSeparator c then piece.reverse :: splitChars isSeparator [] rest
    else splitChars isSeparator (c :: piece) rest

/-- `split` on a text. `skip` counts the characters of a separator that are still to be passed. -/
def splitText (separator : List Char) (skip : Nat) (piece : List Char) : List Char → List (List Char)
  | [] => [piece.reverse]
  | c :: rest =>
    match skip with
    | skip + 1 => splitText separator skip piece rest
    | 0 =>
      if separator.isPrefixOf (c :: rest) then
        piece.reverse :: splitText separator (separator.length - 1) [] rest
      else splitText separator 0 (c :: piece) rest

/-- `Vec::dedup`. -/
def dedupAdjacent : List String → List String
  | [] => []
  | [topic] => [topic]
  | topic :: next :: rest => if topic = next then dedupAdjacent (next :: rest)
      else topic :: dedupAdjacent (next :: rest)

structure Stage where
  kind : TaskKind
  fanout : Nat
  label : String
  deriving DecidableEq, Repr

def Stage.new (kind : TaskKind) (fanout : Nat) (label : String) : Stage := ⟨kind, max fanout 1, label⟩

def fromLength (objective : String) : Nat := (splitWhitespace [] objective.toList).length / 10 % 2 ^ 32

def fromStructure (tools : TextTools) (objective : String) : Nat :=
  let enumerations := objective.toList.countP (fun c => c = ',' || c = ';' || c = '\n') +
    ((splitText " and ".toList 0 [] (tools.toLowercase objective).toList).length - 1)
  enumerations % 2 ^ 32

/-- How many parallel branches an objective seems to deserve. -/
def estimateComplexity (overflow : Overflow) (tools : TextTools) (objective : String) : Except Panic Nat := do
  let longer ← addU32 overflow 2 (fromLength objective)
  let sum ← addU32 overflow longer (fromStructure tools objective)
  pure (min (max sum 2) 8)

/-- Compile a strategy into stages. -/
def stages (strategy : ExecutionStrategy) (fanout : Nat) : List Stage :=
  let fanout := max fanout 1
  let half := max (fanout / 2) 1
  match strategy with
  | .sequential =>
    Stage.new .plan 1 "Plan" :: (List.range (min fanout 4)).map (fun step => Stage.new .work 1 s!"Step {step + 1}") ++
      [Stage.new .summarize 1 "Summary"]
  | .parallel => [Stage.new .plan 1 "Plan", Stage.new .work fanout "Investigate", Stage.new .merge 1 "Merge"]
  | .hierarchical =>
    [Stage.new .plan 1 "Plan", Stage.new .subplan half "Sub-plan", Stage.new .work fanout "Investigate",
      Stage.new .merge 1 "Merge", Stage.new .verify 1 "Verify"]
  | .debate => [Stage.new .answer fanout "Answer", Stage.new .critique fanout "Critique", Stage.new .judge 1 "Judge"]
  | .mapReduce => [Stage.new .plan 1 "Partition", Stage.new .map fanout "Map", Stage.new .reduce 1 "Reduce"]
  | .plannerExecutor => [Stage.new .plan 1 "Plan", Stage.new .work fanout "Execute", Stage.new .verify 1 "Verify"]
  | .supervisorWorker =>
    [Stage.new .supervise 1 "Assign", Stage.new .work fanout "Work", Stage.new .critique 1 "Review",
      Stage.new .merge 1 "Merge"]
  | .consensus => [Stage.new .answer fanout "Answer", Stage.new .vote 1 "Vote", Stage.new .merge 1 "Decide"]
  | .adaptive => [Stage.new .plan 1 "Plan", Stage.new .work half "Explore", Stage.new .summarize 1 "Summary"]

/-- The mechanical checks a task of `kind` must pass. -/
def validationFor (kind : TaskKind) : List ValidationRule :=
  let rules := [.nonEmpty, .requiredJsonKeys ["summary", "confidence"]]
  match kind with
  | .plan | .subplan | .supervise => rules ++ [.minWords 10]
  | .work | .map | .answer | .critique => rules ++ [.minWords 15]
  | .merge | .reduce | .summarize | .judge => rules ++ [.minWords 12]
  | .verify | .vote => rules

/-- First `words` words of a text. -/
def shorten (text : List Char) (words : Nat) : String :=
  String.intercalate " " (((splitWhitespace [] text).take words).map String.ofList)

/-- The topics the author wrote, each once up to case, until there are `count`. -/
def distinctTopics (tools : TextTools) (count : Nat) (seen : List String) : List String → List String
  | [] => seen
  | topic :: rest =>
    let known := seen.any (fun existing => tools.toLowercase existing == tools.toLowercase topic)
    let seen := if known then seen else seen ++ [topic]
    if seen.length = count then seen else distinctTopics tools count seen rest

/-- The padding loop. Its counter is an `i32`. A loop that has not ended within the fuel has seen
every value of the counter, and never ends. -/
def padTopics (overflow : Overflow) (stem : String) (count : Nat) :
    Nat → Int → List String → Except Halt (List String)
  | 0, _, seen => if seen.length < count then .error .endless else .ok seen
  | fuel + 1, aspect, seen =>
    if seen.length < count then
      let candidate := s!"{stem} — aspect {aspect}"
      match addI32 overflow aspect 1 with
      | .error panic => .error (.panicked panic)
      | .ok next =>
          padTopics overflow stem count fuel next (if seen.contains candidate then seen else seen ++ [candidate])
    else .ok seen

/-- The clauses of an objective that are long enough to be topics. -/
def clauseTopics (objective : String) : List String :=
  let clauses := (splitChars (fun c => c = '\n' || c = ';' || c = ',' || c = '.') [] objective.toList).flatMap
    (splitText " and ".toList 0 [])
  let topics := (clauses.map (fun clause => shorten (trim clause) 10)).filter
    (fun clause => 2 ≤ (splitWhitespace [] clause.toList).length)
  dedupAdjacent topics

/-- Split an objective into `count` distinct subtopics. -/
def subtopics (overflow : Overflow) (tools : TextTools) (objective : String) (count : Nat) :
    Except Halt (List String) :=
  let seen := distinctTopics tools count [] (clauseTopics objective)
  padTopics overflow (shorten objective.toList 6) count (count + seen.length) 1 seen

/-- The instruction handed to the agent for one task. -/
def describe (stage : Stage) (focus : String) (request : JobRequest) : String :=
  let objective := request.objective
  match stage.kind with
  | .plan => s!"Break the objective into independent pieces of work. Objective: {objective}"
  | .subplan => s!"Plan the work needed for `{focus}` within: {objective}"
  | .work => s!"Investigate `{focus}` and report what you established, with sources."
  | .map => s!"Process the `{focus}` partition and return its partial result."
  | .reduce => "Combine the partial results into one consistent result."
  | .answer => s!"Answer independently, without deferring to peers: {focus}"
  | .critique => s!"Find the weakest claim in the work on `{focus}` and say why."
  | .verify => "Check each claim against its stated evidence and flag unsupported ones."
  | .judge => "Compare the competing answers and choose the best-supported one, with reasons."
  | .vote => "Vote for the answer best supported by evidence, with a confidence."
  | .merge => "Merge the validated outputs, removing duplication and surfacing conflicts."
  | .summarize => s!"Summarise what the swarm established about: {objective}"
  | .supervise => s!"Assign the work for `{focus}` and state what good output looks like."

/-- The graph under construction, the number of ids drawn so far and the tasks of one stage. -/
structure Draft where
  graph : TaskGraph
  drawn : Nat
  stage : List TaskId

/-- petgraph's indices are `u32`, and the last of them stands for none. -/
def indexEnd : Nat := 2 ^ 32 - 1

/-- `insert`, which panics where petgraph has no index left for the node or for one of its edges. -/
def TaskGraph.insertIndexed (g : TaskGraph) (node : TaskNode) : Except Halt (TaskId × TaskGraph) :=
  match g.insert node with
  | .error e => .error (.failed e)
  | .ok answer =>
    if g.graph.weights.length < indexEnd ∧ g.graph.edges.length + node.dependencies.length ≤ indexEnd then .ok answer
    else .error (.panicked .indicesExhausted)

section
variable (complexity : Nat) (ids : Nat → TaskId) (job : Job)

/-- The task for one slot of a stage. -/
def slotTask (topics : List String) (stageIndex : Nat) (stage : Stage) (previous : List TaskId) (slot : Nat)
    (id : TaskId) : TaskNode :=
  let focus :=
    if stage.fanout = 1 then shorten job.request.objective.toList 8 else topics.getD (slot % topics.length) ""
  let complexity := max complexity 1
  { TaskNode.new id job.id stage.kind s!"{stage.label} · {focus}" (describe stage focus job.request) stageIndex with
    dependencies := previous
    estimatedComplexity := complexity
    estimatedTokens := some (complexity * 400)
    validation := validationFor stage.kind }

def placeSlot (topics : List String) (stageIndex : Nat) (stage : Stage) (previous : List TaskId) (draft : Draft)
    (slot : Nat) : Except Halt Draft := do
  let (id, graph) ← draft.graph.insertIndexed
    (slotTask complexity job topics stageIndex stage previous slot (ids draft.drawn))
  pure ⟨graph, draft.drawn + 1, draft.stage ++ [id]⟩

/-- Each task of a stage depends on every task of the stage before. -/
def placeStage (topics : List String) (draft : Draft) (stage : Stage × Nat) : Except Halt Draft :=
  (List.range stage.1.fanout).foldlM (placeSlot complexity ids job topics stage.2 stage.1 draft.stage)
    { draft with stage := [] }

end

/-- Compile a job into its task graph. `ids` are the identifiers drawn for its tasks. -/
def decompose (overflow : Overflow) (tools : TextTools) (ids : Nat → TaskId) (job : Job)
    (toposort : DiGraph TaskId → Except Nat (List Nat)) : Except Halt TaskGraph := do
  let complexity ← (estimateComplexity overflow tools job.request.objective).mapError Halt.panicked
  let plan := stages job.request.executionStrategy (max job.request.maxAgents 1)
  let widest := ((plan.map Stage.fanout).max?).getD 1
  let topics ← subtopics overflow tools job.request.objective widest
  let draft ← plan.zipIdx.foldlM (placeStage complexity ids job topics) ⟨.new job.id, 0, []⟩
  (draft.graph.assertAcyclic toposort).mapError Halt.failed
  pure draft.graph

/-- A graph as `decompose` leaves it: nothing has happened to its tasks yet. -/
structure TaskGraph.Untouched (g : TaskGraph) (jobId : JobId) (ids : Nat → TaskId) : Prop where
  own : g.jobId = jobId
  shaped : ∃ plan, g.Shaped plan ∧ ∀ node ∈ plan, node.blank = node
  tasks : ∀ node ∈ g.nodes.values, node.blank = node ∧ node.jobId = jobId ∧ ∃ k, node.id = ids k

theorem TaskGraph.insert_of_insertIndexed {g : TaskGraph} {node : TaskNode} {answer : TaskId × TaskGraph}
    (run : g.insertIndexed node = .ok answer) : g.insert node = .ok answer := by
  unfold TaskGraph.insertIndexed at run
  split at run
  · cases run
  · rename_i inserted
    split at run
    · exact inserted.trans (congrArg Except.ok (Except.ok.inj run))
    · cases run

/-- What a slot does to a draft, if it returns. -/
theorem placeSlot_ok {complexity : Nat} {ids : Nat → TaskId} {job : Job} {topics : List String} {stageIndex : Nat}
    {stage : Stage} {previous : List TaskId} {draft draft' : Draft} {slot : Nat}
    (run : placeSlot complexity ids job topics stageIndex stage previous draft slot = .ok draft') :
    ∃ id graph,
      draft.graph.insertIndexed (slotTask complexity job topics stageIndex stage previous slot (ids draft.drawn)) =
        .ok (id, graph) ∧ draft' = ⟨graph, draft.drawn + 1, draft.stage ++ [id]⟩ := by
  unfold placeSlot at run
  cases inserted : draft.graph.insertIndexed
      (slotTask complexity job topics stageIndex stage previous slot (ids draft.drawn)) with
  | error e => rw [inserted] at run; cases run
  | ok answer =>
    obtain ⟨id, graph⟩ := answer
    rw [inserted] at run
    cases run
    exact ⟨id, graph, rfl, rfl⟩

theorem ok_of_mapError {ε ε' α : Type} {change : ε → ε'} {ended : Except ε α} {answer : α}
    (run : ended.mapError change = .ok answer) : ended = .ok answer := by
  cases ended with
  | error => cases run
  | ok => exact congrArg Except.ok (Except.ok.inj run)

/-- A graph that is returned was drafted stage by stage, with one complexity and one list of topics. -/
theorem decompose_drafted {overflow : Overflow} {tools : TextTools} {ids : Nat → TaskId} {job : Job}
    {toposort : DiGraph TaskId → Except Nat (List Nat)} {graph : TaskGraph}
    (run : decompose overflow tools ids job toposort = .ok graph) : ∃ complexity topics draft,
    estimateComplexity overflow tools job.request.objective = .ok complexity ∧
    subtopics overflow tools job.request.objective
      ((((stages job.request.executionStrategy (max job.request.maxAgents 1)).map Stage.fanout).max?).getD 1) =
        .ok topics ∧
    (stages job.request.executionStrategy (max job.request.maxAgents 1)).zipIdx.foldlM
      (placeStage complexity ids job topics) ⟨.new job.id, 0, []⟩ = .ok draft ∧ draft.graph = graph := by
  unfold decompose at run
  simp only [bind, Except.bind] at run
  split at run
  · cases run
  · rename_i complexity estimated
    split at run
    · cases run
    · rename_i topics split
      split at run
      · cases run
      · rename_i draft built
        split at run
        · cases run
        · cases run
          exact ⟨complexity, topics, draft, ok_of_mapError estimated, split, built, rfl⟩

section
variable {overflow : Overflow} {tools : TextTools} {complexity : Nat} {ids : Nat → TaskId} {job : Job}

theorem placeSlot_untouched {topics : List String} {stageIndex : Nat} {stage : Stage} {previous : List TaskId}
    {draft draft' : Draft} {slot : Nat} (untouched : draft.graph.Untouched job.id ids)
    (run : placeSlot complexity ids job topics stageIndex stage previous draft slot = .ok draft') :
    draft'.graph.Untouched job.id ids ∧ draft'.graph.nodes.entries ≠ [] := by
  obtain ⟨id, graph, inserted, rfl⟩ := placeSlot_ok run
  obtain ⟨plan, shaped, blanks⟩ := untouched.shaped
  obtain ⟨_, rfl, fresh, known⟩ := shaped.of_insert (TaskGraph.insert_of_insertIndexed inserted)
  refine ⟨⟨untouched.own, ⟨_, shaped.place fresh known, ?_⟩, ?_⟩, by simp [TaskGraph.place, Dict.insert]⟩
  · intro node member
    rcases List.mem_append.mp member with old | new
    · exact blanks node old
    · rw [List.mem_singleton.mp new]
      rfl
  · intro node member
    obtain ⟨key, present⟩ := Dict.mem_values.mp member
    rcases Dict.mem_insert.mp present with ⟨old, _⟩ | new
    · exact untouched.tasks node (Dict.mem_values.mpr ⟨key, old⟩)
    · cases new
      exact ⟨rfl, rfl, draft.drawn, rfl⟩

theorem placeStage_untouched {topics : List String} {draft draft' : Draft} {stage : Stage × Nat}
    (untouched : draft.graph.Untouched job.id ids) (wide : 1 ≤ stage.1.fanout)
    (run : placeStage complexity ids job topics draft stage = .ok draft') :
    draft'.graph.Untouched job.id ids ∧ draft'.graph.nodes.entries ≠ [] := by
  unfold placeStage at run
  refine (foldlM_keeps (fun draft : Draft => draft.graph.Untouched job.id ids)
    (fun draft => draft.graph.Untouched job.id ids ∧ draft.graph.nodes.entries ≠ []) ?_ (fun _ done => done.1)
    run untouched).2 ?_
  · intro _ _ _ _ untouched run
    exact placeSlot_untouched untouched run
  · intro empty
    rw [List.range_eq_nil.mp empty] at wide
    cases wide

theorem one_le_fanout {strategy : ExecutionStrategy} {fanout : Nat} :
    ∀ stage ∈ stages strategy fanout, 1 ≤ stage.fanout := by
  cases strategy <;> simp [stages, Stage.new]
  rintro stage (⟨_, _, rfl⟩ | rfl) <;> exact Nat.le_refl 1

theorem stages_ne_nil (strategy : ExecutionStrategy) (fanout : Nat) : stages strategy fanout ≠ [] := by
  cases strategy <;> simp [stages]

/-- The planned graph holds at least one task, and nothing has happened to any. -/
theorem decompose_untouched {toposort : DiGraph TaskId → Except Nat (List Nat)} {graph : TaskGraph}
    (run : decompose overflow tools ids job toposort = .ok graph) :
    graph.Untouched job.id ids ∧ graph.nodes.entries ≠ [] := by
  obtain ⟨complexity, topics, draft, _, _, built, rfl⟩ := decompose_drafted run
  have start : (TaskGraph.new job.id).Untouched job.id ids :=
    ⟨rfl, ⟨[], TaskGraph.shaped_new job.id, by simp⟩, by simp [TaskGraph.new, Dict.values]⟩
  refine (foldlM_keeps (fun draft : Draft => draft.graph.Untouched job.id ids)
    (fun draft => draft.graph.Untouched job.id ids ∧ draft.graph.nodes.entries ≠ []) ?_ (fun _ done => done.1)
    built start).2 ?_
  · intro _ stage member _ untouched run
    exact placeStage_untouched untouched (one_le_fanout _ (List.fst_mem_of_mem_zipIdx member)) run
  · simpa using stages_ne_nil _ _

end

end Swarm
