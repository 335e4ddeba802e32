import Swarm.Domain.Task

namespace Swarm

inductive AgentType where
  | planner | research | coding | critic | verification | summarization | toolUse | dataAnalysis | securityReview
  | resultMerger | general
  deriving DecidableEq, Repr

namespace AgentType

/-- Capabilities an agent of this type advertises. -/
def capabilities : AgentType → List Capability
  | planner => [.planning, .general]
  | research => [.research, .general]
  | coding => [.coding, .toolUse, .general]
  | critic => [.review, .general]
  | verification => [.verification, .review, .general]
  | summarization => [.summarization, .general]
  | toolUse => [.toolUse, .general]
  | dataAnalysis => [.dataAnalysis, .general]
  | securityReview => [.securityReview, .review, .general]
  | resultMerger => [.merging, .summarization, .general]
  | general => [.general]

/-- The cheapest agent type that offers a capability. -/
def forCapability : Capability → AgentType
  | .planning => planner
  | .research => research
  | .coding => coding
  | .review => critic
  | .verification => verification
  | .summarization => summarization
  | .toolUse => toolUse
  | .dataAnalysis => dataAnalysis
  | .securityReview => securityReview
  | .merging => resultMerger
  | .general => general

def asStr : AgentType → String
  | planner => "planner"
  | research => "research"
  | coding => "coding"
  | critic => "critic"
  | verification => "verification"
  | summarization => "summarization"
  | toolUse => "tool_use"
  | dataAnalysis => "data_analysis"
  | securityReview => "security_review"
  | resultMerger => "result_merger"
  | general => "general"

end AgentType

def agentTypeFor : TaskKind → AgentType
  | .plan | .subplan | .supervise => .planner
  | .work | .map | .answer => .research
  | .critique => .critic
  | .verify | .vote | .judge => .verification
  | .reduce | .merge => .resultMerger
  | .summarize => .summarization

/-- An agent of the type a kind of task asks for can run it. -/
theorem agentTypeFor_supports (kind : TaskKind) :
    ∀ needed ∈ kind.requiredCapabilities, needed ∈ (agentTypeFor kind).capabilities := by
  cases kind <;> decide

structure ModelConfig where
  provider : String
  model : String
  temperature : Rat
  maxTokens : Nat
  deriving DecidableEq, Repr

def ModelConfig.default : ModelConfig := ⟨"mock", "mock-small", 1 / 5, 2048⟩

/-- Everything the scheduler knows about one agent. Rates and loads are exact. -/
structure AgentDescriptor where
  id : AgentId
  agentType : AgentType
  capabilities : List Capability
  status : AgentStatus
  nodeId : NodeId
  currentLoad : Rat
  successRate : Rat
  averageLatencyMs : Nat
  modelConfig : ModelConfig
  jobId : Option JobId
  currentTask : Option TaskId
  tasksCompleted : Nat
  tasksFailed : Nat
  createdAt : DateTime
  lastActiveAt : DateTime
  deriving DecidableEq, Repr

namespace AgentDescriptor

/-- `AgentDescriptor::new`. The identifier is drawn by the caller. -/
def new (id : AgentId) (agentType : AgentType) (nodeId : NodeId) (modelConfig : ModelConfig) (now : DateTime) :
    AgentDescriptor where
  id := id
  agentType := agentType
  capabilities := agentType.capabilities
  status := .created
  nodeId := nodeId
  currentLoad := 0
  successRate := 1
  averageLatencyMs := 0
  modelConfig := modelConfig
  jobId := none
  currentTask := none
  tasksCompleted := 0
  tasksFailed := 0
  createdAt := now
  lastActiveAt := now

def supports (agent : AgentDescriptor) (required : List Capability) : Bool :=
  required.all (fun needed => agent.capabilities.contains needed)

def isAvailable (agent : AgentDescriptor) : Bool := agent.status == .idle || agent.status == .registered

/-- Fold one attempt into the rolling reliability and latency. -/
def recordAttempt (agent : AgentDescriptor) (succeeded : Bool) (latencyMs : Nat) (now : DateTime) : AgentDescriptor :=
  { agent with
    tasksCompleted := if succeeded then agent.tasksCompleted + 1 else agent.tasksCompleted
    tasksFailed := if succeeded then agent.tasksFailed else agent.tasksFailed + 1
    successRate := 4 / 5 * agent.successRate + 1 / 5 * (if succeeded then 1 else 0)
    averageLatencyMs := if agent.averageLatencyMs = 0 then latencyMs else (agent.averageLatencyMs * 4 + latencyMs) / 5
    lastActiveAt := now }

end AgentDescriptor

end Swarm
