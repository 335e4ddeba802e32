import Swarm.Coordinator.Engine
import Swarm.Gateway.Request

namespace Swarm

/-- The system prompt for each agent type. -/
def systemPrompt (agentType : AgentType) : String :=
  let role := match agentType with
    | .planner =>
      "You break objectives into independent, verifiable subtasks. Prefer fewer, larger tasks over many trivial ones."
    | .research =>
        "You investigate one narrow question and report findings with sources. State what you could not establish."
    | .coding =>
      "You write correct, minimal code. Prefer the standard library. Explain only what is not obvious from the code."
    | .critic =>
      "You find the weakest claim in the work you are given and say precisely why it is weak. Do not rewrite the work."
    | .verification =>
      "You check claims against their stated evidence and report each as supported, unsupported, or contradicted."
    | .summarization => "You compress inputs without inventing anything. Keep numbers and caveats."
    | .toolUse => "You call only the tools you were permitted and report their raw results."
    | .dataAnalysis => "You compute over the data given and report figures with their units and sample sizes."
    | .securityReview => "You look for security weaknesses and rank them by exploitability and impact."
    | .resultMerger =>
      "You merge validated outputs, remove duplication, and surface contradictions instead of hiding them."
    | .general => "You complete the task you are given, accurately and briefly."
  role ++ "\n\nRespond with a single JSON object containing: summary (string), findings (array of strings), " ++
    "confidence (number between 0 and 1), evidence (array of objects with source, claim, support), and " ++
    "reasoning_summary (one short sentence). Do not include private deliberation."

/-- The user prompt for a task. What other tasks have put out is cut at 1,200 characters. -/
def renderPrompt (task : TaskNode) (context : TaskContext) : String :=
  let prompt :=
    s!"Task: {task.title}\nKind: {task.kind.asStr}\nObjective: {context.objective}\nInstruction: {task.description}\n"
  let prompt := match context.context with
    | some extra => prompt ++ s!"Background: {extra}\n"
    | none => prompt
  let prompt :=
    if context.upstream.isEmpty then prompt
    else
      context.upstream.foldl (fun prompt upstream =>
        let excerpt := String.ofList (upstream.output.toList.take 1200)
        prompt ++ s!"\n## {upstream.title}\n{excerpt}\n") (prompt ++ "\nUpstream results:\n")
  if context.allowedTools.isEmpty then prompt
  else prompt ++ "\nPermitted tools: " ++ String.intercalate ", " context.allowedTools ++ "\n"

/-- `amount / unit` to the nearest whole number, ties to even. -/
def nearestEven (amount unit : Nat) : Nat :=
  let floor := amount / unit
  let rest := 2 * (amount % unit)
  if rest < unit ∨ rest = unit ∧ floor % 2 = 0 then floor else floor + 1

/-- The bit pattern of the nearest `f32`. -/
def f32Bits (value : Rat) : UInt32 :=
  let amount := value.num.natAbs
  let guess : Int := (amount.log2 : Int) - value.den.log2
  let above : Bool :=
    if 0 ≤ guess then amount < value.den * 2 ^ guess.toNat else amount * 2 ^ (-guess).toNat < value.den
  -- subnormal values have the exponent of the least normal ones
  let exponent := max (-126) (if above then guess - 1 else guess)
  let shift := 23 - exponent
  let units :=
    if 0 ≤ shift then nearestEven (amount * 2 ^ shift.toNat) value.den
    else nearestEven amount (value.den * 2 ^ (-shift).toNat)
  -- the leading bit of a normal significand, and a carry out of it, count one up in the exponent
  let magnitude := if amount = 0 then 0 else min ((exponent + 126).toNat * 2 ^ 23 + units) 0x7f800000
  UInt32.ofNat (if value < 0 then 2 ^ 31 + magnitude else magnitude)

example : f32Bits ModelConfig.default.temperature = 0x3e4ccccd := by decide +kernel

/-- What `Agent::execute` asks the gateway. A retry does not take a cached answer. -/
def Dispatch.request (dispatch : Dispatch) : CompletionRequest :=
  { CompletionRequest.new dispatch.agent.modelConfig.model
      [⟨.system, systemPrompt dispatch.agent.agentType⟩, ⟨.user, renderPrompt dispatch.task dispatch.context⟩] with
    jsonMode := true
    temperature := some (f32Bits dispatch.agent.modelConfig.temperature)
    maxTokens := some (UInt32.ofNat dispatch.agent.modelConfig.maxTokens)
    idempotencyKey := dispatch.task.attemptKey
    bypassCache := decide (1 < dispatch.task.attempt)
    jobId := some dispatch.task.jobId
    taskId := some dispatch.task.id
    agentId := some dispatch.agent.id }

end Swarm
