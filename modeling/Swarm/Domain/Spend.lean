import Mathlib.Algebra.Group.Prod
import Swarm.Domain.Job

namespace Swarm

/-- Tokens in, tokens out and cost in USD. -/
abbrev Spend := Nat × Nat × Rat

def TaskResult.spend (result : TaskResult) : Spend := (result.tokensIn, result.tokensOut, result.costUsd)

def ExecutionStatistics.spend (statistics : ExecutionStatistics) : Spend :=
  (statistics.tokensIn, statistics.tokensOut, statistics.costUsd)

theorem ExecutionStatistics.setLatencyPercentiles_spend (statistics : ExecutionStatistics) (latenciesMs : List Nat) :
    (statistics.setLatencyPercentiles latenciesMs).spend = statistics.spend := by
  unfold setLatencyPercentiles
  split <;> rfl

end Swarm
