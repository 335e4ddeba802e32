import Mathlib.Data.Prod.Lex
import Mathlib.Order.OrderIsoNat
import Swarm.Coordinator.Lifetimes
import Swarm.Coordinator.Charges
import Swarm.Coordinator.Progress
import Swarm.Coordinator.Resume

namespace Swarm
open JobHandle Act

namespace Pc

/-- The points of the loop in the order in which a tick passes them, from the last one up. -/
def rank : Pc → Nat
  | .idle | .returned _ => 0
  | .top | .refunding .. => 1
  | .finishing _ => 2
  | .cancelling => 3
  | .applying _ => 4
  | .executing _ | .deciding => 5
  | .releasing .. => 6
  | .collecting .. | .dropping .. => 7
  | .reclaiming .. => 8
  | .growing .. => 9
  | .scaling .. => 10
  | .maintaining _ => 11
  | .promoting .. => 12
  | .waiting => 13

/-- The rounds that a loop within the tick has left. -/
def rounds : Pc → Nat
  | .promoting todo _ => todo.length
  | .collecting left _ _ => 2 * left
  | .dropping _ left _ _ => 2 * left + 1
  | .applying todo => todo.length
  | _ => 0

end Pc

namespace Engine
variable {config : CoordinatorConfig} {toposort : DiGraph TaskId → Except Nat (List Nat)} {input : EngineInput}
  {run run' : JobRun} {shared : Shared}

end Engine

namespace Cluster
variable {config : CoordinatorConfig} {tools : TextTools} {toposort : DiGraph TaskId → Except Nat (List Nat)}

end Cluster

/-- A step before which every execution in hand has come to its end. -/
def answering (c : Cluster) (now : Nat) : EngineInput :=
  { plainInput now with
    agentIds := fun k => ⟨100 * now + k⟩
    outcomes := some ((dispatchesOf c ⟨1⟩).map outcomeOf) }

/-- The engine of the job takes one step after the other. -/
def serving : Nat → Cluster
  | 0 => relayed
  | n + 1 => (serving n).apply sampleConfig sampleReader DiGraph.sort (.engine ⟨1⟩ (answering (serving n) n))

/-- The job has ended, and nothing is left in the queue. -/
structure Cluster.Served (c : Cluster) : Prop where
  unleased : c.shared.queue.leases.entries = []
  job : ∃ run, c.jobs.get? ⟨1⟩ = some run ∧ run.pc.isActive = false ∧ run.handle.job.status.isFinished = true ∧
    run.handle.finalResult.isSome = true ∧ run.handle.control = .running ∧
      ∀ agent ∈ run.handle.agents, agent.id.uuid < 2200

theorem Cluster.Served.answering {c : Cluster} (served : c.Served) (now : Nat) :
    (c.apply sampleConfig sampleReader DiGraph.sort (.engine ⟨1⟩ (answering c now))).Served := by
  obtain ⟨unleased, run, found, inactive, finished, final, running, ids⟩ := served
  obtain ⟨result, known⟩ := Option.isSome_iff_exists.mp final
  have ends : Engine.step sampleConfig DiGraph.sort (Swarm.answering c now) run c.shared =
      ({ run with pc := .returned (.ok result) }, c.shared) := by
    have again : Engine.stepIdle sampleConfig DiGraph.sort (Swarm.answering c now) run c.shared =
        ({ run with pc := .returned (.ok result) }, c.shared) := by
      simp only [Engine.stepIdle, finished, if_true, known]
    cases here : run.pc with
    | idle | returned =>
      simp only [Engine.step, here]
      exact again
    | _ =>
      rw [here] at inactive
      cases inactive
  simp only [Cluster.apply, Cluster.engine, found, ends]
  exact ⟨unleased, _, Dict.get?_insert_self, rfl, finished, by rw [known]; rfl, running, ids⟩

end Swarm
