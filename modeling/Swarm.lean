import Swarm.Agent.Checkpoints
import Swarm.Agent.EffectivelyOnce
import Swarm.Agent.Lone
import Swarm.Coordinator.Aggregate
import Swarm.Coordinator.Ceiling
import Swarm.Coordinator.Citations
import Swarm.Coordinator.Cleanup
import Swarm.Coordinator.Completion
import Swarm.Coordinator.Consensus
import Swarm.Coordinator.Discipline
import Swarm.Coordinator.Distinct
import Swarm.Coordinator.Expiry
import Swarm.Coordinator.Findings
import Swarm.Coordinator.Headway
import Swarm.Coordinator.Ledger
import Swarm.Coordinator.Likeness
import Swarm.Coordinator.Losses
import Swarm.Coordinator.Neighbours
import Swarm.Coordinator.Progress
import Swarm.Coordinator.Recount
import Swarm.Coordinator.Reordering
import Swarm.Coordinator.Reports
import Swarm.Coordinator.Tally
import Swarm.Coordinator.Teardown
import Swarm.Coordinator.Termination
import Swarm.Coordinator.Thriving
import Swarm.Coordinator.Undisturbed
import Swarm.Domain.Agent
import Swarm.Domain.Atomicity
import Swarm.Domain.Backoff
import Swarm.Domain.Blocked
import Swarm.Domain.Built
import Swarm.Domain.Calendar
import Swarm.Domain.Layers
import Swarm.Domain.Navigation
import Swarm.Domain.Readiness
import Swarm.Domain.Slugs
import Swarm.Domain.Spend
import Swarm.Gateway.Circuits
import Swarm.Gateway.Crowd
import Swarm.Gateway.Failover
import Swarm.Gateway.Polling
import Swarm.Gateway.Questions
import Swarm.Gateway.Spend
import Swarm.Memory.Compaction
import Swarm.Memory.Swap
import Swarm.Memory.Timed
import Swarm.Memory.Visibility
import Swarm.Persistence.Epochs
import Swarm.Persistence.Record
import Swarm.Persistence.Truncation
import Swarm.Platform.Accounts
import Swarm.Platform.Balance
import Swarm.Platform.Flight
import Swarm.Platform.Model
import Swarm.Platform.Prompt
import Swarm.Platform.Refinement
import Swarm.Queue.Draining
import Swarm.Queue.Failures
import Swarm.Queue.Overruns
import Swarm.Queue.Replays
import Swarm.Queue.Timed
