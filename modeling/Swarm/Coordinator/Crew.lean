import Swarm.Coordinator.Staffing

namespace Swarm
open JobHandle

/-- The pool of a job next to the tasks in hand: every task has an agent of its own that can
run it, and every other agent is at rest. -/
structure Crew (agents : List AgentDescriptor) (dispatches : List Dispatch) : Prop where
  distinct : (agents.map AgentDescriptor.id).Nodup
  serving : ∀ dispatch ∈ dispatches, dispatch.agent ∈ agents ∧ dispatch.agent.status = .running ∧
    dispatch.agent.currentTask = some dispatch.task.id ∧
      dispatch.agent.supports dispatch.task.requiredCapabilities = true
  apart : (dispatches.map (fun dispatch => dispatch.agent.id)).Nodup
  resting : ∀ agent ∈ agents, agent.status = .idle ∧ agent.currentTask = none ∨
    ∃ dispatch ∈ dispatches, dispatch.agent = agent

namespace Crew
variable {agents agents' : List AgentDescriptor} {dispatches : List Dispatch} {agent : AgentDescriptor}

theorem perm (crew : Crew agents dispatches) (same : agents.Perm agents') : Crew agents' dispatches where
  distinct := (same.map AgentDescriptor.id).nodup_iff.mp crew.distinct
  serving dispatch member := ⟨same.mem_iff.mp (crew.serving dispatch member).1, (crew.serving dispatch member).2⟩
  apart := crew.apart
  resting agent member := crew.resting agent (same.mem_iff.mpr member)

theorem same_of_id (crew : Crew agents dispatches) {other : AgentDescriptor} (member : agent ∈ agents)
    (member' : other ∈ agents) (same : agent.id = other.id) : agent = other :=
  List.inj_on_of_nodup_map crew.distinct member member' same

/-- An available agent is idle: it serves no task. -/
theorem free (crew : Crew agents dispatches) (member : agent ∈ agents) (available : agent.isAvailable = true) :
    agent.status = .idle ∧ ∀ dispatch ∈ dispatches, dispatch.agent.id ≠ agent.id := by
  have idle : ∀ dispatch ∈ dispatches, dispatch.agent ≠ agent := by
    rintro dispatch inHand rfl
    have running := (crew.serving dispatch inHand).2.1
    simp [AgentDescriptor.isAvailable, running] at available
  refine ⟨?_, ?_⟩
  · rcases crew.resting agent member with rests | ⟨dispatch, inHand, same⟩
    · exact rests.1
    · exact absurd same (idle dispatch inHand)
  · intro dispatch inHand same
    exact idle dispatch inHand (crew.same_of_id (crew.serving dispatch inHand).1 member same)

/-- A new agent comes into the pool. -/
theorem hire (crew : Crew agents dispatches) (fresh : ∀ other ∈ agents, other.id ≠ agent.id)
    (rests : agent.status = .idle ∧ agent.currentTask = none) : Crew (agent :: agents) dispatches := by
  refine ⟨?_, ?_, crew.apart, ?_⟩
  · rw [List.map_cons, List.nodup_cons]
    refine ⟨?_, crew.distinct⟩
    rintro known
    obtain ⟨other, member, same⟩ := List.mem_map.mp known
    exact fresh other member same
  · intro dispatch inHand
    obtain ⟨member, rest⟩ := crew.serving dispatch inHand
    exact ⟨List.mem_cons_of_mem _ member, rest⟩
  · intro other member
    rcases List.mem_cons.mp member with rfl | old
    · exact Or.inl rests
    · exact crew.resting other old

/-- An available agent leaves the pool. -/
theorem dismiss (crew : Crew (agent :: agents) dispatches) (available : agent.isAvailable = true) :
    Crew agents dispatches := by
  have free := crew.free List.mem_cons_self available
  refine ⟨(List.nodup_cons.mp crew.distinct).2, ?_, crew.apart, fun other member =>
    crew.resting other (List.mem_cons_of_mem _ member)⟩
  intro dispatch inHand
  obtain ⟨member, rest⟩ := crew.serving dispatch inHand
  refine ⟨?_, rest⟩
  rcases List.mem_cons.mp member with same | old
  · exact absurd (congrArg AgentDescriptor.id same) (free.2 dispatch inHand)
  · exact old

theorem erase (crew : Crew agents dispatches) {index : Nat} {inside : index < agents.length}
    (available : agents[index].isAvailable = true) : Crew (agents.eraseIdx index) dispatches :=
  (crew.perm (List.getElem_cons_eraseIdx_perm inside).symm).dismiss available

end Crew

/-- An agent that has been given a task. -/
def engaged (task : TaskNode) (now : DateTime) (agent : AgentDescriptor) : AgentDescriptor :=
  { agent with status := .running, currentTask := some task.id, currentLoad := 1, lastActiveAt := now }

namespace Engine
variable {config : CoordinatorConfig} {preference : List AgentDescriptor → Nat} {task : TaskNode} {now : DateTime}

/-- Whatever the strategy prefers, it picks a candidate as long as there is one. -/
theorem select_cases (preference : List AgentDescriptor → Nat) (task : TaskNode) (agents : List AgentDescriptor) :
    candidates task agents = [] ∧ select preference task agents = none ∨
      ∃ agent ∈ candidates task agents, select preference task agents = some agent.id := by
  unfold select
  cases found : (candidates task agents)[preference (candidates task agents) % (candidates task agents).length]? with
  | some agent =>
    obtain ⟨inside, value⟩ := List.getElem?_eq_some_iff.mp found
    exact Or.inr ⟨agent, value ▸ List.getElem_mem inside, by simp only [found, Option.map_some]⟩
  | none =>
    refine Or.inl ⟨?_, by simp only [found, Option.map_none]⟩
    have outside := List.getElem?_eq_none_iff.mp found
    by_contra some
    have inside := Nat.mod_lt (preference (candidates task agents)) (List.length_pos_iff.mpr some)
    omega

theorem mem_candidates {agents : List AgentDescriptor} {agent : AgentDescriptor} : agent ∈ candidates task agents ↔
    agent ∈ agents ∧ agent.isAvailable = true ∧ agent.supports task.requiredCapabilities = true := by
  simp only [candidates, List.mem_filter, Bool.and_eq_true]

theorem settleAgent_idle {agent : AgentDescriptor} (running : agent.status = .running) (succeeded : Bool)
    (latencyMs : Nat) (now : DateTime) : (settleAgent succeeded latencyMs now agent).status = .idle ∧
      (settleAgent succeeded latencyMs now agent).currentTask = none ∧
      (settleAgent succeeded latencyMs now agent).id = agent.id := by
  refine ⟨?_, rfl, rfl⟩
  simp only [settleAgent, AgentDescriptor.recordAttempt, running]
  cases succeeded <;> rfl

end Engine

namespace Crew
open Engine
variable {agents agents' : List AgentDescriptor} {dispatches : List Dispatch} {agent : AgentDescriptor}
  {config : CoordinatorConfig} {preference : List AgentDescriptor → Nat} {task : TaskNode} {now : DateTime}

theorem assign_cases (crew : Crew agents dispatches) (preference : List AgentDescriptor → Nat) (task : TaskNode)
    (now : DateTime) : candidates task agents = [] ∧ assign preference now task agents = none ∨
      ∃ agent ∈ candidates task agents, assign preference now task agents = some (engaged task now agent,
        Vec.modifyFirst (fun pooled => pooled.id == agent.id) (fun _ => engaged task now agent) agents) := by
  rcases select_cases preference task agents with ⟨none, unplaced⟩ | ⟨agent, candidate, chosen⟩
  · refine Or.inl ⟨none, ?_⟩
    simp only [assign, unplaced, Option.bind_eq_bind, Option.bind_none]
  · obtain ⟨member, available, _⟩ := mem_candidates.mp candidate
    have found := Vec.find?_key crew.distinct member
    have idle := (crew.free member available).1
    refine Or.inr ⟨agent, candidate, ?_⟩
    simp only [assign, chosen, found, idle, Option.bind_eq_bind, Option.bind_some]
    rfl

/-- An available agent takes a task that it can run. -/
theorem engage (crew : Crew agents dispatches) (candidate : agent ∈ candidates task agents) {dispatch : Dispatch}
    (served : dispatch.agent = engaged task now agent) (id : dispatch.task.id = task.id)
    (needs : dispatch.task.requiredCapabilities = task.requiredCapabilities) :
    Crew (Vec.modifyFirst (fun pooled => pooled.id == agent.id) (fun _ => engaged task now agent) agents)
      (dispatches ++ [dispatch]) := by
  obtain ⟨member, available, supports⟩ := mem_candidates.mp candidate
  have others := (crew.free member available).2
  have kept : (Vec.modifyFirst (fun pooled => pooled.id == agent.id) (fun _ => engaged task now agent) agents).map
      AgentDescriptor.id = agents.map AgentDescriptor.id := by
    refine Vec.map_modifyFirst ?_ agents
    exact fun _ wanted => (beq_iff_eq.mp wanted).symm
  have inside : ∀ {other : AgentDescriptor}, other ∈ Vec.modifyFirst (fun pooled => pooled.id == agent.id)
      (fun _ => engaged task now agent) agents ↔ other = engaged task now agent ∨
        other ∈ agents ∧ other.id ≠ agent.id :=
    Vec.mem_modifyFirst_key crew.distinct member
  refine ⟨by rw [kept]; exact crew.distinct, ?_, ?_, ?_⟩
  · intro other inHand
    rcases List.mem_append.mp inHand with old | last
    · obtain ⟨pooled, rest⟩ := crew.serving other old
      exact ⟨inside.mpr (Or.inr ⟨pooled, others other old⟩), rest⟩
    · cases List.mem_singleton.mp last
      refine ⟨inside.mpr (Or.inl served), by rw [served]; rfl, by rw [served, id]; rfl, ?_⟩
      rw [served, needs]
      exact supports
  · rw [List.map_append, List.nodup_append]
    refine ⟨crew.apart, List.nodup_singleton _, ?_⟩
    intro old known last here same
    obtain ⟨other, inHand, rfl⟩ := List.mem_map.mp known
    rw [List.map_singleton, List.mem_singleton, served] at here
    exact others other inHand (same.trans here)
  · intro other pooled
    rcases inside.mp pooled with rfl | ⟨old, _⟩
    · exact Or.inr ⟨dispatch, List.mem_append_right _ (List.mem_singleton.mpr rfl), served⟩
    · rcases crew.resting other old with rests | ⟨earlier, inHand, same⟩
      · exact Or.inl rests
      · exact Or.inr ⟨earlier, List.mem_append_left _ inHand, same⟩

/-- The agent of the first task in hand comes back to rest. -/
theorem settle {dispatch : Dispatch} (crew : Crew agents (dispatch :: dispatches)) (succeeded : Bool)
    (latencyMs : Nat) (now : DateTime) : Crew (Vec.modifyFirst (fun pooled => pooled.id == dispatch.agent.id)
      (settleAgent succeeded latencyMs now) agents) dispatches := by
  obtain ⟨member, running, _⟩ := crew.serving dispatch List.mem_cons_self
  obtain ⟨idle, released, _⟩ := settleAgent_idle running succeeded latencyMs now
  have apart := crew.apart
  rw [List.map_cons, List.nodup_cons] at apart
  have kept : (Vec.modifyFirst (fun pooled => pooled.id == dispatch.agent.id)
      (settleAgent succeeded latencyMs now) agents).map
      AgentDescriptor.id = agents.map AgentDescriptor.id := by
    refine Vec.map_modifyFirst ?_ agents
    exact fun _ _ => rfl
  have inside : ∀ {other : AgentDescriptor}, other ∈ Vec.modifyFirst (fun pooled => pooled.id == dispatch.agent.id)
      (settleAgent succeeded latencyMs now) agents ↔
        other = settleAgent succeeded latencyMs now dispatch.agent ∨ other ∈ agents ∧ other.id ≠ dispatch.agent.id :=
    Vec.mem_modifyFirst_key crew.distinct member
  refine ⟨by rw [kept]; exact crew.distinct, ?_, apart.2, ?_⟩
  · intro other inHand
    obtain ⟨pooled, rest⟩ := crew.serving other (List.mem_cons_of_mem _ inHand)
    refine ⟨inside.mpr (Or.inr ⟨pooled, ?_⟩), rest⟩
    intro same
    exact apart.1 (List.mem_map.mpr ⟨other, inHand, same⟩)
  · intro other pooled
    rcases inside.mp pooled with rfl | ⟨old, different⟩
    · exact Or.inl ⟨idle, released⟩
    · rcases crew.resting other old with rests | ⟨earlier, inHand, rfl⟩
      · exact Or.inl rests
      · rcases List.mem_cons.mp inHand with rfl | later
        · exact absurd rfl different
        · exact Or.inr ⟨earlier, later, rfl⟩

/-- What comes of the search for an agent. -/
structure Acquired (agents : List AgentDescriptor) (dispatches : List Dispatch) (task : TaskNode)
    (found : Option AgentDescriptor) (agents' : List AgentDescriptor) : Prop where
  unserved : found = none → Crew agents' dispatches
  served : ∀ agent, found = some agent → ∀ dispatch : Dispatch, dispatch.agent = agent → dispatch.task.id = task.id →
    dispatch.task.requiredCapabilities = task.requiredCapabilities → Crew agents' (dispatches ++ [dispatch])
  fewer : agents.countP AgentDescriptor.isAvailable ≤ agents'.countP AgentDescriptor.isAvailable + 1
  succeeds : task.requiredCapabilities = task.kind.requiredCapabilities →
    0 < agents.countP AgentDescriptor.isAvailable →
    found.isSome = true

theorem acquired_of_assign (crew : Crew agents dispatches) (candidate : agent ∈ candidates task agents) :
    Acquired agents dispatches task (some (engaged task now agent))
      (Vec.modifyFirst (fun pooled => pooled.id == agent.id) (fun _ => engaged task now agent) agents) where
  unserved absurd := by cases absurd
  served _ same _ serves := crew.engage candidate (serves.trans (Option.some.inj same).symm)
  fewer := Vec.countP_le_modifyFirst _ _ _ _
  succeeds _ _ := rfl

/-- A fresh agent for a kind of task can run it. -/
theorem freshAgent_candidate {id : AgentId} {jobId : JobId}
    (exact : task.requiredCapabilities = task.kind.requiredCapabilities)
    (member : freshAgent config id (agentTypeFor task.kind) jobId now ∈ agents) :
    freshAgent config id (agentTypeFor task.kind) jobId now ∈ candidates task agents := by
  refine mem_candidates.mpr ⟨member, rfl, ?_⟩
  rw [AgentDescriptor.supports, List.all_eq_true, exact]
  intro needed listed
  exact List.contains_iff_mem.mpr (agentTypeFor_supports task.kind needed listed)

/-- Where an agent is available and the task needs what its kind needs, an agent is found. -/
theorem acquire (crew : Crew agents dispatches) (config : CoordinatorConfig) (preference : List AgentDescriptor → Nat)
    {id : AgentId} (fresh : ∀ other ∈ agents, other.id ≠ id) (now : DateTime) (jobId : JobId) (task : TaskNode) :
    ∃ found agents', acquireAgent config preference id now jobId task agents = (found, agents') ∧
      Acquired agents dispatches task found agents' := by
  unfold acquireAgent
  rcases crew.assign_cases preference task now with ⟨_, unplaced⟩ | ⟨agent, candidate, placed⟩
  · rw [unplaced, respecialise_eq]
    cases position : agents.findIdx? AgentDescriptor.isAvailable with
    | none =>
      refine ⟨none, agents, rfl, fun _ => crew, fun _ absurd => (by cases absurd), Nat.le_succ _, ?_⟩
      intro _ some
      obtain ⟨agent, member, available⟩ := List.countP_pos_iff.mp some
      have busy := List.findIdx?_eq_none_iff.mp position agent member
      rw [available] at busy
      cases busy
    | some index =>
      obtain ⟨inside, available, _⟩ := List.findIdx?_eq_some_iff_getElem.mp position
      let new := freshAgent config id (agentTypeFor task.kind) jobId now
      have shuffled : (new :: agents.eraseIdx index).Perm (agents.set index new) :=
        (List.set_perm_cons_eraseIdx inside new).symm
      have crew' : Crew (agents.set index new) dispatches := by
        refine ((crew.erase available).hire ?_ ⟨rfl, rfl⟩).perm shuffled
        exact fun other member => fresh other (List.mem_of_mem_eraseIdx member)
      have count : (agents.set index new).countP AgentDescriptor.isAvailable =
          agents.countP AgentDescriptor.isAvailable := by
        rw [← shuffled.countP_eq, ← (List.getElem_cons_eraseIdx_perm inside).countP_eq, List.countP_cons_of_pos rfl,
          List.countP_cons_of_pos available]
      simp only [Option.map_some]
      rcases crew'.assign_cases preference task now with ⟨nobody, unplaced'⟩ | ⟨agent, candidate, placed⟩
      · refine ⟨none, agents.set index new, by rw [unplaced'], fun _ => crew', fun _ absurd => (by cases absurd),
          by rw [count]; exact Nat.le_succ _, ?_⟩
        intro exact _
        have candidate := freshAgent_candidate exact (shuffled.mem_iff.mp List.mem_cons_self)
        rw [nobody] at candidate
        cases candidate
      · have acquired : Acquired (agents.set index new) dispatches task (some (engaged task now agent)) _ :=
          acquired_of_assign crew' candidate
        exact ⟨_, _,
          by rw [placed], acquired.unserved, acquired.served, by rw [← count]; exact acquired.fewer, fun _ _ => rfl⟩
  · exact ⟨_, _, by rw [placed], acquired_of_assign crew candidate⟩

end Crew

namespace Engine

/-- Reclaiming takes available agents from the pool, and keeps one. -/
theorem reclaim_crew (cutoff : DateTime) (fuel : Nat) {agents : List AgentDescriptor} {dispatches : List Dispatch}
    (crew : Crew agents dispatches) :
    Crew (reclaim cutoff fuel agents).1 dispatches ∧ (agents ≠ [] → (reclaim cutoff fuel agents).1 ≠ []) := by
  induction fuel generalizing agents with
  | zero => exact ⟨crew, id⟩
  | succ fuel ih =>
    unfold reclaim
    split
    · rename_i several
      split
      · exact ⟨crew, id⟩
      · rename_i index stale
        obtain ⟨inside, old, _⟩ := List.findIdx?_eq_some_iff_getElem.mp stale
        simp only [Bool.and_eq_true] at old
        have left : agents.eraseIdx index ≠ [] := by
          intro none
          have size := List.length_eraseIdx_of_lt inside
          rw [none, List.length_nil] at size
          omega
        obtain ⟨crew', some⟩ := ih (crew.erase old.1)
        exact ⟨crew', fun _ => some left⟩
    · exact ⟨crew, id⟩

end Engine

end Swarm
