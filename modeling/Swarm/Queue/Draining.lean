import Swarm.Queue.Entries
import Swarm.Queue.Timed

namespace Swarm

/-- The first of two entries has a higher priority, or an equal one and is not younger. -/
def QueuedTask.Leads (left right : QueuedTask) : Prop :=
  right.priority.weight < left.priority.weight ∨
    (right.priority.weight = left.priority.weight ∧ left.enqueuedAt ≤ right.enqueuedAt)

/-- The entry as a granted lease holds it. -/
def QueuedTask.started (task : QueuedTask) : QueuedTask := { task with attempt := (task.attempt + 1) % 2 ^ 32 }

namespace QueuedTask
variable {left middle right : QueuedTask}

theorem greater_iff : left.greater right = true ↔ right.priority.weight < left.priority.weight ∨
    (left.priority.weight = right.priority.weight ∧ left.enqueuedAt < right.enqueuedAt) := by
  simp [greater]

theorem Leads.of_greater (greater : left.greater right = true) : left.Leads right := by
  rcases greater_iff.mp greater with higher | ⟨same, older⟩
  · exact Or.inl higher
  · exact Or.inr ⟨same.symm, Int.le_of_lt older⟩

theorem Leads.trans (first : left.Leads middle) (second : middle.Leads right) : left.Leads right := by
  rcases first with higher | ⟨same, older⟩ <;> rcases second with higher' | ⟨same', older'⟩
  · exact Or.inl (Nat.lt_trans higher' higher)
  · exact Or.inl (same' ▸ higher)
  · exact Or.inl (same ▸ higher')
  · exact Or.inr ⟨same'.trans same, Int.le_trans older older'⟩

theorem not_greater_iff : left.greater right = false ↔ right.Leads left := by
  constructor
  · intro passed
    have refused : ¬ _ := fun greater => Bool.noConfusion (passed.symm.trans (greater_iff.mpr greater))
    rw [not_or, not_and, Int.not_lt, Nat.not_lt] at refused
    rcases Nat.lt_or_eq_of_le refused.1 with higher | same
    · exact Or.inl higher
    · exact Or.inr ⟨same, refused.2 same⟩
  · intro leads
    rw [← Bool.not_eq_true, greater_iff]
    rintro (higher | ⟨same, younger⟩) <;> rcases leads with above | ⟨_, older⟩
    · exact absurd higher (Nat.lt_asymm above)
    · omega
    · omega
    · exact absurd younger (Int.not_lt.mpr older)

end QueuedTask

namespace InMemoryQueue
variable {overflow : Overflow} {q q' : InMemoryQueue} {now : DateTime} {queues : List String}
  {capabilities : List Capability}

/-- What is picked is eligible, and leads all that is eligible. -/
theorem pick_leads {task : QueuedTask} {rest : InMemoryQueue}
    (run : q.pick now queues capabilities = some (task, rest)) :
    eligible now queues capabilities task = true ∧
      ∀ other ∈ q.ready, eligible now queues capabilities other = true → task.Leads other := by
  unfold pick at run
  obtain ⟨place, chosen, run⟩ := Option.bind_eq_some_iff.mp run
  obtain ⟨taken, found, run⟩ := Option.bind_eq_some_iff.mp run
  cases run
  obtain ⟨⟨best, index⟩, most, rfl⟩ := Option.map_eq_some_iff.mp chosen
  obtain ⟨listed, fits⟩ := List.mem_filter.mp (Vec.maxBy_mem most)
  have same : best = task := Option.some.inj ((List.mem_zipIdx_iff_getElem?.mp listed).symm.trans found)
  subst same
  refine ⟨fits, ?_⟩
  intro other member eligible
  obtain ⟨i, there⟩ := List.mem_iff_getElem?.mp member
  have entry : (other, i) ∈ q.ready.zipIdx.filter
    (fun entry => InMemoryQueue.eligible now queues capabilities entry.1) :=
    List.mem_filter.mpr ⟨List.mem_zipIdx_iff_getElem?.mpr there, eligible⟩
  refine QueuedTask.not_greater_iff.mp (Vec.maxBy_greatest ?_ ?_ most _ entry)
  · exact fun left right greater => QueuedTask.not_greater_iff.mpr (QueuedTask.Leads.of_greater greater)
  · intro left middle right first second
    exact QueuedTask.not_greater_iff.mpr
      ((QueuedTask.not_greater_iff.mp second).trans (QueuedTask.not_greater_iff.mp first))

/-- Nothing is picked exactly if nothing is eligible. -/
theorem pick_eq_none :
    q.pick now queues capabilities = none ↔ q.ready.filter (eligible now queues capabilities) = [] := by
  have listed : q.ready.zipIdx.filter (fun entry => eligible now queues capabilities entry.1) = [] ↔
      q.ready.filter (eligible now queues capabilities) = [] := by
    simp only [List.filter_eq_nil_iff]
    constructor
    · intro none task member
      obtain ⟨i, there⟩ := List.mem_iff_getElem?.mp member
      exact none (task, i) (List.mem_zipIdx_iff_getElem?.mpr there)
    · rintro none ⟨task, i⟩ member
      exact none task (List.mem_of_getElem? (List.mem_zipIdx_iff_getElem?.mp member))
  rw [← listed]
  unfold pick
  cases chosen : q.position now queues capabilities with
  | none =>
    have empty := Vec.maxBy_eq_none.mp (Option.map_eq_none_iff.mp chosen)
    simp [empty]
  | some place =>
    obtain ⟨⟨best, index⟩, most, rfl⟩ := Option.map_eq_some_iff.mp chosen
    have member := Vec.maxBy_mem most
    have there := List.mem_zipIdx_iff_getElem?.mp (List.mem_filter.mp member).1
    have inhabited := List.ne_nil_of_mem member
    simp [there, inhabited]

/-- One answer of the queue takes an eligible entry out. -/
theorem dequeueFrom_leads {worker : String} {leaseId : LeaseId} {lease : TaskLease}
    (run : q.dequeueFrom worker queues capabilities now leaseId = (some lease, q')) :
    ∃ entry, lease.task = entry.started ∧ q.ready.Perm (entry :: q'.ready) ∧
      eligible now queues capabilities entry = true ∧
      (∀ other ∈ q.ready, eligible now queues capabilities other = true → entry.Leads other) ∧
      q'.leases = q.leases.insert leaseId lease ∧ q'.seen = q.seen ∧ q'.dead = q.dead := by
  obtain ⟨entry, rest, picked, taken, _, task, _, leases, seen⟩ := dequeueFrom_some run
  obtain ⟨fits, leads⟩ := pick_leads picked
  obtain ⟨_, same⟩ := pick_some picked
  refine ⟨entry, task, taken, fits, leads, leases, seen, ?_⟩
  unfold dequeueFrom at run
  rw [picked] at run
  cases run
  rw [same]

theorem dequeueFrom_eq_none {worker : String} {leaseId : LeaseId} :
    (q.dequeueFrom worker queues capabilities now leaseId).1 = none ↔
      q.ready.filter (eligible now queues capabilities) = [] := by
  rw [← pick_eq_none]
  unfold dequeueFrom
  cases q.pick now queues capabilities <;> simp

/-- What a drain delivers: exactly the eligible entries, each before those it leads. All others
stay where they are. -/
structure Drained (overflow : Overflow) (now : DateTime) (queues : List String) (capabilities : List Capability)
    (draws : List (String × LeaseId)) (q : InMemoryQueue) (delivered : List TaskLease)
    (q' : InMemoryQueue) : Prop where
  ordered : ∃ entries : List QueuedTask, entries.Perm (q.ready.filter (eligible now queues capabilities)) ∧
    delivered.map TaskLease.task = entries.map QueuedTask.started ∧ entries.Pairwise QueuedTask.Leads
  emptied : ∀ worker leaseId, Timed.dequeueFrom overflow q' worker queues capabilities now leaseId = .ok none q'
  ready : q'.ready.Perm (q.ready.filter (fun task => !eligible now queues capabilities task))
  leases : ∀ leaseId, leaseId ∉ draws.map Prod.snd → q'.leases.get? leaseId = q.leases.get? leaseId
  seen : q'.seen = q.seen
  dead : q'.dead = q.dead

theorem timed_dequeueFrom_empty (empty : q.ready.filter (eligible now queues capabilities) = []) (worker : String)
    (leaseId : LeaseId) : Timed.dequeueFrom overflow q worker queues capabilities now leaseId = .ok none q :=
  timed_dequeueFrom_none (pick_eq_none.mpr empty) worker leaseId

theorem Drained.nil (draws : List (String × LeaseId))
    (empty : q.ready.filter (eligible now queues capabilities) = []) :
    Drained overflow now queues capabilities draws q [] q where
  ordered := ⟨[], by rw [empty], rfl, List.Pairwise.nil⟩
  emptied := timed_dequeueFrom_empty empty
  ready := by
    have all : q.ready.filter (fun task => !eligible now queues capabilities task) = q.ready := by
      rw [List.filter_eq_self]
      intro task member
      simpa using List.filter_eq_nil_iff.mp empty task member
    rw [all]
  leases _ _ := rfl
  seen := rfl
  dead := rfl

/-- The first lease holds an entry that leads all the eligible ones, so it stands before the rest of the drain. -/
theorem Drained.cons {draws : List (String × LeaseId)} {worker : String} {leaseId : LeaseId} {lease : TaskLease}
    {delivered : List TaskLease} {q'' : InMemoryQueue}
    (run : q.dequeueFrom worker queues capabilities now leaseId = (some lease, q'))
    (rest : Drained overflow now queues capabilities draws q' delivered q'') :
    Drained overflow now queues capabilities ((worker, leaseId) :: draws) q (lease :: delivered) q'' := by
  obtain ⟨entry, task, taken, fits, leads, leases, seen, dead⟩ := dequeueFrom_leads run
  have part := taken.filter (eligible now queues capabilities)
  rw [List.filter_cons_of_pos fits] at part
  obtain ⟨entries, whole, tasks, ordered⟩ := rest.ordered
  refine ⟨⟨entry :: entries, (whole.cons entry).trans part.symm, ?_, List.pairwise_cons.mpr ⟨?_, ordered⟩⟩,
    rest.emptied, ?_, ?_, rest.seen.trans seen, rest.dead.trans dead⟩
  · rw [List.map_cons, List.map_cons, tasks, task]
  · intro other inside
    obtain ⟨member, eligible⟩ := List.mem_filter.mp (whole.mem_iff.mp inside)
    exact leads other (taken.mem_iff.mpr (List.mem_cons_of_mem _ member)) eligible
  · have others := taken.filter (fun task => !eligible now queues capabilities task)
    rw [List.filter_cons_of_neg (by simp [fits])] at others
    exact rest.ready.trans others.symm
  · intro other outside
    simp only [List.map_cons, List.mem_cons, not_or] at outside
    rw [rest.leases other outside.2, leases, Dict.get?_insert, if_neg outside.1]

/-- A dequeue takes one eligible entry, so as many draws as entries are enough. -/
theorem eligible_shrinks {draws : List (String × LeaseId)} {draw : String × LeaseId} {entry : QueuedTask}
    (taken : q.ready.Perm (entry :: q'.ready)) (fits : eligible now queues capabilities entry = true)
    (enough : (q.ready.filter (eligible now queues capabilities)).length < (draw :: draws).length) :
    (q'.ready.filter (eligible now queues capabilities)).length < draws.length := by
  have part := taken.filter (eligible now queues capabilities)
  rw [List.filter_cons_of_pos fits] at part
  have size := part.length_eq
  simp only [List.length_cons] at size enough
  omega

namespace Timed

/-- Dequeue with the same filters at one instant, as often as there are draws or until there is no
answer. A panic ends it. -/
def drain (overflow : Overflow) (now : DateTime) (queues : List String) (capabilities : List Capability) :
    List (String × LeaseId) → InMemoryQueue → QueueEnd (List TaskLease)
  | [], q => .ok [] q
  | (worker, leaseId) :: draws, q =>
    match dequeueFrom overflow q worker queues capabilities now leaseId with
    | .error panic q => .error panic q
    | .ok none q => .ok [] q
    | .ok (some lease) q =>
      match drain overflow now queues capabilities draws q with
      | .error panic q => .error panic q
      | .ok delivered q => .ok (lease :: delivered) q

end Timed

/-- As long as every eligible entry can be leased, the drain delivers them all, by induction on the draws. -/
theorem timed_drain_ordered (draws : List (String × LeaseId))
    (enough : (q.ready.filter (eligible now queues capabilities)).length < draws.length)
    (fits : ∀ task ∈ q.ready, eligible now queues capabilities task = true → task.leaseFits overflow now = true) :
    ∃ delivered q', Timed.drain overflow now queues capabilities draws q = .ok delivered q' ∧
      Drained overflow now queues capabilities draws q delivered q' := by
  induction draws generalizing q with
  | nil => cases enough
  | cons draw draws ih =>
    obtain ⟨worker, leaseId⟩ := draw
    have inside : ∀ task rest, q.pick now queues capabilities = some (task, rest) →
        task.leaseFits overflow now = true := by
      intro task rest picked
      have member := (pick_some picked).1.mem_iff.mpr List.mem_cons_self
      exact fits task member (pick_leads picked).1
    have timed := timed_dequeueFrom_fits inside worker leaseId
    cases run : q.dequeueFrom worker queues capabilities now leaseId with
    | mk answer q' =>
      rw [run] at timed
      cases answer with
      | none =>
        have empty : q.ready.filter (eligible now queues capabilities) = [] := by
          rw [← dequeueFrom_eq_none, run]
        have same : Timed.dequeueFrom overflow q worker queues capabilities now leaseId = .ok none q :=
          timed_dequeueFrom_empty empty worker leaseId
        refine ⟨[], q, ?_, Drained.nil _ empty⟩
        simp only [Timed.drain, same]
      | some lease =>
        obtain ⟨entry, _, taken, entryFits, _⟩ := dequeueFrom_leads run
        obtain ⟨delivered, q'', rest, drained⟩ := ih (eligible_shrinks taken entryFits enough)
          (fun task member => fits task (taken.mem_iff.mpr (List.mem_cons_of_mem _ member)))
        refine ⟨lease :: delivered, q'', ?_, drained.cons run⟩
        simp only [Timed.drain, timed, rest]

/-- A drain that ends without a panic has leased every eligible entry. -/
theorem timed_drain_fits (draws : List (String × LeaseId))
    (enough : (q.ready.filter (eligible now queues capabilities)).length < draws.length) {delivered : List TaskLease}
    (drained : Timed.drain overflow now queues capabilities draws q = .ok delivered q') {task : QueuedTask}
    (member : task ∈ q.ready) (fits : eligible now queues capabilities task = true) :
    task.leaseFits overflow now = true := by
  induction draws generalizing q delivered with
  | nil => cases enough
  | cons draw draws ih =>
    obtain ⟨worker, leaseId⟩ := draw
    by_cases inside : ∀ task rest, q.pick now queues capabilities = some (task, rest) →
        task.leaseFits overflow now = true
    · have timed := timed_dequeueFrom_fits inside worker leaseId
      cases run : q.dequeueFrom worker queues capabilities now leaseId with
      | mk answer left =>
        rw [run] at timed
        cases answer with
        | none =>
          have empty : q.ready.filter (eligible now queues capabilities) = [] := by
            rw [← dequeueFrom_eq_none, run]
          exact absurd fits (List.filter_eq_nil_iff.mp empty task member)
        | some lease =>
          obtain ⟨entry, rest, picked, taken, _⟩ := dequeueFrom_some run
          rcases List.mem_cons.mp (taken.mem_iff.mp member) with rfl | later
          · exact inside _ rest picked
          · simp only [Timed.drain, timed] at drained
            split at drained
            · cases drained
            · rename_i delivered after went
              cases drained
              exact ih (eligible_shrinks taken (pick_leads picked).1 enough) went later
    · push Not at inside
      obtain ⟨entry, rest, picked, outside⟩ := inside
      obtain ⟨panic, run⟩ := timed_dequeueFrom_panics picked (by simpa using outside) worker leaseId
      simp only [Timed.drain, run] at drained
      cases drained

/-- Draining follows priority, then age, exactly if each eligible entry can be leased: its attempt can
be counted, and its lease ends in the calendar. -/
theorem drain_ordered_iff (draws : List (String × LeaseId))
    (enough : (q.ready.filter (eligible now queues capabilities)).length < draws.length) :
    (∃ delivered q', Timed.drain overflow now queues capabilities draws q = .ok delivered q' ∧
      Drained overflow now queues capabilities draws q delivered q') ↔
    ∀ task ∈ q.ready, eligible now queues capabilities task = true → task.leaseFits overflow now = true := by
  constructor
  · rintro ⟨delivered, q', drained, _⟩ task member fits
    exact timed_drain_fits draws enough drained member fits
  · exact timed_drain_ordered draws enough

def lowTask : QueuedTask := QueuedTask.fromTask (TaskNode.new ⟨1⟩ ⟨0⟩ .work "a" "a" 0) .low 1000 0

def highTask : QueuedTask := QueuedTask.fromTask (TaskNode.new ⟨2⟩ ⟨0⟩ .work "b" "b" 0) .high 1000 0

def twoEntries : InMemoryQueue := { new with ready := [lowTask, highTask] }

def threeDraws : List (String × LeaseId) := [("w", ⟨1⟩), ("w", ⟨2⟩), ("w", ⟨3⟩)]

/-- Of two entries, the one of higher priority comes first. -/
theorem drain_two : ∃ delivered q', Timed.drain .wraps 0 [] [] threeDraws twoEntries = .ok delivered q' ∧
    Drained .wraps 0 [] [] threeDraws twoEntries delivered q' := by
  have enough : (twoEntries.ready.filter (eligible 0 [] [])).length < threeDraws.length := by decide +kernel
  refine (drain_ordered_iff _ enough).mpr ?_
  intro task member _
  simp only [twoEntries, List.mem_cons, List.not_mem_nil, or_false] at member
  rcases member with rfl | rfl <;> decide +kernel

/-- The lease of the second entry would end past the calendar. -/
def overlongEntries : InMemoryQueue := { new with ready := [lowTask, { highTask with leaseDurationMs := 2 ^ 62 }] }

/-- The first draw panics, and the entry that it had picked is gone. -/
theorem overlong_undrained :
    (¬ ∃ delivered q', Timed.drain .wraps 0 [] [] threeDraws overlongEntries = .ok delivered q') ∧
    (Timed.drain .wraps 0 [] [] threeDraws overlongEntries).queue.ready = [lowTask] := by
  refine ⟨?_, by decide +kernel⟩
  rintro ⟨delivered, q', drained⟩
  have panicked : (Timed.drain .wraps 0 [] [] threeDraws overlongEntries).answer.isNone = true := by decide +kernel
  rw [drained] at panicked
  cases panicked

end InMemoryQueue

end Swarm
