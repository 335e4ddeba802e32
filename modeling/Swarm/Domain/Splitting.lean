import Swarm.Domain.Paths

namespace Swarm.TaskGraph
variable {g : TaskGraph} {slack : Nat}

theorem get_place (node : TaskNode) (other : TaskId) :
    (g.place node).get other = if other = node.id then some node else g.get other := Dict.get?_insert

theorem insert_fresh {node : TaskNode} (fresh : g.get node.id = none)
    (known : ∀ dependency ∈ node.dependencies, (g.get dependency).isSome = true) :
    g.insert node = .ok (node.id, g.place node) := by
  have complete : node.dependencies.find? (fun dependency => (g.get dependency).isNone) = none := by
    refine List.find?_eq_none.mpr ?_
    intro dependency depends missing
    rw [Option.isNone_iff_eq_none] at missing
    have present := known dependency depends
    rw [missing] at present
    cases present
  unfold TaskGraph.insert
  rw [fresh, complete]
  rfl

/-- The edges as the task records have them. -/
theorem Agrees.feeds_iff_record (agrees : g.Agrees slack) {dependency task : TaskId} :
    g.Feeds dependency task ↔ ∃ node, g.get task = some node ∧ dependency ∈ node.dependencies :=
  agrees.feeds_dependents.trans agrees.mem_dependents

/-- Both ends of an edge are tasks. -/
theorem Agrees.feeds_known (agrees : g.Agrees slack) {dependency task : TaskId} (feeds : g.Feeds dependency task) :
    (g.get dependency).isSome = true ∧ (g.get task).isSome = true := by
  obtain ⟨_, _, origin, goal, _⟩ := agrees.feeds_iff.mp feeds
  rw [← agrees.known, ← agrees.known, origin, goal]
  exact ⟨rfl, rfl⟩

section
variable {child : TaskNode} (agrees : g.Agrees slack) (fresh : g.get child.id = none)
  (known : ∀ dependency ∈ child.dependencies, (g.get dependency).isSome = true)
include agrees fresh known

theorem feeds_place {dependency task : TaskId} : (g.place child).Feeds dependency task ↔
    if task = child.id then dependency ∈ child.dependencies else g.Feeds dependency task := by
  have missing : ¬ (g.get child.id).isSome = true := by rw [fresh]; exact Bool.false_ne_true
  rw [(agrees.place missing known).feeds_iff_record, get_place]
  by_cases same : task = child.id
  · rw [if_pos same, if_pos same]
    constructor
    · rintro ⟨node, found, depends⟩
      cases found
      exact depends
    · exact fun depends => ⟨child, rfl, depends⟩
  · rw [if_neg same, if_neg same, agrees.feeds_iff_record]

/-- A task that is new is the end of its paths. -/
theorem path_place {source target : TaskId} (path : Relation.TransGen (g.place child).Feeds source target)
    (old : target ≠ child.id) : Relation.TransGen g.Feeds source target := by
  refine Rewiring.transGen_sink ?_ ?_ path old
  · intro a b feeds
    rw [feeds_place agrees fresh known] at feeds
    split at feeds
    · rename_i same
      exact Or.inr same
    · exact Or.inl feeds
  · rintro a b feeds rfl
    rw [feeds_place agrees fresh known] at feeds
    have present : (g.get child.id).isSome = true := by
      split at feeds
      · exact known _ feeds
      · exact (agrees.feeds_known feeds).1
    rw [fresh] at present
    cases present

end

/-- One child is taken in: it inherits the dependencies, and the task waits for it. -/
theorem adopt_step {toposort : DiGraph TaskId → Except Nat (List Nat)} (detects : Detects toposort) {task : TaskId}
    (child : TaskNode) (agrees : g.Agrees slack) (enough : slack ≤ child.dependencies.length) {node : TaskNode}
    (found : g.get task = some node) (known : ∀ dependency ∈ child.dependencies, (g.get dependency).isSome = true)
    (apart : ∀ dependency ∈ child.dependencies, dependency ≠ task ∧ ¬ Relation.TransGen g.Feeds task dependency)
    (fresh : g.get child.id = none) :
    ∃ next, (g.place child).addDependency toposort task child.id = (.ok (), next) ∧ next.Agrees 0 ∧
      (∀ other, next.get other =
        if other = task then some { node with dependencies := node.dependencies ++ [child.id] }
        else if other = child.id then some child else g.get other) ∧
      ∀ dependency ∈ child.dependencies, ¬ Relation.TransGen next.Feeds task dependency := by
  have missing : ¬ (g.get child.id).isSome = true := by rw [fresh]; exact Bool.false_ne_true
  have placed := agrees.place missing known
  rw [Nat.sub_eq_zero_of_le enough] at placed
  have other : task ≠ child.id := by
    rintro rfl
    rw [fresh] at found
    cases found
  have old : ∀ dependency ∈ child.dependencies, dependency ≠ child.id := by
    rintro dependency depends rfl
    exact missing (known _ depends)
  have present : (g.place child).get task = some node := by rw [get_place, if_neg other, found]
  have behind : ¬ Relation.TransGen (g.place child).Feeds task child.id := by
    intro path
    obtain ⟨dependency, before, feeds⟩ := Relation.TransGen.tail'_iff.mp path
    rw [feeds_place agrees fresh known, if_pos rfl] at feeds
    rcases Relation.reflTransGen_iff_eq_or_transGen.mp before with same | path
    · exact (apart dependency feeds).1 same
    · exact (apart dependency feeds).2 (path_place agrees fresh known path (old dependency feeds))
  have presentTask : ((g.place child).get task).isSome = true := by rw [present]; rfl
  have presentChild : ((g.place child).get child.id).isSome = true := by rw [get_place, if_pos rfl]; rfl
  obtain ⟨taskIndex, goal⟩ := placed.index_of_get presentTask
  obtain ⟨childIndex, origin⟩ := placed.index_of_get presentChild
  have accepted : child.id ∉ node.dependencies ∧ (g.place child).addDependency toposort task child.id =
      (.ok (), (g.place child).linked task child.id taskIndex childIndex) := by
    rcases placed.addDependency_cases detects present goal origin with ⟨same | path, _⟩ | ⟨_, listed, _⟩
      | ⟨_, absent, run⟩
    · exact absurd same other
    · exact absurd path behind
    · have known' := (agrees.feeds_known ((agrees.feeds_record found).mpr listed)).1
      exact absurd known' missing
    · exact ⟨absent, run⟩
  obtain ⟨_, run⟩ := accepted
  have after := (placed.addDependency detects task child.id).1
  rw [run] at after
  refine ⟨_, run, after, ?_, ?_⟩
  · intro id
    rw [get_linked, present]
    split
    · rfl
    · exact get_place child id
  · intro dependency depends path
    have new : ∀ a b, ((g.place child).linked task child.id taskIndex childIndex).Feeds a b →
        (g.place child).Feeds a b ∨ (a = child.id ∧ b = task) := by
      intro a b feeds
      unfold Feeds at feeds ⊢
      rw [dependencies_linked placed goal origin] at feeds
      split at feeds
      · rename_i same
        subst same
        rcases List.mem_cons.mp feeds with here | before
        · exact Or.inr ⟨here, rfl⟩
        · exact Or.inl before
      · exact Or.inl feeds
    rcases Rewiring.transGen_add new path with within | ⟨there, _⟩
    · exact (apart dependency depends).2 (path_place agrees fresh known within (old dependency depends))
    · rcases Relation.reflTransGen_iff_eq_or_transGen.mp there with same | path
      · exact other same.symm
      · exact behind path

/-- What `split` has done to the records: the task waits for the children, which take over what it waited for. -/
def adopted (g : TaskGraph) (task : TaskId) (node : TaskNode) (inherited : List TaskId) (children : List TaskNode)
    (other : TaskId) : Option TaskNode :=
  if other = task then some { node with dependencies := node.dependencies ++ children.map TaskNode.id }
  else match children.find? (fun child => child.id = other) with
    | some child => some { child with dependencies := inherited }
    | none => g.get other

/-- Children with new ids are all taken in, where the task is not behind what they inherit. -/
theorem adoptChildren_ok {toposort : DiGraph TaskId → Except Nat (List Nat)}
    (detects : Detects toposort) {task : TaskId} {inherited : List TaskId} (children : List TaskNode)
    (childIds : List TaskId) {g : TaskGraph} {slack : Nat} (agrees : g.Agrees slack)
    (enough : slack ≤ inherited.length) {node : TaskNode} (found : g.get task = some node)
    (known : ∀ dependency ∈ inherited, (g.get dependency).isSome = true)
    (apart : ∀ dependency ∈ inherited, dependency ≠ task ∧ ¬ Relation.TransGen g.Feeds task dependency)
    (fresh : ∀ child ∈ children, g.get child.id = none) (distinct : (children.map TaskNode.id).Nodup) :
    ∃ next, g.adoptChildren toposort task inherited children childIds =
      (.ok (childIds ++ children.map TaskNode.id), next) ∧
      ∀ other, next.get other = g.adopted task node inherited children other := by
  induction children generalizing childIds g slack node with
  | nil =>
    refine ⟨g, by rw [List.map_nil, List.append_nil]; rfl, ?_⟩
    intro other
    unfold adopted
    split
    · rename_i same
      rw [same, found, List.map_nil, List.append_nil]
    · rfl
  | cons child rest ih =>
    obtain ⟨unlisted, distinct⟩ := List.nodup_cons.mp distinct
    have missing := fresh child List.mem_cons_self
    obtain ⟨next, run, agrees', records, apart'⟩ := adopt_step detects { child with dependencies := inherited }
      agrees enough found known apart missing
    have found' : next.get task = some { node with dependencies := node.dependencies ++ [child.id] } := by
      rw [records, if_pos rfl]
    have fresh' : ∀ other ∈ rest, next.get other.id = none := by
      intro other member
      have absent := fresh other (List.mem_cons_of_mem _ member)
      have different : other.id ≠ task := by
        rintro same
        rw [same, found] at absent
        cases absent
      have apart : other.id ≠ child.id := fun same => unlisted (same ▸ List.mem_map_of_mem member)
      rw [records, if_neg different, if_neg apart, absent]
    have known' : ∀ dependency ∈ inherited, (next.get dependency).isSome = true := by
      intro dependency depends
      rw [records, if_neg (apart dependency depends).1]
      split
      · rfl
      · exact known dependency depends
    obtain ⟨final, run', records'⟩ := ih (childIds ++ [child.id]) agrees' (Nat.zero_le _) found' known'
      (fun dependency depends => ⟨(apart dependency depends).1, apart' dependency depends⟩) fresh' distinct
    refine ⟨final, ?_, ?_⟩
    · have inserted : g.insert { child with dependencies := inherited } =
          .ok (child.id, g.place { child with dependencies := inherited }) := insert_fresh missing known
      unfold adoptChildren
      rw [inserted]
      simp only [run]
      rw [run', List.map_cons, List.append_assoc]
      rfl
    · intro other
      rw [records']
      unfold adopted
      by_cases same : other = task
      · rw [if_pos same, if_pos same, List.map_cons, List.append_assoc]
        rfl
      rw [if_neg same, if_neg same]
      by_cases here : child.id = other
      · have first : (child :: rest).find? (fun child => child.id = other) = some child :=
          List.find?_cons_of_pos (decide_eq_true here)
        have later : rest.find? (fun child => child.id = other) = none := by
          refine List.find?_eq_none.mpr ?_
          intro sibling member equal
          exact unlisted (here.trans (of_decide_eq_true equal).symm ▸ List.mem_map_of_mem member)
        rw [first, later]
        simp only
        rw [records, if_neg same, if_pos here.symm]
      · have later : (child :: rest).find? (fun child => child.id = other) =
          rest.find? (fun child => child.id = other) :=
          List.find?_cons_of_neg (by simpa using here)
        rw [later]
        split
        · rfl
        · rw [records, if_neg same, if_neg (Ne.symm here)]

section
variable {task : TaskId} {taskIndex : Nat} (agrees : g.Agrees 0) (goal : g.index.get? task = some taskIndex)

theorem get_unlink (task : TaskId) (taskIndex : Nat) (other : TaskId) : (g.unlink task taskIndex).get other =
    if other = task then (g.get task).map (fun node => { node with dependencies := [] })
      else g.get other := get_update

include agrees goal

theorem feeds_unlink {dependency other : TaskId} :
    (g.unlink task taskIndex).Feeds dependency other ↔ other ≠ task ∧ g.Feeds dependency other := by
  rw [(agrees.unlink goal).feeds_iff_record, get_unlink, agrees.feeds_iff_record]
  by_cases same : other = task
  · subst same
    rw [if_pos rfl]
    constructor
    · rintro ⟨node, found, depends⟩
      obtain ⟨_, _, rfl⟩ := Option.map_eq_some_iff.mp found
      cases depends
    · exact fun both => absurd rfl both.1
  · rw [if_neg same]
    exact ⟨fun depends => ⟨same, depends⟩, fun both => both.2⟩

/-- What a task waited for is not behind it once it is detached. -/
theorem inherited_apart : ∀ dependency ∈ g.dependencies task,
    dependency ≠ task ∧ ¬ Relation.TransGen (g.unlink task taskIndex).Feeds task dependency := by
  intro dependency depends
  constructor
  · rintro rfl
    exact agrees.acyclic_feeds dependency (.single depends)
  · intro path
    have within : ∀ a b, (g.unlink task taskIndex).Feeds a b → g.Feeds a b :=
      fun a b feeds => ((feeds_unlink agrees goal).mp feeds).2
    exact agrees.acyclic_feeds task ((Relation.TransGen.mono within _ _ path).tail depends)

theorem inherited_known :
    ∀ dependency ∈ g.dependencies task, ((g.unlink task taskIndex).get dependency).isSome = true := by
  intro dependency depends
  rw [get_unlink, if_neg (inherited_apart agrees goal dependency depends).1]
  exact (agrees.feeds_known depends).1

end

/-- A task with new children is split, and the records are as they should be. -/
theorem Agrees.split_ok {toposort : DiGraph TaskId → Except Nat (List Nat)} (detects : Detects toposort)
    (agrees : g.Agrees 0) {task : TaskId} {node : TaskNode} (found : g.get task = some node)
    {children : List TaskNode} (some : children ≠ []) (fresh : ∀ child ∈ children, g.get child.id = none)
    (distinct : (children.map TaskNode.id).Nodup) :
    ∃ next, g.split toposort task children = (.ok (children.map TaskNode.id), next) ∧ next.Agrees 0 ∧
      ∀ other, next.get other = g.adopted task { node with dependencies := [] }
        (g.dependencies task) children other := by
  have there : (g.get task).isSome = true := by rw [found]; rfl
  obtain ⟨taskIndex, goal⟩ := agrees.index_of_get there
  have detached := agrees.unlink goal
  have present : (g.unlink task taskIndex).get task = .some { node with dependencies := [] } := by
    rw [get_unlink, if_pos rfl, found]
    rfl
  have apart := inherited_apart agrees goal
  have known := inherited_known agrees goal
  have fresh' : ∀ child ∈ children, (g.unlink task taskIndex).get child.id = none := by
    intro child member
    have absent := fresh child member
    rw [get_unlink]
    split
    · rename_i same
      rw [same, found] at absent
      cases absent
    · exact absent
  obtain ⟨next, run, records⟩ := adoptChildren_ok detects children [] detached le_rfl present known apart fresh'
    distinct
  have whole : g.split toposort task children = (.ok (children.map TaskNode.id), next) := by
    unfold TaskGraph.split
    rw [if_neg (by simpa using some)]
    simp only [indexOf, goal]
    exact run
  have outcome : (g.split toposort task children).1 = .ok (children.map TaskNode.id) := by rw [whole]
  have after := agrees.split detects outcome
  rw [whole] at after
  refine ⟨next, whole, after, ?_⟩
  intro other
  rw [records]
  unfold adopted
  by_cases same : other = task
  · rw [if_pos same, if_pos same]
  · rw [if_neg same, if_neg same, get_unlink, if_neg same]

/-- The two directions of petgraph count the same edges. -/
theorem Agrees.count_dependents (agrees : g.Agrees slack) (dependency task : TaskId) :
    (g.dependents dependency).count task = (g.dependencies task).count dependency := by
  have outside : ∀ a b, ¬ g.Feeds a b → (g.dependents a).count b = (g.dependencies b).count a := by
    intro a b apart
    rw [List.count_eq_zero_of_not_mem apart, List.count_eq_zero_of_not_mem]
    exact fun member => apart (agrees.feeds_dependents.mpr member)
  by_cases feeds : g.Feeds dependency task
  · obtain ⟨a, b, origin, goal, _⟩ := agrees.feeds_iff.mp feeds
    unfold dependents dependencies DiGraph.outgoing DiGraph.incoming
    rw [origin, goal]
    simp only [List.count, List.filterMap_map, List.countP_filterMap, List.countP_filter]
    refine List.countP_congr ?_
    rintro ⟨i, j⟩ visited
    obtain ⟨source, target, first, second⟩ := agrees.ends (agrees.complete.visited_perm.mem_iff.mp visited)
    simp only [Function.comp_apply, agrees.named first, agrees.named second, Option.map_some, Option.getD_some,
      Bool.and_eq_true,
      beq_iff_eq]
    constructor
    · rintro ⟨rfl, rfl⟩
      exact ⟨agrees.task_unique first origin, Option.some.inj (second.symm.trans goal)⟩
    · rintro ⟨rfl, rfl⟩
      exact ⟨agrees.task_unique second goal, Option.some.inj (first.symm.trans origin)⟩
  · exact outside dependency task feeds

theorem adopted_child {task : TaskId} {node : TaskNode} {inherited : List TaskId} {children : List TaskNode}
    (distinct : (children.map TaskNode.id).Nodup) {child : TaskNode} (member : child ∈ children)
    (other : child.id ≠ task) :
    g.adopted task node inherited children child.id = some { child with dependencies := inherited } := by
  unfold adopted
  rw [if_neg other]
  cases found : children.find? (fun sibling => sibling.id = child.id) with
  | none => exact absurd (decide_eq_true rfl) (List.find?_eq_none.mp found child member)
  | some sibling =>
    have equal : sibling.id = child.id := by simpa using List.find?_some found
    have same : sibling = child := List.inj_on_of_nodup_map distinct (List.mem_of_find?_eq_some found) member equal
    rw [same]

theorem adopted_old {task : TaskId} {node : TaskNode} {inherited : List TaskId} {children : List TaskNode}
    {other : TaskId} (different : other ≠ task) (old : ∀ child ∈ children, child.id ≠ other) :
    g.adopted task node inherited children other = g.get other := by
  unfold adopted
  rw [if_neg different]
  have none : children.find? (fun child => child.id = other) = none :=
    List.find?_eq_none.mpr (fun child member same => old child member (of_decide_eq_true same))
  rw [none]

/-- A split puts the children between a task and what it waited for, and no other task sees a difference. -/
theorem Built.split_preserves {toposort : DiGraph TaskId → Except Nat (List Nat)} (detects : Detects toposort)
    (built : Built toposort g) {task : TaskId} (present : (g.get task).isSome = true) {children : List TaskNode}
    (some : children ≠ []) (fresh : ∀ child ∈ children, g.get child.id = none)
    (distinct : (children.map TaskNode.id).Nodup) :
    (g.split toposort task children).1 = .ok (children.map TaskNode.id) ∧
    ((g.split toposort task children).2.dependencies task).Perm (children.map TaskNode.id) ∧
    (∀ child ∈ children, ((g.split toposort task children).2.dependencies child.id).Perm (g.dependencies task)) ∧
    ((g.split toposort task children).2.dependents task).Perm (g.dependents task) ∧
    ∀ a b, (g.get a).isSome = true → (g.get b).isSome = true →
      (Relation.TransGen (g.split toposort task children).2.Feeds a b ↔ Relation.TransGen g.Feeds a b) := by
  have agrees := built.agrees detects
  obtain ⟨node, found⟩ := Option.isSome_iff_exists.mp present
  obtain ⟨next, run, agrees', records⟩ := agrees.split_ok detects found some fresh distinct
  rw [run]
  have older : ∀ {id}, (g.get id).isSome = true → ∀ child ∈ children, child.id ≠ id := by
    rintro id known child member rfl
    rw [fresh child member] at known
    cases known
  have perm : ∀ {id current}, next.get id = .some current → (next.dependencies id).Perm current.dependencies := by
    intro id current there
    obtain ⟨index, place⟩ := agrees'.index_of_get (by rw [there]; rfl)
    exact (agrees'.dependencies_perm place).trans (agrees'.fields there place)
  have joinRecord : next.get task = .some { node with dependencies := children.map TaskNode.id } := by
    rw [records, adopted, if_pos rfl]
    rfl
  have childRecord : ∀ child ∈ children, next.get child.id =
      .some { child with dependencies := g.dependencies task } := by
    intro child member
    rw [records, adopted_child distinct member (older present child member)]
  have oldRecord : ∀ {id}, id ≠ task → (∀ child ∈ children, child.id ≠ id) → next.get id = g.get id := by
    intro id different old
    rw [records, adopted_old different old]
  have self : task ∉ g.dependencies task := fun loop => agrees.acyclic_feeds task (.single loop)
  refine ⟨rfl, perm joinRecord, fun child member => perm (childRecord child member), ?_, ?_⟩
  · refine List.perm_iff_count.mpr ?_
    intro id
    rw [agrees'.count_dependents, agrees.count_dependents]
    by_cases same : id = task
    · subst same
      have absent : id ∉ children.map TaskNode.id := by
        intro listed
        obtain ⟨child, member, equal⟩ := List.mem_map.mp listed
        exact older present child member equal
      rw [(perm joinRecord).count_eq, List.count_eq_zero_of_not_mem absent, List.count_eq_zero_of_not_mem self]
    · by_cases new : ∃ child ∈ children, child.id = id
      · obtain ⟨child, member, rfl⟩ := new
        have unknown : g.dependencies child.id = [] := by
          refine List.eq_nil_iff_forall_not_mem.mpr ?_
          intro dependency feeds
          have known := (agrees.feeds_known feeds).2
          rw [fresh child member] at known
          cases known
        rw [(perm (childRecord child member)).count_eq, List.count_eq_zero_of_not_mem self, unknown, List.count_nil]
      · have old : ∀ child ∈ children, child.id ≠ id := fun child member equal => new ⟨child, member, equal⟩
        have same' := oldRecord same old
        cases known : g.get id with
        | none =>
          have nobody : ∀ (graph : TaskGraph), graph.Agrees 0 → graph.get id = none → graph.dependencies id = [] := by
            intro graph agreed absent
            refine List.eq_nil_iff_forall_not_mem.mpr ?_
            intro dependency feeds
            have known := (agreed.feeds_known feeds).2
            rw [absent] at known
            cases known
          rw [nobody next agrees' (same'.trans known), nobody g agrees known]
        | some current =>
          obtain ⟨index, place⟩ := agrees.index_of_get (by rw [known]; rfl)
          have before := (agrees.dependencies_perm place).trans (agrees.fields known place)
          rw [(perm (same'.trans known)).count_eq, before.count_eq]
  · intro a b knownA knownB
    have subdivides : Rewiring.Subdivides g.Feeds next.Feeds task (fun id => ∃ child ∈ children, child.id = id) := by
      refine ⟨?_, ?_, ?_, ?_, ?_, ?_⟩
      · obtain ⟨child, member⟩ := List.exists_mem_of_ne_nil children some
        exact ⟨child.id, child, member, rfl⟩
      · intro a b feeds
        obtain ⟨knownA, knownB⟩ := agrees.feeds_known feeds
        constructor
        · rintro ⟨child, member, same⟩
          exact older knownA child member same
        · rintro ⟨child, member, same⟩
          exact older knownB child member same
      · intro a
        rw [agrees'.feeds_record joinRecord]
        exact List.mem_map
      · rintro a _ ⟨child, member, rfl⟩
        exact agrees'.feeds_record (childRecord child member)
      · intro a b different old
        have same := oldRecord different (fun child member equal => old ⟨child, member, equal⟩)
        rw [agrees'.feeds_iff_record, agrees.feeds_iff_record, same]
      · rintro ⟨child, member, same⟩
        exact older present child member same
    refine subdivides.transGen_iff ?_ ?_
    · rintro ⟨child, member, same⟩
      exact older knownA child member same
    · rintro ⟨child, member, same⟩
      exact older knownB child member same

/-- The join of two tasks is split into two parts. -/
theorem split_preserves_joined :
    ((Built.joined.split DiGraph.sort ⟨3⟩ [Built.joining ⟨0⟩ 4 [], Built.joining ⟨0⟩ 5 []]).2.dependents ⟨3⟩).Perm
      [] := by
  have fresh : ∀ child ∈ [Built.joining ⟨0⟩ 4 [], Built.joining ⟨0⟩ 5 []], Built.joined.get child.id = none := by
    decide +kernel
  exact (Built.split_preserves detects_sort (Built.built_joined DiGraph.sort) rfl (List.cons_ne_nil _ _) fresh
    (by decide)).2.2.2.1

end Swarm.TaskGraph
