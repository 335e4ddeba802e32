import Swarm.Coordinator.Consensus
import Swarm.Lib.Ranking

namespace Swarm.Aggregate
open Ranking

/-- The items that no earlier one cites the same as. -/
def firsts : List Evidence → List Evidence
  | [] => []
  | item :: rest => item :: (firsts rest).filter (fun later => !sameCitation item later)

theorem sameCitation_iff {left right : Evidence} :
    sameCitation left right = true ↔ left.source = right.source ∧ left.claim = right.claim := by
  simp only [sameCitation, Bool.and_eq_true, beq_iff_eq]

theorem sameCitation_comm (left right : Evidence) : sameCitation left right = sameCitation right left := by
  rw [Bool.eq_iff_iff, sameCitation_iff, sameCitation_iff]
  exact ⟨fun same => ⟨same.1.symm, same.2.symm⟩, fun same => ⟨same.1.symm, same.2.symm⟩⟩

theorem sameCitation_trans {first second third : Evidence} (left : sameCitation first second = true)
    (right : sameCitation second third = true) : sameCitation first third = true := by
  rw [sameCitation_iff] at left right ⊢
  exact ⟨left.1.trans right.1, left.2.trans right.2⟩

theorem firsts_apart (items : List Evidence) :
    (firsts items).Pairwise (fun left right => sameCitation left right = false) := by
  induction items with
  | nil => exact List.Pairwise.nil
  | cons item rest ih =>
    refine List.pairwise_cons.mpr ⟨?_, ih.filter _⟩
    intro later member
    simpa using (List.mem_filter.mp member).2

theorem firsts_nodup (items : List Evidence) : (firsts items).Nodup := by
  refine (firsts_apart items).imp ?_
  rintro left right apart rfl
  rw [sameCitation_iff.mpr ⟨rfl, rfl⟩] at apart
  cases apart

/-- Every citation has a first item. -/
theorem exists_first {items : List Evidence} {item : Evidence} (member : item ∈ items) :
    ∃ first ∈ firsts items, sameCitation first item = true := by
  induction items with
  | nil => cases member
  | cons head rest ih =>
    by_cases same : sameCitation head item = true
    · exact ⟨head, List.mem_cons_self, same⟩
    · have later := (List.mem_cons.mp member).resolve_left
        (fun equal => same (equal ▸ sameCitation_iff.mpr ⟨rfl, rfl⟩))
      obtain ⟨first, listed, cites⟩ := ih later
      refine ⟨first, List.mem_cons_of_mem _ (List.mem_filter.mpr ⟨listed, ?_⟩), cites⟩
      rw [Bool.not_eq_true']
      by_contra known
      exact same (sameCitation_trans (by simpa using known) cites)

/-- The pass over the evidence keeps the first items. -/
theorem keep_firsts (kept items : List Evidence) : Greedy.keep sameCitation kept items =
    kept ++ (firsts items).filter (fun item => !kept.any (fun earlier => sameCitation earlier item)) := by
  induction items generalizing kept with
  | nil => rw [firsts, List.filter_nil, List.append_nil]; rfl
  | cons item rest ih =>
    rw [Greedy.keep_cons, ih, firsts, List.filter_cons, List.filter_filter]
    by_cases known : kept.any (fun earlier => sameCitation earlier item) = true
    · simp only [known, if_true, Bool.not_true, Bool.false_eq_true, if_false]
      refine congrArg (kept ++ ·) (List.filter_congr ?_)
      intro later _
      obtain ⟨earlier, member, cites⟩ := List.any_eq_true.mp known
      by_cases same : sameCitation item later = true
      · have listed : kept.any (fun earlier => sameCitation earlier later) = true :=
          List.any_eq_true.mpr ⟨earlier, member, sameCitation_trans cites same⟩
        simp only [listed, Bool.not_true, Bool.false_and]
      · simp only [Bool.not_eq_true] at same
        simp only [same, Bool.not_false, Bool.and_true]
    · simp only [Bool.not_eq_true] at known
      simp only [known, Bool.false_eq_true, if_false, Bool.not_false, if_true, List.append_assoc,
        List.singleton_append]
      refine congrArg (fun tail => kept ++ item :: tail) (List.filter_congr ?_)
      intro later _
      simp only [List.any_append, List.any_cons, List.any_nil, Bool.or_false, Bool.not_or]

theorem citations_eq (kept : List TaskResult) : citations kept = firsts (kept.flatMap TaskResult.evidence) := by
  unfold citations
  rw [keep_firsts, List.nil_append]
  exact List.filter_eq_self.mpr (fun _ _ => rfl)

theorem mergeEvidence_eq (kept : List TaskResult) : mergeEvidence kept =
    (ranked Evidence.support (firsts (kept.flatMap TaskResult.evidence))).take maxEvidence := by
  rw [mergeEvidence, citations_eq]

/-- Every citation has one first item. -/
theorem first_unique {items : List Evidence} {left right : Evidence} (member : left ∈ firsts items)
    (member' : right ∈ firsts items) (same : sameCitation left right = true) : left = right := by
  have symm : Std.Symm (fun left right => sameCitation left right = false) :=
    ⟨fun left right apart => (sameCitation_comm right left).trans apart⟩
  by_contra different
  rw [(firsts_apart items).forall member member' different] at same
  cases same

theorem same_of_shown {items shown : List Evidence} {first item : Evidence}
    (part : ∀ other ∈ shown, other ∈ firsts items) (listed : first ∈ firsts items)
    (same : sameCitation first item = true) :
    (∀ other ∈ shown, sameCitation other item = false) ↔ first ∉ shown := by
  constructor
  · intro missing inside
    rw [missing first inside] at same
    cases same
  · intro absent other inside
    by_contra cites
    rw [Bool.not_eq_false] at cites
    have alike : sameCitation first other = true := sameCitation_trans same (sameCitation_comm other item ▸ cites)
    exact absent (first_unique listed (part other inside) alike ▸ inside)

/-- The best-supported evidence is kept exactly when no item that a citation repeats is needed: its
first item is among the best, or enough first items are supported as well as the repeated one. -/
theorem bestSupported_iff (kept : List TaskResult) :
    ((mergeEvidence kept).length ≤ maxEvidence ∧
      (mergeEvidence kept).Pairwise (fun left right => (left.source, left.claim) ≠ (right.source, right.claim)) ∧
      (mergeEvidence kept).Pairwise (fun left right => right.support ≤ left.support) ∧
      ∀ item ∈ kept.flatMap TaskResult.evidence,
        (∀ shown ∈ mergeEvidence kept, (shown.source, shown.claim) ≠ (item.source, item.claim)) →
        ∀ shown ∈ mergeEvidence kept, item.support ≤ shown.support) ↔
    ∀ item ∈ kept.flatMap TaskResult.evidence, ∀ front first back,
      firsts (kept.flatMap TaskResult.evidence) = front ++ first :: back → sameCitation first item = true →
      standing Evidence.support front first back < maxEvidence ∨
        maxEvidence ≤ (firsts (kept.flatMap TaskResult.evidence)).countP
          (fun other => item.support ≤ other.support) := by
  rw [mergeEvidence_eq]
  generalize kept.flatMap TaskResult.evidence = items
  have part : ∀ other ∈ (ranked Evidence.support (firsts items)).take maxEvidence, other ∈ firsts items :=
    fun other inside => (mem_ranked Evidence.support).mp (List.mem_of_mem_take inside)
  have different : ∀ {left right : Evidence}, sameCitation left right = false ↔
      (left.source, left.claim) ≠ (right.source, right.claim) := by
    intro left right
    rw [← Bool.not_eq_true, sameCitation_iff, ne_eq, Prod.mk.injEq]
  have apart : ((ranked Evidence.support (firsts items)).take maxEvidence).Pairwise
      (fun left right => sameCitation left right = false) := by
    have symm : ∀ {left right}, sameCitation left right = false → sameCitation right left = false :=
      fun {left right} apart => (sameCitation_comm right left).trans apart
    have perm : (ranked Evidence.support (firsts items)).Perm (firsts items) := List.perm_insertionSort _ _
    exact ((perm.pairwise_iff symm).mpr (firsts_apart items)).sublist (List.take_sublist _ _)
  have sorted := (ranked_pairwise Evidence.support (firsts items)).sublist (List.take_sublist maxEvidence _)
  -- what a single item asks for
  have single : ∀ item, ∀ front first back, firsts items = front ++ first :: back → sameCitation first item = true →
      (((∀ shown ∈ (ranked Evidence.support (firsts items)).take maxEvidence, sameCitation shown item = false) →
        ∀ shown ∈ (ranked Evidence.support (firsts items)).take maxEvidence, item.support ≤ shown.support) ↔
      standing Evidence.support front first back < maxEvidence ∨
        maxEvidence ≤ (firsts items).countP (fun other => item.support ≤ other.support)) := by
    intro item front first back parts same
    have listed : first ∈ firsts items := parts ▸ List.mem_append_right _ List.mem_cons_self
    have unique : (front ++ first :: back).Nodup := parts ▸ firsts_nodup items
    have place : first ∈ (ranked Evidence.support (front ++ first :: back)).take maxEvidence ↔
        standing Evidence.support front first back < maxEvidence := mem_take_ranked unique maxEvidence
    rw [← parts] at place
    rw [same_of_shown part listed same, level_le_take_ranked, place, Nat.not_lt]
    have room : standing Evidence.support front first back ≤ (firsts items).length := by
      rw [parts, standing, List.length_append, List.length_cons]
      have ahead : front.countP (fun other => first.support ≤ other.support) ≤ front.length := List.countP_le_length
      have behind : back.countP (fun other => first.support < other.support) ≤ back.length := List.countP_le_length
      omega
    omega
  constructor
  · rintro ⟨_, _, _, best⟩ item member front first back parts same
    refine (single item front first back parts same).mp ?_
    intro missing
    exact best item member (fun shown inside => different.mp (missing shown inside))
  · intro enough
    refine ⟨List.length_take_le _ _, apart.imp (fun apart => different.mp apart), sorted, ?_⟩
    intro item member missing
    obtain ⟨first, listed, same⟩ := exists_first member
    obtain ⟨front, back, parts⟩ := List.append_of_mem listed
    exact (single item front first back parts same).mpr (enough item member front first back parts same)
      (fun shown inside => different.mpr (missing shown inside))

/-- Twenty well supported claims, and one that is cited twice: without much support first, and with
the most of all after. -/
def citing : List TaskResult :=
  [{ resultOf 1 .work "first" "raft" (1 / 2) with evidence := [⟨"raft.pdf", "one leader", 1 / 10, none⟩] },
    { resultOf 2 .work "second" "paxos" (1 / 2) with
      evidence := (List.range 20).map (fun page => ⟨"paxos.pdf", s!"page {page}", 1 / 2, none⟩) },
    { resultOf 3 .work "third" "raft again" (1 / 2) with evidence := [⟨"raft.pdf", "one leader", 99 / 100, none⟩] }]

/-- The best item of all is lost, with its citation. -/
theorem best_item_lost : ∃ item ∈ citing.flatMap TaskResult.evidence,
    (∀ shown ∈ mergeEvidence citing, (shown.source, shown.claim) ≠ (item.source, item.claim)) ∧
    ∃ shown ∈ mergeEvidence citing, shown.support < item.support := by decide +kernel

end Swarm.Aggregate
