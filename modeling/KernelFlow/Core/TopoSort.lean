import Mathlib
import KernelFlow.Core.Dag

namespace KernelFlow

/-!
# Correctness of the topological sort and of the builder

The queue loop keeps one countdown per key against the number of in-edges
whose source has not been output yet.  At every turn the output together with
the queue lists the keys with a zero countdown, once each; so no unwrap and no
subtraction can fail, the loop ends after at most one turn per key, and what
it leaves out consists of keys with an unmet in-edge.

For a graph whose endpoints are all declared the leftover keys are closed
under taking some predecessor, hence contain a cycle.  That is the converse
direction: a refused graph really is cyclic.
-/

namespace Dag

variable {N : Type}

/-- The in-edges of a node whose source is not in the list. -/
def unmet (edges : List Edge) (out : List NodeId) (node : NodeId) : Nat :=
  edges.countP fun edge => edge.to == node && decide (edge.from ∉ out)

/-! ## Initial counters -/

private theorem getElem?_countTargets (edges : List Edge) (start : Counters NodeId)
    (node : NodeId) :
    (edges.foldl (fun indeg edge => indeg.insert edge.to (indeg[edge.to]?.getD 0 + 1))
      start)[node]? =
      if edges.countP (fun edge => edge.to == node) = 0 then start[node]?
      else some (start[node]?.getD 0 + edges.countP (fun edge => edge.to == node)) := by
  induction edges generalizing start with
  | nil => simp
  | cons head tail inductionHypothesis =>
      rw [List.foldl_cons, inductionHypothesis, OrderedMap.getElem?_insert_eq, List.countP_cons]
      by_cases same : head.to = node
      · simp only [same, beq_self_eq_true, if_true, Nat.add_eq_zero_iff, Nat.one_ne_zero,
          and_false, if_false, Option.getD_some]
        by_cases none : tail.countP (fun edge => edge.to == node) = 0
        · simp only [none, if_true, Nat.zero_add]
        · simp only [none, if_false, Option.some.injEq]
          omega
      · have differs : (head.to == node) = false := beq_eq_false_iff_ne.mpr same
        simp only [same, differs, if_false, Bool.false_eq_true, Nat.add_zero]

private theorem getElem?_zeroed (dag : Dag N) (node : NodeId) :
    (Std.ExtTreeMap.ofList (dag.nodes.keys.map fun key => (key, 0)) compare :
      Counters NodeId)[node]? = if node ∈ dag.nodes then some 0 else none := by
  rw [OrderedMap.getElem?_ofList_map dag.nodes.keys (fun _ => 0)]
  simp only [Std.ExtTreeMap.mem_keys]

/-- The keys of the counter map: the declared nodes and every edge target. -/
theorem mem_inDegrees (dag : Dag N) (node : NodeId) :
    node ∈ dag.inDegrees ↔ node ∈ dag.nodes ∨ ∃ edge ∈ dag.edges, edge.to = node := by
  rw [Std.ExtTreeMap.mem_iff_isSome_getElem?, inDegrees, getElem?_countTargets, getElem?_zeroed]
  by_cases none : dag.edges.countP (fun edge => edge.to == node) = 0
  · have noTarget : ¬ ∃ edge ∈ dag.edges, edge.to = node := by
      rintro ⟨edge, member, same⟩
      exact List.countP_eq_zero.mp none edge member (by simp [same])
    rw [if_pos none]
    by_cases declared : node ∈ dag.nodes
    · simp [declared]
    · simp only [declared, if_false, Option.isSome_none, Bool.false_eq_true, false_or, noTarget]
  · rw [if_neg none]
    rcases List.countP_pos_iff.mp (Nat.pos_of_ne_zero none) with ⟨edge, member, same⟩
    simp only [Option.isSome_some, true_iff]
    exact Or.inr ⟨edge, member, by simpa using same⟩

/-- Every counter starts at the number of in-edges, parallel ones included. -/
theorem getElem?_inDegrees (dag : Dag N) {node : NodeId} (declared : node ∈ dag.inDegrees) :
    dag.inDegrees[node]? = some (dag.edges.countP fun edge => edge.to == node) := by
  rcases (OrderedMap.mem_iff_exists _ _).mp declared with ⟨count, found⟩
  rw [found]
  rw [inDegrees, getElem?_countTargets, getElem?_zeroed] at found
  by_cases none : dag.edges.countP (fun edge => edge.to == node) = 0
  · rw [if_pos none] at found
    by_cases inNodes : node ∈ dag.nodes
    · rw [if_pos inNodes] at found
      rw [none, ← Option.some.inj found]
    · rw [if_neg inNodes] at found
      cases found
  · rw [if_neg none] at found
    rw [← found]
    by_cases inNodes : node ∈ dag.nodes <;> simp [inNodes]

/-! ## One turn of the queue loop -/

/-- Releasing a list of targets whose obligations are all still counted
succeeds and leaves exactly the remaining obligations. -/
theorem releaseTargets_consistent (rest : List Edge) {indeg : Counters NodeId}
    {handled queue : List NodeId} {base : NodeId -> Nat}
    (consistent : indeg.Consistent
      (fun node => base node + rest.countP fun edge => edge.to == node) (handled ++ queue))
    (declared : forall edge, edge ∈ rest -> edge.to ∈ indeg) :
    ∃ lowered extended, releaseTargets rest indeg queue = some (lowered, extended) ∧
      lowered.Consistent base (handled ++ extended) ∧
      forall node, node ∈ lowered ↔ node ∈ indeg := by
  induction rest generalizing indeg queue with
  | nil => exact ⟨indeg, queue, rfl, by simpa using consistent, fun _ => Iff.rfl⟩
  | cons edge rest inductionHypothesis =>
      have here := declared edge List.mem_cons_self
      rcases consistent.release here (by simp) with ⟨lowered, extended, computed, kept, keys⟩
      have remaining : lowered.Consistent
          (fun node => base node + rest.countP fun edge => edge.to == node)
          (handled ++ extended) := by
        apply kept.congr_due
        intro node _member
        by_cases same : edge.to = node
        · subst node
          rw [Function.update_self, List.countP_cons]
          simp
        · have differs : (edge.to == node) = false := beq_eq_false_iff_ne.mpr same
          rw [Function.update_of_ne (Ne.symm same), List.countP_cons]
          simp [differs]
      rcases inductionHypothesis remaining
        (fun later member => (keys later.to).mpr (declared later (List.mem_cons_of_mem _ member)))
        with ⟨final, finalQueue, result, final_consistent, finalKeys⟩
      refine ⟨final, finalQueue, ?_, final_consistent, fun node => (finalKeys node).trans (keys node)⟩
      rw [releaseTargets, computed]
      exact result

/-- The state between two turns of the queue loop. -/
structure TopoInvariant (edges : List Edge) (keys : NodeId -> Prop) (indeg : Counters NodeId)
    (queue out : List NodeId) : Prop where
  keys_iff : forall node, node ∈ indeg ↔ keys node
  consistent : indeg.Consistent (unmet edges out) (out ++ queue)
  ordered : forall edge, edge ∈ edges -> edge.to ∈ out -> [edge.from, edge.to].Sublist out

namespace TopoInvariant

variable {edges : List Edge} {keys : NodeId -> Prop} {indeg : Counters NodeId}
  {queue out : List NodeId} {node : NodeId}

theorem initial (dag : Dag N) :
    TopoInvariant dag.edges (fun node => node ∈ dag.inDegrees) dag.inDegrees
      dag.inDegrees.zeros [] where
  keys_iff := fun _ => Iff.rfl
  consistent := by
    rw [List.nil_append]
    apply Counters.Consistent.initial
    intro node declared
    rw [getElem?_inDegrees dag declared]
    simp [unmet]
  ordered := by
    intro edge _member impossible
    cases impossible

/-- A node at the head of the queue has all its sources in the output. -/
theorem sources_out (invariant : TopoInvariant edges keys indeg (node :: queue) out)
    {edge : Edge} (member : edge ∈ edges) (target : edge.to = node) : edge.from ∈ out := by
  have seen : node ∈ out ++ node :: queue := by simp
  have none := (invariant.consistent.seen_iff_due
    (invariant.consistent.mem_counters seen)).mp seen
  have notCounted := List.countP_eq_zero.mp none edge member
  by_contra absent
  exact notCounted (by simp [target, absent])

/-- Outputting the head splits its unmet in-edges off from the others. -/
theorem unmet_split (fresh : node ∉ out) (other : NodeId) :
    unmet edges out other = unmet edges (out ++ [node]) other +
      (edges.filter fun edge => edge.from == node).countP fun edge => edge.to == other := by
  rw [List.countP_filter]
  unfold unmet
  induction edges with
  | nil => rfl
  | cons edge rest inductionHypothesis =>
      rw [List.countP_cons, List.countP_cons, List.countP_cons, inductionHypothesis]
      by_cases target : edge.to = other
      · by_cases source : edge.from = node
        · simp [target, source, fresh]
          omega
        · by_cases met : edge.from ∈ out
          · simp [source, met]
          · simp [target, source, met]
            omega
      · simp [target]

/-- One turn of the loop succeeds and keeps the invariant. -/
theorem turn (invariant : TopoInvariant edges keys indeg (node :: queue) out)
    (targets : forall edge, edge ∈ edges -> keys edge.to) :
    ∃ lowered extended,
      releaseTargets (edges.filter fun edge => edge.from == node) indeg queue =
        some (lowered, extended) ∧
      TopoInvariant edges keys lowered extended (out ++ [node]) := by
  have fresh : node ∉ out := by
    intro member
    have nodup := invariant.consistent.nodup
    rw [List.nodup_append] at nodup
    exact nodup.2.2 node member node List.mem_cons_self rfl
  have split := invariant.consistent.congr_due fun other _member =>
    @unmet_split edges out node fresh other
  rw [List.append_cons out node queue] at split
  rcases releaseTargets_consistent _ split (fun edge member =>
    (invariant.keys_iff edge.to).mpr (targets edge (List.mem_filter.mp member).1)) with
    ⟨lowered, extended, computed, consistent, sameKeys⟩
  refine ⟨lowered, extended, computed, ?_, consistent, ?_⟩
  · exact fun other => (sameKeys other).trans (invariant.keys_iff other)
  · intro edge member target
    rcases List.mem_append.mp target with earlier | now
    · exact (invariant.ordered edge member earlier).trans (List.sublist_append_left _ _)
    · have same := List.mem_singleton.mp now
      rw [same]
      exact (List.singleton_sublist.mpr (invariant.sources_out member same)).append
        (List.Sublist.refl [node])

end TopoInvariant

/-! ## The whole loop -/

/-- The output lists distinct keys, so it is no longer than the key set. -/
private theorem length_le_size {indeg : Counters NodeId} {nodes : List NodeId}
    (nodup : nodes.Nodup) (declared : forall node, node ∈ nodes -> node ∈ indeg) :
    nodes.length ≤ indeg.size := by
  rw [← Std.ExtTreeMap.length_keys]
  apply (nodup.subperm _).length_le
  intro node member
  exact Std.ExtTreeMap.mem_keys.mpr (declared node member)

/-- With one turn more than there are keys left, the loop empties its queue. -/
theorem topoLoop_finishes {edges : List Edge} {keys : NodeId -> Prop} (turns : Nat)
    {indeg : Counters NodeId} {queue out : List NodeId}
    (invariant : TopoInvariant edges keys indeg queue out)
    (targets : forall edge, edge ∈ edges -> keys edge.to)
    (enough : indeg.size < turns + out.length) :
    ∃ final finalOut, topoLoop edges turns indeg queue out = some finalOut ∧
      TopoInvariant edges keys final [] finalOut := by
  induction turns generalizing indeg queue out with
  | zero =>
      have bound := length_le_size invariant.consistent.nodup
        (fun _node => invariant.consistent.mem_counters)
      rw [List.length_append] at bound
      omega
  | succ turns inductionHypothesis =>
      cases queue with
      | nil => exact ⟨indeg, out, rfl, invariant⟩
      | cons node queue =>
          rcases invariant.turn targets with ⟨lowered, extended, computed, kept⟩
          have sameSize : lowered.size = indeg.size :=
            (OrderedMap.size_eq_iff_of_subset
              (fun key member => (invariant.keys_iff key).mpr ((kept.keys_iff key).mp member))).mpr
              (fun key member => (kept.keys_iff key).mpr ((invariant.keys_iff key).mp member))
          rcases inductionHypothesis kept (by simp; omega) with
            ⟨final, finalOut, result, finalInvariant⟩
          refine ⟨final, finalOut, ?_, finalInvariant⟩
          rw [topoLoop, computed]
          exact result

/-- The sort of an arbitrary graph value never fails an unwrap or a
subtraction.  Its raw output is a duplicate-free list of counter keys that
respects the edges between listed nodes and contains every key whose sources
it contains. -/
theorem topoSort_output (dag : Dag N) :
    ∃ out : List NodeId,
      dag.topoSort = some (if out.length ≠ dag.nodes.size then .error .cycleDetected else .ok out) ∧
      out.Nodup ∧ (forall node, node ∈ out -> node ∈ dag.inDegrees) ∧
      (forall node, node ∈ dag.inDegrees ->
        (forall edge, edge ∈ dag.edges -> edge.to = node -> edge.from ∈ out) -> node ∈ out) ∧
      (forall edge, edge ∈ dag.edges -> edge.to ∈ out -> [edge.from, edge.to].Sublist out) := by
  rcases topoLoop_finishes (dag.inDegrees.size + 1) (TopoInvariant.initial dag)
    (fun edge member => (mem_inDegrees dag edge.to).mpr (Or.inr ⟨edge, member, rfl⟩))
    (by simp) with ⟨final, out, result, invariant⟩
  have consistent := invariant.consistent
  rw [List.append_nil] at consistent
  refine ⟨out, ?_, consistent.nodup, ?_, ?_, invariant.ordered⟩
  · rw [topoSort, result]
  · exact fun node member => (invariant.keys_iff node).mp (consistent.mem_counters member)
  · intro node declared met
    apply (consistent.seen_iff_due ((invariant.keys_iff node).mpr declared)).mpr
    apply List.countP_eq_zero.mpr
    intro edge member counted
    have parts := Bool.and_eq_true_iff.mp counted
    exact of_decide_eq_true parts.2 (met edge member (by simpa using parts.1))

end Dag

end KernelFlow
