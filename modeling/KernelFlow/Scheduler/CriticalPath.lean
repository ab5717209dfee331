import Mathlib
import KernelFlow.Core.LevelOrder
import KernelFlow.Scheduler.Levels

namespace KernelFlow
namespace Scheduler

open Transition

/-!
# Batches are the longest-path levels

The scheduler and `topo_sort` implement Kahn's traversal separately: one takes
nodes from a queue, the other drains a ready list that was filled in completion
order.  Both follow the longest-path level.  A batch holds nodes of one level,
so that the number of batches is the critical-path depth once every node has
started, and the sorted order concatenates the batches up to the order inside
each of them.
-/

variable {P : Type} {dag : Dag P} {backend : HashBackend}
  {calls : NodeInput -> KernelResult NodeOutput -> Prop} {state : RunState}

/-- The numbers of nodes on the paths of the graph; zero stands for the empty
path. -/
def pathSizes (dag : Dag P) : Set Nat :=
  insert 0 {count | ∃ node ∈ dag.nodes, ∃ length, dag.graph.PathTo node length ∧
    count = length + 1}

private theorem declared_of_batch (invariant : Invariant dag state) {batch : List NodeId}
    (member : batch ∈ state.batches) {node : NodeId} (inside : node ∈ batch) :
    node ∈ dag.nodes := by
  apply invariant.declared_of_seen
  rw [RunState.seen, ← invariant.batches_flatten]
  exact List.mem_append_left _ (List.mem_flatten.mpr ⟨batch, member, inside⟩)

/-- Once all nodes have started, the number of batches is the number of nodes
on the longest path. -/
private theorem batches_length (wellFormed : dag.WellFormed) (leveled : Leveled dag state)
    (invariant : Invariant dag state)
    (all : forall node, node ∈ dag.nodes -> node ∈ startedNodes state.events) :
    IsGreatest (pathSizes dag) state.batches.length := by
  rcases exists_ranked wellFormed with ⟨rank, ranked⟩
  constructor
  · cases last : state.batches.getLast? with
    | none =>
        rw [List.getLast?_eq_none_iff.mp last]
        exact Or.inl rfl
    | some batch =>
        have member := List.mem_of_getLast? last
        rcases List.exists_mem_of_ne_nil _ (invariant.batches_nonempty batch member) with
          ⟨node, inside⟩
        rw [List.getLast?_eq_getElem?] at last
        have positive := List.length_pos_of_mem member
        have level := leveled.batches _ batch last node inside
        refine Or.inr ⟨node, declared_of_batch invariant member inside, _,
          (ranked.level_isGreatest node).1, ?_⟩
        omega
  · rintro count (rfl | ⟨node, declared, length, path, rfl⟩)
    · exact Nat.zero_le _
    · have below := leveled.level_lt_of_started invariant (all node declared)
      have longest := (ranked.level_isGreatest node).2 path
      omega

/-- Once all nodes have started, each batch is the level class of any
enumeration of the nodes. -/
private theorem batch_perm (leveled : Leveled dag state) (invariant : Invariant dag state)
    (all : forall node, node ∈ dag.nodes -> node ∈ startedNodes state.events)
    {order : List NodeId} (nodup : order.Nodup)
    (listed : forall node, node ∈ order ↔ node ∈ dag.nodes) {index : Nat} {batch : List NodeId}
    (found : state.batches[index]? = some batch) :
    batch.Perm (order.filter fun node => decide (dag.graph.level node = index)) := by
  have member := List.mem_of_getElem? found
  have distinct : state.batches.flatten.Nodup := by
    rw [invariant.batches_flatten]
    exact (List.nodup_append.mp invariant.counts.nodup).1
  rw [List.perm_ext_iff_of_nodup ((List.nodup_flatten.mp distinct).1 batch member)
    (nodup.filter _)]
  intro node
  rw [List.mem_filter, decide_eq_true_eq, listed]
  constructor
  · exact fun inside => ⟨declared_of_batch invariant member inside,
      leveled.batches index batch found node inside⟩
  · rintro ⟨declared, rfl⟩
    rcases leveled.exists_batch invariant (all node declared) with ⟨other, otherFound, inside⟩
    rw [found, Option.some.injEq] at otherFound
    exact otherFound ▸ inside

/-- In every reachable state the batch of a started node is the length of the
longest path that ends there.  `topo_sort` lists the nodes by the same level,
and when all nodes have started its output is the sequence of the batches, as
many as there are nodes on the longest path. -/
theorem batches_are_levels (accepted : dag.Accepted) (backend : HashBackend)
    (calls : NodeInput -> KernelResult NodeOutput -> Prop) :
    ∃ order, dag.topoSort = some (.ok order) ∧
      (forall node, IsGreatest {length | dag.graph.PathTo node length} (dag.graph.level node)) ∧
      (order.Pairwise fun first second => dag.graph.level first ≤ dag.graph.level second) ∧
      forall state, Reaches (Step dag backend calls) (start dag) state ->
        (forall node, node ∈ startedNodes state.events -> forall index,
          (∃ batch, state.batches[index]? = some batch ∧ node ∈ batch) ↔
            IsGreatest {length | dag.graph.PathTo node length} index) ∧
        ((forall node, node ∈ dag.nodes -> node ∈ startedNodes state.events) ->
          IsGreatest (pathSizes dag) state.batches.length ∧
          ∃ segments : List (List NodeId), segments.flatten = order ∧
            List.Forall₂ List.Perm state.batches segments) := by
  have wellFormed := accepted.wellFormed
  rcases exists_ranked wellFormed with ⟨rank, ranked⟩
  rcases dag.topoSort_ok wellFormed.from_declared wellFormed.to_declared wellFormed.acyclic with
    ⟨order, sorted, topological⟩
  have increasing := Dag.topoSort_levelSorted ⟨rank, ranked⟩ sorted
  refine ⟨order, sorted, ranked.level_isGreatest, increasing, fun state run => ?_⟩
  have invariant : Invariant dag state := .reachable wellFormed run
  have leveled : Leveled dag state := .reachable wellFormed run
  constructor
  · intro node started index
    constructor
    · rintro ⟨batch, found, inside⟩
      rw [← leveled.batches index batch found node inside]
      exact ranked.level_isGreatest node
    · intro longest
      rw [longest.unique (ranked.level_isGreatest node)]
      exact leveled.exists_batch invariant started
  · intro all
    refine ⟨batches_length wellFormed leveled invariant all, _,
      flatten_classes dag.graph.level state.batches.length increasing ?_, ?_⟩
    · exact fun node member => leveled.level_lt_of_started invariant
        (all node ((topological.mem_iff node).mp member))
    · rw [List.forall₂_iff_get]
      refine ⟨by simp, fun index bound _other => ?_⟩
      have perm := batch_perm leveled invariant all topological.nodup topological.mem_iff
        (List.getElem?_eq_getElem bound)
      simpa using perm

/-- Two nodes joined by one edge run in two batches. -/
theorem batches_are_levels_pair :
    ∃ order, (Dag.pair .always).topoSort = some (.ok order) ∧ ∃ segments : List (List NodeId),
      segments.flatten = order ∧ List.Forall₂ List.Perm [["a"], ["b"]] segments ∧
        IsGreatest (pathSizes (Dag.pair .always)) 2 := by
  rcases batches_are_levels (Dag.pair_accepted .always) .sample (callsOf (.constant .null)) with
    ⟨order, sorted, _levels, _increasing, runs⟩
  have final := (runs _ (RunState.drive_reaches _ _ (.constant .null) 20 _)).2
  have batches : ((start (Dag.pair .always)).drive (Dag.pair .always) .sample
      (.constant .null) 20).batches = [["a"], ["b"]] := by rfl
  have started : startedNodes ((start (Dag.pair .always)).drive (Dag.pair .always) .sample
      (.constant .null) 20).events = ["a", "b"] := by rfl
  rw [batches, started] at final
  rcases final (by
    intro node declared
    have keys : node ∈ (Dag.pair .always).nodes.keys := Std.ExtTreeMap.mem_keys.mpr declared
    exact keys) with ⟨depth, segments, flat, same⟩
  exact ⟨order, sorted, segments, flat, same, depth⟩

end Scheduler
end KernelFlow
