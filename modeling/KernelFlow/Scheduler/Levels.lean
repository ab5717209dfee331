import Mathlib
import KernelFlow.Scheduler.Progress

namespace KernelFlow
namespace Scheduler

open Transition

/-!
# Batches and levels

The level of a node is the number of edges on the longest path that ends there.
A batch consists of nodes of one level, and the levels of the batches are
consecutive.  A node becomes ready in the turn of its last parent, which has the
highest level among its parents and one less than the node itself.
-/

variable {P : Type} {dag : Dag P} {backend : HashBackend}
  {calls : NodeInput -> KernelResult NodeOutput -> Prop}

/-- Positions in the topological order rank an accepted graph. -/
theorem exists_ranked (wellFormed : dag.WellFormed) : ∃ rank, dag.graph.Ranked rank := by
  rcases dag.topoSort_ok wellFormed.from_declared wellFormed.to_declared wellFormed.acyclic with
    ⟨order, _sorted, topological⟩
  exact ⟨_, topological.ranked⟩

structure Leveled (dag : Dag P) (state : RunState) : Prop where
  batches : forall index batch, state.batches[index]? = some batch ->
    forall node, node ∈ batch -> dag.graph.level node = index
  ready : forall node, node ∈ state.ready -> dag.graph.level node = state.batches.length
  queued : forall node, node ∈ launchQueue state.control ->
    dag.graph.level node + 1 = state.batches.length
  inflight : forall input, input ∈ state.inflight ->
    dag.graph.level input.nodeId + 1 = state.batches.length
  unlocking : forall node rest, state.control = .unlocking node rest ->
    dag.graph.level node + 1 = state.batches.length

namespace Leveled

variable {state : RunState}

/-- A started node is in the batch of its level. -/
theorem exists_batch (leveled : Leveled dag state) (invariant : Invariant dag state)
    {node : NodeId} (started : node ∈ startedNodes state.events) :
    ∃ batch, state.batches[dag.graph.level node]? = some batch ∧ node ∈ batch := by
  have listed : node ∈ state.batches.flatten := by
    rw [invariant.batches_flatten]
    exact List.mem_append_left _ started
  rcases List.mem_flatten.mp listed with ⟨batch, member, inside⟩
  rcases List.mem_iff_getElem?.mp member with ⟨index, found⟩
  have same := leveled.batches index batch found node inside
  exact ⟨batch, same ▸ found, inside⟩

/-- So the level of a started node is below the number of batches. -/
theorem level_lt_of_started (leveled : Leveled dag state) (invariant : Invariant dag state)
    {node : NodeId} (started : node ∈ startedNodes state.events) :
    dag.graph.level node < state.batches.length := by
  rcases leveled.exists_batch invariant started with ⟨batch, found, _inside⟩
  exact (List.getElem?_eq_some_iff.mp found).1

/-- A node whose in-edges are all enabled lies at most one level above the
announced nodes. -/
theorem level_le_of_enabled (wellFormed : dag.WellFormed) (leveled : Leveled dag state)
    (invariant : Invariant dag state) {node : NodeId}
    (all : forall edge, edge ∈ dag.edges -> edge.to = node -> enabled state.outputs edge = true) :
    dag.graph.level node ≤ state.batches.length := by
  rcases exists_ranked wellFormed with ⟨rank, ranked⟩
  apply ranked.level_le
  rintro earlier ⟨edge, member, rfl, target⟩
  rcases enabled_iff.mp (all edge member target) with ⟨value, found, _⟩
  exact leveled.level_lt_of_started invariant ((invariant.started_iff _).mpr
    (Or.inl (OrderedMap.mem_of_getElem?_eq_some found)))

/-- Leaving a loop or returning. -/
private theorem settle (leveled : Leveled dag state) {after : RunState}
    (batches : after.batches = state.batches) (ready : after.ready = state.ready)
    (inflight : after.inflight = state.inflight) (queue : launchQueue after.control = [])
    (settled : forall node rest, after.control ≠ .unlocking node rest) : Leveled dag after where
  batches := batches ▸ leveled.batches
  ready := by
    rw [ready, batches]
    exact leveled.ready
  queued := by
    rw [queue]
    exact fun _node absent => nomatch absent
  inflight := by
    rw [inflight, batches]
    exact leveled.inflight
  unlocking := fun node rest control => absurd control (settled node rest)

theorem start (wellFormed : dag.WellFormed) : Leveled dag (start dag) := by
  have invariant : Invariant dag (Scheduler.start dag) := Invariant.start wellFormed
  rw [start_eq wellFormed] at invariant ⊢
  exact {
    batches := fun _index _batch absent => nomatch absent
    ready := by
      intro node member
      rcases exists_ranked wellFormed with ⟨rank, ranked⟩
      refine Nat.le_zero.mp (ranked.level_le ?_)
      rintro earlier ⟨edge, inEdges, rfl, target⟩
      -- Nothing has completed yet, so a ready node has no in-edge.
      rcases enabled_iff.mp (invariant.enabled_of_seen (List.mem_append_right _ member)
        inEdges target) with ⟨value, found, _⟩
      simp at found
    queued := fun _node absent => nomatch absent
    inflight := fun _input absent => nomatch absent
    unlocking := fun _node _rest impossible => nomatch impossible }

theorem unlock (wellFormed : dag.WellFormed) (leveled : Leveled dag state)
    (invariant : Invariant dag state) {node : NodeId} {edge : Edge} {rest : List Edge}
    (control : state.control = .unlocking node (edge :: rest)) :
    Leveled dag (state.unlock node edge rest) := by
  have kept := invariant.unlock wellFormed control
  have current := leveled.unlocking node (edge :: rest) control
  have source := (invariant.pending node (edge :: rest) control).2 edge List.mem_cons_self
  rcases exists_ranked wellFormed with ⟨rank, ranked⟩
  have above : state.batches.length ≤ dag.graph.level edge.to := by
    have lower := ranked.level_lt (dag.graph.adjacent_of_mem source.1)
    change dag.graph.level edge.from < dag.graph.level edge.to at lower
    rw [source.2] at lower
    omega
  rcases state.unlock_frame node edge rest with ⟨indeg, ready, position, same, either, queue⟩
  rw [same] at kept ⊢
  have below : edge.to ∈ ready -> dag.graph.level edge.to ≤ state.batches.length :=
    fun member => leveled.level_le_of_enabled wellFormed invariant fun _other inEdges target =>
      kept.enabled_of_seen (List.mem_append_right _ member) inEdges target
  exact {
    batches := leveled.batches
    ready := by
      intro other member
      rcases queue with rfl | rfl
      · exact leveled.ready other member
      · rcases List.mem_append.mp member with old | new
        · exact leveled.ready other old
        · rw [List.mem_singleton.mp new]
          exact Nat.le_antisymm (below (List.mem_append_right _ List.mem_cons_self)) above
    queued := by
      rcases either with rfl | rfl
      · exact fun _node absent => nomatch absent
      · exact fun _node absent => nomatch absent
    inflight := leveled.inflight
    unlocking := by
      rcases either with rfl | rfl
      · intro other later same
        cases same
        exact current
      · exact fun _node _rest impossible => nomatch impossible }

theorem launch (leveled : Leveled dag state) {node : NodeId} {rest : List NodeId}
    (control : state.control = .launching (node :: rest)) :
    Leveled dag (state.launch dag node rest) := by
  have queued := leveled.queued
  rw [control] at queued
  unfold RunState.launch
  split
  · exact {
      batches := leveled.batches
      ready := leveled.ready
      queued := fun other member => queued other (List.mem_cons_of_mem _ member)
      inflight := by
        intro input member
        rcases List.mem_append.mp member with old | new
        · exact leveled.inflight input old
        · rw [List.mem_singleton.mp new]
          exact queued node List.mem_cons_self
      unlocking := fun _node _rest impossible => nomatch impossible }
  · exact leveled.settle rfl rfl rfl rfl fun _ _ impossible => nomatch impossible

/-- The ready list becomes the next batch. -/
theorem beginBatch (leveled : Leveled dag state) (idle : state.inflight = []) :
    Leveled dag state.beginBatch := by
  have grown : state.beginBatch.batches.length = state.batches.length + 1 :=
    List.length_append
  exact {
    batches := by
      intro index batch found node member
      change (state.batches ++ [state.ready])[index]? = some batch at found
      rw [List.getElem?_append] at found
      split at found
      · exact leveled.batches index batch found node member
      · rename_i beyond
        rcases List.getElem?_eq_some_iff.mp found with ⟨bound, same⟩
        rw [List.length_singleton] at bound
        have last : index = state.batches.length := by omega
        have isReady : node ∈ state.ready := by
          have single : [state.ready][index - state.batches.length] ∈ [state.ready] :=
            List.getElem_mem bound
          rw [same] at single
          exact List.mem_singleton.mp single ▸ member
        rw [leveled.ready node isReady, last]
    ready := fun _node absent => nomatch absent
    queued := by
      intro node member
      rw [grown, leveled.ready node member]
    inflight := by
      change forall input, input ∈ state.inflight -> _
      rw [idle]
      exact fun _input absent => nomatch absent
    unlocking := fun _node _rest impossible => nomatch impossible }

theorem step (wellFormed : dag.WellFormed) (leveled : Leveled dag state)
    (invariant : Invariant dag state) {after : RunState}
    (step : Step dag backend calls state after) : Leveled dag after := by
  cases step.move with
  | launch node rest control => exact leveled.launch control
  | launched control =>
      exact leveled.settle rfl rfl rfl rfl fun _ _ impossible => nomatch impossible
  | beginBatch control idle => exact leveled.beginBatch idle
  | finish control =>
      unfold RunState.finish
      split
      · exact leveled.settle rfl rfl rfl rfl fun _ _ impossible => nomatch impossible
      · exact leveled.settle rfl rfl rfl rfl fun _ _ impossible => nomatch impossible
  | unlock node edge rest control => exact leveled.unlock wellFormed invariant control
  | unlocked node control =>
      exact leveled.settle rfl rfl rfl rfl fun _ _ impossible => nomatch impossible
  | succeed position input output control found =>
      exact {
        batches := leveled.batches
        ready := leveled.ready
        queued := fun _node absent => nomatch absent
        inflight := fun other member =>
          leveled.inflight other (List.mem_of_mem_eraseIdx member)
        unlocking := by
          intro node rest same
          cases same
          exact leveled.inflight input (List.mem_of_getElem? found) }
  | fail position input error control found =>
      exact leveled.settle rfl rfl rfl rfl fun _ _ impossible => nomatch impossible

theorem reachable (wellFormed : dag.WellFormed)
    (run : Reaches (Step dag backend calls) (Scheduler.start dag) state) : Leveled dag state := by
  induction run with
  | refl => exact start wellFormed
  | tail earlier step inductionHypothesis =>
      exact inductionHypothesis.step wellFormed (.reachable wellFormed earlier) step

end Leveled

end Scheduler
end KernelFlow
