import Mathlib
import KernelFlow.Core.Builder
import KernelFlow.Scheduler.Run

namespace KernelFlow
namespace Scheduler

open Transition

/-!
# The run invariant

An edge is enabled when its source has an output on which the condition holds.
It has fired once the loop over the children of its source has passed it.  The
invariant equates every in-degree counter with the number of in-edges that have
not fired, and the nodes with a zero counter with those that were announced,
drained or are ready, each listed once.

Everything else is bookkeeping around that equation: an announced node is
either completed or in flight, its input was collected from outputs that no
later step changes, and the log and the batches list the same nodes.  Each loop
of `run` has one lemma below, and `Invariant.step` assembles them.
-/

variable {P : Type} {dag : Dag P} {backend : HashBackend}
  {calls : NodeInput -> KernelResult NodeOutput -> Prop}

/-! ## The steps, one by one -/

/-- The iterations of the loops of `run`, with what each one tests. -/
inductive Move (dag : Dag P) (backend : HashBackend)
    (calls : NodeInput -> KernelResult NodeOutput -> Prop) (before : RunState) : RunState -> Prop
  | launch (node : NodeId) (rest : List NodeId) (control : before.control = .launching (node :: rest)) :
      Move dag backend calls before (before.launch dag node rest)
  | launched (control : before.control = .launching []) :
      Move dag backend calls before { before with control := .awaiting }
  | beginBatch (control : before.control = .awaiting) (idle : before.inflight = [])
      (nonempty : before.ready ≠ []) : Move dag backend calls before before.beginBatch
  | finish (control : before.control = .awaiting) (idle : before.inflight = [])
      (empty : before.ready = []) : Move dag backend calls before (before.finish dag backend)
  | unlock (node : NodeId) (edge : Edge) (rest : List Edge)
      (control : before.control = .unlocking node (edge :: rest)) :
      Move dag backend calls before (before.unlock node edge rest)
  | unlocked (node : NodeId) (control : before.control = .unlocking node []) :
      Move dag backend calls before { before with control := .awaiting }
  | succeed (position : Nat) (input : NodeInput) (output : NodeOutput)
      (control : before.control = .awaiting) (found : before.inflight[position]? = some input)
      (called : calls input (.ok output)) :
      Move dag backend calls before (before.deliver dag backend position input (.ok output))
  | fail (position : Nat) (input : NodeInput) (error : KernelError)
      (control : before.control = .awaiting) (found : before.inflight[position]? = some input)
      (called : calls input (.error error)) :
      Move dag backend calls before (before.deliver dag backend position input (.error error))

/-- A step is one of these iterations. -/
theorem Step.move {before after : RunState} (step : Step dag backend calls before after) :
    Move dag backend calls before after := by
  rcases step with advanced | ⟨position, input, result, control, found, called, rfl⟩
  · cases control : before.control with
    | launching rest =>
        cases rest with
        | nil =>
            simp only [RunState.advance, control, Option.some.injEq] at advanced
            exact advanced ▸ .launched control
        | cons node rest =>
            simp only [RunState.advance, control, Option.some.injEq] at advanced
            exact advanced ▸ .launch node rest control
    | awaiting =>
        simp only [RunState.advance, control] at advanced
        by_cases idle : before.inflight = []
        · rw [if_pos idle, Option.some.injEq] at advanced
          by_cases empty : before.ready = []
          · rw [if_pos empty] at advanced
            exact advanced ▸ .finish control idle empty
          · rw [if_neg empty] at advanced
            exact advanced ▸ .beginBatch control idle empty
        · rw [if_neg idle] at advanced
          cases advanced
    | unlocking node rest =>
        cases rest with
        | nil =>
            simp only [RunState.advance, control, Option.some.injEq] at advanced
            exact advanced ▸ .unlocked node control
        | cons edge rest =>
            simp only [RunState.advance, control, Option.some.injEq] at advanced
            exact advanced ▸ .unlock node edge rest control
    | returned result =>
        simp only [RunState.advance, control] at advanced
        cases advanced
    | panicked =>
        simp only [RunState.advance, control] at advanced
        cases advanced
  · cases result with
    | ok output => exact .succeed position input output control found called
    | error error => exact .fail position input error control found called

/-! ## Edges that have not fired -/

/-- The source of the edge has completed with an output on which the condition
of the edge holds. -/
def enabled (outputs : BTreeMap NodeId Value) (edge : Edge) : Bool :=
  (outputs[edge.from]?.map edge.condition.evaluate).getD false

theorem enabled_iff {outputs : BTreeMap NodeId Value} {edge : Edge} :
    enabled outputs edge = true ↔
      ∃ value, outputs[edge.from]? = some value ∧ edge.condition.evaluate value = true := by
  unfold enabled
  cases outputs[edge.from]? <;> simp

/-- The edges that the loop over the children of a node has still ahead. -/
def pendingEdges : Control -> List Edge
  | .unlocking _ rest => rest
  | _ => []

/-- The drained nodes that have not been launched yet. -/
def launchQueue : Control -> List NodeId
  | .launching rest => rest
  | _ => []

/-- The number of in-edges of a node that have not fired: those that are not
enabled, and the enabled ones still ahead in the loop over the children. -/
def RunState.unfired (state : RunState) (dag : Dag P) (node : NodeId) : Nat :=
  (dag.edges.countP fun edge => edge.to == node && !enabled state.outputs edge) +
    (pendingEdges state.control).countP fun edge => edge.to == node && enabled state.outputs edge

/-- With nothing left to fire, every in-edge of the node is enabled. -/
theorem enabled_of_unfired_eq_zero {state : RunState} {node : NodeId}
    (none : state.unfired dag node = 0) {edge : Edge} (member : edge ∈ dag.edges)
    (target : edge.to = node) : enabled state.outputs edge = true := by
  have first := (Nat.add_eq_zero_iff.mp none).1
  have notCounted := List.countP_eq_zero.mp first edge member
  simpa [target] using notCounted

private theorem enabled_insert (outputs : BTreeMap NodeId Value) (node : NodeId) (value : Value)
    (edge : Edge) : enabled (outputs.insert node value) edge =
      if node = edge.from then edge.condition.evaluate value else enabled outputs edge := by
  unfold enabled
  rw [OrderedMap.getElem?_insert_eq]
  by_cases same : node = edge.from
  · rw [if_pos same, if_pos same]
    rfl
  · rw [if_neg same, if_neg same]

/-- Completing a node moves its enabled out-edges from the first summand to
the second one; the number of unfired in-edges does not change. -/
private theorem unfired_complete (edges : List Edge) (outputs : BTreeMap NodeId Value)
    (node other : NodeId) (value : Value) (fresh : node ∉ outputs) :
    (edges.countP fun edge => edge.to == other && !enabled (outputs.insert node value) edge) +
      ((edges.filter fun edge => edge.from == node).countP fun edge =>
        edge.to == other && enabled (outputs.insert node value) edge) =
      edges.countP fun edge => edge.to == other && !enabled outputs edge := by
  have absent : outputs[node]? = none := Std.ExtTreeMap.getElem?_eq_none fresh
  rw [List.countP_filter]
  induction edges with
  | nil => rfl
  | cons edge rest inductionHypothesis =>
      rw [List.countP_cons, List.countP_cons, List.countP_cons, ← inductionHypothesis]
      rw [enabled_insert]
      by_cases source : node = edge.from
      · have disabled : enabled outputs edge = false := by
          rw [enabled, ← source, absent]
          rfl
        rw [if_pos source, disabled]
        have sourceEq : (edge.from == node) = true := beq_iff_eq.mpr source.symm
        rw [sourceEq]
        cases edge.to == other <;> cases edge.condition.evaluate value <;> simp <;> omega
      · have sourceNe : (edge.from == node) = false := beq_eq_false_iff_ne.mpr (Ne.symm source)
        rw [if_neg source, sourceNe]
        simp
        omega

theorem RunState.unfired_congr {before after : RunState} (outputs : after.outputs = before.outputs)
    (pending : pendingEdges after.control = pendingEdges before.control) :
    after.unfired dag = before.unfired dag := by
  funext node
  rw [RunState.unfired, RunState.unfired, outputs, pending]

/-- The nodes whose counter has reached zero, in the order of their discovery. -/
def RunState.seen (state : RunState) : List NodeId :=
  startedNodes state.events ++ launchQueue state.control ++ state.ready

/-- A step that touches neither counters nor outputs, and moves nodes only
within the list of seen ones, keeps the counters exact. -/
theorem RunState.counts_of_same {before after : RunState}
    (counts : before.indeg.Consistent (before.unfired dag) before.seen)
    (indeg : after.indeg = before.indeg) (outputs : after.outputs = before.outputs)
    (pending : pendingEdges after.control = pendingEdges before.control)
    (seen : after.seen = before.seen) :
    after.indeg.Consistent (after.unfired dag) after.seen := by
  rw [indeg, seen, RunState.unfired_congr outputs pending]
  exact counts

/-- Removing one position removes one occurrence. -/
private theorem perm_eraseIdx {α : Type} {list : List α} {position : Nat} {entry : α}
    (found : list[position]? = some entry) : list.Perm (entry :: list.eraseIdx position) := by
  rcases List.getElem?_eq_some_iff.mp found with ⟨bound, same⟩
  rw [← same]
  exact (List.getElem_cons_eraseIdx_perm bound).symm

/-! ## The invariant -/

structure Invariant (dag : Dag P) (state : RunState) : Prop where
  /-- no unwrap has failed and no counter was decremented below zero -/
  running : state.control ≠ .panicked
  keys : forall node, node ∈ state.indeg ↔ node ∈ dag.nodes
  counts : state.indeg.Consistent (state.unfired dag) state.seen
  started_iff : forall node, node ∈ startedNodes state.events ↔
    node ∈ state.outputs ∨ node ∈ state.inflight.map NodeInput.nodeId
  inflight_nodup : (state.inflight.map NodeInput.nodeId).Nodup
  inflight_fresh : forall input, input ∈ state.inflight -> input.nodeId ∉ state.outputs
  inflight_input : forall input, input ∈ state.inflight ->
    input = nodeInput dag state.outputs input.nodeId
  pending : forall node rest, state.control = .unlocking node rest ->
    node ∈ state.outputs ∧ forall edge, edge ∈ rest -> edge ∈ dag.edges ∧ edge.from = node
  batches_flatten : state.batches.flatten = startedNodes state.events ++ launchQueue state.control
  batches_nonempty : forall batch, batch ∈ state.batches -> batch ≠ []

namespace Invariant

variable {state : RunState}

/-! ### Direct consequences -/

/-- Announced, drained and ready nodes are declared, and all their in-edges
are enabled. -/
theorem enabled_of_seen (invariant : Invariant dag state) {node : NodeId}
    (seen : node ∈ state.seen)
    {edge : Edge} (member : edge ∈ dag.edges) (target : edge.to = node) :
    enabled state.outputs edge = true :=
  enabled_of_unfired_eq_zero ((invariant.counts.seen_iff_due
    (invariant.counts.mem_counters seen)).mp seen) member target

theorem declared_of_seen (invariant : Invariant dag state) {node : NodeId}
    (seen : node ∈ state.seen) :
    node ∈ dag.nodes :=
  (invariant.keys node).mp (invariant.counts.mem_counters seen)

theorem seen_of_started {node : NodeId} (started : node ∈ startedNodes state.events) :
    node ∈ state.seen :=
  List.mem_append_left _ (List.mem_append_left _ started)

theorem seen_of_output (invariant : Invariant dag state) {node : NodeId}
    (output : node ∈ state.outputs) :
    node ∈ state.seen :=
  seen_of_started ((invariant.started_iff node).mpr (Or.inl output))

theorem seen_of_inflight (invariant : Invariant dag state) {input : NodeInput}
    (inflight : input ∈ state.inflight) :
    input.nodeId ∈ state.seen :=
  seen_of_started ((invariant.started_iff input.nodeId).mpr
    (Or.inr (List.mem_map_of_mem inflight)))

/-- A drained node has neither completed nor been put in flight. -/
theorem not_started_of_queued (invariant : Invariant dag state) {node : NodeId}
    (queued : node ∈ launchQueue state.control) : node ∉ startedNodes state.events := by
  intro started
  have distinct := (List.nodup_append.mp invariant.counts.nodup).1
  exact (List.nodup_append.mp distinct).2.2 node started node queued rfl

/-- Outside the loop over the children, a node has been seen as soon as all its
in-edges are enabled. -/
theorem seen_of_enabled (invariant : Invariant dag state) {node : NodeId}
    (settled : pendingEdges state.control = []) (declared : node ∈ dag.nodes)
    (all : forall edge, edge ∈ dag.edges -> edge.to = node -> enabled state.outputs edge = true) :
    node ∈ state.seen := by
  apply (invariant.counts.seen_iff_due ((invariant.keys node).mpr declared)).mpr
  rw [RunState.unfired, settled, List.countP_nil, Nat.add_zero, List.countP_eq_zero]
  intro edge member counted
  rw [Bool.and_eq_true, beq_iff_eq] at counted
  rw [all edge member counted.1] at counted
  exact absurd counted.2 (by simp)

/-- The parent outputs of a node whose in-edges are all enabled do not depend
on anything that completes later. -/
theorem parentOutputs_insert {outputs : BTreeMap NodeId Value} {node other : NodeId}
    {value : Value} (fresh : node ∉ outputs)
    (sources : forall edge, edge ∈ dag.edges -> edge.to = other ->
      enabled outputs edge = true) :
    parentOutputs dag (outputs.insert node value) other = parentOutputs dag outputs other := by
  unfold parentOutputs
  congr 1
  apply List.filterMap_congr
  intro edge member
  have parts := dag.mem_parents.mp member
  rcases enabled_iff.mp (sources edge parts.1 parts.2) with ⟨output, found, _⟩
  have different : node ≠ edge.from := fun same =>
    fresh (same ▸ OrderedMap.mem_of_getElem?_eq_some found)
  rw [OrderedMap.getElem?_insert_eq, if_neg different]

/-- So the input of a seen node is final. -/
theorem nodeInput_insert (invariant : Invariant dag state) {node other : NodeId}
    (fresh : node ∉ state.outputs) (value : Value) (seen : other ∈ state.seen) :
    nodeInput dag (state.outputs.insert node value) other = nodeInput dag state.outputs other := by
  rw [nodeInput, nodeInput]
  congr 1
  apply parentOutputs_insert fresh
  intro edge inEdges target
  exact invariant.enabled_of_seen seen inEdges target

/-! ### One loop iteration each -/

theorem launch (invariant : Invariant dag state) {node : NodeId} {rest : List NodeId}
    (control : state.control = .launching (node :: rest)) :
    Invariant dag (state.launch dag node rest) := by
  have queued : node ∈ launchQueue state.control := by
    rw [control]
    exact List.mem_cons_self
  have declared : node ∈ dag.nodes := invariant.declared_of_seen
    (List.mem_append_left _ (List.mem_append_right _ queued))
  have fresh := invariant.not_started_of_queued queued
  have notOutput : node ∉ state.outputs := fun output =>
    fresh ((invariant.started_iff node).mpr (Or.inl output))
  have notInflight : node ∉ state.inflight.map NodeInput.nodeId := fun inflight =>
    fresh ((invariant.started_iff node).mpr (Or.inr inflight))
  have started : startedNodes (state.events ++ [.nodeStarted dag.id node 1]) =
      startedNodes state.events ++ [node] := startedNodes_append _ _
  rw [RunState.launch, if_pos declared]
  exact {
    running := fun impossible => nomatch impossible
    keys := invariant.keys
    counts := by
      refine RunState.counts_of_same invariant.counts rfl rfl (by rw [control]; rfl) ?_
      change startedNodes (_ ++ [_]) ++ rest ++ state.ready = _
      rw [started, List.append_assoc (startedNodes state.events), RunState.seen, control]
      rfl
    started_iff := by
      intro other
      change other ∈ startedNodes (_ ++ [_]) ↔ _
      rw [started, List.map_append, List.mem_append, List.mem_append, invariant.started_iff other]
      exact or_assoc
    inflight_nodup := by
      rw [List.map_append]
      refine List.nodup_append.mpr ⟨invariant.inflight_nodup, List.nodup_singleton _, ?_⟩
      intro first inside second only same
      rw [List.mem_singleton.mp only] at same
      rw [same] at inside
      exact notInflight inside
    inflight_fresh := by
      intro input member
      rcases List.mem_append.mp member with old | new
      · exact invariant.inflight_fresh input old
      · rw [List.mem_singleton.mp new]
        exact notOutput
    inflight_input := by
      intro input member
      rcases List.mem_append.mp member with old | new
      · exact invariant.inflight_input input old
      · rw [List.mem_singleton.mp new]
        rfl
    pending := fun _node _rest impossible => nomatch impossible
    batches_flatten := by
      have flatten := invariant.batches_flatten
      rw [control] at flatten
      change _ = startedNodes (_ ++ [_]) ++ rest
      rw [started, List.append_assoc]
      exact flatten
    batches_nonempty := invariant.batches_nonempty }

/-- Leaving the loop over the ready list or the loop over the children. -/
theorem awaiting (invariant : Invariant dag state) (queue : launchQueue state.control = [])
    (settled : pendingEdges state.control = []) :
    Invariant dag { state with control := .awaiting } where
  running := fun impossible => nomatch impossible
  keys := invariant.keys
  counts := by
    refine RunState.counts_of_same invariant.counts rfl rfl settled.symm ?_
    rw [RunState.seen, RunState.seen, queue]
    rfl
  started_iff := invariant.started_iff
  inflight_nodup := invariant.inflight_nodup
  inflight_fresh := invariant.inflight_fresh
  inflight_input := invariant.inflight_input
  pending := fun _node _rest impossible => nomatch impossible
  batches_flatten := by
    rw [invariant.batches_flatten, queue]
    rfl
  batches_nonempty := invariant.batches_nonempty

theorem beginBatch (invariant : Invariant dag state) (control : state.control = .awaiting)
    (nonempty : state.ready ≠ []) : Invariant dag state.beginBatch where
  running := fun impossible => nomatch impossible
  keys := invariant.keys
  counts := by
    refine RunState.counts_of_same invariant.counts rfl rfl (by rw [control]; rfl) ?_
    rw [RunState.seen, RunState.seen, control]
    change startedNodes state.events ++ state.ready ++ [] = startedNodes state.events ++ [] ++ _
    rw [List.append_nil, List.append_nil]
  started_iff := invariant.started_iff
  inflight_nodup := invariant.inflight_nodup
  inflight_fresh := invariant.inflight_fresh
  inflight_input := invariant.inflight_input
  pending := fun _node _rest impossible => nomatch impossible
  batches_flatten := by
    have flatten := invariant.batches_flatten
    simp only [control, launchQueue, List.append_nil] at flatten
    simp only [RunState.beginBatch, launchQueue, List.flatten_append, List.flatten_cons,
      List.flatten_nil, List.append_nil, flatten]
  batches_nonempty := by
    intro batch member
    rcases List.mem_append.mp member with old | new
    · exact invariant.batches_nonempty batch old
    · exact List.mem_singleton.mp new ▸ nonempty

/-- Returning after an event that announces no node. -/
theorem returned (invariant : Invariant dag state) (control : state.control = .awaiting)
    (result : KernelResult String) {terminal : List KernelEvent}
    (silent : startedNodes terminal = []) :
    Invariant dag { state with
      events := state.events ++ terminal, control := .returned result } := by
  have started : startedNodes (state.events ++ terminal) = startedNodes state.events := by
    rw [startedNodes_append, silent, List.append_nil]
  exact {
    running := fun impossible => nomatch impossible
    keys := invariant.keys
    counts := by
      refine RunState.counts_of_same invariant.counts rfl rfl (by rw [control]; rfl) ?_
      rw [RunState.seen, RunState.seen, started, control]
      rfl
    started_iff := fun node => by
      rw [started]
      exact invariant.started_iff node
    inflight_nodup := invariant.inflight_nodup
    inflight_fresh := invariant.inflight_fresh
    inflight_input := invariant.inflight_input
    pending := fun _node _rest impossible => nomatch impossible
    batches_flatten := by
      rw [started, invariant.batches_flatten, control]
      rfl
    batches_nonempty := invariant.batches_nonempty }

theorem finish (invariant : Invariant dag state) (control : state.control = .awaiting) :
    Invariant dag (state.finish dag backend) := by
  unfold RunState.finish
  by_cases missing : state.outputs.size ≠ dag.nodes.size
  · rw [if_pos missing]
    have silent : startedNodes [] = [] := rfl
    have kept := invariant.returned control
      (.error (.invalidInput "not all nodes were reached")) silent
    rw [List.append_nil] at kept
    exact kept
  · rw [if_neg missing]
    exact invariant.returned control _ rfl

/-- The loop over the children moves on; only counters and ready list change. -/
private theorem unlocking (invariant : Invariant dag state) {node : NodeId} {edge : Edge}
    {rest : List Edge} (control : state.control = .unlocking node (edge :: rest))
    {indeg : Counters NodeId} {ready : List NodeId}
    (keys : forall other, other ∈ indeg ↔ other ∈ state.indeg)
    (counts : indeg.Consistent
      (({ state with control := .unlocking node rest } : RunState).unfired dag)
      (startedNodes state.events ++ ready)) :
    Invariant dag { state with
      indeg := indeg, ready := ready, control := .unlocking node rest } where
  running := fun impossible => nomatch impossible
  keys := fun other => (keys other).trans (invariant.keys other)
  counts := by
    change indeg.Consistent _ (startedNodes state.events ++ [] ++ ready)
    rw [List.append_nil]
    exact counts
  started_iff := invariant.started_iff
  inflight_nodup := invariant.inflight_nodup
  inflight_fresh := invariant.inflight_fresh
  inflight_input := invariant.inflight_input
  pending := by
    intro current later same
    cases same
    have before := invariant.pending node (edge :: rest) control
    exact ⟨before.1, fun edge member => before.2 edge (List.mem_cons_of_mem _ member)⟩
  batches_flatten := by
    rw [invariant.batches_flatten, control]
    rfl
  batches_nonempty := invariant.batches_nonempty

theorem unlock (wellFormed : dag.WellFormed) (invariant : Invariant dag state) {node : NodeId}
    {edge : Edge} {rest : List Edge}
    (control : state.control = .unlocking node (edge :: rest)) :
    Invariant dag (state.unlock node edge rest) := by
  rcases invariant.pending node (edge :: rest) control with ⟨output, edges⟩
  rcases edges edge List.mem_cons_self with ⟨member, source⟩
  rcases (OrderedMap.mem_iff_exists _ _).mp output with ⟨value, found⟩
  have seen : state.seen = startedNodes state.events ++ state.ready := by
    rw [RunState.seen, control]
    simp only [launchQueue, List.append_nil]
  have counts := invariant.counts
  rw [seen] at counts
  have condition : enabled state.outputs edge = edge.condition.evaluate value := by
    rw [enabled, source, found]
    rfl
  have fires : forall other, state.unfired dag other =
      ({ state with control := .unlocking node rest } : RunState).unfired dag other +
        if edge.to == other && edge.condition.evaluate value then 1 else 0 := by
    intro other
    rw [RunState.unfired, control, RunState.unfired, ← condition, Nat.add_assoc]
    exact congrArg _ (List.countP_cons ..)
  have parentOut : state.outputs[node]?.getD Value.null = value := by
    rw [found]
    rfl
  simp only [RunState.unlock, parentOut]
  cases holds : edge.condition.evaluate value with
  | false =>
      rw [if_pos rfl]
      refine invariant.unlocking control (fun _ => Iff.rfl) (counts.congr_due ?_)
      intro other _declared
      rw [fires other, holds, Bool.and_false]
      rfl
  | true =>
      rw [if_neg (by simp)]
      have target : edge.to ∈ state.indeg :=
        (invariant.keys edge.to).mpr (wellFormed.to_declared edge member)
      have due : 0 < state.unfired dag edge.to := by
        rw [fires edge.to, holds, beq_self_eq_true]
        exact Nat.succ_pos _
      rcases counts.release target due with ⟨lowered, extended, computed, kept, keys⟩
      rw [computed]
      refine invariant.unlocking control keys (kept.congr_due ?_)
      intro other _declared
      by_cases same : edge.to = other
      · subst other
        rw [Function.update_self, fires edge.to, holds, beq_self_eq_true]
        rfl
      · rw [Function.update_of_ne (Ne.symm same), fires other, beq_eq_false_iff_ne.mpr same]
        rfl

/-- A call that ends well: its output becomes visible and the loop over the
children of the node begins. -/
theorem succeed (invariant : Invariant dag state) {position : Nat} {input : NodeInput}
    (control : state.control = .awaiting) (found : state.inflight[position]? = some input)
    (output : NodeOutput) :
    Invariant dag (state.deliver dag backend position input (.ok output)) := by
  have member : input ∈ state.inflight := List.mem_of_getElem? found
  have fresh := invariant.inflight_fresh input member
  have started : startedNodes (state.events ++ [.nodeCompleted dag.id input.nodeId
      (.success (hashJson backend output.value) output.gasUsed)]) = startedNodes state.events := by
    rw [startedNodes_append]
    exact List.append_nil _
  have split : (state.inflight.map NodeInput.nodeId).Perm
      (input.nodeId :: (state.inflight.eraseIdx position).map NodeInput.nodeId) := by
    rw [← List.map_cons (f := NodeInput.nodeId)]
    exact (perm_eraseIdx found).map _
  have parts := List.nodup_cons.mp (split.nodup_iff.mp invariant.inflight_nodup)
  exact {
    running := fun impossible => nomatch impossible
    keys := invariant.keys
    counts := by
      have seen : (state.deliver dag backend position input (.ok output)).seen = state.seen := by
        rw [RunState.seen, RunState.seen, control]
        change startedNodes (_ ++ [_]) ++ [] ++ _ = _
        rw [started]
        rfl
      rw [seen]
      apply invariant.counts.congr_due
      intro other _declared
      rw [RunState.unfired, control]
      exact (unfired_complete dag.edges state.outputs input.nodeId other output.value fresh).symm
    started_iff := by
      intro other
      change other ∈ startedNodes (_ ++ [_]) ↔ other ∈ state.outputs.insert _ _ ∨ _
      rw [started, invariant.started_iff other, split.mem_iff, List.mem_cons,
        OrderedMap.mem_insert_eq, eq_comm (a := other), or_assoc, or_left_comm]
      rfl
    inflight_nodup := parts.2
    inflight_fresh := by
      intro other inside
      have earlier := invariant.inflight_fresh other (List.mem_of_mem_eraseIdx inside)
      change other.nodeId ∉ state.outputs.insert _ _
      rw [OrderedMap.mem_insert_eq, not_or]
      exact ⟨fun same => parts.1 (same ▸ List.mem_map_of_mem inside), earlier⟩
    inflight_input := by
      intro other inside
      have earlier := List.mem_of_mem_eraseIdx inside
      refine (invariant.inflight_input other earlier).trans ?_
      exact (invariant.nodeInput_insert fresh _ (invariant.seen_of_inflight earlier)).symm
    pending := by
      intro node rest same
      cases same
      refine ⟨(OrderedMap.mem_insert_eq _ _ _ _).mpr (Or.inl rfl), ?_⟩
      intro edge child
      exact dag.mem_children.mp child
    batches_flatten := by
      change state.batches.flatten = startedNodes (_ ++ [_]) ++ []
      rw [started, invariant.batches_flatten, control]
      rfl
    batches_nonempty := invariant.batches_nonempty }

theorem fail (invariant : Invariant dag state) (control : state.control = .awaiting)
    (position : Nat) (input : NodeInput) (error : KernelError) :
    Invariant dag (state.deliver dag backend position input (.error error)) :=
  invariant.returned control (.error error) rfl

/-! ### Whole runs -/

end Invariant

/-- The targets are all declared, so the table of the scheduler is the one
that the topological sort starts from. -/
theorem initialDegrees_eq (wellFormed : dag.WellFormed) :
    initialDegrees dag = some dag.inDegrees := by
  have general : forall (edges : List Edge) (indeg : Counters NodeId),
      (forall edge, edge ∈ edges -> edge.to ∈ indeg) ->
      edges.foldlM (fun indeg edge =>
          indeg[edge.to]?.map fun degree => indeg.insert edge.to (degree + 1)) indeg =
        some (edges.foldl (fun indeg edge =>
          indeg.insert edge.to (indeg[edge.to]?.getD 0 + 1)) indeg) := by
    intro edges
    induction edges with
    | nil => exact fun _ _ => rfl
    | cons edge rest inductionHypothesis =>
        intro indeg declared
        have here := declared edge List.mem_cons_self
        rcases (OrderedMap.mem_iff_exists _ _).mp here with ⟨degree, found⟩
        rw [List.foldlM_cons, List.foldl_cons, found]
        apply inductionHypothesis _
        intro other member
        exact (OrderedMap.mem_insert_of_mem here _ _).mpr
          (declared other (List.mem_cons_of_mem _ member))
  rw [initialDegrees_eq_foldlM]
  apply general dag.edges _
  intro edge member
  rw [OrderedMap.mem_iff_exists, OrderedMap.getElem?_ofList_map dag.nodes.keys (fun _ => 0)]
  exact ⟨0, if_pos (Std.ExtTreeMap.mem_keys.mpr (wellFormed.to_declared edge member))⟩

/-- A well-formed graph never fails before the first batch. -/
theorem start_eq (wellFormed : dag.WellFormed) : start dag =
    { indeg := dag.inDegrees, outputs := ∅, ready := dag.inDegrees.zeros, inflight := [],
      events := [.workflowStarted dag.id dag.name], control := .awaiting, batches := [] } := by
  rw [start, initialDegrees_eq wellFormed]

namespace Invariant

variable {state : RunState}

theorem start (wellFormed : dag.WellFormed) : Invariant dag (start dag) := by
  rw [start_eq wellFormed]
  exact {
    running := fun impossible => nomatch impossible
    keys := by
      intro node
      refine (Dag.mem_inDegrees dag node).trans ⟨?_, Or.inl⟩
      rintro (declared | ⟨edge, member, rfl⟩)
      · exact declared
      · exact wellFormed.to_declared edge member
    counts := by
      refine (Counters.Consistent.initial fun node declared =>
        Dag.getElem?_inDegrees dag declared).congr_due ?_
      intro node _declared
      simp only [RunState.unfired, enabled, pendingEdges, Std.ExtTreeMap.getElem?_empty,
        Option.map_none, Option.getD_none, Bool.not_false, Bool.and_true, List.countP_nil,
        Nat.add_zero]
    started_iff := by
      intro node
      simp [startedNodes]
    inflight_nodup := List.nodup_nil
    inflight_fresh := fun _input absent => nomatch absent
    inflight_input := fun _input absent => nomatch absent
    pending := fun _node _rest impossible => nomatch impossible
    batches_flatten := rfl
    batches_nonempty := fun _batch absent => nomatch absent }

/-- Every step keeps the invariant. -/
theorem step (wellFormed : dag.WellFormed) {before after : RunState}
    (invariant : Invariant dag before) (step : Step dag backend calls before after) :
    Invariant dag after := by
  cases step.move with
  | launch node rest control => exact invariant.launch control
  | launched control =>
      exact invariant.awaiting (by rw [control]; rfl) (by rw [control]; rfl)
  | beginBatch control _idle nonempty => exact invariant.beginBatch control nonempty
  | finish control => exact invariant.finish control
  | unlock node edge rest control => exact invariant.unlock wellFormed control
  | unlocked node control =>
      exact invariant.awaiting (by rw [control]; rfl) (by rw [control]; rfl)
  | succeed position input output control found => exact invariant.succeed control found output
  | fail position input error control => exact invariant.fail control position input error

/-- Every reachable state satisfies the invariant. -/
theorem reachable (wellFormed : dag.WellFormed)
    (run : Reaches (Step dag backend calls) (Scheduler.start dag) state) : Invariant dag state :=
  run.invariant (start wellFormed) fun _before _after invariant step =>
    invariant.step wellFormed step

end Invariant

end Scheduler
end KernelFlow
