import Mathlib
import KernelFlow.Scheduler.Reference
import KernelFlow.Scheduler.Levels

namespace KernelFlow
namespace Scheduler

open Transition

/-!
# Agreement with the reference evaluation

Whatever a run has announced is reached by the reference, on the same inputs
and with the same result.  Conversely, a run that returns has completed every
reached node of an earlier level than its last batch, and every reached node at
all if nothing was in flight or ready.  Since the reference is a function of the
graph and the node semantics, the completion order cannot be observed: there is
no confluence argument.
-/

variable {P : Type} {dag : Dag P} {backend : HashBackend} {sem : NodeSemantics}

/-- Every reached node succeeds. -/
def AllSucceed (dag : Dag P) (sem : NodeSemantics) : Prop :=
  forall node error, ¬ Evaluates dag sem node (.error error)

/-- A declared node whose in-edges all carry a true condition is reached. -/
theorem reached_of_sources {node : NodeId} (declared : node ∈ dag.nodes)
    (sources : forall edge, edge ∈ dag.edges -> edge.to = node -> ∃ output : NodeOutput,
      Evaluates dag sem edge.from (.ok output) ∧
        edge.condition.evaluate output.value = true) :
    Reached dag sem node := by
  have results : forall parent, ∃ output : NodeOutput,
      forall result, Evaluates dag sem parent (.ok result) -> result = output := by
    intro parent
    by_cases succeeds : ∃ output, Evaluates dag sem parent (.ok output)
    · rcases succeeds with ⟨output, evaluates⟩
      exact ⟨output, fun result other => Except.ok.inj (other.unique evaluates)⟩
    · exact ⟨⟨Value.null, 0⟩, fun result other => absurd ⟨result, other⟩ succeeds⟩
  choose output unique using results
  have chosen : forall edge, edge ∈ dag.edges -> edge.to = node ->
      Evaluates dag sem edge.from (.ok (output edge.from)) ∧
        edge.condition.evaluate (output edge.from).value = true := by
    intro edge member target
    rcases sources edge member target with ⟨result, evaluates, condition⟩
    rw [← unique edge.from result evaluates]
    exact ⟨evaluates, condition⟩
  exact ⟨_, .intro node output declared (fun edge member target => (chosen edge member target).1)
    fun edge member target => (chosen edge member target).2⟩

/-- All nodes are reached exactly when every edge carries a true condition on
the output of a reached, successful source. -/
theorem reached_all_iff (wellFormed : dag.WellFormed) :
    (forall node, node ∈ dag.nodes -> Reached dag sem node) ↔
      forall edge, edge ∈ dag.edges -> ∃ output : NodeOutput,
        Evaluates dag sem edge.from (.ok output) ∧
          edge.condition.evaluate output.value = true := by
  constructor
  · intro reached edge member
    rcases reached edge.to (wellFormed.to_declared edge member) with ⟨result, evaluates⟩
    cases evaluates with
    | intro _ output _declared sources conditions =>
        exact ⟨output edge.from, sources edge member rfl, conditions edge member rfl⟩
  · exact fun holds node declared =>
      reached_of_sources declared fun edge member _target => holds edge member

/-! ## From the run to the reference -/

section States

variable {state : RunState}

/-- Outputs of all sources give the reference and the run the same parents. -/
theorem sourceOutputs_eq_parentOutputs {output : NodeId -> NodeOutput}
    {outputs : BTreeMap NodeId Value} {node : NodeId}
    (found : forall edge, edge ∈ dag.edges -> edge.to = node ->
      outputs[edge.from]? = some (output edge.from).value) :
    sourceOutputs dag output node = parentOutputs dag outputs node := by
  apply Std.ExtTreeMap.ext_getElem?
  intro parent
  rw [getElem?_sourceOutputs, getElem?_parentOutputs]
  by_cases source : ∃ edge ∈ dag.edges, edge.to = node ∧ edge.from = parent
  · rw [if_pos source, if_pos source]
    rcases source with ⟨edge, member, target, rfl⟩
    exact (found edge member target).symm
  · rw [if_neg source, if_neg source]

/-- The run and the reference give an announced, drained or ready node the same
parents, hence the same result. -/
theorem evaluates_of_seen (wellFormed : dag.WellFormed)
    (run : Reaches (Step dag backend (callsOf sem)) (start dag) state) {node : NodeId}
    (seen : node ∈ state.seen) :
    Evaluates dag sem node (sem node (parentOutputs dag state.outputs node)) := by
  have invariant := Invariant.reachable wellFormed run
  have log := Log.reachable wellFormed run
  rcases exists_ranked wellFormed with ⟨rank, ranked⟩
  have answered : forall parent, ∃ output : NodeOutput, forall value,
      state.outputs[parent]? = some value -> value = output.value ∧
        sem parent (parentOutputs dag state.outputs parent) = .ok output := by
    intro parent
    cases found : state.outputs[parent]? with
    | none => exact ⟨⟨Value.null, 0⟩, fun _value impossible => nomatch impossible⟩
    | some stored =>
        rcases log.called_of_output found with ⟨output, same, called, _listed⟩
        refine ⟨output, fun value equal => ⟨?_, called.symm⟩⟩
        rw [← Option.some.inj equal, same]
  choose output answer using answered
  -- Induction along the ranking: every source of an in-edge has completed.
  induction bound : rank node using Nat.strong_induction_on generalizing node with
  | h _ inductionHypothesis =>
      have sources : forall edge, edge ∈ dag.edges -> edge.to = node ->
          state.outputs[edge.from]? = some (output edge.from).value ∧
            edge.condition.evaluate (output edge.from).value = true ∧
            Evaluates dag sem edge.from (.ok (output edge.from)) := by
        intro edge member target
        rcases enabled_iff.mp (invariant.enabled_of_seen seen member target) with
          ⟨value, found, condition⟩
        rcases answer edge.from value found with ⟨rfl, result⟩
        have lower : rank edge.from < rank node :=
          target ▸ ranked _ _ (dag.graph.adjacent_of_mem member)
        have earlier := inductionHypothesis (rank edge.from) (bound ▸ lower)
          (invariant.seen_of_output (OrderedMap.mem_of_getElem?_eq_some found)) rfl
        rw [result] at earlier
        exact ⟨found, condition, earlier⟩
      have parents : sourceOutputs dag output node = parentOutputs dag state.outputs node :=
        sourceOutputs_eq_parentOutputs fun edge member target => (sources edge member target).1
      rw [← parents]
      exact .intro node output (invariant.declared_of_seen seen)
        (fun edge member target => (sources edge member target).2.2)
        fun edge member target => (sources edge member target).2.1

/-- An output of the run is the reference output. -/
theorem evaluates_of_output (wellFormed : dag.WellFormed)
    (run : Reaches (Step dag backend (callsOf sem)) (start dag) state) {node : NodeId}
    {value : Value} (found : state.outputs[node]? = some value) :
    ∃ output : NodeOutput, Evaluates dag sem node (.ok output) ∧ output.value = value := by
  rcases (Log.reachable wellFormed run).called_of_output found with
    ⟨output, same, called, _listed⟩
  have evaluates := evaluates_of_seen wellFormed run
    ((Invariant.reachable wellFormed run).seen_of_output
      (OrderedMap.mem_of_getElem?_eq_some found))
  have result : Except.ok output = sem node (parentOutputs dag state.outputs node) := called
  rw [← result] at evaluates
  exact ⟨output, evaluates, same⟩

/-- A failing call in flight is a failure of the reference. -/
theorem evaluates_of_failed (wellFormed : dag.WellFormed)
    (run : Reaches (Step dag backend (callsOf sem)) (start dag) state) {input : NodeInput}
    {error : KernelError} (inflight : input ∈ state.inflight)
    (called : callsOf sem input (.error error)) :
    Evaluates dag sem input.nodeId (.error error) := by
  have invariant := Invariant.reachable wellFormed run
  have evaluates := evaluates_of_seen wellFormed run (invariant.seen_of_inflight inflight)
  rw [invariant.inflight_input input inflight] at called
  have answer : Except.error error =
    sem input.nodeId (parentOutputs dag state.outputs input.nodeId) := called
  rw [← answer] at evaluates
  exact evaluates

/-! ## From the reference to the run -/

/-- When the run stands outside its loops, a node that was seen has completed if
nothing is in flight or ready, and also if its level is below the current one. -/
theorem completed_of_seen (wellFormed : dag.WellFormed)
    (run : Reaches (Step dag backend (callsOf sem)) (start dag) state)
    (launched : launchQueue state.control = []) {node : NodeId} (seen : node ∈ state.seen)
    (early : (state.inflight = [] ∧ state.ready = []) ∨
      dag.graph.level node + 1 < state.batches.length) : node ∈ state.outputs := by
  have invariant := Invariant.reachable wellFormed run
  have leveled := Leveled.reachable wellFormed run
  have started : node ∈ startedNodes state.events := by
    rw [RunState.seen, launched, List.append_nil] at seen
    rcases List.mem_append.mp seen with started | ready
    · exact started
    · rcases early with idle | below
      · rw [idle.2] at ready
        cases ready
      · have level := leveled.ready node ready
        omega
  rcases (invariant.started_iff node).mp started with completed | inflight
  · exact completed
  · rcases List.mem_map.mp inflight with ⟨input, member, rfl⟩
    rcases early with idle | below
    · rw [idle.1] at member
      cases member
    · have level := leveled.inflight input member
      omega

/-- So a reached node has completed. -/
theorem output_of_evaluates (wellFormed : dag.WellFormed)
    (run : Reaches (Step dag backend (callsOf sem)) (start dag) state)
    (settled : pendingEdges state.control = []) (launched : launchQueue state.control = [])
    {node : NodeId} {result : KernelResult NodeOutput} (evaluates : Evaluates dag sem node result)
    (early : (state.inflight = [] ∧ state.ready = []) ∨
      dag.graph.level node + 1 < state.batches.length) :
    ∃ output : NodeOutput, result = .ok output ∧ state.outputs[node]? = some output.value := by
  have invariant := Invariant.reachable wellFormed run
  rcases exists_ranked wellFormed with ⟨rank, ranked⟩
  have evaluatesHere := evaluates
  induction evaluates with
  | intro node output declared sources conditions inductionHypothesis =>
      have seen : node ∈ state.seen := by
        apply invariant.seen_of_enabled settled declared
        intro edge member target
        have earlier : (state.inflight = [] ∧ state.ready = []) ∨
            dag.graph.level edge.from + 1 < state.batches.length := by
          have lower : dag.graph.level edge.from < dag.graph.level node :=
            target ▸ ranked.level_lt (dag.graph.adjacent_of_mem member)
          rcases early with idle | below
          · exact Or.inl idle
          · exact Or.inr (by omega)
        rcases inductionHypothesis edge member target earlier (sources edge member target) with
          ⟨stored, same, found⟩
        cases same
        exact enabled_iff.mpr ⟨_, found, conditions edge member target⟩
      have completed := completed_of_seen wellFormed run launched seen early
      rcases (OrderedMap.mem_iff_exists _ _).mp completed with ⟨value, found⟩
      rcases evaluates_of_output wellFormed run found with ⟨result, stored, rfl⟩
      exact ⟨result, evaluatesHere.unique stored, found⟩

/-! ### A run with nothing left to do -/

/-- The run has returned with nothing in flight and nothing ready. -/
structure Drained (state : RunState) : Prop where
  settled : pendingEdges state.control = []
  launched : launchQueue state.control = []
  idle : state.inflight = []
  ready : state.ready = []

theorem Drained.output_of_evaluates (drained : Drained state) (wellFormed : dag.WellFormed)
    (run : Reaches (Step dag backend (callsOf sem)) (start dag) state) {node : NodeId}
    {result : KernelResult NodeOutput} (evaluates : Evaluates dag sem node result) :
    ∃ output : NodeOutput, result = .ok output ∧ state.outputs[node]? = some output.value :=
  Scheduler.output_of_evaluates wellFormed run drained.settled drained.launched evaluates
    (Or.inl ⟨drained.idle, drained.ready⟩)

theorem Drained.outputs_iff (drained : Drained state) (wellFormed : dag.WellFormed)
    (run : Reaches (Step dag backend (callsOf sem)) (start dag) state) (node : NodeId)
    (value : Value) : state.outputs[node]? = some value ↔
      ∃ output : NodeOutput, Evaluates dag sem node (.ok output) ∧ output.value = value := by
  constructor
  · exact evaluates_of_output wellFormed run
  · rintro ⟨output, evaluates, rfl⟩
    rcases drained.output_of_evaluates wellFormed run evaluates with ⟨other, same, found⟩
    rw [found, Except.ok.inj same]

theorem Drained.allSucceed (drained : Drained state) (wellFormed : dag.WellFormed)
    (run : Reaches (Step dag backend (callsOf sem)) (start dag) state) : AllSucceed dag sem := by
  intro node error evaluates
  rcases drained.output_of_evaluates wellFormed run evaluates with ⟨output, impossible, _⟩
  cases impossible

/-- The size test of the source is a test for unreached nodes. -/
theorem Drained.size_eq_iff (drained : Drained state) (wellFormed : dag.WellFormed)
    (run : Reaches (Step dag backend (callsOf sem)) (start dag) state) :
    state.outputs.size = dag.nodes.size ↔
      forall node, node ∈ dag.nodes -> Reached dag sem node := by
  have invariant := Invariant.reachable wellFormed run
  rw [OrderedMap.size_eq_iff_of_subset fun node output =>
    invariant.declared_of_seen (invariant.seen_of_output output)]
  refine forall_congr' fun node => imp_congr_right fun _ => ?_
  constructor
  · intro completed
    rcases (OrderedMap.mem_iff_exists _ _).mp completed with ⟨value, found⟩
    rcases evaluates_of_output wellFormed run found with ⟨output, evaluates, _⟩
    exact ⟨_, evaluates⟩
  · rintro ⟨result, evaluates⟩
    rcases drained.output_of_evaluates wellFormed run evaluates with ⟨output, _, found⟩
    exact OrderedMap.mem_of_getElem?_eq_some found

end States

/-! ## The agreement theorem -/

/-- What the reference predicts about a run that has returned. -/
structure Agreement (dag : Dag P) (backend : HashBackend) (sem : NodeSemantics)
    (state : RunState) (result : KernelResult String) : Prop where
  outputs : AllSucceed dag sem -> forall (node : NodeId) (value : Value),
    state.outputs[node]? = some value ↔
      ∃ output : NodeOutput, Evaluates dag sem node (.ok output) ∧ output.value = value
  completed : AllSucceed dag sem -> (forall node, node ∈ dag.nodes -> Reached dag sem node) ->
    result = .ok (hashJson backend (Value.ofMap state.outputs))
  unreached : AllSucceed dag sem -> ¬ (forall node, node ∈ dag.nodes -> Reached dag sem node) ->
    result = .error (.invalidInput "not all nodes were reached")
  /-- the error comes from a failing node of the first batch that has one, and
  no failing node lies on an earlier level -/
  failed : ¬ AllSucceed dag sem -> ∃ node error index batch,
    result = .error error ∧ Evaluates dag sem node (.error error) ∧
    state.batches[index]? = some batch ∧ node ∈ batch ∧ dag.graph.level node = index ∧
    (forall earlier batch other error, earlier < index -> state.batches[earlier]? = some batch ->
      other ∈ batch -> ¬ Evaluates dag sem other (.error error)) ∧
    forall other error, Evaluates dag sem other (.error error) ->
      index ≤ dag.graph.level other

/-- A state that has returned with nothing in flight or ready is drained. -/
theorem drained_of_returned {state : RunState} {result : KernelResult String}
    (control : state.control = .returned result) (idle : state.inflight = [])
    (ready : state.ready = []) : Drained state :=
  ⟨by rw [control]; rfl, by rw [control]; rfl, idle, ready⟩

theorem agreement_of_returned (wellFormed : dag.WellFormed) {state : RunState}
    (run : Reaches (Step dag backend (callsOf sem)) (start dag) state)
    {result : KernelResult String} (control : state.control = .returned result) :
    Agreement dag backend sem state result := by
  rcases (Log.reachable wellFormed run).exit control with ⟨_body, _terminal, _events, _node, exit⟩
  cases exit with
  | completed idle ready all =>
      have drained := drained_of_returned control idle ready
      exact {
        outputs := fun _ => drained.outputs_iff wellFormed run
        completed := fun _ _ => rfl
        unreached := fun _ missing => absurd ((drained.size_eq_iff wellFormed run).mp all) missing
        failed := fun fails => absurd (drained.allSucceed wellFormed run) fails }
  | unreached idle ready missing =>
      have drained := drained_of_returned control idle ready
      exact {
        outputs := fun _ => drained.outputs_iff wellFormed run
        completed := fun _ all => absurd ((drained.size_eq_iff wellFormed run).mpr all) missing
        unreached := fun _ _ => rfl
        failed := fun fails => absurd (drained.allSucceed wellFormed run) fails }
  | failed input error inflight called =>
      have invariant := Invariant.reachable wellFormed run
      have leveled := Leveled.reachable wellFormed run
      have evaluates := evaluates_of_failed wellFormed run inflight called
      have fails : ¬ AllSucceed dag sem := fun succeed => succeed _ _ evaluates
      have current := leveled.inflight input inflight
      have least : forall other error, Evaluates dag sem other (.error error) ->
          dag.graph.level input.nodeId ≤ dag.graph.level other := by
        intro other otherError failing
        by_contra below
        rcases output_of_evaluates wellFormed run (by rw [control]; rfl) (by rw [control]; rfl)
          failing (Or.inr (by omega)) with ⟨output, impossible, _⟩
        cases impossible
      have listed : input.nodeId ∈ state.batches.flatten := by
        rw [invariant.batches_flatten]
        exact List.mem_append_left _ ((invariant.started_iff _).mpr
          (Or.inr (List.mem_map_of_mem inflight)))
      rcases List.mem_flatten.mp listed with ⟨batch, member, inside⟩
      rcases List.mem_iff_getElem?.mp member with ⟨index, found⟩
      have level := leveled.batches index batch found _ inside
      exact {
        outputs := fun succeed => absurd succeed fails
        completed := fun succeed => absurd succeed fails
        unreached := fun succeed => absurd succeed fails
        failed := by
          intro _
          refine ⟨_, error, index, batch, rfl, evaluates, found, inside, level, ?_, level ▸ least⟩
          intro earlier otherBatch other otherError before otherFound otherInside failing
          have otherLevel := leveled.batches earlier otherBatch otherFound other otherInside
          have bound := least other otherError failing
          omega }

/-- The reference does not depend on the order of the edges, so an agreement
with it carries over to every reordered graph. -/
theorem Agreement.of_perm {edges : List Edge} (permuted : edges.Perm dag.edges)
    {state : RunState} {result : KernelResult String}
    (agreement : Agreement { dag with edges := edges } backend sem state result) :
    Agreement dag backend sem state result := by
  have reference : Evaluates { dag with edges := edges } sem = Evaluates dag sem := by
    funext node result
    exact propext (evaluates_perm_iff permuted node result)
  have levels : (Dag.mk dag.id dag.name dag.nodes edges).graph.level = dag.graph.level := by
    funext node
    refine Multigraph.level_congr (fun first second => ?_) node
    exact exists_congr fun edge => and_congr_left' permuted.mem_iff
  have succeed : AllSucceed { dag with edges := edges } sem = AllSucceed dag sem := by
    unfold AllSucceed
    rw [reference]
  have reached : Reached { dag with edges := edges } sem = Reached dag sem := by
    funext node
    unfold Reached
    rw [reference]
  exact {
    outputs := reference ▸ succeed ▸ agreement.outputs
    completed := reached ▸ succeed ▸ agreement.completed
    unreached := reached ▸ succeed ▸ agreement.unreached
    failed := levels ▸ reference ▸ succeed ▸ agreement.failed }

theorem wellFormed_perm (wellFormed : dag.WellFormed) {edges : List Edge}
    (permuted : edges.Perm dag.edges) : Dag.WellFormed { dag with edges := edges } where
  from_declared := fun edge member => wellFormed.from_declared edge (permuted.mem_iff.mp member)
  to_declared := fun edge member => wellFormed.to_declared edge (permuted.mem_iff.mp member)
  acyclic := by
    intro node cycle
    refine wellFormed.acyclic node (Relation.TransGen.mono ?_ _ _ cycle)
    rintro first second ⟨edge, member, ends⟩
    exact ⟨edge, permuted.mem_iff.mp member, ends⟩

/-- For every accepted graph, every reordering of its edges, every node
semantics and every completion order, the run returns what the sequential
reference predicts. -/
theorem run_agrees (accepted : dag.Accepted) (backend : HashBackend) (sem : NodeSemantics)
    (edges : List Edge) (permuted : edges.Perm dag.edges) :
    ∃ order, dag.topoSort = some (.ok order) ∧
      (forall node result, (sequential dag sem order)[node]? = some result ↔
        Evaluates dag sem node result) ∧
      ((forall node, node ∈ dag.nodes -> Reached dag sem node) ↔
        forall edge, edge ∈ dag.edges -> ∃ output : NodeOutput,
          Evaluates dag sem edge.from (.ok output) ∧
            edge.condition.evaluate output.value = true) ∧
      Inevitably (Step { dag with edges := edges } backend (callsOf sem))
        (fun state => ∃ result, state.control = .returned result ∧
          Agreement dag backend sem state result)
        (start { dag with edges := edges }) := by
  have wellFormed := accepted.wellFormed
  have reordered := wellFormed_perm wellFormed permuted
  rcases dag.topoSort_ok wellFormed.from_declared wellFormed.to_declared wellFormed.acyclic with
    ⟨order, sorted, topological⟩
  refine ⟨order, sorted, sequential_iff topological, reached_all_iff wellFormed, ?_⟩
  have answers : forall input, ∃ result, callsOf sem input result := fun _input => ⟨_, rfl⟩
  refine ((returns reordered answers).and_invariant Relation.ReflTransGen.refl
    fun _before _after run step => run.tail step).mono ?_
  rintro state ⟨run, result, control⟩
  exact ⟨result, control, (agreement_of_returned reordered run control).of_perm permuted⟩

theorem run_agrees_pair :
    ∃ order, (Dag.pair .always).topoSort = some (.ok order) ∧
      (forall node result,
        (sequential (Dag.pair .always) (.constant .null) order)[node]? = some result ↔
          Evaluates (Dag.pair .always) (.constant .null) node result) ∧
      ((forall node, node ∈ (Dag.pair .always).nodes ->
          Reached (Dag.pair .always) (.constant .null) node) ↔
        forall edge, edge ∈ (Dag.pair .always).edges -> ∃ output : NodeOutput,
          Evaluates (Dag.pair .always) (.constant .null) edge.from (.ok output) ∧
            edge.condition.evaluate output.value = true) ∧
      Inevitably (Step (Dag.pair .always) .sample (callsOf (.constant .null)))
        (fun state => ∃ result, state.control = .returned result ∧
          Agreement (Dag.pair .always) .sample (.constant .null) state result)
        (start (Dag.pair .always)) :=
  run_agrees (Dag.pair_accepted .always) .sample (.constant .null) _ (.refl _)

end Scheduler
end KernelFlow
