import Mathlib
import KernelFlow.Core.Builder
import KernelFlow.Scheduler.Run

namespace KernelFlow
namespace Scheduler

/-!
# The sequential reference evaluation

`Evaluates` is the least relation closed under one rule: a declared node all of
whose in-edges come from successful nodes and carry a true condition evaluates
to its semantics on the outputs of its parents.  The nodes it relates to some
result are the reached ones.  Nothing in it depends on an order, neither of the
edges nor of the nodes.

`sequential` is the executable form: one pass over the nodes in the order of
the topological sort.  The two agree, so the pass may be read as the definition
of the reference and the relation as its specification.
-/

variable {P : Type} {dag : Dag P} {sem : NodeSemantics}

/-- The parent map of a node, given the outputs of its sources. -/
def sourceOutputs (dag : Dag P) (output : NodeId -> NodeOutput) (node : NodeId) :
    BTreeMap NodeId Value :=
  Std.ExtTreeMap.ofList ((dag.parents node).map fun edge => (edge.from, (output edge.from).value))

/-- The reference result of a node.  A node without a result is not reached. -/
inductive Evaluates (dag : Dag P) (sem : NodeSemantics) : NodeId -> KernelResult NodeOutput -> Prop
  | intro (node : NodeId) (output : NodeId -> NodeOutput) (declared : node ∈ dag.nodes)
      (sources : forall edge, edge ∈ dag.edges -> edge.to = node ->
        Evaluates dag sem edge.from (.ok (output edge.from)))
      (conditions : forall edge, edge ∈ dag.edges -> edge.to = node ->
        edge.condition.evaluate (output edge.from).value = true) :
      Evaluates dag sem node (sem node (sourceOutputs dag output node))

/-- The node is in the least set of nodes that a run has to execute. -/
def Reached (dag : Dag P) (sem : NodeSemantics) (node : NodeId) : Prop :=
  ∃ result, Evaluates dag sem node result

theorem getElem?_sourceOutputs (output : NodeId -> NodeOutput) (node parent : NodeId) :
    (sourceOutputs dag output node)[parent]? =
      if ∃ edge ∈ dag.edges, edge.to = node ∧ edge.from = parent
      then some (output parent).value else none := by
  have collected := OrderedMap.getElem?_ofList_filterMap (dag.parents node) Edge.from
    (fun source => some (output source).value) parent
  simp only [Option.map_some, List.filterMap_eq_map'] at collected
  refine collected.trans ?_
  congr 1
  simp only [List.mem_map, Dag.mem_parents, and_assoc]

/-- The parent map only depends on the outputs of the sources, and on the edges
as a set. -/
theorem sourceOutputs_congr {other : Dag P}
    (edges : forall edge, edge ∈ other.edges ↔ edge ∈ dag.edges) {node : NodeId}
    {first second : NodeId -> NodeOutput}
    (same : forall edge, edge ∈ dag.edges -> edge.to = node ->
      first edge.from = second edge.from) :
    sourceOutputs dag first node = sourceOutputs other second node := by
  apply Std.ExtTreeMap.ext_getElem?
  intro parent
  rw [getElem?_sourceOutputs, getElem?_sourceOutputs]
  simp only [edges]
  by_cases source : ∃ edge ∈ dag.edges, edge.to = node ∧ edge.from = parent
  · rw [if_pos source, if_pos source]
    rcases source with ⟨edge, member, target, rfl⟩
    rw [same edge member target]
  · rw [if_neg source, if_neg source]

/-- A node has at most one reference result. -/
theorem Evaluates.unique {node : NodeId} {first second : KernelResult NodeOutput}
    (left : Evaluates dag sem node first) (right : Evaluates dag sem node second) :
    first = second := by
  induction left generalizing second with
  | intro node output _declared _sources _conditions inductionHypothesis =>
      cases right with
      | intro _ other _declared sources _conditions =>
          have same : sourceOutputs dag output node = sourceOutputs dag other node := by
            refine sourceOutputs_congr (fun _ => Iff.rfl) ?_
            intro edge member target
            have results := inductionHypothesis edge member target (sources edge member target)
            exact Except.ok.inj results
          rw [same]

/-- Reordering the edge list changes no reference result. -/
theorem Evaluates.perm {edges : List Edge} (permuted : edges.Perm dag.edges) {node : NodeId}
    {result : KernelResult NodeOutput} (evaluates : Evaluates dag sem node result) :
    Evaluates { dag with edges := edges } sem node result := by
  induction evaluates with
  | intro node output declared _sources conditions inductionHypothesis =>
      have same : sourceOutputs dag output node =
          sourceOutputs { dag with edges := edges } output node :=
        sourceOutputs_congr (fun _ => permuted.mem_iff) fun _ _ _ => rfl
      rw [same]
      refine .intro node output declared ?_ ?_
      · exact fun edge member => inductionHypothesis edge (permuted.mem_iff.mp member)
      · exact fun edge member => conditions edge (permuted.mem_iff.mp member)

theorem evaluates_perm_iff {edges : List Edge} (permuted : edges.Perm dag.edges) (node : NodeId)
    (result : KernelResult NodeOutput) :
    Evaluates { dag with edges := edges } sem node result ↔ Evaluates dag sem node result :=
  ⟨fun evaluates => evaluates.perm permuted.symm, fun evaluates => evaluates.perm permuted⟩

/-! ## The sequential pass -/

/-- The output of a node that has been evaluated successfully. -/
def outputOf (results : BTreeMap NodeId (KernelResult NodeOutput)) (node : NodeId) :
    Option Value :=
  (results[node]?.bind Except.toOption).map NodeOutput.value

/-- The source of the edge has succeeded with an output on which the condition
holds. -/
def fires (results : BTreeMap NodeId (KernelResult NodeOutput)) (edge : Edge) : Bool :=
  ((outputOf results edge.from).map edge.condition.evaluate).getD false

/-- Evaluate one node after its sources. -/
def sequentialStep (dag : Dag P) (sem : NodeSemantics)
    (results : BTreeMap NodeId (KernelResult NodeOutput)) (node : NodeId) :
    BTreeMap NodeId (KernelResult NodeOutput) :=
  if (dag.parents node).all (fires results) then
    results.insert node (sem node (Std.ExtTreeMap.ofList ((dag.parents node).filterMap fun edge =>
      (outputOf results edge.from).map fun value => (edge.from, value))))
  else results

/-- One pass over the nodes. -/
def sequential (dag : Dag P) (sem : NodeSemantics) (order : List NodeId) :
    BTreeMap NodeId (KernelResult NodeOutput) :=
  order.foldl (sequentialStep dag sem) ∅

theorem outputOf_iff {results : BTreeMap NodeId (KernelResult NodeOutput)} {node : NodeId}
    {value : Value} : outputOf results node = some value ↔
      ∃ output : NodeOutput, results[node]? = some (.ok output) ∧ output.value = value := by
  unfold outputOf
  cases results[node]? with
  | none => simp
  | some result =>
      cases result with
      | error error => simp [Except.toOption]
      | ok output => simp [Except.toOption]

theorem fires_iff {results : BTreeMap NodeId (KernelResult NodeOutput)} {edge : Edge} :
    fires results edge = true ↔
      ∃ value, outputOf results edge.from = some value ∧ edge.condition.evaluate value = true := by
  unfold fires
  cases outputOf results edge.from <;> simp

section Sources

variable {results : BTreeMap NodeId (KernelResult NodeOutput)} {node : NodeId}

/-- With an output for every source the pass collects the parent map. -/
private theorem collected_eq {output : NodeId -> NodeOutput}
    (found : forall edge, edge ∈ dag.edges -> edge.to = node ->
      outputOf results edge.from = some (output edge.from).value) :
    Std.ExtTreeMap.ofList ((dag.parents node).filterMap fun edge =>
        (outputOf results edge.from).map fun value => (edge.from, value)) compare =
      sourceOutputs dag output node := by
  unfold sourceOutputs
  rw [← List.filterMap_eq_map']
  congr 1
  apply List.filterMap_congr
  intro edge member
  rcases dag.mem_parents.mp member with ⟨declared, target⟩
  rw [found edge declared target]
  rfl

/-- In-edges that all fire have sources with outputs on which the conditions
hold. -/
private theorem exists_outputs (all : (dag.parents node).all (fires results) = true) :
    ∃ output : NodeId -> NodeOutput, forall edge, edge ∈ dag.edges -> edge.to = node ->
      results[edge.from]? = some (.ok (output edge.from)) ∧
        edge.condition.evaluate (output edge.from).value = true := by
  refine ⟨fun parent => (results[parent]?.bind Except.toOption).getD ⟨Value.null, 0⟩, ?_⟩
  intro edge member target
  have fired := List.all_eq_true.mp all edge (dag.mem_parents.mpr ⟨member, target⟩)
  rcases fires_iff.mp fired with ⟨value, found, condition⟩
  rcases outputOf_iff.mp found with ⟨output, stored, rfl⟩
  have chosen : (results[edge.from]?.bind Except.toOption).getD ⟨Value.null, 0⟩ = output := by
    rw [stored]
    rfl
  dsimp only
  rw [chosen]
  exact ⟨stored, condition⟩

/-- Results that are those of the reference for all sources of a node: the
in-edges fire exactly when the node is reached, and the pass then computes its
reference result. -/
private theorem evaluates_iff_of_sources (declared : node ∈ dag.nodes)
    (correct : forall edge, edge ∈ dag.edges -> edge.to = node -> forall result,
      results[edge.from]? = some result ↔ Evaluates dag sem edge.from result)
    (result : KernelResult NodeOutput) :
    Evaluates dag sem node result ↔ (dag.parents node).all (fires results) = true ∧
      sem node (Std.ExtTreeMap.ofList ((dag.parents node).filterMap fun edge =>
        (outputOf results edge.from).map fun value => (edge.from, value))) = result := by
  constructor
  · intro evaluates
    cases evaluates with
    | intro _ output _declared sources conditions =>
        have found : forall edge, edge ∈ dag.edges -> edge.to = node ->
            outputOf results edge.from = some (output edge.from).value := by
          intro edge member target
          have stored := (correct edge member target _).mpr (sources edge member target)
          exact outputOf_iff.mpr ⟨output edge.from, stored, rfl⟩
        refine ⟨List.all_eq_true.mpr fun edge member => ?_, by rw [collected_eq found]⟩
        rcases dag.mem_parents.mp member with ⟨inEdges, target⟩
        exact fires_iff.mpr ⟨_, found edge inEdges target, conditions edge inEdges target⟩
  · intro pass
    rcases pass with ⟨all, rfl⟩
    rcases exists_outputs all with ⟨output, chosen⟩
    have found : forall edge, edge ∈ dag.edges -> edge.to = node ->
        outputOf results edge.from = some (output edge.from).value := by
      intro edge member target
      exact outputOf_iff.mpr ⟨_, (chosen edge member target).1, rfl⟩
    rw [collected_eq found]
    refine .intro node output declared ?_ fun edge member target => (chosen edge member target).2
    intro edge member target
    exact (correct edge member target _).mp (chosen edge member target).1

/-- The results are those of the reference, for the nodes that are done. -/
private def Correct (dag : Dag P) (sem : NodeSemantics) (done : List NodeId)
    (results : BTreeMap NodeId (KernelResult NodeOutput)) : Prop :=
  forall node result, results[node]? = some result ↔
    node ∈ done ∧ Evaluates dag sem node result

/-- The step lemma: a new node all of whose sources are done. -/
private theorem Correct.step {done : List NodeId} (correct : Correct dag sem done results)
    (fresh : node ∉ done) (declared : node ∈ dag.nodes)
    (sources : forall edge, edge ∈ dag.edges -> edge.to = node -> edge.from ∈ done) :
    Correct dag sem (done ++ [node]) (sequentialStep dag sem results node) := by
  have here := @evaluates_iff_of_sources P dag sem results node declared
    fun edge member target result => (correct edge.from result).trans
      (and_iff_right (sources edge member target))
  intro other result
  unfold sequentialStep
  by_cases same : node = other
  · subst other
    rw [here result]
    split
    · rename_i all
      rw [OrderedMap.getElem?_insert_eq, if_pos rfl, Option.some.injEq]
      simp [all]
    · rename_i notAll
      rw [correct]
      exact ⟨fun both => absurd both.1 fresh, fun both => absurd both.2.1 notAll⟩
  · have keep : other ∈ done ++ [node] ↔ other ∈ done := by
      simp [Ne.symm same]
    rw [keep, ← correct]
    split
    · rw [OrderedMap.getElem?_insert_eq, if_neg same]
    · exact Iff.rfl

/-- The run lemma: a topological order lists the sources of a node before it. -/
private theorem Correct.run {order : List NodeId}
    (topological : dag.graph.IsTopologicalOrder (fun node => node ∈ dag.nodes) order)
    {done rest : List NodeId} (split : order = done ++ rest) (correct : Correct dag sem done results) :
    Correct dag sem order (rest.foldl (sequentialStep dag sem) results) := by
  induction rest generalizing done results with
  | nil =>
      rw [split, List.append_nil]
      exact correct
  | cons node rest inductionHypothesis =>
      have fresh : node ∉ done := fun member =>
        (List.nodup_append.mp (split ▸ topological.nodup)).2.2 node member node
          List.mem_cons_self rfl
      have declared : node ∈ dag.nodes :=
        (topological.mem_iff node).mp (split ▸ List.mem_append_right _ List.mem_cons_self)
      have sources : forall edge, edge ∈ dag.edges -> edge.to = node -> edge.from ∈ done := by
        intro edge member target
        have before := topological.ranked _ _ (dag.graph.adjacent_of_mem member)
        change order.idxOf edge.from < order.idxOf edge.to at before
        rw [target, split, List.idxOf_append_of_notMem fresh, List.idxOf_cons_self] at before
        by_contra absent
        rw [List.idxOf_append_of_notMem absent] at before
        omega
      rw [List.foldl_cons]
      apply inductionHypothesis
      · rw [split, List.append_cons]
      · exact correct.step fresh declared sources

end Sources

/-- The pass over a topological order computes the reference. -/
theorem sequential_iff {order : List NodeId}
    (topological : dag.graph.IsTopologicalOrder (fun node => node ∈ dag.nodes) order)
    (node : NodeId) (result : KernelResult NodeOutput) :
    (sequential dag sem order)[node]? = some result ↔ Evaluates dag sem node result := by
  have nothing : Correct dag sem [] ∅ := by
    intro node result
    simp
  have whole := nothing.run topological (List.nil_append order).symm node result
  refine whole.trans (and_iff_right_of_imp fun evaluates => ?_)
  cases evaluates with
  | intro _ _output declared => exact (topological.mem_iff node).mpr declared

end Scheduler
end KernelFlow
