import Mathlib
import KernelFlow.Nodes.Library
import KernelFlow.Scheduler.Progress

namespace KernelFlow
namespace Nodes

open Scheduler Transition

/-!
# Soundness of composition-time checking

The output of every kind has its declared shape.  A consumer of numbers refuses
its input only if some parent output is not a number; the shapes of the edge
then leave only producers declared as `Json`, since all others deliver what
they declare.  The parents of a call in flight are the direct parents of its
node, which links the checked edges to the values that a node sees.
-/

variable {dag : Dag StdNode} {backend : HashBackend} {state : RunState}

/-! ## The kinds, one by one -/

/-- Every output has the declared shape. -/
theorem StdNode.output_admits {node : StdNode} {client : HttpClient} {input : NodeInput}
    {output : NodeOutput} (executed : node.execute backend client input = .ok output) :
    node.descriptor.output.Admits output.value.json := by
  cases node with
  | constant node => exact trivial
  | httpFetch node => exact trivial
  | sha256 =>
      have same := Except.ok.inj executed
      exact ⟨_, congrArg (fun output => output.value.json) same.symm⟩
  | median =>
      change MedianNode.execute .exact input = .ok output at executed
      unfold MedianNode.execute at executed
      dsimp only at executed
      split at executed
      · cases executed
      · rename_i nonempty
        rw [← Except.ok.inj executed]
        change ∃ value, (Value.ofFloat (MedianNode.middle .exact _ nonempty)).json = .number value
        unfold MedianNode.middle
        dsimp only
        split
        · exact ⟨_, rfl⟩
        · exact ⟨_, rfl⟩
  | threshold node =>
      change node.execute input = .ok output at executed
      unfold ThresholdNode.execute at executed
      split at executed
      · cases executed
      · rw [← Except.ok.inj executed]
        exact ⟨_, rfl⟩

/-- The median refuses exactly the inputs without any reading. -/
theorem MedianNode.execute_error_iff (ops : FloatOps) (input : NodeInput) :
    (∃ error, MedianNode.execute ops input = .error error) ↔
      forall (parent : NodeId) (value : Value), input.parents[parent]? = some value ->
        MedianNode.reading value.json = none := by
  have empty : (input.parents.values.filterMap fun v => MedianNode.reading v.json) = [] ↔
      forall (parent : NodeId) (value : Value), input.parents[parent]? = some value ->
        MedianNode.reading value.json = none := by
    rw [List.filterMap_eq_nil_iff]
    constructor
    · exact fun all parent value found =>
        all value ((OrderedMap.mem_values_iff _ _).mpr ⟨parent, found⟩)
    · intro all value member
      rcases (OrderedMap.mem_values_iff _ _).mp member with ⟨parent, found⟩
      exact all parent value found
  rw [← empty]
  unfold MedianNode.execute
  dsimp only
  split <;> simp_all

theorem MedianNode.reading_eq_none_iff (output : Json) :
    MedianNode.reading output = none ↔ (forall value, output ≠ .number value) ∧
      forall members value, output = .object members ->
        members.lookup "value" ≠ some (.number value) := by
  rw [MedianNode.reading, Option.or_eq_none_iff, Json.asF64_eq_none_iff,
    Option.bind_eq_none_iff]
  refine and_congr_right fun _notNumber => ⟨?_, ?_⟩
  · rintro all members value rfl found
    exact absurd (all (.number value) found) (by simp [Json.asF64])
  · intro all inner found
    rw [Json.asF64_eq_none_iff]
    rintro value rfl
    cases output with
    | object members => exact all members value rfl found
    | _ => cases found

/-- A threshold without a numeric payload refuses its input only if its first
parent is missing or not a number. -/
theorem ThresholdNode.first_of_error {node : ThresholdNode} {input : NodeInput}
    {error : KernelError} (refused : node.execute input = .error error) :
    forall value, input.parents.values.head? = some value ->
      forall number, value.json ≠ .number number := by
  intro value first number same
  unfold ThresholdNode.execute at refused
  rw [first, Option.bind_some, same] at refused
  cases refused

/-! ## Runs over the library -/

/-- The calls of a run over library nodes.  A success is the result of some
execution; failures may also come from the mailbox and the resilience layer. -/
def libraryCalls (dag : Dag StdNode) (backend : HashBackend) (input : NodeInput)
    (result : KernelResult NodeOutput) : Prop :=
  forall output, result = .ok output -> ∃ node client, dag.nodes[input.nodeId]? = some node ∧
    node.execute backend client input = .ok output

/-- Every output of a run has the shape that the kind of its node declares. -/
theorem outputs_admitted (wellFormed : dag.WellFormed)
    (run : Reaches (Step dag backend (libraryCalls dag backend)) (start dag) state)
    {id : NodeId} {node : StdNode} {value : Value} (declared : dag.nodes[id]? = some node)
    (found : state.outputs[id]? = some value) :
    node.descriptor.output.Admits value.json := by
  rcases (Log.reachable wellFormed run).called_of_output found with ⟨output, rfl, called, _⟩
  rcases called output rfl with ⟨other, client, same, executed⟩
  change dag.nodes[id]? = some other at same
  rw [declared, Option.some.injEq] at same
  exact same ▸ StdNode.output_admits executed

/-- A direct parent of a kind that declares `Json`, with an output in which the
consumer finds no number. -/
structure LooseParent (dag : Dag StdNode) (state : RunState) (consumer : StdNode) (edge : Edge) :
    Prop where
  kind : ∃ producer, dag.nodes[edge.from]? = some producer ∧
    (producer.kind = "constant" ∨ producer.kind = "http_fetch")
  output : ∃ value, state.outputs[edge.from]? = some value ∧
    (forall number, value.json ≠ .number number) ∧
    (consumer.kind = "median" -> forall members number, value.json = .object members ->
      members.lookup "value" ≠ some (.number number))

/-- On a checked edge into a consumer of numbers, an output that is not a
number comes from a constant or from a fetch. -/
private theorem loose_kind (wellFormed : dag.WellFormed)
    (run : Reaches (Step dag backend (libraryCalls dag backend)) (start dag) state)
    {edge : Edge} {producer consumer : StdNode} {value : Value}
    (declared : dag.nodes[edge.from]? = some producer)
    (checked : NodeRegistry.withStdlib.validateEdge producer.kind consumer.kind = .ok ())
    (numeric : consumer.descriptor.input = .number)
    (found : state.outputs[edge.from]? = some value)
    (other : forall number, value.json ≠ .number number) :
    producer.kind = "constant" ∨ producer.kind = "http_fetch" := by
  have fits := (StdNode.validateEdge_ok_iff producer consumer).mp checked
  rw [numeric] at fits
  cases producer with
  | constant node => exact Or.inl rfl
  | httpFetch node => exact Or.inr rfl
  | sha256 => cases fits
  | threshold node => cases fits
  | median =>
      rcases outputs_admitted wellFormed run declared found with ⟨number, same⟩
      exact absurd same (other number)

/-- The parents in the input of a call are the direct parents of its node. -/
private theorem parent_iff (wellFormed : dag.WellFormed)
    (run : Reaches (Step dag backend (libraryCalls dag backend)) (start dag) state)
    {input : NodeInput} (inflight : input ∈ state.inflight) {parent : NodeId} {value : Value} :
    input.parents[parent]? = some value ↔
      (∃ edge ∈ dag.edges, edge.to = input.nodeId ∧ edge.from = parent) ∧
        state.outputs[parent]? = some value := by
  have invariant : Invariant dag state := .reachable wellFormed run
  have parents : input.parents = parentOutputs dag state.outputs input.nodeId :=
    congrArg NodeInput.parents (invariant.inflight_input input inflight)
  rw [parents, getElem?_parentOutputs]
  split_ifs with source
  · exact (and_iff_right source).symm
  · exact iff_of_false (by simp) fun both => source both.1

/-- A node with an in-edge is called with some parent in its input. -/
private theorem exists_parent (wellFormed : dag.WellFormed)
    (run : Reaches (Step dag backend (libraryCalls dag backend)) (start dag) state)
    {input : NodeInput} (inflight : input ∈ state.inflight) {edge : Edge}
    (member : edge ∈ dag.edges) (target : edge.to = input.nodeId) :
    ∃ value, input.parents[edge.from]? = some value := by
  have invariant : Invariant dag state := .reachable wellFormed run
  rcases enabled_iff.mp (invariant.enabled_of_seen (invariant.seen_of_inflight inflight)
    member target) with ⟨value, found, _⟩
  exact ⟨value, (parent_iff wellFormed run inflight).mpr ⟨⟨edge, member, target, rfl⟩, found⟩⟩

/-- A parent in which a consumer of numbers finds none is a loose one. -/
private theorem exists_looseParent (wellFormed : dag.WellFormed)
    (checked : forall edge, edge ∈ dag.edges -> forall producer consumer,
      dag.nodes[edge.from]? = some producer -> dag.nodes[edge.to]? = some consumer ->
      NodeRegistry.withStdlib.validateEdge producer.kind consumer.kind = .ok ())
    (run : Reaches (Step dag backend (libraryCalls dag backend)) (start dag) state)
    {input : NodeInput} (inflight : input ∈ state.inflight) {consumer : StdNode}
    (isConsumer : dag.nodes[input.nodeId]? = some consumer)
    (numeric : consumer.descriptor.input = .number) {parent : NodeId} {value : Value}
    (found : input.parents[parent]? = some value)
    (notNumber : forall number, value.json ≠ .number number)
    (notMember : consumer.kind = "median" -> forall members number,
      value.json = .object members -> members.lookup "value" ≠ some (.number number)) :
    ∃ edge ∈ dag.edges, edge.to = input.nodeId ∧ LooseParent dag state consumer edge := by
  rcases (parent_iff wellFormed run inflight).mp found with ⟨⟨edge, member, into, rfl⟩, output⟩
  rcases (OrderedMap.mem_iff_exists _ _).mp (wellFormed.from_declared edge member) with
    ⟨producer, declared⟩
  have fits := checked edge member producer consumer declared (into ▸ isConsumer)
  exact ⟨edge, member, into,
    ⟨producer, declared, loose_kind wellFormed run declared fits numeric output notNumber⟩,
    value, output, notNumber, notMember⟩

/-- For every accepted and checked graph over the library: a consumer of
numbers rejects its input only because of a parent declared as `Json`, and
every other parent has delivered what it declares. -/
theorem composition_sound (accepted : dag.Accepted) (backend : HashBackend)
    (checked : forall edge, edge ∈ dag.edges -> forall producer consumer,
      dag.nodes[edge.from]? = some producer -> dag.nodes[edge.to]? = some consumer ->
      NodeRegistry.withStdlib.validateEdge producer.kind consumer.kind = .ok ())
    (fed : forall (id : NodeId) (node : StdNode), dag.nodes[id]? = some node ->
      node.kind = "median" ∨ node.kind = "threshold" -> ∃ edge ∈ dag.edges, edge.to = id)
    (run : Reaches (Step dag backend (libraryCalls dag backend)) (start dag) state) :
    (forall input, input ∈ state.inflight -> forall consumer,
      dag.nodes[input.nodeId]? = some consumer ->
      consumer.kind = "median" ∨ consumer.kind = "threshold" -> forall client message,
      consumer.execute backend client input = .error (.invalidInput message) ->
      ∃ edge ∈ dag.edges, edge.to = input.nodeId ∧ LooseParent dag state consumer edge) ∧
    (forall (id : NodeId) (node : StdNode) (value : Value), dag.nodes[id]? = some node ->
      node.kind = "median" ∨ node.kind = "threshold" ∨ node.kind = "sha256" ->
      state.outputs[id]? = some value ->
      ∃ descriptor, NodeRegistry.withStdlib.describe node.kind = some descriptor ∧
        descriptor.output.Admits value.json) := by
  have wellFormed := accepted.wellFormed
  refine ⟨?_, ?_⟩
  · intro input inflight consumer isConsumer numeric client message refused
    rcases fed _ consumer isConsumer numeric with ⟨edge, member, target⟩
    rcases exists_parent wellFormed run inflight member target with ⟨value, found⟩
    have loose : forall (parent : NodeId) (value : Value), consumer.descriptor.input = .number ->
        input.parents[parent]? = some value -> (forall number, value.json ≠ .number number) ->
        (consumer.kind = "median" -> forall members number, value.json = .object members ->
          members.lookup "value" ≠ some (.number number)) ->
        ∃ edge ∈ dag.edges, edge.to = input.nodeId ∧ LooseParent dag state consumer edge :=
      fun _parent _value shape found notNumber notMember =>
        exists_looseParent wellFormed checked run inflight isConsumer shape found notNumber notMember
    cases consumer with
    | median =>
        have none := (MedianNode.execute_error_iff .exact input).mp ⟨_, refused⟩ _ _ found
        rcases (MedianNode.reading_eq_none_iff _).mp none with ⟨notNumber, notMember⟩
        exact loose _ _ rfl found notNumber fun _ => notMember
    | threshold node =>
        have nonempty : input.parents.values ≠ [] := List.ne_nil_of_mem
          ((OrderedMap.mem_values_iff _ _).mpr ⟨_, found⟩)
        rcases List.exists_cons_of_ne_nil nonempty with ⟨head, tail, values⟩
        have first : input.parents.values.head? = some head := by
          rw [values]
          rfl
        rcases (OrderedMap.mem_values_iff _ _).mp (List.mem_of_head? first) with ⟨parent, present⟩
        exact loose parent head rfl present (ThresholdNode.first_of_error refused head first)
          fun impossible => absurd impossible (by simp [StdNode.kind])
    | constant node => simp [StdNode.kind] at numeric
    | sha256 => simp [StdNode.kind] at numeric
    | httpFetch node => simp [StdNode.kind] at numeric
  · intro id node value declared _kind found
    exact ⟨_, node.describe_kind, outputs_admitted wellFormed run declared found⟩

/-- A text that feeds a median. -/
def misfit : Dag StdNode :=
  Dag.link (.constant ⟨Value.string "n/a"⟩) .median .always

/-- The run over the text and the median up to the call of the latter. -/
def misfitRun : RunState :=
  (start misfit).drive misfit .sample
    (fun node _parents =>
      if node = "a" then .ok ⟨Value.string "n/a", 1⟩ else .error (.other "not called")) 8

theorem misfitRun_reaches :
    Reaches (Step misfit .sample (libraryCalls misfit .sample)) (start misfit) misfitRun := by
  apply (RunState.drive_reaches misfit .sample _ 8 _).weaken
  rintro before after (advanced | ⟨position, input, result, control, found, called, same⟩)
  · exact Or.inl advanced
  · refine Or.inr ⟨position, input, result, control, found, ?_, same⟩
    intro output succeeded
    change result = if input.nodeId = "a" then _ else _ at called
    rw [succeeded] at called
    split_ifs at called with first
    · refine ⟨.constant ⟨Value.string "n/a"⟩, .offline, ?_, called.symm⟩
      rw [first]
      rfl

/-- The median refuses the text, and the text is the parent to blame. -/
theorem composition_sound_misfit :
    ∃ edge ∈ misfit.edges, edge.to = "b" ∧ LooseParent misfit misfitRun .median edge := by
  have inflight : misfitRun.inflight = [nodeInput misfit misfitRun.outputs "b"] := by rfl
  have source : misfit.nodes["a"]? = some (.constant ⟨Value.string "n/a"⟩) := by rfl
  have target : misfit.nodes["b"]? = some .median := by rfl
  refine (composition_sound (Dag.link_accepted _ _ _) .sample ?_ ?_ misfitRun_reaches).1
    (nodeInput misfit misfitRun.outputs "b") ?_ .median target (Or.inl rfl) .offline
    "no numeric parents for median" (by rfl)
  · intro edge member producer consumer isProducer isConsumer
    cases List.mem_singleton.mp member
    rw [← Option.some.inj (source.symm.trans isProducer),
      ← Option.some.inj (target.symm.trans isConsumer)]
    rfl
  · intro id node declared numeric
    refine ⟨⟨"a", "b", .always⟩, List.mem_singleton.mpr rfl, ?_⟩
    change ((((∅ : BTreeMap NodeId StdNode).insert "a" (.constant ⟨Value.string "n/a"⟩)).insert "b"
      .median))[id]? = some node at declared
    rw [OrderedMap.getElem?_insert_eq, OrderedMap.getElem?_insert_eq] at declared
    split_ifs at declared with second first
    · exact second
    · rw [← Option.some.inj declared] at numeric
      simp [StdNode.kind] at numeric
    · simp at declared
  · rw [inflight]
    exact List.mem_singleton.mpr rfl

end Nodes
end KernelFlow
