import Mathlib
import KernelFlow.Nodes.Factory
import KernelFlow.Scheduler.Transport

namespace KernelFlow
namespace Nodes

open Transition Scheduler Resilience

/-!
# Workflows of node specifications

A workflow is planned as a graph of specifications, each with the kind of a node
and the arguments for its factory.  Such a graph can be sent as JSON.  Whoever
reads it makes the nodes with the same standard library and runs them on a stack
of their own, and attests what the sender attests.
-/

/-! ## Specifications -/

structure NodeSpec where
  id : String
  kind : String
  args : Value

/-- Specifications with arguments that are equal up to member order. -/
structure NodeSpec.SameUpToOrder (left right : NodeSpec) : Prop where
  id : left.id = right.id
  kind : left.kind = right.kind
  args : left.args.SameUpToOrder right.args

/-! ## The nodes of a graph -/

/-- Every specification can be instantiated. -/
def Instantiable (readers : ArgReaders) (dag : Dag NodeSpec) : Prop :=
  forall (id : NodeId) spec, dag.nodes[id]? = some spec ->
    ∃ node, (FactoryRegistry.withStdlib readers).instantiate spec.kind spec.args = .ok node

/-- The node that is made for an id.  The scheduler asks for the ids of the graph
only, so the node of another id does not matter. -/
def hosted (readers : ArgReaders) (dag : Dag NodeSpec) (id : NodeId) : StdNode :=
  match dag.nodes[id]? with
  | none => .sha256
  | some spec =>
      match (FactoryRegistry.withStdlib readers).instantiate spec.kind spec.args with
      | .error _ => .sha256
      | .ok node => node

variable {dag received : Dag NodeSpec}

/-- What one host can instantiate, so can the other, and their nodes differ at
most in the member order of constants. -/
theorem hosted_related (same : dag.SameUpToOrder NodeSpec.SameUpToOrder received)
    {readers : ArgReaders} (blind : readers.OrderBlind) (instantiable : Instantiable readers dag) :
    Instantiable readers received ∧
      forall id, (hosted readers dag id).SameUpToOrder (hosted readers received id) := by
  have each : forall (id : NodeId) (spec other : NodeSpec), spec.SameUpToOrder other ->
      dag.nodes[id]? = some spec -> ∃ node node',
        (FactoryRegistry.withStdlib readers).instantiate spec.kind spec.args = .ok node ∧
          (FactoryRegistry.withStdlib readers).instantiate other.kind other.args = .ok node' ∧
          node.SameUpToOrder node' := by
    intro id spec other specs found
    rcases instantiable id spec found with ⟨node, made⟩
    rcases instantiate_reordered blind specs.args made with ⟨node', remade, nodes⟩
    rw [specs.kind] at remade
    exact ⟨node, node', made, remade, nodes⟩
  constructor
  · intro id other found
    have related := same.nodes id
    rw [found] at related
    generalize sent : dag.nodes[id]? = answer at related
    cases related with
    | some specs =>
        rcases each id _ other specs sent with ⟨_node, node', _made, remade, _nodes⟩
        exact ⟨node', remade⟩
  · intro id
    have related := same.nodes id
    unfold hosted
    generalize sent : dag.nodes[id]? = answer, received.nodes[id]? = answer' at related
    cases related with
    | none => rfl
    | some specs =>
        rcases each id _ _ specs sent with ⟨node, node', made, remade, nodes⟩
        dsimp only
        rw [made, remade]
        exact nodes

/-! ## Runs on two hosts -/

/-- A state of the received graph belongs to a run of the graph that was sent,
but for its failure. -/
theorem exists_grounded_twin (alike : dag.Alike received) {backend : HashBackend}
    {sem : NodeSemantics} {state : RunState} (grounded : Grounded received backend sem state) :
    ∃ twin : RunState, Grounded dag backend sem twin ∧ twin.outputs = state.outputs ∧
      completions twin.events = completions state.events ∧
      forall hash, state.control = .returned (.ok hash) -> twin.control = .returned (.ok hash) := by
  rcases grounded with ⟨base, run, outputs, completed, ended⟩
  rcases run_alike alike.symm run with ⟨twin, twinRun, same⟩
  refine ⟨twin, ⟨twin, twinRun, rfl, rfl, Or.inl rfl⟩, same.outputs.symm.trans outputs,
    (congrArg completions same.events.symm).trans completed, ?_⟩
  intro hash returned
  rcases ended with rfl | ⟨error, failed⟩
  · have controls := same.control
    rw [returned] at controls
    generalize twin.control = control at controls
    cases controls
    rfl
  · rw [failed] at returned
    cases returned

/-- A workflow of specifications over the standard library is portable.  Its graph
may be sent as JSON with the members of objects in any order, also within the
arguments and the condition values, by any codec that undoes its own writing and takes
members in any order.  The graph that is read has the same specifications up to member
order, and if the sender can make its nodes, so can the receiver.  Runs of the two on
stacks with different configurations, limiters, timings and faults, and with servers
that order members differently, then agree: the outputs are equal up to member order,
and the announced outcomes and the attestation hashes are equal. -/
theorem portable_workflow (codec : JsonCodec (Dag NodeSpec) (Dag.SameUpToOrder NodeSpec.SameUpToOrder))
    (readers : ArgReaders) (blind : readers.OrderBlind) (accepted : dag.Accepted) (document : Json)
    (reordered : (codec.write dag).Reordered document)
    (instantiable : Instantiable readers dag) (backend : HashBackend) (ops : FloatOps)
    (client client' : HttpClient) (clients : client.SameUpToOrder client')
    (config config' : ResilienceConfig) (governor governor' : Governor)
    (timer timer' : Timer) (now now' : Instant)
    (attempts : NodeInput -> UInt32 -> KernelResult NodeOutput -> Prop)
    (faithful : Faithful (librarySemantics ops backend client dag.id (hosted readers dag)) attempts)
    (state : TimedState governor)
    (run : Reaches (TimedStep dag backend config governor timer attempts)
      (.start dag config governor now) state) :
    ∃ received, codec.read document = some received ∧
      dag.SameUpToOrder NodeSpec.SameUpToOrder received ∧ Instantiable readers received ∧
      forall (attempts' : NodeInput -> UInt32 -> KernelResult NodeOutput -> Prop)
        (state' : TimedState governor'),
        Faithful (librarySemantics ops backend client' received.id (hosted readers received))
          attempts' ->
        Reaches (TimedStep received backend config' governor' timer' attempts')
          (.start received config' governor' now') state' ->
        (forall (node : NodeId) (value other : Value), state.run.outputs[node]? = some value ->
          state'.run.outputs[node]? = some other -> value.SameUpToOrder other) ∧
        (forall node outcome other, (node, outcome) ∈ completions state.run.events ->
          (node, other) ∈ completions state'.run.events -> outcome = other) ∧
        forall hash other, state.run.control = .returned (.ok hash) ->
          state'.run.control = .returned (.ok other) -> hash = other := by
  rcases codec.read_of_reordered reordered with ⟨received, read, same⟩
  have alike := same.alike
  rcases hosted_related same blind instantiable with ⟨receivable, nodes⟩
  refine ⟨received, read, same, receivable, ?_⟩
  intro attempts' state' faithful' run'
  have wellFormed := accepted.wellFormed
  have grounded := Grounded.of_stack (alike.wellFormed wellFormed) faithful' run'
  rcases exists_grounded_twin alike grounded with ⟨twin, twinGrounded, outputs, completed, returned⟩
  have respects : Respects (librarySemantics ops backend client dag.id (hosted readers dag))
      (librarySemantics ops backend client' received.id (hosted readers received)) := by
    intro id parents parents' related
    exact StdNode.executeWith_respects ops backend clients (nodes id) rfl related
  have agreement := agree_up_to_order wellFormed respects (.refl _)
    (.of_stack wellFormed faithful run) twinGrounded
  rw [outputs, completed] at agreement
  refine ⟨agreement.1, agreement.2.1, ?_⟩
  intro hash other first second
  exact agreement.2.2 hash other first (returned other second)

/-! ## A workflow that is sent -/

def nodeSpecFields : Serde.Fields (String × String × Value × Unit) :=
  .cons "id" .string (.cons "kind" .string (.cons "args" .value .nil (by decide)) (by decide))
    (by decide)

def nodeSpec : Serde.Format NodeSpec :=
  nodeSpecFields.record.via {
    toFun := fun (id, kind, args, ()) => ⟨id, kind, args⟩
    invFun := fun spec => (spec.id, spec.kind, spec.args, ())
    left_inv := fun _fields => rfl
    right_inv := fun _spec => rfl }

theorem nodeSpec_same {left right : NodeSpec} (same : nodeSpec.Same left right) :
    left.SameUpToOrder right :=
  ⟨same.1, same.2.1, same.2.2.1⟩

def planCodec : JsonCodec (Dag NodeSpec) (Dag.SameUpToOrder NodeSpec.SameUpToOrder) :=
  (Wire.dagCodec nodeSpec).imp fun left right same =>
    { same with
      nodes := by
        intro key
        have specs := same.nodes key
        generalize left.nodes[key]? = first, right.nodes[key]? = second at specs
        cases specs with
        | none => exact .none
        | some same => exact .some (nodeSpec_same same) }

/-- A number, and whether it is at least two. -/
def plannedDag : Dag NodeSpec :=
  Dag.link ⟨"a", "constant", ⟨.number (.posInt 3), trivial⟩⟩
    ⟨"b", "threshold", ⟨.object [("threshold", .number (.posInt 2)), ("op", .string "gte")],
      by decide⟩⟩ .always

/-- Its document with the members of all objects the other way round. -/
def plannedDocument : Json :=
  .object [("edges", .array [.object [("condition", .string "Always"), ("to", .string "b"),
      ("from", .string "a")]]),
    ("nodes", .object [
      ("b", .object [("args", .object [("op", .string "gte"), ("threshold", .number (.posInt 2))]),
        ("kind", .string "threshold"), ("id", .string "b")]),
      ("a", .object [("args", .number (.posInt 3)), ("kind", .string "constant"),
        ("id", .string "a")])]),
    ("name", .string "pair"), ("id", .string "00000000-0000-0000-0000-000000000000")]

theorem plannedDocument_reordered : (planCodec.write plannedDag).Reordered plannedDocument := by
  have distinct : (planCodec.write plannedDag).Distinct :=
    (Wire.dag nodeSpec).distinct_write plannedDag
  have reversed : plannedDocument.Distinct := by decide
  refine ⟨distinct, reversed, (Json.canonicalize_eq_iff _ _ distinct reversed).mp ?_⟩
  rfl

def plannedReaders : ArgReaders :=
  .derived fun _kind _args => "invalid type"

theorem plannedDag_instantiable : Instantiable plannedReaders plannedDag := by
  intro id spec found
  change (((∅ : BTreeMap NodeId NodeSpec).insert "a" _).insert "b" _)[id]? = some spec at found
  rw [OrderedMap.getElem?_insert_eq, OrderedMap.getElem?_insert_eq] at found
  split_ifs at found
  · cases found
    exact ⟨.threshold ⟨2, .gte⟩, instantiate_of_makes (.threshold rfl)⟩
  · cases found
    exact ⟨_, instantiate_of_makes (.constant _)⟩
  · simp at found

theorem portable_workflow_link :
    let semantics := librarySemantics .f64 .sample .offline 0 (hosted plannedReaders plannedDag)
    let state := (TimedState.start plannedDag .default .gcra 0).drive plannedDag .sample .default
      .linux semantics 30
    ∃ received, planCodec.read plannedDocument = some received ∧
      plannedDag.SameUpToOrder NodeSpec.SameUpToOrder received ∧
      Instantiable plannedReaders received ∧
      forall (attempts' : NodeInput -> UInt32 -> KernelResult NodeOutput -> Prop)
        (state' : TimedState .gcra),
        Faithful (librarySemantics .f64 .sample .offline received.id (hosted plannedReaders received))
          attempts' ->
        Reaches (TimedStep received .sample .default .gcra .linux attempts')
          (.start received .default .gcra 7) state' ->
        (forall (node : NodeId) (value other : Value), state.run.outputs[node]? = some value ->
          state'.run.outputs[node]? = some other -> value.SameUpToOrder other) ∧
        (forall node outcome other, (node, outcome) ∈ completions state.run.events ->
          (node, other) ∈ completions state'.run.events -> outcome = other) ∧
        forall hash other, state.run.control = .returned (.ok hash) ->
          state'.run.control = .returned (.ok other) -> hash = other := by
  intro semantics state
  have faithful : Faithful semantics (attemptsOf semantics) :=
    fun _input _count _output attempted => attempted.symm
  exact portable_workflow planCodec plannedReaders (ArgReaders.derived_orderBlind _)
    (Dag.link_accepted _ _ _) plannedDocument plannedDocument_reordered plannedDag_instantiable
    .sample .f64 .offline .offline HttpClient.offline_same .default .default .gcra .gcra .linux
    .linux 0 7 (attemptsOf semantics) faithful state (TimedState.drive_reaches 30 _)

end Nodes
end KernelFlow
