import Mathlib
import KernelFlow.Core.Builder
import KernelFlow.Core.Condition
import KernelFlow.Core.Wire
import KernelFlow.Scheduler.Run

namespace KernelFlow

open Transition

/-!
# Workflows sent as JSON

A graph is written as JSON and read elsewhere, and on the way some JSON library
may list the members of objects in another order.  The graph that is read may
differ from the one that was written in the member order of its condition values
and in nothing else.  No condition can see that, so both graphs have the same
topological order and the same runs: every run of one has a twin of the other
with the same log, outputs, calls and result.
-/

/-! ## Graphs that no run can tell apart -/

structure Edge.Alike (left right : Edge) : Prop where
  «from» : left.from = right.from
  «to» : left.to = right.to
  evaluate : forall output, left.condition.evaluate output = right.condition.evaluate output

structure Dag.Alike {N : Type} (left right : Dag N) : Prop where
  id : left.id = right.id
  name : left.name = right.name
  declared : forall node : NodeId, node ∈ left.nodes ↔ node ∈ right.nodes
  edges : List.Forall₂ Edge.Alike left.edges right.edges

theorem Edge.Alike.symm {left right : Edge} (alike : left.Alike right) : right.Alike left :=
  ⟨alike.from.symm, alike.to.symm, fun output => (alike.evaluate output).symm⟩

/-- Values that are equal up to member order decide alike. -/
theorem EdgeCondition.SameUpToOrder.evaluate {left right : EdgeCondition}
    (same : left.SameUpToOrder right) (output : Value) :
    left.evaluate output = right.evaluate output := by
  cases same with
  | always => rfl
  | @jsonEq pointer one other same =>
      have values : one.json.unsignZeros.canonicalize = other.json.unsignZeros.canonicalize := by
        rw [← Json.beq_iff one.distinct other.distinct, Json.beq_congr same,
          Json.beq_iff other.distinct other.distinct]
      change ((output.json.pointer pointer).map _).getD false =
        ((output.json.pointer pointer).map _).getD false
      cases found : output.json.pointer pointer with
      | none => rfl
      | some component =>
          have distinct := output.distinct.pointer found
          change component.beq one.json = component.beq other.json
          rw [Bool.eq_iff_iff, Json.beq_iff distinct one.distinct,
            Json.beq_iff distinct other.distinct, values]

theorem Dag.SameUpToOrder.alike {N : Type} {payload : N -> N -> Prop} {left right : Dag N}
    (same : left.SameUpToOrder payload right) : left.Alike right where
  id := same.id
  name := same.name
  declared := by
    intro node
    rw [OrderedMap.mem_iff_exists, OrderedMap.mem_iff_exists]
    have related := same.nodes node
    generalize left.nodes[node]? = first, right.nodes[node]? = second at related
    cases related <;> simp
  edges := same.edges.imp fun _one _other edges =>
    ⟨edges.from, edges.to, edges.condition.evaluate⟩

namespace Dag.Alike

variable {N : Type} {dag received : Dag N}

theorem symm (alike : dag.Alike received) : received.Alike dag where
  id := alike.id.symm
  name := alike.name.symm
  declared := fun node => (alike.declared node).symm
  edges := alike.edges.flip.imp fun _one _other => Edge.Alike.symm

theorem size (alike : dag.Alike received) : dag.nodes.size = received.nodes.size :=
  (OrderedMap.size_eq_iff_of_subset fun key member => (alike.declared key).mp member).mpr
    fun key member => (alike.declared key).mpr member

theorem froms {left right : List Edge} (alike : List.Forall₂ Edge.Alike left right) :
    left.map Edge.from = right.map Edge.from := by
  induction alike with
  | nil => rfl
  | cons head _tail inductionHypothesis =>
      rw [List.map_cons, List.map_cons, head.from, inductionHypothesis]

theorem tos {left right : List Edge} (alike : List.Forall₂ Edge.Alike left right) :
    left.map Edge.to = right.map Edge.to := by
  induction alike with
  | nil => rfl
  | cons head _tail inductionHypothesis =>
      rw [List.map_cons, List.map_cons, head.to, inductionHypothesis]

theorem children (alike : dag.Alike received) (node : NodeId) :
    List.Forall₂ Edge.Alike (dag.children node) (received.children node) := by
  apply List.rel_filter _ alike.edges
  intro first second edges
  change (first.from == node) = true ↔ (second.from == node) = true
  rw [edges.from]

theorem parents (alike : dag.Alike received) (node : NodeId) :
    List.Forall₂ Edge.Alike (dag.parents node) (received.parents node) := by
  apply List.rel_filter _ alike.edges
  intro first second edges
  change (first.to == node) = true ↔ (second.to == node) = true
  rw [edges.to]

theorem partner {left right : List Edge} (alike : List.Forall₂ Edge.Alike left right) {edge : Edge}
    (member : edge ∈ right) : ∃ other ∈ left, other.Alike edge := by
  induction alike with
  | nil => cases member
  | cons head _tail inductionHypothesis =>
      rcases List.mem_cons.mp member with rfl | inside
      · exact ⟨_, List.mem_cons_self, head⟩
      · rcases inductionHypothesis inside with ⟨other, listed, same⟩
        exact ⟨other, List.mem_cons_of_mem _ listed, same⟩

theorem wellFormed (alike : dag.Alike received) (accepted : dag.WellFormed) :
    received.WellFormed where
  from_declared := by
    intro edge member
    rcases partner alike.edges member with ⟨other, listed, same⟩
    exact (alike.declared _).mp (same.from ▸ accepted.from_declared other listed)
  to_declared := by
    intro edge member
    rcases partner alike.edges member with ⟨other, listed, same⟩
    exact (alike.declared _).mp (same.to ▸ accepted.to_declared other listed)
  acyclic := by
    intro node cycle
    refine accepted.acyclic node (Relation.TransGen.mono ?_ _ _ cycle)
    rintro first second ⟨edge, member, rfl, rfl⟩
    rcases partner alike.edges member with ⟨other, listed, same⟩
    exact ⟨other, listed, same.from, same.to⟩

/-- Tables with one entry for each node are equal. -/
theorem table (alike : dag.Alike received) :
    (Std.ExtTreeMap.ofList (dag.nodes.keys.map fun key => (key, 0)) : Counters NodeId) =
      Std.ExtTreeMap.ofList (received.nodes.keys.map fun key => (key, 0)) := by
  apply Std.ExtTreeMap.ext_getElem?
  intro key
  rw [OrderedMap.getElem?_ofList_map, OrderedMap.getElem?_ofList_map]
  simp only [Std.ExtTreeMap.mem_keys, alike.declared key]

/-! ## Topological order -/

theorem inDegrees (alike : dag.Alike received) : dag.inDegrees = received.inDegrees := by
  have folded (edges : List Edge) (start : Counters NodeId) :
      edges.foldl (fun indeg edge => indeg.insert edge.to (indeg[edge.to]?.getD 0 + 1)) start =
        (edges.map Edge.to).foldl
          (fun indeg target => indeg.insert target (indeg[target]?.getD 0 + 1)) start := by
    rw [List.foldl_map]
  rw [Dag.inDegrees, Dag.inDegrees, folded, folded, tos alike.edges, alike.table]

theorem releaseTargets {left right : List Edge} (alike : List.Forall₂ Edge.Alike left right)
    (indeg : Counters NodeId) (queue : List NodeId) :
    Dag.releaseTargets left indeg queue = Dag.releaseTargets right indeg queue := by
  induction alike generalizing indeg queue with
  | nil => rfl
  | cons head _tail inductionHypothesis =>
      rw [Dag.releaseTargets, Dag.releaseTargets, head.to]
      cases indeg.release queue _ with
      | none => rfl
      | some lowered => exact inductionHypothesis _ _

theorem topoLoop (alike : dag.Alike received) (turns : Nat) (indeg : Counters NodeId)
    (queue out : List NodeId) :
    Dag.topoLoop dag.edges turns indeg queue out =
      Dag.topoLoop received.edges turns indeg queue out := by
  induction turns generalizing indeg queue out with
  | zero => rfl
  | succ turns inductionHypothesis =>
      cases queue with
      | nil => rfl
      | cons node queue =>
          have released := releaseTargets (alike.children node) indeg queue
          rw [Dag.children, Dag.children] at released
          rw [Dag.topoLoop, Dag.topoLoop, released]
          cases Dag.releaseTargets _ indeg queue with
          | none => rfl
          | some lowered => exact inductionHypothesis _ _ _

theorem topoSort (alike : dag.Alike received) : dag.topoSort = received.topoSort := by
  unfold Dag.topoSort
  rw [alike.inDegrees, alike.size]
  simp only [alike.topoLoop]

end Dag.Alike

/-! ## Runs -/

namespace Scheduler

/-- The same position, over edges that no run can tell apart. -/
inductive Control.Alike : Control -> Control -> Prop
  | launching (rest : List NodeId) : Alike (.launching rest) (.launching rest)
  | awaiting : Alike .awaiting .awaiting
  | unlocking (node : NodeId) {left right : List Edge} (edges : List.Forall₂ Edge.Alike left right) :
      Alike (.unlocking node left) (.unlocking node right)
  | returned (result : KernelResult String) : Alike (.returned result) (.returned result)
  | panicked : Alike .panicked .panicked

/-- Equal states but for the edges that are still to be looked at. -/
structure RunState.Alike (left right : RunState) : Prop where
  indeg : left.indeg = right.indeg
  outputs : left.outputs = right.outputs
  ready : left.ready = right.ready
  inflight : left.inflight = right.inflight
  events : left.events = right.events
  batches : left.batches = right.batches
  control : left.control.Alike right.control

theorem RunState.Alike.exists_control {left right : RunState} (alike : left.Alike right) :
    ∃ control, right = { left with control := control } ∧ left.control.Alike control := by
  rcases left with ⟨indeg, outputs, ready, inflight, events, control, batches⟩
  rcases right with ⟨indeg', outputs', ready', inflight', events', control', batches'⟩
  rcases alike with ⟨one, two, three, four, five, six, same⟩
  dsimp only at one two three four five six same
  subst one two three four five six
  exact ⟨control', rfl, same⟩

theorem RunState.alike_of_control (state : RunState) {left right : Control} (same : left.Alike right) :
    { state with control := left }.Alike { state with control := right } :=
  ⟨rfl, rfl, rfl, rfl, rfl, rfl, same⟩

variable {P : Type} {dag received : Dag P} {backend : HashBackend}
  {calls : NodeInput -> KernelResult NodeOutput -> Prop}

theorem nodeInput_alike (alike : dag.Alike received) (outputs : BTreeMap NodeId Value)
    (node : NodeId) : nodeInput dag outputs node = nodeInput received outputs node := by
  have collected (edges : List Edge) :
      (edges.filterMap fun edge => outputs[edge.from]?.map fun value => (edge.from, value)) =
        (edges.map Edge.from).filterMap fun source =>
          outputs[source]?.map fun value => (source, value) := by
    rw [List.filterMap_map]
    rfl
  unfold nodeInput parentOutputs
  rw [alike.id, collected, collected, Dag.Alike.froms (alike.parents node)]

theorem start_alike (alike : dag.Alike received) : (start dag).Alike (start received) := by
  have degrees : initialDegrees dag = initialDegrees received := by
    have folded (edges : List Edge) (counters : Counters NodeId) :
        edges.foldlM (fun indeg edge =>
            indeg[edge.to]?.map fun degree => indeg.insert edge.to (degree + 1)) counters =
          (edges.map Edge.to).foldlM (fun indeg target =>
            indeg[target]?.map fun degree => indeg.insert target (degree + 1)) counters := by
      rw [List.foldlM_map]
    rw [initialDegrees_eq_foldlM, initialDegrees_eq_foldlM, folded, folded,
      Dag.Alike.tos alike.edges, alike.table]
  unfold start
  rw [degrees, alike.id, alike.name]
  cases initialDegrees received with
  | none => exact ⟨rfl, rfl, rfl, rfl, rfl, rfl, .panicked⟩
  | some indeg => exact ⟨rfl, rfl, rfl, rfl, rfl, rfl, .awaiting⟩

theorem launch_alike (alike : dag.Alike received) (state : RunState) (node : NodeId)
    (rest : List NodeId) : state.launch dag node rest = state.launch received node rest := by
  unfold RunState.launch
  rw [nodeInput_alike alike, alike.id]
  simp only [alike.declared node]

theorem finish_alike (alike : dag.Alike received) (state : RunState) :
    state.finish dag backend = state.finish received backend := by
  unfold RunState.finish
  rw [alike.size, alike.id]

/-- The code that does not look at the position is the same on states that only
differ in it. -/
theorem unlock_alike (state : RunState) (node : NodeId) {edge other : Edge} (edges : edge.Alike other)
    {rest others : List Edge} (alike : List.Forall₂ Edge.Alike rest others) (left right : Control) :
    ({ state with control := left }.unlock node edge rest).Alike
      ({ state with control := right }.unlock node other others) := by
  unfold RunState.unlock
  dsimp only
  rw [edges.evaluate, edges.to]
  split
  · exact state.alike_of_control (.unlocking node alike)
  · cases state.indeg.release state.ready other.to with
    | none => exact state.alike_of_control .panicked
    | some lowered => exact ⟨rfl, rfl, rfl, rfl, rfl, rfl, .unlocking node alike⟩

/-- The deterministic steps correspond. -/
theorem advance_alike (alike : dag.Alike received) {before twin after : RunState}
    (same : before.Alike twin) (advanced : before.advance dag backend = some after) :
    ∃ next, twin.advance received backend = some next ∧ after.Alike next := by
  rcases same.exists_control with ⟨other, rfl, position⟩
  rcases before with ⟨indeg, outputs, ready, inflight, events, control, batches⟩
  dsimp only at position
  cases position with
  | launching rest =>
      cases rest with
      | nil =>
          cases advanced
          exact ⟨_, rfl, ⟨rfl, rfl, rfl, rfl, rfl, rfl, .awaiting⟩⟩
      | cons node rest =>
          cases advanced
          refine ⟨_, rfl, ?_⟩
          dsimp only
          rw [← launch_alike alike]
          unfold RunState.launch
          split
          · exact ⟨rfl, rfl, rfl, rfl, rfl, rfl, .launching rest⟩
          · exact ⟨rfl, rfl, rfl, rfl, rfl, rfl, .panicked⟩
  | awaiting =>
      unfold RunState.advance at advanced ⊢
      dsimp only at advanced ⊢
      split at advanced
      · next idle =>
          cases advanced
          refine ⟨_, if_pos idle, ?_⟩
          split
          · rw [← finish_alike alike]
            unfold RunState.finish
            dsimp only
            split
            · exact ⟨rfl, rfl, rfl, rfl, rfl, rfl, .returned _⟩
            · exact ⟨rfl, rfl, rfl, rfl, rfl, rfl, .returned _⟩
          · exact ⟨rfl, rfl, rfl, rfl, rfl, rfl, .launching _⟩
      · cases advanced
  | unlocking node edges =>
      cases edges with
      | nil =>
          cases advanced
          exact ⟨_, rfl, ⟨rfl, rfl, rfl, rfl, rfl, rfl, .awaiting⟩⟩
      | cons head rest =>
          cases advanced
          exact ⟨_, rfl, unlock_alike ⟨indeg, outputs, ready, inflight, events, .awaiting, batches⟩
            node head rest _ _⟩
  | returned result => cases advanced
  | panicked => cases advanced

/-- A delivered result has the same effect. -/
theorem deliver_alike (alike : dag.Alike received) {before twin : RunState} (same : before.Alike twin)
    (position : Nat) (input : NodeInput) (result : KernelResult NodeOutput) :
    (before.deliver dag backend position input result).Alike
      (twin.deliver received backend position input result) := by
  rcases same.exists_control with ⟨other, rfl, _position⟩
  unfold RunState.deliver
  rw [← alike.id]
  cases result with
  | ok output => exact ⟨rfl, rfl, rfl, rfl, rfl, rfl, .unlocking _ (alike.children _)⟩
  | error error => exact ⟨rfl, rfl, rfl, rfl, rfl, rfl, .returned _⟩

theorem step_alike (alike : dag.Alike received) {before twin after : RunState}
    (same : before.Alike twin) (step : Step dag backend calls before after) :
    ∃ next, Step received backend calls twin next ∧ after.Alike next := by
  rcases step with advanced | ⟨position, input, result, control, found, called, rfl⟩
  · rcases advance_alike alike same advanced with ⟨next, moved, related⟩
    exact ⟨next, Or.inl moved, related⟩
  · have waiting : twin.control = .awaiting := by
      have related := same.control
      rw [control] at related
      generalize twin.control = other at related
      cases related
      rfl
    refine ⟨_, Or.inr ⟨position, input, result, waiting, ?_, called, rfl⟩,
      deliver_alike alike same position input result⟩
    rw [← same.inflight]
    exact found

/-- Every run has a twin on a graph that no run can tell apart. -/
theorem run_alike (alike : dag.Alike received) {state : RunState}
    (run : Reaches (Step dag backend calls) (start dag) state) :
    ∃ twin, Reaches (Step received backend calls) (start received) twin ∧ state.Alike twin := by
  induction run with
  | refl => exact ⟨_, .refl, start_alike alike⟩
  | tail _earlier last inductionHypothesis =>
      rcases inductionHypothesis with ⟨twin, run, same⟩
      rcases step_alike alike same last with ⟨next, moved, related⟩
      exact ⟨next, run.tail moved, related⟩

/-- A graph is sent as JSON, and its document arrives with the members of objects in
any order.  For every codec that undoes its own writing and takes members in any order,
the graph that is read has the topological order of the graph that was sent, and the
runs of the two are twins in both directions: the same calls with the same inputs, the
same log, the same outputs and the same result. -/
theorem sent_workflow_runs_alike {N : Type} {payload : N -> N -> Prop}
    (codec : JsonCodec (Dag N) (Dag.SameUpToOrder payload)) (dag : Dag N) (document : Json)
    (reordered : (codec.write dag).Reordered document) (backend : HashBackend)
    (calls : NodeInput -> KernelResult NodeOutput -> Prop) :
    ∃ received, codec.read document = some received ∧ dag.topoSort = received.topoSort ∧
      (forall state, Reaches (Step dag backend calls) (start dag) state ->
        ∃ twin, Reaches (Step received backend calls) (start received) twin ∧ state.Alike twin) ∧
      forall state, Reaches (Step received backend calls) (start received) state ->
        ∃ twin, Reaches (Step dag backend calls) (start dag) twin ∧ state.Alike twin := by
  rcases codec.read_of_reordered reordered with ⟨received, read, same⟩
  have alike := same.alike
  exact ⟨received, read, alike.topoSort, fun _state => run_alike alike,
    fun _state => run_alike alike.symm⟩

/-- Two library nodes by their kinds; the second one runs if the first one delivers this
object. -/
def sentDag : Dag String :=
  Dag.link "constant" "sha256" (.jsonEq "" ⟨.object [("ok", .bool true), ("text", .string "x")],
    by decide⟩)

/-- Its document with the members of all objects the other way round. -/
def sentDocument : Json :=
  .object [("edges", .array [.object [("condition", .object [("JsonEq",
      .object [("value", .object [("text", .string "x"), ("ok", .bool true)]),
        ("pointer", .string "")])]), ("to", .string "b"), ("from", .string "a")]]),
    ("nodes", .object [("b", .string "sha256"), ("a", .string "constant")]),
    ("name", .string "pair"), ("id", .string "00000000-0000-0000-0000-000000000000")]

theorem sentDocument_reordered :
    ((Wire.dagCodec .string).write sentDag).Reordered sentDocument := by
  have distinct : ((Wire.dagCodec .string).write sentDag).Distinct :=
    (Wire.dag .string).distinct_write sentDag
  have reversed : sentDocument.Distinct := by decide
  refine ⟨distinct, reversed, (Json.canonicalize_eq_iff _ _ distinct reversed).mp ?_⟩
  rfl

theorem sent_workflow_runs_alike_link :
    ∃ received, (Wire.dagCodec .string).read sentDocument = some received ∧
      sentDag.topoSort = received.topoSort ∧
      (forall state, Reaches (Step sentDag .sample anyResult) (start sentDag) state ->
        ∃ twin, Reaches (Step received .sample anyResult) (start received) twin ∧
          state.Alike twin) ∧
      forall state, Reaches (Step received .sample anyResult) (start received) state ->
        ∃ twin, Reaches (Step sentDag .sample anyResult) (start sentDag) twin ∧
          state.Alike twin :=
  sent_workflow_runs_alike (Wire.dagCodec .string) sentDag sentDocument sentDocument_reordered
    .sample anyResult

end Scheduler
end KernelFlow
