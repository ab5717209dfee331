import Mathlib
import KernelFlow.Library.Multigraph
import KernelFlow.Library.Countdown
import KernelFlow.Core.Event

namespace KernelFlow

/-!
# Workflow graphs

The graph type, its topological sort and the builder.  Partial operations of
the source (an `unwrap` on a missing key, a subtraction on a counter that is
already zero) are the `none` results here, so that their absence is a theorem
and not a convention of the translation.
-/

/-- When an edge fires, as a predicate on the output of its source. -/
inductive EdgeCondition
  | always
  | jsonEq (pointer : String) (value : Value)

/-- A pointer that selects nothing makes the condition false. -/
def EdgeCondition.evaluate : EdgeCondition -> Value -> Bool
  | .always, _ => true
  | .jsonEq pointer value, output =>
      ((output.json.pointer pointer).map fun found => found.beq value.json).getD false

structure Edge where
  «from» : NodeId
  «to» : NodeId
  condition : EdgeCondition

/-- A workflow graph with node payloads in `N`.  All fields are public in the
source, so edges may name nodes that the map does not hold. -/
structure Dag (N : Type) where
  id : WorkflowId
  name : String
  nodes : BTreeMap NodeId N
  edges : List Edge

namespace Dag

variable {N : Type}

/-- The graph as an edge list, forgetting conditions and payloads. -/
def graph (dag : Dag N) : Multigraph NodeId Edge where
  edges := dag.edges
  source := Edge.from
  target := Edge.to

/-- The edges into a node, in insertion order. -/
def parents (dag : Dag N) (node : NodeId) : List Edge :=
  dag.edges.filter fun edge => edge.to == node

/-- The edges out of a node, in insertion order. -/
def children (dag : Dag N) (node : NodeId) : List Edge :=
  dag.edges.filter fun edge => edge.from == node

@[simp]
theorem mem_parents (dag : Dag N) {node : NodeId} {edge : Edge} :
    edge ∈ dag.parents node ↔ edge ∈ dag.edges ∧ edge.to = node := by
  rw [parents, List.mem_filter, beq_iff_eq]

@[simp]
theorem mem_children (dag : Dag N) {node : NodeId} {edge : Edge} :
    edge ∈ dag.children node ↔ edge ∈ dag.edges ∧ edge.from = node := by
  rw [children, List.mem_filter, beq_iff_eq]

/-! ## Topological sort -/

/-- Zero for every node, then one more for the target of every edge.  A target
outside the node map gets an entry of its own. -/
def inDegrees (dag : Dag N) : Counters NodeId :=
  dag.edges.foldl (fun indeg edge => indeg.insert edge.to (indeg[edge.to]?.getD 0 + 1))
    (Std.ExtTreeMap.ofList (dag.nodes.keys.map fun key => (key, 0)))

/-- The loop over the edges out of the node just taken from the queue. -/
def releaseTargets : List Edge -> Counters NodeId -> List NodeId ->
    Option (Counters NodeId × List NodeId)
  | [], indeg, queue => some (indeg, queue)
  | edge :: rest, indeg, queue =>
      match indeg.release queue edge.to with
      | none => none
      | some (lowered, extended) => releaseTargets rest lowered extended

/-- The loop over the queue.  The bound on the number of turns is an artefact
of the translation; `topoSort` supplies one that is never reached. -/
def topoLoop (edges : List Edge) : Nat -> Counters NodeId -> List NodeId -> List NodeId ->
    Option (List NodeId)
  | 0, _, _, _ => none
  | _ + 1, _, [], out => some out
  | turns + 1, indeg, node :: queue, out =>
      match releaseTargets (edges.filter fun edge => edge.from == node) indeg queue with
      | none => none
      | some (lowered, extended) => topoLoop edges turns lowered extended (out ++ [node])

/-- Kahn's algorithm.  The only success test of the source compares lengths. -/
def topoSort (dag : Dag N) : Option (KernelResult (List NodeId)) :=
  let indeg := dag.inDegrees
  match topoLoop dag.edges (indeg.size + 1) indeg indeg.zeros [] with
  | none => none
  | some out =>
      some (if out.length ≠ dag.nodes.size then .error .cycleDetected else .ok out)

/-- Every endpoint is a node of the map, and no path returns to its start. -/
structure WellFormed (dag : Dag N) : Prop where
  from_declared : forall edge, edge ∈ dag.edges -> edge.from ∈ dag.nodes
  to_declared : forall edge, edge ∈ dag.edges -> edge.to ∈ dag.nodes
  acyclic : dag.graph.Acyclic

end Dag

/-! ## The builder -/

/-- The fields are private in the source: builders are made by the calls below. -/
structure DagBuilder (N : Type) where
  name : String
  nodes : BTreeMap NodeId N
  edges : List Edge

namespace DagBuilder

variable {N : Type}

def new (name : String) : DagBuilder N :=
  ⟨name, ∅, []⟩

/-- Declaring an id again replaces its payload. -/
def node (builder : DagBuilder N) (id : NodeId) (payload : N) : DagBuilder N :=
  { builder with nodes := builder.nodes.insert id payload }

def edge (builder : DagBuilder N) («from» «to» : NodeId) (condition : EdgeCondition) :
    DagBuilder N :=
  { builder with edges := builder.edges ++ [⟨«from», «to», condition⟩] }

/-- The reference check: the first undeclared endpoint is reported, the source
of an edge before its target. -/
def checkReferences (nodes : BTreeMap NodeId N) : List Edge -> KernelResult Unit
  | [] => .ok ()
  | edge :: rest =>
      if edge.from ∉ nodes then .error (.nodeNotFound edge.from)
      else if edge.to ∉ nodes then .error (.nodeNotFound edge.to)
      else checkReferences nodes rest

/-- `build`, with the random workflow id as an argument. -/
def build (builder : DagBuilder N) (id : WorkflowId) : Option (KernelResult (Dag N)) :=
  let dag : Dag N := ⟨id, builder.name, builder.nodes, builder.edges⟩
  match checkReferences dag.nodes dag.edges with
  | .error error => some (.error error)
  | .ok () =>
      match dag.topoSort with
      | none => none
      | some (.error error) => some (.error error)
      | some (.ok _) => some (.ok dag)

/-- One call on a builder. -/
inductive Call (N : Type)
  | node (id : NodeId) (payload : N)
  | edge («from» «to» : NodeId) (condition : EdgeCondition)

def apply (builder : DagBuilder N) : Call N -> DagBuilder N
  | .node id payload => builder.node id payload
  | .edge source target condition => builder.edge source target condition

/-- The builder after a sequence of calls. -/
def ofCalls (name : String) (calls : List (Call N)) : DagBuilder N :=
  calls.foldl apply (new name)

end DagBuilder

/-- The graphs that reach a scheduler: some sequence of builder calls made the
graph, and `build` accepted it. -/
def Dag.Accepted {N : Type} (dag : Dag N) : Prop :=
  ∃ name calls id, (DagBuilder.ofCalls name calls).build id = some (.ok dag)

end KernelFlow
