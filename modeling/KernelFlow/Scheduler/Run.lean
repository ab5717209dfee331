import Mathlib
import KernelFlow.Library.Transition
import KernelFlow.Core.Dag

namespace KernelFlow
namespace Scheduler

/-!
# One run of the scheduler

`Scheduler::run` as a transition system.  The local variables of the function
are the fields of `RunState`, and `Control` says which loop is being executed.
A step is one iteration of one of these loops.  All of them are deterministic
except the wait for the next completed future, which may deliver any call that
is in flight with any result that the node may return.

The events are the log of everything sent on the broadcast channel.  The
field `batches` is a history variable: the contents of the ready list at each
turn of the outer loop.  No step of the program reads it.
-/

/-- The position inside `run`. -/
inductive Control
  /-- in the loop that drains the ready list -/
  | launching (rest : List NodeId)
  /-- at `inflight.next().await` -/
  | awaiting
  /-- in the loop over the children of a node that has just completed -/
  | unlocking (node : NodeId) (rest : List Edge)
  | returned (result : KernelResult String)
  | panicked

structure RunState where
  indeg : Counters NodeId
  outputs : BTreeMap NodeId Value
  ready : List NodeId
  inflight : List NodeInput
  events : List KernelEvent
  control : Control
  batches : List (List NodeId)

variable {P : Type}

/-- The parent outputs collected for a node: one entry for every distinct
source of an in-edge that has an output. -/
def parentOutputs (dag : Dag P) (outputs : BTreeMap NodeId Value) (node : NodeId) :
    BTreeMap NodeId Value :=
  Std.ExtTreeMap.ofList ((dag.parents node).filterMap fun edge =>
    outputs[edge.from]?.map fun value => (edge.from, value))

/-- The input of a node call.  The scheduler passes a null payload. -/
def nodeInput (dag : Dag P) (outputs : BTreeMap NodeId Value) (node : NodeId) : NodeInput where
  workflowId := dag.id
  nodeId := node
  payload := Value.null
  parents := parentOutputs dag outputs node

/-- The in-degree table; `none` is the failed `unwrap` on an unknown target. -/
def initialDegrees (dag : Dag P) : Option (Counters NodeId) :=
  dag.edges.foldlM (fun indeg edge =>
      match indeg[edge.to]? with
      | none => none
      | some degree => some (indeg.insert edge.to (degree + 1)))
    (Std.ExtTreeMap.ofList (dag.nodes.keys.map fun key => (key, 0)))

theorem initialDegrees_eq_foldlM (dag : Dag P) :
    initialDegrees dag =
      dag.edges.foldlM (fun indeg edge =>
        indeg[edge.to]?.map fun degree => indeg.insert edge.to (degree + 1))
        (Std.ExtTreeMap.ofList (dag.nodes.keys.map fun key => (key, 0))) := by
  unfold initialDegrees
  congr 1
  funext indeg edge
  cases indeg[edge.to]? with
  | none => rfl
  | some degree => rfl

/-- The state before the first test of the outer loop. -/
def start (dag : Dag P) : RunState :=
  match initialDegrees dag with
  | none =>
      { indeg := ∅, outputs := ∅, ready := [], inflight := [],
        events := [.workflowStarted dag.id dag.name], control := .panicked, batches := [] }
  | some indeg =>
      { indeg := indeg, outputs := ∅, ready := indeg.zeros, inflight := [],
        events := [.workflowStarted dag.id dag.name], control := .awaiting, batches := [] }

namespace RunState

/-- Launch one node of the drained list: build its input, look its actor up
(there is one for every declared node), announce it and put its call in
flight. -/
def launch (state : RunState) (dag : Dag P) (node : NodeId) (rest : List NodeId) : RunState :=
  if node ∈ dag.nodes then
    { state with
      inflight := state.inflight ++ [nodeInput dag state.outputs node]
      events := state.events ++ [.nodeStarted dag.id node 1]
      control := .launching rest }
  else { state with control := .panicked }

/-- A turn of the outer loop starts by draining the ready list. -/
def beginBatch (state : RunState) : RunState :=
  { state with
    ready := []
    control := .launching state.ready
    batches := state.batches ++ [state.ready] }

/-- The code after the outer loop. -/
def finish (state : RunState) (dag : Dag P) (backend : HashBackend) : RunState :=
  if state.outputs.size ≠ dag.nodes.size then
    { state with control := .returned (.error (.invalidInput "not all nodes were reached")) }
  else
    let attestationHash := hashJson backend (Value.ofMap state.outputs)
    { state with
      events := state.events ++ [.workflowCompleted dag.id attestationHash]
      control := .returned (.ok attestationHash) }

/-- One child edge of a completed node.  An edge whose condition is false is
skipped; any other one lowers the counter of its target. -/
def unlock (state : RunState) (node : NodeId) (edge : Edge) (rest : List Edge) : RunState :=
  let parentOut := state.outputs[node]?.getD Value.null
  if edge.condition.evaluate parentOut = false then
    { state with control := .unlocking node rest }
  else
    match state.indeg.release state.ready edge.to with
    | none => { state with control := .panicked }
    | some (indeg, ready) =>
        { state with indeg := indeg, ready := ready, control := .unlocking node rest }

/-- An iteration of the loop over the children touches counters, ready list
and control only, and makes at most the target of the edge ready. -/
theorem unlock_frame (state : RunState) (node : NodeId) (edge : Edge) (rest : List Edge) :
    ∃ indeg ready control, state.unlock node edge rest =
      { state with indeg := indeg, ready := ready, control := control } ∧
      (control = .unlocking node rest ∨ control = .panicked) ∧
      (ready = state.ready ∨ ready = state.ready ++ [edge.to]) := by
  simp only [unlock]
  split
  · exact ⟨state.indeg, state.ready, _, rfl, Or.inl rfl, Or.inl rfl⟩
  · cases released : state.indeg.release state.ready edge.to with
    | none => exact ⟨state.indeg, state.ready, _, rfl, Or.inr rfl, Or.inl rfl⟩
    | some pair => exact ⟨pair.1, pair.2, _, rfl, Or.inl rfl, Counters.release_queue released⟩

/-- The deterministic steps.  There is none while a call is awaited, after the
return and after a panic. -/
def advance (state : RunState) (dag : Dag P) (backend : HashBackend) : Option RunState :=
  match state.control with
  | .launching [] => some { state with control := .awaiting }
  | .launching (node :: rest) => some (state.launch dag node rest)
  | .awaiting =>
      if state.inflight = [] then
        some (if state.ready = [] then state.finish dag backend else state.beginBatch)
      else none
  | .unlocking _ [] => some { state with control := .awaiting }
  | .unlocking node (edge :: rest) => some (state.unlock node edge rest)
  | .returned _ => none
  | .panicked => none

/-- The future at a position of the set completes.  A failed call ends the run
at once; the calls that are still in flight then are dropped with it, and the
state keeps them only as a record. -/
def deliver (state : RunState) (dag : Dag P) (backend : HashBackend) (position : Nat)
    (input : NodeInput) (result : KernelResult NodeOutput) : RunState :=
  match result with
  | .ok output =>
      { state with
        inflight := state.inflight.eraseIdx position
        events := state.events ++ [.nodeCompleted dag.id input.nodeId
          (.success (hashJson backend output.value) output.gasUsed)]
        outputs := state.outputs.insert input.nodeId output.value
        control := .unlocking input.nodeId (dag.children input.nodeId) }
  | .error error =>
      { state with
        events := state.events ++ [.workflowFailed dag.id error.display]
        control := .returned (.error error) }

end RunState

/-- One step of a run.  `calls` says which results the call of a node on an
input may have. -/
def Step (dag : Dag P) (backend : HashBackend)
    (calls : NodeInput -> KernelResult NodeOutput -> Prop) (before after : RunState) : Prop :=
  before.advance dag backend = some after ∨
    ∃ position input result, before.control = .awaiting ∧
      before.inflight[position]? = some input ∧ calls input result ∧
      after = before.deliver dag backend position input result

/-- Every result is possible. -/
def anyResult : NodeInput -> KernelResult NodeOutput -> Prop :=
  fun _input _result => True

theorem Step.any {dag : Dag P} {backend : HashBackend}
    {calls : NodeInput -> KernelResult NodeOutput -> Prop} {before after : RunState}
    (step : Step dag backend calls before after) : Step dag backend anyResult before after := by
  rcases step with advanced | ⟨position, input, result, control, found, _called, same⟩
  · exact Or.inl advanced
  · exact Or.inr ⟨position, input, result, control, found, trivial, same⟩

/-- A node as a function of its id and the outputs of its parents. -/
abbrev NodeSemantics := NodeId -> BTreeMap NodeId Value -> KernelResult NodeOutput

/-- Every node succeeds with one value. -/
def NodeSemantics.constant (value : Value) : NodeSemantics :=
  fun _node _parents => .ok ⟨value, 0⟩

/-- Calls that are never refused and answer with the node's own result. -/
def callsOf (sem : NodeSemantics) : NodeInput -> KernelResult NodeOutput -> Prop :=
  fun input result => result = sem input.nodeId input.parents

/-- The run in which calls complete in the order of their launch.  The first
argument bounds the number of steps. -/
def RunState.drive (dag : Dag P) (backend : HashBackend) (sem : NodeSemantics) :
    Nat -> RunState -> RunState
  | 0, state => state
  | fuel + 1, state =>
      match state.advance dag backend with
      | some next => next.drive dag backend sem fuel
      | none =>
          match state.control, state.inflight with
          | .awaiting, input :: _ =>
              (state.deliver dag backend 0 input (sem input.nodeId input.parents)).drive
                dag backend sem fuel
          | _, _ => state

theorem RunState.drive_reaches (dag : Dag P) (backend : HashBackend) (sem : NodeSemantics)
    (fuel : Nat) (state : RunState) :
    Transition.Reaches (Step dag backend (callsOf sem)) state
      (state.drive dag backend sem fuel) := by
  induction fuel generalizing state with
  | zero => exact .refl
  | succ fuel inductionHypothesis =>
      rw [drive]
      split
      · rename_i next advanced
        exact .head (Or.inl advanced) (inductionHypothesis next)
      · split
        · rename_i input rest control inflight
          refine .head (Or.inr ⟨0, input, _, control, ?_, rfl, rfl⟩) (inductionHypothesis _)
          rw [inflight]
          rfl
        · exact .refl

/-! ## Reading the log -/

/-- The nodes announced by an event log, in order. -/
def startedNodes (events : List KernelEvent) : List NodeId :=
  events.filterMap fun event => match event with
    | .nodeStarted _ node _ => some node
    | _ => none

/-- The completions recorded by an event log, in order. -/
def completions (events : List KernelEvent) : List (NodeId × NodeOutcome) :=
  events.filterMap fun event => match event with
    | .nodeCompleted _ node outcome => some (node, outcome)
    | _ => none

theorem startedNodes_append (first second : List KernelEvent) :
    startedNodes (first ++ second) = startedNodes first ++ startedNodes second :=
  List.filterMap_append

theorem completions_append (first second : List KernelEvent) :
    completions (first ++ second) = completions first ++ completions second :=
  List.filterMap_append

end Scheduler
end KernelFlow
