import Mathlib
import KernelFlow.Nodes.Library
import KernelFlow.Scheduler.Log

namespace KernelFlow
namespace Nodes

open Scheduler Transition

/-!
# What a digest node hashes

The scheduler hands data to a node through the parent map and leaves the
payload null.  The digest node reads the payload and nothing else.  Its output
in a run is therefore the hash of null, whatever its parents returned.
-/

variable {P : Type} {dag : Dag P} {backend : HashBackend}

/-- On the inputs that the scheduler builds, the node answers as a digest node
does whenever its call succeeds. -/
def RunsSha256 (dag : Dag P) (backend : HashBackend) (node : NodeId)
    (calls : NodeInput -> KernelResult NodeOutput -> Prop) : Prop :=
  forall outputs output, calls (nodeInput dag outputs node) (.ok output) ->
    Sha256Node.execute backend (nodeInput dag outputs node) = .ok output

/-- The outputs of a source of some edge into the node are not equal up to the
order of members. -/
def InflowDiffers (dag : Dag P) (node : NodeId) (first second : RunState) : Prop :=
  ∃ edge ∈ dag.edges, edge.to = node ∧ ∃ one other : Value,
    first.outputs[edge.from]? = some one ∧ second.outputs[edge.from]? = some other ∧
      ¬ one.SameUpToOrder other

/-- In every completed run the output of a digest node is the hash of null. -/
theorem sha256_output (wellFormed : dag.WellFormed)
    {calls : NodeInput -> KernelResult NodeOutput -> Prop} {node : NodeId} {state : RunState}
    {hash : String} (declared : node ∈ dag.nodes) (runs : RunsSha256 dag backend node calls)
    (run : Reaches (Step dag backend calls) (start dag) state)
    (completed : state.control = .returned (.ok hash)) :
    state.outputs[node]? = some (Value.string (hashJson backend Value.null)) := by
  have covered := (completed_of_returned wellFormed run completed).2
  rcases (OrderedMap.mem_iff_exists _ _).mp ((covered node).mpr declared) with ⟨value, found⟩
  rcases (Log.reachable wellFormed run).called_of_output found with ⟨output, rfl, called, _⟩
  have executed := Except.ok.inj (runs state.outputs output called)
  rw [found, ← executed]
  rfl

/-- For every accepted graph with a digest node, and every two completed runs
that differ in the output of one of its direct parents: the two digests are
equal, without any assumption about the hash. -/
theorem sha256_ignores_inflow (accepted : dag.Accepted) (backend : HashBackend) {node : NodeId}
    {firstCalls secondCalls : NodeInput -> KernelResult NodeOutput -> Prop}
    (firstRuns : RunsSha256 dag backend node firstCalls)
    (secondRuns : RunsSha256 dag backend node secondCalls) {first second : RunState}
    (firstRun : Reaches (Step dag backend firstCalls) (start dag) first)
    (secondRun : Reaches (Step dag backend secondCalls) (start dag) second)
    {firstHash secondHash : String} (firstCompleted : first.control = .returned (.ok firstHash))
    (secondCompleted : second.control = .returned (.ok secondHash))
    (differs : InflowDiffers dag node first second) :
    ∃ digest : Value, first.outputs[node]? = some digest ∧ second.outputs[node]? = some digest := by
  have wellFormed := accepted.wellFormed
  rcases differs with ⟨edge, member, rfl, _⟩
  have declared := wellFormed.to_declared edge member
  exact ⟨_, sha256_output wellFormed declared firstRuns firstRun firstCompleted,
    sha256_output wellFormed declared secondRuns secondRun secondCompleted⟩

/-! ## A digest that does not move -/

/-- The writer and SHA-256 on the two literals of the example. -/
def literals : HashBackend where
  toVec := fun document => match document with
    | .null => asciiBytes "null"
    | .bool true => asciiBytes "true"
    | _ => []
  digest := fun bytes =>
    if bytes = asciiBytes "null" then
      [116, 35, 78, 152, 175, 231, 73, 143, 181, 218, 241, 243, 106, 194, 215, 138,
        204, 51, 148, 100, 249, 80, 112, 59, 140, 1, 152, 146, 249, 130, 185, 11]
    else if bytes = asciiBytes "true" then
      [181, 190, 164, 27, 108, 98, 63, 124, 9, 241, 191, 36, 220, 174, 88, 235,
        171, 60, 12, 221, 144, 173, 150, 107, 196, 58, 69, 180, 72, 103, 225, 43]
    else []

/-- A constant that feeds a digest node. -/
def hashed (value : Value) : NodeSemantics :=
  fun node _parents =>
    if node = "a" then .ok ⟨value, 1⟩ else .ok ⟨Value.string (hashJson literals Value.null), 5⟩

theorem hashed_runsSha256 (value : Value) :
    RunsSha256 (Dag.pair .always) literals "b" (callsOf (hashed value)) := by
  intro outputs output called
  have same : Except.ok output = hashed value "b" (nodeInput (Dag.pair .always) outputs "b").parents :=
    called
  rw [same]
  rfl

/-- The completed run over the constant and the digest node. -/
def hashedRun (value : Value) : RunState :=
  (start (Dag.pair .always)).drive (Dag.pair .always) literals (hashed value) 20

theorem hashedRun_differs : InflowDiffers (Dag.pair .always) "b" (hashedRun .null)
    (hashedRun (.bool true)) := by
  refine ⟨⟨"a", "b", .always⟩, List.mem_singleton.mpr rfl, rfl, .null, .bool true, by rfl, by rfl, ?_⟩
  intro same
  cases same

/-- The runs on `null` and on `true` give one digest. -/
theorem sha256_ignores_inflow_literals :
    ∃ digest : Value, (hashedRun .null).outputs["b"]? = some digest ∧
      (hashedRun (.bool true)).outputs["b"]? = some digest := by
  have firstCompleted : (hashedRun .null).control =
      .returned (.ok (hashJson literals (Value.ofMap (hashedRun .null).outputs))) := by rfl
  have secondCompleted : (hashedRun (.bool true)).control =
      .returned (.ok (hashJson literals (Value.ofMap (hashedRun (.bool true)).outputs))) := by rfl
  exact sha256_ignores_inflow (Dag.pair_accepted .always) literals (hashed_runsSha256 .null)
    (hashed_runsSha256 (.bool true)) (RunState.drive_reaches _ _ _ 20 _)
    (RunState.drive_reaches _ _ _ 20 _) firstCompleted secondCompleted hashedRun_differs

/-- Two completed runs that feed a digest node values with different hashes,
and get one digest. -/
theorem hashedRun_same_digest :
    literals.Separates .null (.bool true) ∧ InflowDiffers (Dag.pair .always) "b" (hashedRun .null)
      (hashedRun (.bool true)) ∧
    Reaches (Step (Dag.pair .always) literals (callsOf (hashed .null))) (start (Dag.pair .always))
      (hashedRun .null) ∧
    Reaches (Step (Dag.pair .always) literals (callsOf (hashed (.bool true))))
      (start (Dag.pair .always)) (hashedRun (.bool true)) ∧
    RunsSha256 (Dag.pair .always) literals "b" (callsOf (hashed .null)) ∧
    RunsSha256 (Dag.pair .always) literals "b" (callsOf (hashed (.bool true))) ∧
    (∃ first second, (hashedRun .null).control = .returned (.ok first) ∧
      (hashedRun (.bool true)).control = .returned (.ok second)) ∧
    ¬ (hashedRun .null).outputs["b"]? ≠ (hashedRun (.bool true)).outputs["b"]? := by
  refine ⟨⟨?_, ?_⟩, hashedRun_differs, RunState.drive_reaches _ _ _ 20 _,
    RunState.drive_reaches _ _ _ 20 _, hashed_runsSha256 _, hashed_runsSha256 _,
    ⟨_, _, by rfl, by rfl⟩, not_not.mpr (by rfl)⟩
  · exact fun same => absurd same (by decide)
  · exact fun same => absurd same (by decide)

end Nodes
end KernelFlow
