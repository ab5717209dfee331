import Mathlib
import KernelFlow.Scheduler.Invariant

namespace KernelFlow
namespace Scheduler

open Transition

/-!
# The event log

The log records a run faithfully: every completion stands for a call that
returned the recorded value, after the announcement of its node, and every
announcement stands after the completions that its in-edges need.  The log of a
run that has not returned is the start event followed by node events.  A return
happens at one of three places, and only two of them add a last event.
-/

variable {P : Type} {dag : Dag P} {backend : HashBackend}
  {calls : NodeInput -> KernelResult NodeOutput -> Prop}

/-- An event about a node of the workflow. -/
def IsNodeEvent (dag : Dag P) : KernelEvent -> Prop
  | .nodeStarted workflow node _ => workflow = dag.id ∧ node ∈ dag.nodes
  | .nodeCompleted workflow node _ => workflow = dag.id ∧ node ∈ dag.nodes
  | _ => False

/-- The three places where `run` returns, with the result and the last events. -/
inductive Exit (dag : Dag P) (backend : HashBackend)
    (calls : NodeInput -> KernelResult NodeOutput -> Prop) (state : RunState) :
    KernelResult String -> List KernelEvent -> Prop
  | completed (idle : state.inflight = []) (drained : state.ready = [])
      (all : state.outputs.size = dag.nodes.size) :
      Exit dag backend calls state (.ok (hashJson backend (Value.ofMap state.outputs)))
        [.workflowCompleted dag.id (hashJson backend (Value.ofMap state.outputs))]
  | unreached (idle : state.inflight = []) (drained : state.ready = [])
      (missing : state.outputs.size ≠ dag.nodes.size) :
      Exit dag backend calls state (.error (.invalidInput "not all nodes were reached")) []
  | failed (input : NodeInput) (error : KernelError) (inflight : input ∈ state.inflight)
      (called : calls input (.error error)) :
      Exit dag backend calls state (.error error) [.workflowFailed dag.id error.display]

/-- What must stand before an event. -/
def Justified (dag : Dag P) (earlier : List KernelEvent) : KernelEvent -> Prop
  | .nodeStarted _ node _ => forall edge, edge ∈ dag.edges -> edge.to = node ->
      ∃ hash gas, (edge.from, .success hash gas) ∈ completions earlier
  | .nodeCompleted _ node _ => node ∈ startedNodes earlier
  | _ => True

/-- The call of the node on its final input returned the output, and the
outcome describes that output. -/
def Answered (dag : Dag P) (backend : HashBackend)
    (calls : NodeInput -> KernelResult NodeOutput -> Prop) (outputs : BTreeMap NodeId Value)
    (node : NodeId) (outcome : NodeOutcome) : Prop :=
  ∃ output : NodeOutput, outputs[node]? = some output.value ∧
    calls (nodeInput dag outputs node) (.ok output) ∧
    outcome = .success (hashJson backend output.value) output.gasUsed

structure Log (dag : Dag P) (backend : HashBackend)
    (calls : NodeInput -> KernelResult NodeOutput -> Prop) (state : RunState) : Prop where
  completions_nodup : ((completions state.events).map Prod.fst).Nodup
  completions_iff : forall node,
    node ∈ (completions state.events).map Prod.fst ↔ node ∈ state.outputs
  answered : forall node outcome, (node, outcome) ∈ completions state.events ->
    Answered dag backend calls state.outputs node outcome
  justified : forall earlier event later, state.events = earlier ++ event :: later ->
    Justified dag earlier event
  shape : ∃ body terminal,
    state.events = .workflowStarted dag.id dag.name :: body ++ terminal ∧
    (forall event, event ∈ body -> IsNodeEvent dag event) ∧
    (forall result, state.control = .returned result ->
      Exit dag backend calls state result terminal) ∧
    ((forall result, state.control ≠ .returned result) -> terminal = [])

/-- A log property of an event and its predecessors survives an append if the
new event has it. -/
private theorem justified_append {events : List KernelEvent} {event : KernelEvent}
    (justified : forall earlier event later, events = earlier ++ event :: later ->
      Justified dag earlier event)
    (last : Justified dag events event) (earlier : List KernelEvent) (other : KernelEvent)
    (later : List KernelEvent) (split : events ++ [event] = earlier ++ other :: later) :
    Justified dag earlier other := by
  rcases List.eq_nil_or_concat later with rfl | ⟨init, final, rfl⟩
  · have parts := List.append_inj' split rfl
    have same : event = other := by simpa using parts.2
    exact parts.1 ▸ same ▸ last
  · rw [List.concat_eq_append, ← List.cons_append, ← List.append_assoc] at split
    exact justified earlier other init (List.append_inj' split rfl).1

namespace Log

variable {state : RunState}

/-- While the run is going on, the log consists of the start event and node
events. -/
theorem ongoing (log : Log dag backend calls state)
    (running : forall result, state.control ≠ .returned result) :
    ∃ body, state.events = .workflowStarted dag.id dag.name :: body ∧
      forall event, event ∈ body -> IsNodeEvent dag event := by
  rcases log.shape with ⟨body, terminal, events, node, _returned, open_⟩
  rw [open_ running, List.append_nil] at events
  exact ⟨body, events, node⟩

/-- After a return the exit is on record. -/
theorem exit (log : Log dag backend calls state) {result : KernelResult String}
    (control : state.control = .returned result) :
    ∃ body terminal,
      state.events = .workflowStarted dag.id dag.name :: body ++ terminal ∧
      (forall event, event ∈ body -> IsNodeEvent dag event) ∧
      Exit dag backend calls state result terminal := by
  rcases log.shape with ⟨body, terminal, events, node, returned, _open⟩
  exact ⟨body, terminal, events, node, returned result control⟩

/-- An output was returned by the call of its node on its final input. -/
theorem called_of_output (log : Log dag backend calls state) {node : NodeId} {value : Value}
    (found : state.outputs[node]? = some value) :
    ∃ output : NodeOutput, output.value = value ∧
      calls (nodeInput dag state.outputs node) (.ok output) ∧
      (node, .success (hashJson backend output.value) output.gasUsed) ∈
        completions state.events := by
  have listed := (log.completions_iff node).mpr (OrderedMap.mem_of_getElem?_eq_some found)
  rcases List.mem_map.mp listed with ⟨⟨_, outcome⟩, member, rfl⟩
  rcases log.answered _ outcome member with ⟨output, output_found, called, rfl⟩
  rw [output_found, Option.some.injEq] at found
  exact ⟨output, found, called, member⟩

/-- A node event extends the body of an ongoing log. -/
private theorem body_append (log : Log dag backend calls state)
    (before : forall result, state.control ≠ .returned result) {event : KernelEvent}
    (concerns : IsNodeEvent dag event) :
    ∃ body, state.events ++ [event] = .workflowStarted dag.id dag.name :: body ++ [] ∧
      forall event, event ∈ body -> IsNodeEvent dag event := by
  rcases log.ongoing before with ⟨body, events, inside⟩
  refine ⟨body ++ [event], ?_, ?_⟩
  · rw [events, List.append_nil]
    rfl
  · intro other member
    rcases List.mem_append.mp member with old | new
    · exact inside other old
    · rw [List.mem_singleton.mp new]
      exact concerns

/-- The completion of a node that has no output yet is its first. -/
private theorem completions_nodup_append (log : Log dag backend calls state) {node : NodeId}
    (fresh : node ∉ state.outputs) (outcome : NodeOutcome) :
    ((completions state.events ++ [(node, outcome)]).map Prod.fst).Nodup := by
  rw [List.map_append]
  refine List.nodup_append.mpr ⟨log.completions_nodup, List.nodup_singleton _, ?_⟩
  intro first inside second only same
  rw [List.mem_singleton.mp only] at same
  rw [same] at inside
  exact fresh ((log.completions_iff _).mp inside)

/-- A new output leaves the earlier completions answered: no input that has been
collected depends on it. -/
private theorem answered_insert (log : Log dag backend calls state) (invariant : Invariant dag state)
    {node : NodeId} (fresh : node ∉ state.outputs) (value : Value) {other : NodeId}
    {outcome : NodeOutcome} (listed : (other, outcome) ∈ completions state.events) :
    Answered dag backend calls (state.outputs.insert node value) other outcome := by
  rcases log.answered other outcome listed with ⟨earlier, stored, answer, described⟩
  have present := OrderedMap.mem_of_getElem?_eq_some stored
  have different : node ≠ other := fun same => fresh (same ▸ present)
  refine ⟨earlier, ?_, ?_, described⟩
  · rw [OrderedMap.getElem?_insert_eq, if_neg different, stored]
  · rw [invariant.nodeInput_insert fresh value (invariant.seen_of_output present)]
    exact answer

/-! ## One step each -/

/-- Steps that emit nothing and do not return. -/
private theorem silent (log : Log dag backend calls state) {after : RunState}
    (events : after.events = state.events) (outputs : after.outputs = state.outputs)
    (before : forall result, state.control ≠ .returned result)
    (running : forall result, after.control ≠ .returned result) :
    Log dag backend calls after where
  completions_nodup := events ▸ log.completions_nodup
  completions_iff := events ▸ outputs ▸ log.completions_iff
  answered := events ▸ outputs ▸ log.answered
  justified := events ▸ log.justified
  shape := by
    rcases log.ongoing before with ⟨body, same, node⟩
    exact ⟨body, [], by rw [events, same, List.append_nil], node,
      fun result control => absurd control (running result), fun _ => rfl⟩

theorem launch (log : Log dag backend calls state) (invariant : Invariant dag state)
    {node : NodeId} {rest : List NodeId} (control : state.control = .launching (node :: rest)) :
    Log dag backend calls (state.launch dag node rest) := by
  have seen : node ∈ state.seen := by
    rw [RunState.seen, control]
    exact List.mem_append_left _ (List.mem_append_right _ List.mem_cons_self)
  have declared := invariant.declared_of_seen seen
  have completed : completions (state.events ++ [.nodeStarted dag.id node 1]) =
      completions state.events := by
    rw [completions_append]
    exact List.append_nil _
  rw [RunState.launch, if_pos declared]
  exact {
    completions_nodup := completed ▸ log.completions_nodup
    completions_iff := completed ▸ log.completions_iff
    answered := completed ▸ log.answered
    justified := by
      apply justified_append log.justified
      intro edge member target
      rcases enabled_iff.mp (invariant.enabled_of_seen seen member target) with ⟨value, found, _⟩
      rcases log.called_of_output found with ⟨output, _same, _called, listed⟩
      exact ⟨_, _, listed⟩
    shape := by
      have concerns : IsNodeEvent dag (.nodeStarted dag.id node 1) := ⟨rfl, declared⟩
      rcases log.body_append (by rw [control]; intro _ impossible; cases impossible) concerns with
        ⟨body, events, inside⟩
      exact ⟨body, [], events, inside, fun _ impossible => (by cases impossible), fun _ => rfl⟩ }

theorem unlock (log : Log dag backend calls state) {node : NodeId} {edge : Edge}
    {rest : List Edge} (control : state.control = .unlocking node (edge :: rest)) :
    Log dag backend calls (state.unlock node edge rest) := by
  rcases state.unlock_frame node edge rest with ⟨indeg, ready, position, same, either, _⟩
  rw [same]
  refine log.silent rfl rfl (by rw [control]; intro _ impossible; cases impossible) ?_
  rcases either with rfl | rfl
  · exact fun _ impossible => by cases impossible
  · exact fun _ impossible => by cases impossible

theorem succeed (log : Log dag backend calls state) (invariant : Invariant dag state)
    {position : Nat} {input : NodeInput} (control : state.control = .awaiting)
    (found : state.inflight[position]? = some input) {output : NodeOutput}
    (called : calls input (.ok output)) :
    Log dag backend calls (state.deliver dag backend position input (.ok output)) := by
  have member : input ∈ state.inflight := List.mem_of_getElem? found
  have fresh := invariant.inflight_fresh input member
  have completed : completions (state.events ++ [.nodeCompleted dag.id input.nodeId
      (.success (hashJson backend output.value) output.gasUsed)]) =
      completions state.events ++
        [(input.nodeId, .success (hashJson backend output.value) output.gasUsed)] :=
    completions_append _ _
  have declared := invariant.declared_of_seen (invariant.seen_of_inflight member)
  exact {
    completions_nodup := by
      change ((completions (_ ++ [_])).map Prod.fst).Nodup
      rw [completed]
      exact log.completions_nodup_append fresh _
    completions_iff := by
      intro node
      change node ∈ (completions (_ ++ [_])).map Prod.fst ↔ node ∈ state.outputs.insert _ _
      rw [completed, List.map_append, List.mem_append, log.completions_iff,
        OrderedMap.mem_insert_eq, or_comm, eq_comm (a := input.nodeId)]
      exact or_congr_left List.mem_singleton
    answered := by
      intro node outcome listed
      change (node, outcome) ∈ completions (_ ++ [_]) at listed
      rw [completed] at listed
      change Answered dag backend calls (state.outputs.insert _ _) node outcome
      rcases List.mem_append.mp listed with old | new
      · exact log.answered_insert invariant fresh _ old
      · cases List.mem_singleton.mp new
        refine ⟨output, ?_, ?_, rfl⟩
        · rw [OrderedMap.getElem?_insert_eq, if_pos rfl]
        · rw [invariant.nodeInput_insert fresh _ (invariant.seen_of_inflight member),
            ← invariant.inflight_input input member]
          exact called
    justified := justified_append log.justified
      ((invariant.started_iff input.nodeId).mpr (Or.inr (List.mem_map_of_mem member)))
    shape := by
      have concerns : IsNodeEvent dag (.nodeCompleted dag.id input.nodeId
          (.success (hashJson backend output.value) output.gasUsed)) := ⟨rfl, declared⟩
      rcases log.body_append (by rw [control]; intro _ impossible; cases impossible) concerns with
        ⟨body, events, inside⟩
      exact ⟨body, [], events, inside, fun _ impossible => (by cases impossible), fun _ => rfl⟩ }

/-- Returning with last events that concern no node. -/
private theorem returned (log : Log dag backend calls state) (control : state.control = .awaiting)
    {result : KernelResult String} {terminal : List KernelEvent}
    (exit : Exit dag backend calls state result terminal)
    (short : terminal = [] ∨ ∃ event, terminal = [event] ∧ completions [event] = [] ∧
      forall earlier, Justified dag earlier event) :
    Log dag backend calls { state with
      events := state.events ++ terminal, control := .returned result } := by
  have completed : completions (state.events ++ terminal) = completions state.events := by
    rw [completions_append]
    rcases short with rfl | ⟨event, rfl, none, _⟩
    · exact List.append_nil _
    · rw [none, List.append_nil]
  exact {
    completions_nodup := completed ▸ log.completions_nodup
    completions_iff := completed ▸ log.completions_iff
    answered := completed ▸ log.answered
    justified := by
      rcases short with rfl | ⟨event, rfl, _none, justified⟩
      · change forall earlier event later, state.events ++ [] = _ -> _
        rw [List.append_nil]
        exact log.justified
      · exact justified_append log.justified (justified _)
    shape := by
      rcases log.ongoing (by rw [control]; intro _ impossible; cases impossible) with
        ⟨body, events, inside⟩
      refine ⟨body, terminal, ?_, inside, ?_, fun open_ => absurd rfl (open_ result)⟩
      · change state.events ++ terminal = _
        rw [events]
      · intro other same
        cases same
        cases exit with
        | completed idle drained all => exact .completed idle drained all
        | unreached idle drained missing => exact .unreached idle drained missing
        | failed input error inflight called => exact .failed input error inflight called }

theorem finish (log : Log dag backend calls state) (control : state.control = .awaiting)
    (idle : state.inflight = []) (drained : state.ready = []) :
    Log dag backend calls (state.finish dag backend) := by
  unfold RunState.finish
  by_cases missing : state.outputs.size ≠ dag.nodes.size
  · rw [if_pos missing]
    have kept := log.returned control (.unreached idle drained missing) (Or.inl rfl)
    rw [List.append_nil] at kept
    exact kept
  · rw [if_neg missing]
    exact log.returned control (.completed idle drained (not_not.mp missing))
      (Or.inr ⟨_, rfl, rfl, fun _ => trivial⟩)

theorem fail (log : Log dag backend calls state) {position : Nat} {input : NodeInput}
    {error : KernelError} (control : state.control = .awaiting)
    (found : state.inflight[position]? = some input) (called : calls input (.error error)) :
    Log dag backend calls (state.deliver dag backend position input (.error error)) :=
  log.returned control (.failed input error (List.mem_of_getElem? found) called)
    (Or.inr ⟨_, rfl, rfl, fun _ => trivial⟩)

/-! ## Whole runs -/

theorem start (wellFormed : dag.WellFormed) : Log dag backend calls (start dag) := by
  rw [start_eq wellFormed]
  exact {
    completions_nodup := List.nodup_nil
    completions_iff := by
      intro node
      simp [completions]
    answered := fun _node _outcome absent => nomatch absent
    justified := by
      intro earlier event later split
      rcases List.singleton_eq_append_iff.mp split with ⟨_, same⟩ | ⟨_, absent⟩
      · cases same
        exact trivial
      · cases absent
    shape := ⟨[], [], rfl, fun _event absent => (nomatch absent),
      fun _ impossible => (by cases impossible), fun _ => rfl⟩ }

theorem step (log : Log dag backend calls state) (invariant : Invariant dag state)
    {after : RunState} (step : Step dag backend calls state after) :
    Log dag backend calls after := by
  cases step.move with
  | launch node rest control => exact log.launch invariant control
  | launched control =>
      exact log.silent rfl rfl (by rw [control]; intro _ impossible; cases impossible)
        fun _ impossible => nomatch impossible
  | beginBatch control _idle _nonempty =>
      exact log.silent rfl rfl (by rw [control]; intro _ impossible; cases impossible)
        fun _ impossible => nomatch impossible
  | finish control idle drained => exact log.finish control idle drained
  | unlock node edge rest control => exact log.unlock control
  | unlocked node control =>
      exact log.silent rfl rfl (by rw [control]; intro _ impossible; cases impossible)
        fun _ impossible => nomatch impossible
  | succeed position input output control found called =>
      exact log.succeed invariant control found called
  | fail position input error control found called => exact log.fail control found called

theorem reachable (wellFormed : dag.WellFormed)
    (run : Reaches (Step dag backend calls) (Scheduler.start dag) state) :
    Log dag backend calls state := by
  have both : Invariant dag state ∧ Log dag backend calls state := by
    induction run with
    | refl => exact ⟨.start wellFormed, start wellFormed⟩
    | tail _earlier step inductionHypothesis =>
        exact ⟨inductionHypothesis.1.step wellFormed step,
          inductionHypothesis.2.step inductionHypothesis.1 step⟩
  exact both.2

end Log

/-- A run that returns `Ok` has an output for every node and returns the hash of
the output map. -/
theorem completed_of_returned (wellFormed : dag.WellFormed) {state : RunState}
    (run : Reaches (Step dag backend calls) (start dag) state) {hash : String}
    (control : state.control = .returned (.ok hash)) :
    hash = hashJson backend (Value.ofMap state.outputs) ∧
      forall node, node ∈ state.outputs ↔ node ∈ dag.nodes := by
  have invariant := Invariant.reachable wellFormed run
  have declared : forall node, node ∈ state.outputs -> node ∈ dag.nodes := fun node output =>
    invariant.declared_of_seen (invariant.seen_of_output output)
  rcases (Log.reachable wellFormed run).exit control with ⟨_body, _terminal, _events, _in, exit⟩
  cases exit with
  | completed _idle _ready all =>
      have covered := (OrderedMap.size_eq_iff_of_subset declared).mp all
      exact ⟨rfl, fun node => ⟨declared node, covered node⟩⟩

end Scheduler
end KernelFlow
