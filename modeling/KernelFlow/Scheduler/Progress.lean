import Mathlib
import KernelFlow.Scheduler.Log

namespace KernelFlow
namespace Scheduler

open Transition

/-!
# Termination and execution safety

Every run returns.  A completed call enlarges the output map, a new batch is
nonempty and lists nodes that no earlier batch lists, and between two such
steps the loops only shorten their lists.  The three quantities decrease
lexicographically.

The second half states what a run guarantees to its nodes: exact counters, at
most one announcement each, and inputs that hold the final output of every
parent.
-/

variable {P : Type} {dag : Dag P} {backend : HashBackend}
  {calls : NodeInput -> KernelResult NodeOutput -> Prop}

/-- The distance of a position from the end of its loop. -/
def Control.phase : Control -> Nat
  | .launching rest => rest.length + 2
  | .unlocking _ rest => rest.length + 2
  | .awaiting => 1
  | .returned _ => 0
  | .panicked => 0

/-- The termination measure. -/
def RunState.remaining (state : RunState) (dag : Dag P) : Nat ×ₗ Nat ×ₗ Nat :=
  toLex (dag.nodes.size - state.outputs.size,
    toLex (dag.nodes.size - state.batches.length, state.control.phase))

theorem RunState.remaining_lt_of_output {before after : RunState}
    (fewer : dag.nodes.size - after.outputs.size < dag.nodes.size - before.outputs.size) :
    after.remaining dag < before.remaining dag :=
  Prod.Lex.toLex_lt_toLex.mpr (Or.inl fewer)

theorem RunState.remaining_lt_of_batch {before after : RunState}
    (outputs : after.outputs = before.outputs)
    (fewer : dag.nodes.size - after.batches.length < dag.nodes.size - before.batches.length) :
    after.remaining dag < before.remaining dag :=
  Prod.Lex.toLex_lt_toLex.mpr
    (Or.inr ⟨by rw [outputs], Prod.Lex.toLex_lt_toLex.mpr (Or.inl fewer)⟩)

theorem RunState.remaining_lt_of_phase {before after : RunState}
    (outputs : after.outputs = before.outputs) (batches : after.batches = before.batches)
    (fewer : after.control.phase < before.control.phase) :
    after.remaining dag < before.remaining dag :=
  Prod.Lex.toLex_lt_toLex.mpr (Or.inr ⟨by rw [outputs],
    Prod.Lex.toLex_lt_toLex.mpr (Or.inr ⟨by rw [batches], fewer⟩)⟩)

namespace Invariant

variable {state : RunState}

theorem outputs_size_le (invariant : Invariant dag state) :
    state.outputs.size ≤ dag.nodes.size := by
  rw [← Std.ExtTreeMap.length_keys, ← Std.ExtTreeMap.length_keys]
  apply ((Std.ExtTreeMap.nodup_keys (t := state.outputs)).subperm _).length_le
  intro node member
  exact Std.ExtTreeMap.mem_keys.mpr (invariant.declared_of_seen
    (invariant.seen_of_output (Std.ExtTreeMap.mem_keys.mp member)))

/-- The batches are nonempty and list no node twice. -/
theorem batches_length_le (invariant : Invariant dag state) :
    state.batches.length ≤ dag.nodes.size := by
  have listed : state.batches.flatten.length ≤ dag.nodes.size := by
    rw [← Std.ExtTreeMap.length_keys, invariant.batches_flatten]
    apply ((List.nodup_append.mp invariant.counts.nodup).1.subperm _).length_le
    intro node member
    exact Std.ExtTreeMap.mem_keys.mpr
      (invariant.declared_of_seen (List.mem_append_left _ member))
  have each : forall (batches : List (List NodeId)),
      (forall batch, batch ∈ batches -> batch ≠ []) -> batches.length ≤ batches.flatten.length := by
    intro batches
    induction batches with
    | nil => exact fun _ => Nat.le_refl _
    | cons batch rest inductionHypothesis =>
        intro nonempty
        have first := List.length_pos_iff.mpr (nonempty batch List.mem_cons_self)
        have others := inductionHypothesis fun batch member =>
          nonempty batch (List.mem_cons_of_mem _ member)
        rw [List.flatten_cons, List.length_append, List.length_cons]
        omega
  exact Nat.le_trans (each _ invariant.batches_nonempty) listed

/-- Every step lowers the measure. -/
theorem remaining_lt (wellFormed : dag.WellFormed) {before after : RunState}
    (invariant : Invariant dag before) (step : Step dag backend calls before after) :
    after.remaining dag < before.remaining dag := by
  have kept := invariant.step wellFormed step
  cases step.move with
  | launch node rest control =>
      unfold RunState.launch
      split
      · exact RunState.remaining_lt_of_phase rfl rfl (by rw [control]; exact Nat.lt_succ_self _)
      · exact RunState.remaining_lt_of_phase rfl rfl (by rw [control]; exact Nat.succ_pos _)
  | launched control =>
      exact RunState.remaining_lt_of_phase rfl rfl (by rw [control]; exact Nat.lt_succ_self _)
  | beginBatch control _idle _nonempty =>
      refine RunState.remaining_lt_of_batch rfl ?_
      have bound := kept.batches_length_le
      have grown : before.beginBatch.batches.length = before.batches.length + 1 :=
        List.length_append
      omega
  | finish control =>
      unfold RunState.finish
      split
      · exact RunState.remaining_lt_of_phase rfl rfl (by rw [control]; exact Nat.succ_pos _)
      · exact RunState.remaining_lt_of_phase rfl rfl (by rw [control]; exact Nat.succ_pos _)
  | unlock node edge rest control =>
      rcases before.unlock_frame node edge rest with ⟨indeg, ready, position, same, either, _⟩
      rw [same]
      refine RunState.remaining_lt_of_phase rfl rfl ?_
      rw [control]
      rcases either with rfl | rfl
      · exact Nat.lt_succ_self _
      · exact Nat.succ_pos _
  | unlocked node control =>
      exact RunState.remaining_lt_of_phase rfl rfl (by rw [control]; exact Nat.lt_succ_self _)
  | succeed position input output control found =>
      apply RunState.remaining_lt_of_output
      have fresh := invariant.inflight_fresh input (List.mem_of_getElem? found)
      have bound := kept.outputs_size_le
      have grown : (before.deliver dag backend position input (.ok output)).outputs.size =
          before.outputs.size + 1 :=
        Std.ExtTreeMap.size_insert.trans (if_neg fresh)
      omega
  | fail position input error control =>
      exact RunState.remaining_lt_of_phase rfl rfl (by rw [control]; exact Nat.succ_pos _)

/-- As long as calls are answered, a run that has not returned can go on. -/
theorem progress (invariant : Invariant dag state)
    (answers : forall input, ∃ result, calls input result)
    (running : ¬ ∃ result, state.control = .returned result) :
    ∃ next, Step dag backend calls state next := by
  cases control : state.control with
  | launching rest =>
      cases rest with
      | nil => exact ⟨_, Or.inl (by rw [RunState.advance, control])⟩
      | cons node rest => exact ⟨_, Or.inl (by rw [RunState.advance, control])⟩
  | awaiting =>
      cases inflight : state.inflight with
      | nil => exact ⟨_, Or.inl (by simp only [RunState.advance, control]; exact if_pos inflight)⟩
      | cons input rest =>
          rcases answers input with ⟨result, called⟩
          exact ⟨_, Or.inr ⟨0, input, result, control, by rw [inflight]; rfl, called, rfl⟩⟩
  | unlocking node rest =>
      cases rest with
      | nil => exact ⟨_, Or.inl (by rw [RunState.advance, control])⟩
      | cons edge rest => exact ⟨_, Or.inl (by rw [RunState.advance, control])⟩
  | returned result => exact absurd ⟨result, control⟩ running
  | panicked => exact absurd control invariant.running

end Invariant

/-- Every maximal run returns. -/
theorem returns (wellFormed : dag.WellFormed)
    (answers : forall input, ∃ result, calls input result) :
    Inevitably (Step dag backend calls) (fun state => ∃ result, state.control = .returned result)
      (start dag) :=
  Inevitably.of_measure (fun state => state.remaining dag)
    (fun _before _after invariant step => Invariant.step wellFormed invariant step)
    (fun _state invariant running => invariant.progress answers running)
    (fun _before _after invariant step => invariant.remaining_lt wellFormed step)
    (start dag) (Invariant.start wellFormed)

/-! ## Final outputs -/

/-- A deterministic step keeps the outputs, puts at most one drained node in
flight and only appends to the log. -/
theorem RunState.advance_frame {state after : RunState}
    (advanced : state.advance dag backend = some after) :
    after.outputs = state.outputs ∧
    (after.inflight = state.inflight ∨ ∃ node ∈ launchQueue state.control,
      after.inflight = state.inflight ++ [nodeInput dag state.outputs node]) ∧
    ∃ events, after.events = state.events ++ events := by
  cases control : state.control with
  | launching rest =>
      cases rest with
      | nil =>
          simp only [RunState.advance, control, Option.some.injEq] at advanced
          exact advanced ▸ ⟨rfl, Or.inl rfl, [], (List.append_nil _).symm⟩
      | cons node rest =>
          simp only [RunState.advance, control, Option.some.injEq, RunState.launch] at advanced
          split at advanced
          · exact advanced ▸ ⟨rfl, Or.inr ⟨node, List.mem_cons_self, rfl⟩, _, rfl⟩
          · exact advanced ▸ ⟨rfl, Or.inl rfl, [], (List.append_nil _).symm⟩
  | awaiting =>
      simp only [RunState.advance, control] at advanced
      split at advanced
      · split at advanced
        · rw [Option.some.injEq, RunState.finish] at advanced
          split at advanced
          · exact advanced ▸ ⟨rfl, Or.inl rfl, [], (List.append_nil _).symm⟩
          · exact advanced ▸ ⟨rfl, Or.inl rfl, _, rfl⟩
        · rw [Option.some.injEq] at advanced
          exact advanced ▸ ⟨rfl, Or.inl rfl, [], (List.append_nil _).symm⟩
      · cases advanced
  | unlocking node rest =>
      cases rest with
      | nil =>
          simp only [RunState.advance, control, Option.some.injEq] at advanced
          exact advanced ▸ ⟨rfl, Or.inl rfl, [], (List.append_nil _).symm⟩
      | cons edge rest =>
          simp only [RunState.advance, control, Option.some.injEq] at advanced
          rcases state.unlock_frame node edge rest with ⟨indeg, ready, position, same, _⟩
          rw [same] at advanced
          exact advanced ▸ ⟨rfl, Or.inl rfl, [], (List.append_nil _).symm⟩
  | returned result =>
      simp only [RunState.advance, control] at advanced
      cases advanced
  | panicked =>
      simp only [RunState.advance, control] at advanced
      cases advanced

/-- A step never changes an output that is already there. -/
theorem Invariant.output_kept {before after : RunState} (invariant : Invariant dag before)
    (step : Step dag backend calls before after) {node : NodeId} {value : Value}
    (found : before.outputs[node]? = some value) : after.outputs[node]? = some value := by
  cases step.move with
  | launch next rest control =>
      unfold RunState.launch
      split
      · exact found
      · exact found
  | launched => exact found
  | beginBatch => exact found
  | finish =>
      unfold RunState.finish
      split
      · exact found
      · exact found
  | unlock source edge rest =>
      rcases before.unlock_frame source edge rest with ⟨indeg, ready, position, same, _⟩
      rw [same]
      exact found
  | unlocked => exact found
  | succeed position input output control inflight =>
      have fresh := invariant.inflight_fresh input (List.mem_of_getElem? inflight)
      have different : input.nodeId ≠ node := fun same =>
        fresh (same ▸ OrderedMap.mem_of_getElem?_eq_some found)
      change (before.outputs.insert _ _)[node]? = some value
      rw [OrderedMap.getElem?_insert_eq, if_neg different, found]
  | fail => exact found

/-- No later state of the run does either. -/
theorem Invariant.output_final (wellFormed : dag.WellFormed) {before after : RunState}
    (invariant : Invariant dag before) (run : Reaches (Step dag backend calls) before after)
    {node : NodeId} {value : Value} (found : before.outputs[node]? = some value) :
    after.outputs[node]? = some value := by
  have both : Invariant dag after ∧ after.outputs[node]? = some value := by
    induction run with
    | refl => exact ⟨invariant, found⟩
    | tail _earlier step inductionHypothesis =>
        exact ⟨inductionHypothesis.1.step wellFormed step,
          inductionHypothesis.1.output_kept step inductionHypothesis.2⟩
  exact both.2

/-- The parent map of a node whose sources have all completed. -/
theorem getElem?_parentOutputs (outputs : BTreeMap NodeId Value) (node parent : NodeId) :
    (parentOutputs dag outputs node)[parent]? =
      if ∃ edge ∈ dag.edges, edge.to = node ∧ edge.from = parent then outputs[parent]?
      else none := by
  rw [parentOutputs, OrderedMap.getElem?_ofList_filterMap (dag.parents node) Edge.from
    (fun source => outputs[source]?)]
  congr 1
  simp only [List.mem_map, Dag.mem_parents, and_assoc]

/-! ## The contract of a run -/

/-- What holds in every reachable state. -/
structure Safe (dag : Dag P) (step : RunState -> RunState -> Prop) (state : RunState) : Prop where
  /-- no unwrap and no decrement has failed -/
  running : state.control ≠ .panicked
  counters : forall node, node ∈ dag.nodes -> state.indeg[node]? = some (state.unfired dag node)
  started_once : (startedNodes state.events).Nodup
  started_enabled : forall node, node ∈ startedNodes state.events ->
    forall edge, edge ∈ dag.edges -> edge.to = node ->
      ∃ value, state.outputs[edge.from]? = some value ∧ edge.condition.evaluate value = true
  input_keys : forall input, input ∈ state.inflight -> forall parent,
    parent ∈ input.parents ↔ ∃ edge ∈ dag.edges, edge.to = input.nodeId ∧ edge.from = parent
  /-- an output in an input is the output of that parent from here on -/
  input_values : forall input, input ∈ state.inflight -> forall (parent : NodeId) (value : Value),
    input.parents[parent]? = some value -> forall later, Reaches step state later ->
      later.outputs[parent]? = some value
  log_order : forall earlier workflow node attempt later,
    state.events = earlier ++ .nodeStarted workflow node attempt :: later ->
    forall edge, edge ∈ dag.edges -> edge.to = node ->
      ∃ hash gas, (edge.from, .success hash gas) ∈ completions earlier
  batches : state.batches.length ≤ dag.nodes.size

/-- For every accepted graph, all results of the calls and all completion
orders: each reachable state is safe, and every run returns. -/
theorem run_safe (accepted : dag.Accepted) :
    (forall state, Reaches (Step dag backend anyResult) (start dag) state ->
      Safe dag (Step dag backend anyResult) state) ∧
    Inevitably (Step dag backend anyResult)
      (fun state => ∃ result, state.control = .returned result) (start dag) := by
  have wellFormed := accepted.wellFormed
  refine ⟨fun state run => ?_, returns wellFormed fun _input => ⟨.error .rateLimited, trivial⟩⟩
  have invariant := Invariant.reachable wellFormed run
  have log := Log.reachable wellFormed run
  have sources : forall input, input ∈ state.inflight -> forall edge, edge ∈ dag.edges ->
      edge.to = input.nodeId -> ∃ value, state.outputs[edge.from]? = some value := by
    intro input inflight edge member target
    rcases enabled_iff.mp (invariant.enabled_of_seen (invariant.seen_of_inflight inflight)
      member target) with ⟨value, found, _⟩
    exact ⟨value, found⟩
  have lookup : forall input, input ∈ state.inflight -> forall parent,
      input.parents[parent]? =
        if ∃ edge ∈ dag.edges, edge.to = input.nodeId ∧ edge.from = parent
        then state.outputs[parent]? else none := by
    intro input inflight parent
    rw [invariant.inflight_input input inflight]
    exact getElem?_parentOutputs state.outputs input.nodeId parent
  exact {
    running := invariant.running
    counters := fun node declared =>
      invariant.counts.exact_count node ((invariant.keys node).mpr declared)
    started_once := (List.nodup_append.mp (List.nodup_append.mp invariant.counts.nodup).1).1
    started_enabled := fun node started edge member target =>
      enabled_iff.mp (invariant.enabled_of_seen (Invariant.seen_of_started started) member target)
    input_keys := by
      intro input inflight parent
      rw [OrderedMap.mem_iff_exists]
      constructor
      · rintro ⟨value, found⟩
        by_contra absent
        rw [lookup input inflight, if_neg absent] at found
        cases found
      · rintro ⟨edge, member, target, rfl⟩
        rcases sources input inflight edge member target with ⟨value, found⟩
        exact ⟨value, by rw [lookup input inflight, if_pos ⟨edge, member, target, rfl⟩, found]⟩
    input_values := by
      intro input inflight parent value found later continued
      apply invariant.output_final wellFormed continued
      rw [lookup input inflight] at found
      split at found
      · exact found
      · cases found
    log_order := fun earlier _workflow node _attempt later split edge member target =>
      log.justified earlier _ later split edge member target
    batches := invariant.batches_length_le }

theorem run_safe_pair :
    (forall state, Reaches (Step (Dag.pair .always) .sample anyResult) (start (Dag.pair .always))
        state ->
      Safe (Dag.pair .always) (Step (Dag.pair .always) .sample anyResult) state) ∧
    Inevitably (Step (Dag.pair .always) .sample anyResult)
      (fun state => ∃ result, state.control = .returned result) (start (Dag.pair .always)) :=
  run_safe (Dag.pair_accepted .always)

end Scheduler
end KernelFlow
