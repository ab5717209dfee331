import Mathlib
import KernelFlow.Scheduler.Agreement

namespace KernelFlow
namespace Scheduler

open Transition

/-!
# What the log says about a finished run

Observers of a run only see its events.  Two things would let them reconstruct
the outcome: a last event that says how the run ended, and a completion for
every node.  The source promises both and keeps the first one only when some
reached node fails or all nodes are reached, and the second one only when all
nodes are reached and succeed.  Each condition is stated on the graph and the
node semantics through the reference evaluation.
-/

variable {P : Type} {dag : Dag P} {backend : HashBackend} {sem : NodeSemantics}

/-! ## Arbitrary results are a node semantics -/

/-- Nothing happens after the return. -/
theorem Step.running {calls : NodeInput -> KernelResult NodeOutput -> Prop}
    {before after : RunState} (step : Step dag backend calls before after)
    (result : KernelResult String) : before.control ≠ .returned result := by
  intro control
  rcases step with advanced | ⟨_, _, _, awaiting, _⟩
  · rw [RunState.advance, control] at advanced
    cases advanced
  · rw [control] at awaiting
    cases awaiting

/-- Every semantics that agrees on the nodes with an output reaches the state. -/
private def Determined (dag : Dag P) (backend : HashBackend) (sem : NodeSemantics)
    (state : RunState) : Prop :=
  forall other : NodeSemantics, (forall node, node ∈ state.outputs -> other node = sem node) ->
    Reaches (Step dag backend (callsOf other)) (start dag) state

private theorem Determined.advance {before after : RunState} (invariant : Invariant dag before)
    (determined : Determined dag backend sem before)
    (advanced : before.advance dag backend = some after) : Determined dag backend sem after := by
  intro other same
  refine (determined other ?_).tail (Or.inl advanced)
  intro node member
  rcases (OrderedMap.mem_iff_exists _ _).mp member with ⟨value, stored⟩
  have step : Step dag backend anyResult before after := Or.inl advanced
  exact same node (OrderedMap.mem_of_getElem?_eq_some (invariant.output_kept step stored))

/-- A delivered result settles the semantics of its node. -/
private theorem Determined.deliver {before : RunState}
    (determined : Determined dag backend sem before) {position : Nat} {input : NodeInput}
    (control : before.control = .awaiting) (found : before.inflight[position]? = some input)
    (result : KernelResult NodeOutput) {other : NodeSemantics}
    (same : forall node, node ∈ before.outputs -> other node = sem node)
    (here : other input.nodeId input.parents = result) :
    Reaches (Step dag backend (callsOf other)) (start dag)
      (before.deliver dag backend position input result) :=
  (determined other same).tail (Or.inr ⟨position, input, result, control, found, here.symm, rfl⟩)

/-- Since no node is called twice, a run with arbitrary results is a run of the
node semantics that answers with these results. -/
theorem exists_semantics (wellFormed : dag.WellFormed) {state : RunState}
    (run : Reaches (Step dag backend anyResult) (start dag) state) :
    ∃ sem, Reaches (Step dag backend (callsOf sem)) (start dag) state := by
  have strong : (∃ sem, Reaches (Step dag backend (callsOf sem)) (start dag) state) ∧
      ((forall result, state.control ≠ .returned result) ->
        ∃ sem, Determined dag backend sem state) := by
    induction run with
    | refl => exact ⟨⟨.constant .null, .refl⟩, fun _ => ⟨.constant .null, fun _ _ => .refl⟩⟩
    | @tail before after earlier step inductionHypothesis =>
        have invariant := Invariant.reachable wellFormed earlier
        rcases inductionHypothesis.2 step.running with ⟨sem, determined⟩
        rcases step with advanced | ⟨position, input, result, control, found, _called, rfl⟩
        · have next := determined.advance invariant advanced
          exact ⟨⟨sem, next sem fun _ _ => rfl⟩, fun _ => ⟨sem, next⟩⟩
        · have fresh := invariant.inflight_fresh input (List.mem_of_getElem? found)
          let updated : NodeSemantics := Function.update sem input.nodeId fun _ => result
          have kept : forall node, node ∈ before.outputs -> updated node = sem node := by
            intro node member
            have different : node ≠ input.nodeId := fun equal => fresh (equal ▸ member)
            exact Function.update_of_ne different _ _
          have answers : updated input.nodeId = fun _ => result := Function.update_self _ _ _
          refine ⟨⟨updated, determined.deliver control found result kept ?_⟩,
            fun ongoing => ⟨updated, ?_⟩⟩
          · rw [answers]
          intro other same
          cases result with
          | error error => exact absurd rfl (ongoing (.error error))
          | ok output =>
              apply determined.deliver control found
              · intro node member
                have stays : node ∈ (before.deliver dag backend position input (.ok output)).outputs :=
                  (OrderedMap.mem_insert_eq _ _ _ _).mpr (Or.inr member)
                exact (same node stays).trans (kept node member)
              · have inserted : input.nodeId ∈
                    (before.deliver dag backend position input (.ok output)).outputs :=
                  (OrderedMap.mem_insert_eq _ _ _ _).mpr (Or.inl rfl)
                rw [same _ inserted, answers]
  exact strong.1

/-! ## The last event -/

/-- The log starts with the start event, continues with node events, and ends
with one event that matches the result. -/
def EndsProperly (dag : Dag P) (events : List KernelEvent) (result : KernelResult String) :
    Prop :=
  ∃ body last, events = .workflowStarted dag.id dag.name :: body ++ [last] ∧
    (forall event, event ∈ body -> IsNodeEvent dag event) ∧
    match result with
    | .ok hash => last = .workflowCompleted dag.id hash
    | .error _ => ∃ reason, last = .workflowFailed dag.id reason

/-- A log of the start event and node events alone does not end properly. -/
theorem not_endsProperly {body : List KernelEvent}
    (inside : forall event, event ∈ body -> IsNodeEvent dag event)
    (result : KernelResult String) :
    ¬ EndsProperly dag (.workflowStarted dag.id dag.name :: body) result := by
  rintro ⟨other, last, events, _inside, terminal⟩
  rw [List.cons_append, List.cons.injEq] at events
  have member : last ∈ body := by
    rw [events.2]
    exact List.mem_append_right _ List.mem_cons_self
  have node := inside last member
  cases result with
  | ok hash =>
      rw [terminal] at node
      exact node
  | error error =>
      rcases terminal with ⟨reason, rfl⟩
      exact node

/-- The log of a finished run ends properly exactly when some reached node
fails or all nodes are reached: the run that stops because a node was not
reached emits no last event. -/
theorem endsProperly_iff (accepted : dag.Accepted) (backend : HashBackend)
    (sem : NodeSemantics) :
    Inevitably (Step dag backend (callsOf sem))
      (fun state => ∃ result, state.control = .returned result ∧
        (EndsProperly dag state.events result ↔
          ¬ AllSucceed dag sem ∨ forall node, node ∈ dag.nodes -> Reached dag sem node))
      (start dag) := by
  have wellFormed := accepted.wellFormed
  have answers : forall input, ∃ result, callsOf sem input result := fun _input => ⟨_, rfl⟩
  refine ((returns wellFormed answers).and_invariant Relation.ReflTransGen.refl
    fun _before _after run step => run.tail step).mono ?_
  rintro state ⟨run, result, control⟩
  refine ⟨result, control, ?_⟩
  rcases (Log.reachable wellFormed run).exit control with ⟨body, terminal, events, inside, exit⟩
  rw [events]
  cases exit with
  | completed idle ready all =>
      have drained := drained_of_returned control idle ready
      have ends : EndsProperly dag (.workflowStarted dag.id dag.name :: body ++
          [.workflowCompleted dag.id (hashJson backend (Value.ofMap state.outputs))])
          (.ok (hashJson backend (Value.ofMap state.outputs))) := ⟨body, _, rfl, inside, rfl⟩
      exact iff_of_true ends (Or.inr ((drained.size_eq_iff wellFormed run).mp all))
  | unreached idle ready missing =>
      have drained := drained_of_returned control idle ready
      rw [List.append_nil]
      refine iff_of_false (not_endsProperly inside _) ?_
      rintro (fails | all)
      · exact fails (drained.allSucceed wellFormed run)
      · exact missing ((drained.size_eq_iff wellFormed run).mpr all)
  | failed input error inflight called =>
      have ends : EndsProperly dag (.workflowStarted dag.id dag.name :: body ++
          [.workflowFailed dag.id error.display]) (.error error) :=
        ⟨body, _, rfl, inside, _, rfl⟩
      exact iff_of_true ends (Or.inl fun succeed =>
        succeed _ _ (evaluates_of_failed wellFormed run inflight called))

theorem endsProperly_iff_pair :
    Inevitably (Step (Dag.pair .always) .sample (callsOf (.constant .null)))
      (fun state => ∃ result, state.control = .returned result ∧
        (EndsProperly (Dag.pair .always) state.events result ↔
          ¬ AllSucceed (Dag.pair .always) (.constant .null) ∨
            forall node, node ∈ (Dag.pair .always).nodes ->
              Reached (Dag.pair .always) (.constant .null) node))
      (start (Dag.pair .always)) :=
  endsProperly_iff (Dag.pair_accepted .always) .sample (.constant .null)

/-- The condition of the edge asks for `true`, and the source returns `null`:
the run fails because a node was not reached, and its log just stops. -/
theorem unreached_run_has_no_last_event :
    (Dag.pair (.jsonEq "" (.bool true))).Accepted ∧ ∃ state result,
      Reaches (Step (Dag.pair (.jsonEq "" (.bool true))) .sample (callsOf (.constant .null)))
        (start (Dag.pair (.jsonEq "" (.bool true)))) state ∧
      state.control = .returned result ∧
      ¬ EndsProperly (Dag.pair (.jsonEq "" (.bool true))) state.events result := by
  refine ⟨Dag.pair_accepted _, _, .error (.invalidInput "not all nodes were reached"),
    RunState.drive_reaches _ _ _ 10 _, by rfl, ?_⟩
  have events : ((start (Dag.pair (.jsonEq "" (.bool true)))).drive
      (Dag.pair (.jsonEq "" (.bool true))) .sample (.constant .null) 10).events =
      [.workflowStarted 0 "pair", .nodeStarted 0 "a" 1,
        .nodeCompleted 0 "a" (.success (hashJson .sample .null) 0)] := by rfl
  rw [events]
  refine not_endsProperly ?_ _
  intro event member
  rcases List.mem_pair.mp member with rfl | rfl
  · exact ⟨rfl, by decide⟩
  · exact ⟨rfl, by decide⟩

/-! ## Completions -/

/-- The node is left out because of a condition: its own in-edge is false, or
it descends from a node that is left out. -/
inductive Skipped (dag : Dag P) (sem : NodeSemantics) : NodeId -> Prop
  | condition (edge : Edge) (output : NodeOutput) (member : edge ∈ dag.edges)
      (source : Evaluates dag sem edge.from (.ok output))
      (off : edge.condition.evaluate output.value = false) : Skipped dag sem edge.to
  | descends (edge : Edge) (member : edge ∈ dag.edges) (source : Skipped dag sem edge.from) :
      Skipped dag sem edge.to

/-- The completions that a log records for a node. -/
def completionsOf (events : List KernelEvent) (node : NodeId) : List NodeOutcome :=
  ((completions events).filter fun entry => entry.1 == node).map Prod.snd

/-- The outcome that belongs to the result of a call. -/
def Describes (backend : HashBackend) : NodeOutcome -> KernelResult NodeOutput -> Prop
  | .success hash _, .ok output => hash = hashJson backend output.value
  | .failure _, .error _ => True
  | _, _ => False

/-- Every announced node has exactly one completion, later and with the right
outcome, and every node left out because of a condition has exactly one
completion, which says so. -/
structure AccountsForAll (dag : Dag P) (backend : HashBackend) (sem : NodeSemantics)
    (events : List KernelEvent) : Prop where
  started : forall earlier workflow node attempt later,
    events = earlier ++ .nodeStarted workflow node attempt :: later ->
    ∃ outcome, completionsOf later node = [outcome] ∧
      forall result, Evaluates dag sem node result -> Describes backend outcome result
  skipped : forall node, Skipped dag sem node -> node ∉ startedNodes events ->
    ∃ reason, completionsOf events node = [.skipped reason]

theorem mem_startedNodes {events : List KernelEvent} {node : NodeId} :
    node ∈ startedNodes events ↔ ∃ earlier workflow attempt later,
      events = earlier ++ .nodeStarted workflow node attempt :: later := by
  constructor
  · intro started
    rcases List.mem_filterMap.mp started with ⟨event, member, announces⟩
    rcases List.append_of_mem member with ⟨earlier, later, split⟩
    cases event with
    | nodeStarted workflow other attempt =>
        cases announces
        exact ⟨earlier, workflow, attempt, later, split⟩
    | _ => cases announces
  · rintro ⟨earlier, workflow, attempt, later, rfl⟩
    rw [startedNodes_append]
    exact List.mem_append_right _ List.mem_cons_self

theorem completionsOf_append (first second : List KernelEvent) (node : NodeId) :
    completionsOf (first ++ second) node = completionsOf first node ++ completionsOf second node := by
  rw [completionsOf, completions_append, List.filter_append, List.map_append]
  rfl

theorem mem_completionsOf {events : List KernelEvent} {node : NodeId} {outcome : NodeOutcome} :
    outcome ∈ completionsOf events node ↔ (node, outcome) ∈ completions events := by
  rw [completionsOf, List.mem_map]
  constructor
  · rintro ⟨⟨other, _⟩, member, rfl⟩
    have parts := List.mem_filter.mp member
    have same : other = node := by simpa using parts.2
    exact same ▸ parts.1
  · intro member
    exact ⟨(node, outcome), List.mem_filter.mpr ⟨member, by simp⟩, rfl⟩

section States

variable {state : RunState}

/-- A completed node has exactly one completion in the log. -/
theorem Log.completionsOf_eq (log : Log dag backend (callsOf sem) state) {node : NodeId}
    {outcome : NodeOutcome} (listed : (node, outcome) ∈ completions state.events) :
    completionsOf state.events node = [outcome] := by
  have nodup := log.completions_nodup
  rw [completionsOf]
  rcases List.append_of_mem listed with ⟨before, after, split⟩
  rw [split, List.map_append, List.map_cons] at nodup
  have parts := List.nodup_middle.mp nodup
  have absent : node ∉ before.map Prod.fst ++ after.map Prod.fst := (List.nodup_cons.mp parts).1
  have others : forall entries : List (NodeId × NodeOutcome), node ∉ entries.map Prod.fst ->
      entries.filter (fun entry => entry.1 == node) = [] := by
    intro entries missing
    rw [List.filter_eq_nil_iff]
    intro entry member same
    exact missing (List.mem_map.mpr ⟨entry, member, by simpa using same⟩)
  rw [split, List.filter_append, others before fun inside => absent (List.mem_append_left _ inside),
    List.filter_cons_of_pos (by simp),
    others after fun inside => absent (List.mem_append_right _ inside)]
  rfl

/-- No completion of a node stands before its announcement. -/
theorem Log.completionsOf_before (wellFormed : dag.WellFormed)
    (run : Reaches (Step dag backend (callsOf sem)) (Scheduler.start dag) state)
    {earlier : List KernelEvent} {workflow : WorkflowId} {node : NodeId} {attempt : UInt32}
    {later : List KernelEvent}
    (split : state.events = earlier ++ .nodeStarted workflow node attempt :: later) :
    completionsOf earlier node = [] := by
  have log := Log.reachable wellFormed run
  have once := (List.nodup_append.mp (List.nodup_append.mp
    (Invariant.reachable wellFormed run).counts.nodup).1).1
  rw [split, startedNodes_append] at once
  rw [List.eq_nil_iff_forall_not_mem]
  intro outcome listed
  rcases List.mem_filterMap.mp (mem_completionsOf.mp listed) with ⟨event, member, records⟩
  rcases List.append_of_mem member with ⟨first, second, inside⟩
  have justified := log.justified first event (second ++ .nodeStarted workflow node attempt :: later)
    (by rw [split, inside, List.append_assoc]; rfl)
  cases event with
  | nodeCompleted other completed result =>
      cases records
      have announced : node ∈ startedNodes earlier := by
        rw [inside, startedNodes_append]
        exact List.mem_append_left _ justified
      exact (List.nodup_append.mp once).2.2 node announced node List.mem_cons_self rfl
  | _ => cases records

/-- A node left out because of a condition is never announced. -/
theorem Skipped.not_reached {node : NodeId} (skipped : Skipped dag sem node) :
    ¬ Reached dag sem node := by
  induction skipped with
  | condition edge output member source off =>
      rintro ⟨result, evaluates⟩
      cases evaluates with
      | intro _ other _declared sources conditions =>
          have same := Except.ok.inj (source.unique (sources edge member rfl))
          rw [same, conditions edge member rfl] at off
          cases off
  | descends edge member _source inductionHypothesis =>
      rintro ⟨result, evaluates⟩
      cases evaluates with
      | intro _ other _declared sources conditions =>
          exact inductionHypothesis ⟨_, sources edge member rfl⟩

/-- If all reached nodes succeed but some node is not reached, then a condition
left some declared node out. -/
theorem exists_skipped (wellFormed : dag.WellFormed) (succeed : AllSucceed dag sem)
    (missing : ¬ forall node, node ∈ dag.nodes -> Reached dag sem node) :
    ∃ node, node ∈ dag.nodes ∧ Skipped dag sem node := by
  by_contra none
  apply missing
  rcases exists_ranked wellFormed with ⟨rank, ranked⟩
  intro node declared
  induction bound : rank node using Nat.strong_induction_on generalizing node with
  | h _ inductionHypothesis =>
      apply reached_of_sources declared
      intro edge member target
      have lower : rank edge.from < rank node :=
        target ▸ ranked _ _ (dag.graph.adjacent_of_mem member)
      rcases inductionHypothesis _ (bound ▸ lower) edge.from
        (wellFormed.from_declared edge member) rfl with ⟨result, evaluates⟩
      cases result with
      | error error => exact absurd evaluates (succeed edge.from error)
      | ok output =>
          refine ⟨output, evaluates, ?_⟩
          by_contra off
          exact none ⟨edge.to, wellFormed.to_declared edge member,
            .condition edge output member evaluates (Bool.eq_false_iff.mpr off)⟩

/-- A run that completes every node accounts for every node. -/
theorem Drained.accountsForAll (drained : Drained state) (wellFormed : dag.WellFormed)
    (run : Reaches (Step dag backend (callsOf sem)) (start dag) state)
    (reached : forall node, node ∈ dag.nodes -> Reached dag sem node) :
    AccountsForAll dag backend sem state.events where
  started := by
    intro earlier workflow node attempt later split
    have log := Log.reachable wellFormed run
    have invariant := Invariant.reachable wellFormed run
    have started := mem_startedNodes.mpr ⟨earlier, workflow, attempt, later, split⟩
    rcases reached node (invariant.declared_of_seen (Invariant.seen_of_started started)) with
      ⟨result, evaluates⟩
    rcases drained.output_of_evaluates wellFormed run evaluates with ⟨output, rfl, found⟩
    rcases log.called_of_output found with ⟨answer, same, _called, listed⟩
    have once := log.completionsOf_eq listed
    have before := Log.completionsOf_before wellFormed run split
    have after : completionsOf later node =
        [.success (hashJson backend answer.value) answer.gasUsed] := by
      rw [split, completionsOf_append, before, List.nil_append] at once
      exact once
    refine ⟨_, after, ?_⟩
    intro other otherEvaluates
    rw [otherEvaluates.unique evaluates, same]
    exact rfl
  skipped := by
    intro node skipped _notStarted
    refine absurd (reached node ?_) skipped.not_reached
    cases skipped with
    | condition edge output member => exact wellFormed.to_declared edge member
    | descends edge member => exact wellFormed.to_declared edge member

/-- A log without completion for an announced node does not account for it. -/
theorem not_accountsForAll_of_started {events : List KernelEvent} {node : NodeId}
    (started : node ∈ startedNodes events)
    (absent : node ∉ (completions events).map Prod.fst) :
    ¬ AccountsForAll dag backend sem events := by
  intro accounts
  rcases mem_startedNodes.mp started with ⟨earlier, workflow, attempt, later, split⟩
  rcases accounts.started earlier workflow node attempt later split with ⟨outcome, listed, _⟩
  have member : outcome ∈ completionsOf later node := by
    rw [listed]
    exact List.mem_cons_self
  apply absent
  refine List.mem_map.mpr ⟨(node, outcome), ?_, rfl⟩
  rw [split, completions_append]
  exact List.mem_append_right _ (mem_completionsOf.mp member)

end States

/-- The log of a run that has left a node out does not account for it: the log
records only nodes that were announced. -/
theorem not_accountsForAll_of_skipped (wellFormed : dag.WellFormed) {state : RunState}
    (run : Reaches (Step dag backend (callsOf sem)) (start dag) state) {node : NodeId}
    (skipped : Skipped dag sem node) : ¬ AccountsForAll dag backend sem state.events := by
  intro accounts
  have notStarted : node ∉ startedNodes state.events := by
    intro started
    exact skipped.not_reached ⟨_, evaluates_of_seen wellFormed run
      (Invariant.seen_of_started started)⟩
  rcases accounts.skipped node skipped notStarted with ⟨reason, listed⟩
  have member : .skipped reason ∈ completionsOf state.events node := by
    rw [listed]
    exact List.mem_cons_self
  have completed := ((Log.reachable wellFormed run).completions_iff node).mp
    (List.mem_map.mpr ⟨_, mem_completionsOf.mp member, rfl⟩)
  exact notStarted (((Invariant.reachable wellFormed run).started_iff node).mpr (Or.inl completed))

/-- The log of a run that a failed call has ended does not account for it. -/
theorem not_accountsForAll_of_failed (wellFormed : dag.WellFormed) {state : RunState}
    (run : Reaches (Step dag backend (callsOf sem)) (start dag) state) {input : NodeInput}
    (inflight : input ∈ state.inflight) : ¬ AccountsForAll dag backend sem state.events := by
  have invariant := Invariant.reachable wellFormed run
  apply not_accountsForAll_of_started
  · exact (invariant.started_iff input.nodeId).mpr (Or.inr (List.mem_map_of_mem inflight))
  · rw [(Log.reachable wellFormed run).completions_iff]
    exact invariant.inflight_fresh input inflight

/-- The log of a finished run accounts for every node exactly when all nodes are
reached and succeed: neither a failed call nor a node left out is ever recorded. -/
theorem accountsForAll_iff (accepted : dag.Accepted) (backend : HashBackend)
    (sem : NodeSemantics) :
    Inevitably (Step dag backend (callsOf sem))
      (fun state => ∃ result, state.control = .returned result ∧
        (AccountsForAll dag backend sem state.events ↔
          forall node, node ∈ dag.nodes -> ∃ output, Evaluates dag sem node (.ok output)))
      (start dag) := by
  have wellFormed := accepted.wellFormed
  have answers : forall input, ∃ result, callsOf sem input result := fun _input => ⟨_, rfl⟩
  refine ((returns wellFormed answers).and_invariant Relation.ReflTransGen.refl
    fun _before _after run step => run.tail step).mono ?_
  rintro state ⟨run, result, control⟩
  refine ⟨result, control, ?_⟩
  have invariant := Invariant.reachable wellFormed run
  have log := Log.reachable wellFormed run
  rcases log.exit control with ⟨_body, _terminal, _events, _inside, exit⟩
  cases exit with
  | completed idle ready all =>
      have drained := drained_of_returned control idle ready
      have reached := (drained.size_eq_iff wellFormed run).mp all
      refine iff_of_true (drained.accountsForAll wellFormed run reached) ?_
      intro node declared
      rcases reached node declared with ⟨result, evaluates⟩
      rcases drained.output_of_evaluates wellFormed run evaluates with ⟨output, rfl, _found⟩
      exact ⟨output, evaluates⟩
  | unreached idle ready missing =>
      have drained := drained_of_returned control idle ready
      have notAll := mt (drained.size_eq_iff wellFormed run).mpr missing
      refine iff_of_false ?_ fun all => notAll fun node declared =>
        (all node declared).elim fun output evaluates => ⟨_, evaluates⟩
      rcases exists_skipped wellFormed (drained.allSucceed wellFormed run) notAll with
        ⟨node, _declared, skipped⟩
      exact not_accountsForAll_of_skipped wellFormed run skipped
  | failed input error inflight called =>
      have evaluates := evaluates_of_failed wellFormed run inflight called
      refine iff_of_false (not_accountsForAll_of_failed wellFormed run inflight) ?_
      intro all
      rcases all input.nodeId (invariant.declared_of_seen (invariant.seen_of_inflight inflight))
        with ⟨output, succeeds⟩
      cases succeeds.unique evaluates

theorem accountsForAll_iff_pair :
    Inevitably (Step (Dag.pair .always) .sample (callsOf (.constant .null)))
      (fun state => ∃ result, state.control = .returned result ∧
        (AccountsForAll (Dag.pair .always) .sample (.constant .null) state.events ↔
          forall node, node ∈ (Dag.pair .always).nodes ->
            ∃ output, Evaluates (Dag.pair .always) (.constant .null) node (.ok output)))
      (start (Dag.pair .always)) :=
  accountsForAll_iff (Dag.pair_accepted .always) .sample (.constant .null)

/-- The first node fails: it was announced, and no completion records it. -/
theorem failed_call_has_no_completion :
    (Dag.pair .always).Accepted ∧ ∃ state result,
      Reaches (Step (Dag.pair .always) .sample (callsOf fun _ _ => .error (.other "boom")))
        (start (Dag.pair .always)) state ∧
      state.control = .returned result ∧
      ¬ AccountsForAll (Dag.pair .always) .sample (fun _ _ => .error (.other "boom"))
        state.events := by
  refine ⟨Dag.pair_accepted _, _, .error (.other "boom"), RunState.drive_reaches _ _ _ 10 _,
    by rfl, ?_⟩
  have events : ((start (Dag.pair .always)).drive (Dag.pair .always) .sample
      (fun _ _ => .error (.other "boom")) 10).events =
      [.workflowStarted 0 "pair", .nodeStarted 0 "a" 1, .workflowFailed 0 "boom"] := by rfl
  rw [events]
  have started : "a" ∈ startedNodes
      [.workflowStarted 0 "pair", .nodeStarted 0 "a" 1, .workflowFailed 0 "boom"] := by decide
  exact not_accountsForAll_of_started started (by decide)

end Scheduler
end KernelFlow
