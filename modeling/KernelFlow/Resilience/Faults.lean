import Mathlib
import KernelFlow.Resilience.FullStack
import KernelFlow.Scheduler.Outcome

namespace KernelFlow
namespace Resilience

open Transition Scheduler

/-!
# Agreement under faults

Attempts may fail, time out, be refused or be lost with a panic, in one run and
not in another.  As long as a successful attempt gives the output that the node
computes from its parents, no two runs of a workflow disagree: on the outputs,
on the completions they announce and on the hash they attest.
-/

variable {P : Type} {dag : Dag P} {backend : HashBackend} {sem : NodeSemantics}

/-- Successful attempts give the node's own output.  Failures are free. -/
def Faithful (sem : NodeSemantics)
    (attempts : NodeInput -> UInt32 -> KernelResult NodeOutput -> Prop) : Prop :=
  forall input count output, attempts input count (.ok output) ->
    sem input.nodeId input.parents = .ok output

/-- The outputs and completions of a state belong to a run without faults.  Only
the delivery of an error, which ends a run, is not a step of that run. -/
def Grounded (dag : Dag P) (backend : HashBackend) (sem : NodeSemantics) (state : RunState) :
    Prop :=
  ∃ base, Reaches (Step dag backend (Scheduler.callsOf sem)) (Scheduler.start dag) base ∧
    base.outputs = state.outputs ∧ completions base.events = completions state.events ∧
    (base = state ∨ ∃ error, state.control = .returned (.error error))

namespace Grounded

theorem step {calls : NodeInput -> KernelResult NodeOutput -> Prop}
    (answers : forall input output, calls input (.ok output) ->
      Scheduler.callsOf sem input (.ok output))
    {before after : RunState} (grounded : Grounded dag backend sem before)
    (step : Step dag backend calls before after) : Grounded dag backend sem after := by
  rcases grounded with ⟨base, run, outputs, completed, same | ⟨error, returned⟩⟩
  · rw [same] at run
    rcases step with advanced | ⟨position, input, result, control, found, called, rfl⟩
    · exact ⟨after, run.tail (Or.inl advanced), rfl, rfl, Or.inl rfl⟩
    · cases result with
      | ok output =>
          exact ⟨_, run.tail (Or.inr ⟨position, input, _, control, found, answers _ _ called, rfl⟩),
            rfl, rfl, Or.inl rfl⟩
      | error error =>
          refine ⟨before, run, rfl, ?_, Or.inr ⟨error, rfl⟩⟩
          change _ = completions (before.events ++ _)
          rw [completions_append]
          exact (List.append_nil _).symm
  · exact absurd returned (step.running _)

theorem of_reaches {calls : NodeInput -> KernelResult NodeOutput -> Prop}
    (answers : forall input output, calls input (.ok output) ->
      Scheduler.callsOf sem input (.ok output))
    {state : RunState} (run : Reaches (Step dag backend calls) (Scheduler.start dag) state) :
    Grounded dag backend sem state :=
  run.invariant ⟨_, .refl, rfl, rfl, Or.inl rfl⟩ fun _before _after grounded step =>
    grounded.step answers step

/-- So does a state of the whole stack. -/
theorem of_stack (wellFormed : dag.WellFormed) {config : ResilienceConfig} {governor : Governor}
    {timer : Timer} {now : Instant} {attempts : NodeInput -> UInt32 -> KernelResult NodeOutput -> Prop}
    (faithful : Faithful sem attempts) {state : TimedState governor}
    (run : Reaches (TimedStep dag backend config governor timer attempts)
      (.start dag config governor now) state) : Grounded dag backend sem state.run := by
  rcases exists_traced_run run with ⟨history, traced⟩
  apply of_reaches ?_ (Accounted.reachable wellFormed traced).run
  intro input output reply
  rcases reply.attempt_of_ok with ⟨count, attempted⟩
  exact (faithful input count output attempted).symm

variable {state : RunState}

/-- Its outputs are those of the reference. -/
theorem evaluates (wellFormed : dag.WellFormed) (grounded : Grounded dag backend sem state)
    {node : NodeId} {value : Value} (found : state.outputs[node]? = some value) :
    ∃ output : NodeOutput, Evaluates dag sem node (.ok output) ∧ output.value = value := by
  rcases grounded with ⟨base, run, outputs, _completed, _same⟩
  rw [← outputs] at found
  exact evaluates_of_output wellFormed run found

/-- Its completions describe the outputs of the reference. -/
theorem completion (wellFormed : dag.WellFormed) (grounded : Grounded dag backend sem state)
    {node : NodeId} {outcome : NodeOutcome} (member : (node, outcome) ∈ completions state.events) :
    ∃ output : NodeOutput, Evaluates dag sem node (.ok output) ∧
      outcome = .success (hashJson backend output.value) output.gasUsed := by
  rcases grounded with ⟨base, run, _outputs, completed, _same⟩
  rw [← completed] at member
  rcases (Log.reachable wellFormed run).answered node outcome member with
    ⟨output, found, called, rfl⟩
  have seen := (Invariant.reachable wellFormed run).seen_of_output
    (OrderedMap.mem_of_getElem?_eq_some found)
  have evaluated := evaluates_of_seen wellFormed run seen
  have answer : Except.ok output = sem node (parentOutputs dag base.outputs node) := called
  rw [← answer] at evaluated
  exact ⟨output, evaluated, rfl⟩

/-- A grounded `Ok` is the hash of an output for every node. -/
theorem returned_ok (wellFormed : dag.WellFormed) (grounded : Grounded dag backend sem state)
    {hash : String} (control : state.control = .returned (.ok hash)) :
    hash = hashJson backend (Value.ofMap state.outputs) ∧
      forall node, node ∈ state.outputs ↔ node ∈ dag.nodes := by
  rcases grounded with ⟨base, run, _outputs, _completed, rfl | ⟨error, returned⟩⟩
  · exact completed_of_returned wellFormed run control
  · rw [returned] at control
    cases control

end Grounded

/-- Two grounded states of one graph, up to the order of its edges, agree. -/
theorem agree_of_grounded (wellFormed : dag.WellFormed) {edges : List Edge}
    (permuted : edges.Perm dag.edges) {first second : RunState}
    (left : Grounded dag backend sem first)
    (right : Grounded { dag with edges := edges } backend sem second) :
    (forall (node : NodeId) (value other : Value), first.outputs[node]? = some value ->
      second.outputs[node]? = some other -> value = other) ∧
    (forall node outcome other, (node, outcome) ∈ completions first.events ->
      (node, other) ∈ completions second.events -> outcome = other) ∧
    forall hash other, first.control = .returned (.ok hash) ->
      second.control = .returned (.ok other) -> hash = other := by
  have reordered := wellFormed_perm wellFormed permuted
  have outputs : forall (node : NodeId) (value other : Value), first.outputs[node]? = some value ->
      second.outputs[node]? = some other -> value = other := by
    intro node value other found foundOther
    rcases left.evaluates wellFormed found with ⟨output, evaluates, rfl⟩
    rcases right.evaluates reordered foundOther with ⟨otherOutput, otherEvaluates, rfl⟩
    have same := evaluates.unique ((evaluates_perm_iff permuted _ _).mp otherEvaluates)
    rw [Except.ok.inj same]
  refine ⟨outputs, ?_, ?_⟩
  · intro node outcome other member otherMember
    rcases left.completion wellFormed member with ⟨output, evaluates, rfl⟩
    rcases right.completion reordered otherMember with ⟨otherOutput, otherEvaluates, rfl⟩
    have same := evaluates.unique ((evaluates_perm_iff permuted _ _).mp otherEvaluates)
    rw [Except.ok.inj same]
  · intro hash other returned otherReturned
    rcases left.returned_ok wellFormed returned with ⟨rfl, covered⟩
    rcases right.returned_ok reordered otherReturned with ⟨rfl, otherCovered⟩
    have equal : first.outputs = second.outputs := by
      apply Std.ExtTreeMap.ext_getElem?
      intro node
      cases found : first.outputs[node]? with
      | none =>
          have absent : node ∉ second.outputs := by
            intro present
            rcases (OrderedMap.mem_iff_exists _ _).mp
              ((covered node).mpr ((otherCovered node).mp present)) with ⟨value, stored⟩
            rw [found] at stored
            cases stored
          exact (Std.ExtTreeMap.getElem?_eq_none absent).symm
      | some value =>
          have present := (otherCovered node).mpr
            ((covered node).mp (OrderedMap.mem_of_getElem?_eq_some found))
          rcases (OrderedMap.mem_iff_exists _ _).mp present with ⟨other, foundOther⟩
          rw [foundOther, outputs node value other found foundOther]
    rw [equal]

/-- Two runs of one workflow, with different configurations, limiters, timings
and faults and with the edges in any order, never disagree. -/
theorem faults_keep_agreement (accepted : dag.Accepted) (backend : HashBackend)
    (sem : NodeSemantics) (edges : List Edge) (permuted : edges.Perm dag.edges)
    (config config' : ResilienceConfig) (governor governor' : Governor)
    (timer timer' : Timer) (now now' : Instant)
    (attempts attempts' : NodeInput -> UInt32 -> KernelResult NodeOutput -> Prop)
    (faithful : Faithful sem attempts) (faithful' : Faithful sem attempts')
    (state : TimedState governor) (state' : TimedState governor')
    (run : Reaches (TimedStep dag backend config governor timer attempts)
      (.start dag config governor now) state)
    (run' : Reaches (TimedStep { dag with edges := edges } backend config' governor' timer'
      attempts') (.start { dag with edges := edges } config' governor' now') state') :
    (forall (node : NodeId) (value other : Value), state.run.outputs[node]? = some value ->
      state'.run.outputs[node]? = some other -> value = other) ∧
    (forall node outcome other, (node, outcome) ∈ completions state.run.events ->
      (node, other) ∈ completions state'.run.events -> outcome = other) ∧
    forall hash other, state.run.control = .returned (.ok hash) ->
      state'.run.control = .returned (.ok other) -> hash = other :=
  agree_of_grounded accepted.wellFormed permuted (.of_stack accepted.wellFormed faithful run)
    (.of_stack (wellFormed_perm accepted.wellFormed permuted) faithful' run')

/-! ## A run with faults that succeeds -/

/-- Two sources and a node that reads both. -/
def joined : Dag Unit where
  id := 0
  name := "joined"
  nodes := (((∅ : BTreeMap NodeId Unit).insert "a" ()).insert "b" ()).insert "c" ()
  edges := [⟨"a", "c", .always⟩, ⟨"b", "c", .always⟩]

theorem joined_accepted : joined.Accepted := by
  refine ⟨"joined", [.node "a" (), .node "b" (), .node "c" (), .edge "a" "c" .always,
    .edge "b" "c" .always], 0, ?_⟩
  apply DagBuilder.build_ok
  · intro edge member
    change edge ∈ joined.edges at member
    simp only [joined, List.mem_cons, List.not_mem_nil, or_false] at member
    rw [DagBuilder.mem_ofCalls_nodes, DagBuilder.mem_ofCalls_nodes]
    rcases member with rfl | rfl <;> simp [DagBuilder.declaredIds]
  · have ranked : joined.graph.Ranked fun node => if node = "c" then 1 else 0 := by
      rintro first second ⟨edge, member, rfl, rfl⟩
      have listed : edge ∈ joined.edges := member
      simp only [joined, List.mem_cons, List.not_mem_nil, or_false] at listed
      rcases listed with rfl | rfl <;> decide
    exact ranked.acyclic

/-- A node answers whether it has parents. -/
def orphans : NodeSemantics := fun _node parents => .ok ⟨.bool parents.isEmpty, 1⟩

/-- Its first attempt fails. -/
def flaky (input : NodeInput) (count : UInt32) : KernelResult NodeOutput :=
  if count = 1 then .error (.network "reset") else orphans input.nodeId input.parents

/-- A limiter that counts the checks of the current second. -/
def Governor.window : Governor where
  State := Nat × Instant × Nat
  direct := fun quota => (quota, 0, 0)
  check := fun (quota, second, count) now =>
    if now / 1000000000 = second then (decide (count < quota), (quota, second, count + 1))
    else (true, (quota, now / 1000000000, 1))

/-- A run without faults. -/
def healthyState : TimedState Governor.gcra :=
  (TimedState.start joined .default .gcra 0).drive joined .sample .default .linux orphans 50

/-- A run in which every first attempt fails, with the edges the other way
round. -/
def flakyState : TimedState Governor.window :=
  (TimedState.start { joined with edges := joined.edges.reverse } hasty .window 7).serve
    { joined with edges := joined.edges.reverse } .sample hasty (.tokio 1000000) flaky 70

theorem healthyState_returned : healthyState.run.control =
    .returned (.ok (hashJson .sample (Value.ofMap healthyState.run.outputs))) := by
  rfl

theorem flakyState_returned : flakyState.run.control =
    .returned (.ok (hashJson .sample (Value.ofMap flakyState.run.outputs))) := by
  rfl

/-- Both runs return `Ok`, with one hash. -/
theorem faults_keep_agreement_flaky :
    ∃ hash, healthyState.run.control = .returned (.ok hash) ∧
      flakyState.run.control = .returned (.ok hash) := by
  have faithful : Faithful orphans (attemptsOf orphans) :=
    fun _input _count _output attempted => attempted.symm
  have recovers : Faithful orphans fun input count result => result = flaky input count := by
    intro input count output attempted
    rw [flaky] at attempted
    split at attempted
    · cases attempted
    · exact attempted.symm
  have agree := faults_keep_agreement joined_accepted .sample orphans joined.edges.reverse
    (List.reverse_perm _) .default hasty .gcra .window .linux (.tokio 1000000) 0 7 _ _ faithful
    recovers healthyState flakyState (TimedState.drive_reaches 50 _) (TimedState.serve_reaches 70 _)
  have same := agree.2.2 _ _ healthyState_returned flakyState_returned
  refine ⟨_, healthyState_returned, ?_⟩
  rw [same]
  exact flakyState_returned

end Resilience
end KernelFlow
