import Mathlib
import KernelFlow.Resilience.Transcript
import KernelFlow.Resilience.TimedRun

namespace KernelFlow
namespace Resilience

open Transition Scheduler

/-!
# Scheduler, actors and executor together

A run of the whole stack is a run of the bare scheduler whose calls answer what
their retry loops may return.  The stack is followed with a history of all
attempts that have ended: it accounts for every answer, so no output is
invented, and it bounds the work that a run can cause, what its actors do after
the return included.

Every run of the stack ends, with retries, refusals and panics of the actors
included.  Failing attempts decide whether a workflow succeeds and never what
it returns.
-/

variable {P : Type} {dag : Dag P} {backend : HashBackend} {config : ResilienceConfig}
  {governor : Governor} {timer : Timer}
  {attempts : NodeInput -> UInt32 -> KernelResult NodeOutput -> Prop}

/-! ## The history of attempts -/

/-- An attempt that has ended. -/
structure EndedAttempt where
  input : NodeInput
  count : UInt32
  result : KernelResult NodeOutput

/-- A run with the attempts that have ended so far. -/
structure Traced (governor : Governor) where
  state : TimedState governor
  history : List EndedAttempt

/-- A step of the stack, written down if it ends an attempt. -/
inductive TracedStep (dag : Dag P) (backend : HashBackend) (config : ResilienceConfig)
    (governor : Governor) (timer : Timer)
    (attempts : NodeInput -> UInt32 -> KernelResult NodeOutput -> Prop)
    (before : Traced governor) : Traced governor -> Prop
  | silent (after : TimedState governor)
      (step : TimedStep dag backend config governor timer (fun _ _ _ => False) before.state
        after) :
      TracedStep dag backend config governor timer attempts before ⟨after, before.history⟩
  | attempt (now : Instant) (later : before.state.now ≤ now) (input : NodeInput)
      (inflight : input ∈ before.state.run.inflight)
      (open_ : polled before.state.run.control = true) (count : UInt32) (backoff : Duration)
      (attempting : before.state.phases input.nodeId = .attempting count backoff)
      (result : KernelResult NodeOutput) (ended : attempts input count result) :
      TracedStep dag backend config governor timer attempts before
        ⟨before.state.moveTo now before.state.shared input.nodeId
          (Phase.afterAttempt config timer now count backoff result),
        before.history ++ [⟨input, count, result⟩]⟩

namespace Traced

/-- Nothing has been attempted. -/
def start (dag : Dag P) (config : ResilienceConfig) (governor : Governor) (now : Instant) :
    Traced governor where
  state := .start dag config governor now
  history := []

end Traced

/-- Every step of the stack can be written down. -/
theorem TimedStep.exists_traced {before after : TimedState governor}
    (step : TimedStep dag backend config governor timer attempts before after)
    (history : List EndedAttempt) : ∃ extended,
      TracedStep dag backend config governor timer attempts ⟨before, history⟩
        ⟨after, extended⟩ := by
  cases step with
  | schedule now later run advanced => exact ⟨_, .silent _ (.schedule now later run advanced)⟩
  | call now later input inflight open_ shared phase advanced =>
      exact ⟨_, .silent _ (.call now later input inflight open_ shared phase advanced)⟩
  | attempt now later input inflight open_ count backoff attempting result ended =>
      exact ⟨_, .attempt now later input inflight open_ count backoff attempting result ended⟩
  | deliver now later position input control found result replied =>
      exact ⟨_, .silent _ (.deliver now later position input control found result replied)⟩

theorem exists_traced_run {start finish : TimedState governor}
    (run : Reaches (TimedStep dag backend config governor timer attempts) start finish) :
    ∃ history, Reaches (TracedStep dag backend config governor timer attempts) ⟨start, []⟩
      ⟨finish, history⟩ := by
  induction run with
  | refl => exact ⟨[], .refl⟩
  | tail _earlier step inductionHypothesis =>
      rcases inductionHypothesis with ⟨history, traced⟩
      rcases step.exists_traced history with ⟨extended, next⟩
      exact ⟨extended, traced.tail next⟩

/-- The transcript of one node. -/
def transcriptOf (node : NodeId) (history : List EndedAttempt) : Transcript :=
  (history.filter fun attempt => attempt.input.nodeId == node).map fun attempt =>
    (attempt.count, attempt.result)

theorem transcriptOf_append_self (history : List EndedAttempt) (attempt : EndedAttempt) :
    transcriptOf attempt.input.nodeId (history ++ [attempt]) =
      transcriptOf attempt.input.nodeId history ++ [(attempt.count, attempt.result)] := by
  simp [transcriptOf]

theorem transcriptOf_append_of_ne (history : List EndedAttempt) {attempt : EndedAttempt} {node : NodeId}
    (different : node ≠ attempt.input.nodeId) :
    transcriptOf node (history ++ [attempt]) = transcriptOf node history := by
  simp [transcriptOf, different.symm]

theorem mem_transcriptOf {node : NodeId} {history : List EndedAttempt}
    {entry : UInt32 × KernelResult NodeOutput} :
    entry ∈ transcriptOf node history ↔
      ∃ attempt ∈ history, attempt.input.nodeId = node ∧
        (attempt.count, attempt.result) = entry := by
  simp [transcriptOf, and_assoc]

/-! ## The invariant -/

/-- The scheduler part is a bare run, and the history accounts for the calls. -/
structure Accounted (dag : Dag P) (backend : HashBackend) (config : ResilienceConfig)
    (attempts : NodeInput -> UInt32 -> KernelResult NodeOutput -> Prop)
    (traced : Traced governor) : Prop where
  run : Reaches (Step dag backend (Reply config attempts)) (Scheduler.start dag) traced.state.run
  fresh : forall node, node ∉ startedNodes traced.state.run.events ->
    traced.state.phases node = .checking
  accounts : forall node,
    Account config (transcriptOf node traced.history) (traced.state.phases node)
  allowed : forall attempt, attempt ∈ traced.history ->
    attempts attempt.input attempt.count attempt.result
  started : forall attempt, attempt ∈ traced.history ->
    attempt.input.nodeId ∈ startedNodes traced.state.run.events
  inputs : forall attempt, attempt ∈ traced.history ->
    attempt.input = nodeInput dag traced.state.run.outputs attempt.input.nodeId
  outputs : forall (node : NodeId) (value : Value),
    traced.state.run.outputs[node]? = some value ->
    ∃ output : NodeOutput, output.value = value ∧ traced.state.phases node = .done (.ok output)

namespace Accounted

variable {before : TimedState governor} {history : List EndedAttempt}

/-- What is written down about a call in flight was allowed on its input. -/
theorem allowed_inflight (wellFormed : dag.WellFormed)
    (accounted : Accounted dag backend config attempts ⟨before, history⟩) {input : NodeInput}
    (inflight : input ∈ before.run.inflight) {entry : UInt32 × KernelResult NodeOutput}
    (member : entry ∈ transcriptOf input.nodeId history) : attempts input entry.1 entry.2 := by
  have invariant := Invariant.reachable wellFormed accounted.run
  rcases mem_transcriptOf.mp member with ⟨attempt, recorded, same, rfl⟩
  have equal : attempt.input = input := by
    rw [accounted.inputs attempt recorded, same, ← invariant.inflight_input input inflight]
  rw [← equal]
  exact accounted.allowed attempt recorded

theorem start (now : Instant) :
    Accounted dag backend config attempts (.start dag config governor now) where
  run := .refl
  fresh := fun _node _absent => rfl
  accounts := fun _node => rfl
  allowed := fun _attempt member => absurd member List.not_mem_nil
  started := fun _attempt member => absurd member List.not_mem_nil
  inputs := fun _attempt member => absurd member List.not_mem_nil
  outputs := by
    intro node value found
    change (Scheduler.start dag).outputs[node]? = some value at found
    have none : (Scheduler.start dag).outputs[node]? = none := by
      unfold Scheduler.start
      split <;> simp
    rw [none] at found
    cases found

theorem schedule (accounted : Accounted dag backend config attempts ⟨before, history⟩)
    {now : Instant} {run : RunState} (advanced : before.run.advance dag backend = some run) :
    Accounted dag backend config attempts ⟨before.withRun now run, history⟩ := by
  rcases RunState.advance_frame advanced with ⟨outputs, _inflight, events, appended⟩
  have kept : forall node, node ∈ startedNodes before.run.events ->
      node ∈ startedNodes run.events := by
    intro node member
    rw [appended, startedNodes_append]
    exact List.mem_append_left _ member
  exact {
    run := accounted.run.tail (Or.inl advanced)
    fresh := fun node absent => accounted.fresh node fun member => absent (kept node member)
    accounts := accounted.accounts
    allowed := accounted.allowed
    started := fun attempt member => kept _ (accounted.started attempt member)
    inputs := by
      intro attempt member
      change attempt.input = nodeInput dag run.outputs attempt.input.nodeId
      rw [outputs]
      exact accounted.inputs attempt member
    outputs := by
      change forall (node : NodeId) (value : Value), run.outputs[node]? = some value -> _
      rw [outputs]
      exact accounted.outputs }

/-- A call moves, and at most its own transcript grows. -/
theorem moveTo (wellFormed : dag.WellFormed)
    (accounted : Accounted dag backend config attempts ⟨before, history⟩) {input : NodeInput}
    (inflight : input ∈ before.run.inflight) {added : List EndedAttempt}
    (own : forall attempt, attempt ∈ added -> attempt.input = input ∧
      attempts attempt.input attempt.count attempt.result)
    {phase : Phase NodeOutput}
    (account : Account config (transcriptOf input.nodeId (history ++ added)) phase)
    (others : forall node, node ≠ input.nodeId ->
      transcriptOf node (history ++ added) = transcriptOf node history)
    (now : Instant) (shared : Shared governor) :
    Accounted dag backend config attempts
      ⟨before.moveTo now shared input.nodeId phase, history ++ added⟩ := by
  have invariant := Invariant.reachable wellFormed accounted.run
  have started : input.nodeId ∈ startedNodes before.run.events :=
    (invariant.started_iff _).mpr (Or.inr (List.mem_map_of_mem inflight))
  exact {
    run := accounted.run
    fresh := by
      intro node absent
      have different : node ≠ input.nodeId := fun same => absent (same ▸ started)
      exact (Function.update_of_ne different _ _).trans (accounted.fresh node absent)
    accounts := by
      intro node
      change Account config _ (Function.update before.phases input.nodeId phase node)
      by_cases same : node = input.nodeId
      · rw [same, Function.update_self]
        exact account
      · rw [Function.update_of_ne same, others node same]
        exact accounted.accounts node
    allowed := by
      intro attempt member
      rcases List.mem_append.mp member with old | new
      · exact accounted.allowed attempt old
      · exact (own attempt new).2
    started := by
      intro attempt member
      rcases List.mem_append.mp member with old | new
      · exact accounted.started attempt old
      · rw [(own attempt new).1]
        exact started
    inputs := by
      intro attempt member
      rcases List.mem_append.mp member with old | new
      · exact accounted.inputs attempt old
      · rw [(own attempt new).1]
        exact invariant.inflight_input input inflight
    outputs := by
      intro node value found
      have different : node ≠ input.nodeId := by
        rintro rfl
        exact invariant.inflight_fresh input inflight (OrderedMap.mem_of_getElem?_eq_some found)
      rcases accounted.outputs node value found with ⟨output, same, done⟩
      exact ⟨output, same, (Function.update_of_ne different _ _).trans done⟩ }

theorem deliver (wellFormed : dag.WellFormed)
    (accounted : Accounted dag backend config attempts ⟨before, history⟩) {position : Nat}
    {input : NodeInput} (control : before.run.control = .awaiting)
    (found : before.run.inflight[position]? = some input) {result : KernelResult NodeOutput}
    (replied : (before.phases input.nodeId).reply = some result) (now : Instant) :
    Accounted dag backend config attempts
      ⟨before.withRun now (before.run.deliver dag backend position input result), history⟩ := by
  have inflight := List.mem_of_getElem? found
  have invariant := Invariant.reachable wellFormed accounted.run
  have reply : Reply config attempts input result :=
    (accounted.accounts input.nodeId).reply
      (fun _entry member => accounted.allowed_inflight wellFormed inflight member) replied
  have run := accounted.run.tail (Or.inr ⟨position, input, result, control, found, reply, rfl⟩)
  cases result with
  | error error =>
      have same : startedNodes (before.run.events ++ [.workflowFailed dag.id error.display]) =
          startedNodes before.run.events := by
        rw [startedNodes_append]
        exact List.append_nil _
      exact {
        run := run
        fresh := fun node absent => accounted.fresh node (same ▸ absent)
        accounts := accounted.accounts
        allowed := accounted.allowed
        started := fun attempt member => same ▸ accounted.started attempt member
        inputs := accounted.inputs
        outputs := accounted.outputs }
  | ok output =>
      have same : startedNodes (before.run.events ++ [.nodeCompleted dag.id input.nodeId
          (.success (hashJson backend output.value) output.gasUsed)]) =
          startedNodes before.run.events := by
        rw [startedNodes_append]
        exact List.append_nil _
      have done : before.phases input.nodeId = .done (.ok output) := by
        cases phase : before.phases input.nodeId with
        | done answer =>
            rw [phase] at replied
            cases replied
            rfl
        | _ =>
            rw [phase] at replied
            cases replied
      exact {
        run := run
        fresh := fun node absent => accounted.fresh node (same ▸ absent)
        accounts := accounted.accounts
        allowed := accounted.allowed
        started := fun attempt member => same ▸ accounted.started attempt member
        inputs := by
          intro attempt member
          have seen := Invariant.seen_of_started (accounted.started attempt member)
          exact (accounted.inputs attempt member).trans
            (invariant.nodeInput_insert (invariant.inflight_fresh input inflight) output.value
              seen).symm
        outputs := by
          intro node value stored
          change (before.run.outputs.insert input.nodeId output.value)[node]? = some value
            at stored
          rw [OrderedMap.getElem?_insert_eq] at stored
          split at stored
          · rename_i here
            exact ⟨output, Option.some.inj stored, here ▸ done⟩
          · exact accounted.outputs node value stored }

theorem step (wellFormed : dag.WellFormed) {before after : Traced governor}
    (accounted : Accounted dag backend config attempts before)
    (step : TracedStep dag backend config governor timer attempts before after) :
    Accounted dag backend config attempts after := by
  cases step with
  | silent after step =>
      cases step with
      | schedule now later run advanced => exact accounted.schedule advanced
      | call now later input inflight open_ shared phase advanced =>
          have account : Account config (transcriptOf input.nodeId (before.history ++ [])) phase := by
            rw [List.append_nil]
            exact (accounted.accounts input.nodeId).advance (Phase.advanced_of_advance advanced)
          have moved := accounted.moveTo wellFormed inflight
            (fun _attempt member => absurd member List.not_mem_nil) account
            (fun node _different => by rw [List.append_nil]) now shared
          rw [List.append_nil] at moved
          exact moved
      | attempt now later input inflight open_ count backoff attempting result ended =>
          exact ended.elim
      | deliver now later position input control found result replied =>
          exact accounted.deliver wellFormed control found replied now
  | attempt now later input inflight open_ count backoff attempting result ended =>
      have account := accounted.accounts input.nodeId
      rw [attempting] at account
      have grown : transcriptOf input.nodeId (before.history ++ [⟨input, count, result⟩]) =
          transcriptOf input.nodeId before.history ++ [(count, result)] :=
        transcriptOf_append_self before.history ⟨input, count, result⟩
      refine accounted.moveTo wellFormed inflight ?_ ?_
        (fun node different => transcriptOf_append_of_ne _ different) now _
      · intro attempt member
        rw [List.mem_singleton.mp member]
        exact ⟨rfl, ended⟩
      · rw [grown]
        exact account.attempt result

theorem reachable (wellFormed : dag.WellFormed) {now : Instant} {traced : Traced governor}
    (run : Reaches (TracedStep dag backend config governor timer attempts)
      (.start dag config governor now) traced) :
    Accounted dag backend config attempts traced :=
  run.invariant (.start now) fun _before _after accounted step =>
    accounted.step wellFormed step

end Accounted

/-! ## Refinement -/

/-- For every configuration, limiter, timing and result of the attempts: the
scheduler in a run of the whole stack makes a run of the bare scheduler, in
which every call answers what its retry loop may return. -/
theorem stack_refines_scheduler (accepted : dag.Accepted) (backend : HashBackend)
    (config : ResilienceConfig) (governor : Governor) (timer : Timer) (now : Instant)
    (attempts : NodeInput -> UInt32 -> KernelResult NodeOutput -> Prop)
    (state : TimedState governor)
    (run : Reaches (TimedStep dag backend config governor timer attempts)
      (.start dag config governor now) state) :
    Reaches (Step dag backend (Reply config attempts)) (Scheduler.start dag) state.run ∧
    forall input, input ∈ state.run.inflight -> forall result,
      (state.phases input.nodeId).reply = some result -> Reply config attempts input result := by
  rcases exists_traced_run run with ⟨history, traced⟩
  have accounted := Accounted.reachable accepted.wellFormed traced
  refine ⟨accounted.run, ?_⟩
  intro input inflight result replied
  exact (accounted.accounts input.nodeId).reply
    (fun _entry member => accounted.allowed_inflight accepted.wellFormed inflight member) replied

theorem stack_refines_scheduler_pair :
    let state := (TimedState.start (Dag.pair .always) .default .gcra 0).drive
      (Dag.pair .always) .sample .default .linux (.constant .null) 30
    Reaches (Step (Dag.pair .always) .sample
        (Reply .default (attemptsOf (.constant .null)))) (Scheduler.start (Dag.pair .always))
        state.run ∧
      forall input, input ∈ state.run.inflight -> forall result,
        (state.phases input.nodeId).reply = some result ->
        Reply .default (attemptsOf (.constant .null)) input result :=
  stack_refines_scheduler (Dag.pair_accepted .always) .sample .default .gcra .linux 0 _ _
    (TimedState.drive_reaches 30 _)

/-! ## The work of a run -/

/-- The attempts of one node never outnumber the limit, so those of a run never
outnumber the limit times the nodes. -/
theorem length_le_of_transcripts {limit : Nat} {nodes : List NodeId} {history : List EndedAttempt}
    (covered : forall attempt, attempt ∈ history -> attempt.input.nodeId ∈ nodes)
    (each : forall node, node ∈ nodes -> (transcriptOf node history).length ≤ limit) :
    history.length ≤ nodes.length * limit := by
  induction nodes generalizing history with
  | nil =>
      cases history with
      | nil => exact Nat.zero_le _
      | cons attempt rest => exact absurd (covered attempt List.mem_cons_self) List.not_mem_nil
  | cons node nodes inductionHypothesis =>
      let here := fun attempt : EndedAttempt => attempt.input.nodeId == node
      have split : history.length = (history.filter here).length +
          (history.filter fun attempt => !here attempt).length := by
        rw [← List.countP_eq_length_filter, ← List.countP_eq_length_filter]
        simpa using List.length_eq_countP_add_countP here (l := history)
      have own : (history.filter here).length ≤ limit := by
        have bound := each node List.mem_cons_self
        rwa [transcriptOf, List.length_map] at bound
      have rest : (history.filter fun attempt => !here attempt).length ≤ nodes.length * limit := by
        apply inductionHypothesis
        · intro attempt member
          rcases List.mem_filter.mp member with ⟨recorded, other⟩
          rcases List.mem_cons.mp (covered attempt recorded) with same | later
          · simp [here, same] at other
          · exact later
        · intro other member
          have sublist : (transcriptOf other (history.filter fun attempt => !here attempt)).length ≤
              (transcriptOf other history).length := by
            rw [transcriptOf, transcriptOf, List.length_map, List.length_map]
            exact (List.filter_sublist.filter _).length_le
          exact Nat.le_trans sublist (each other (List.mem_cons_of_mem _ member))
      rw [List.length_cons, Nat.succ_mul]
      omega

/-- The history of a run accounts for it.  The attempts of a node are numbered
from one without a gap, all but the last have failed, and there are at most
`max(1, max_retries)` of them, all on the one final input of the node.  A node
is attempted only after it was announced.  Every output is that of the last
attempt of its node. -/
theorem attempts_account_for_run (accepted : dag.Accepted) (backend : HashBackend)
    (config : ResilienceConfig) (governor : Governor) (timer : Timer) (now : Instant)
    (attempts : NodeInput -> UInt32 -> KernelResult NodeOutput -> Prop)
    (state : TimedState governor) (history : List EndedAttempt)
    (run : Reaches (TracedStep dag backend config governor timer attempts)
      (.start dag config governor now) ⟨state, history⟩) :
    (forall node,
      (transcriptOf node history).map (fun entry => entry.1.toNat) =
        List.range' 1 (transcriptOf node history).length ∧
      (transcriptOf node history).length ≤ max 1 config.maxRetries.toNat ∧
      forall entry, entry ∈ (transcriptOf node history).dropLast ->
        ∃ error, entry.2 = .error error) ∧
    (forall attempt, attempt ∈ history ->
      attempt.input.nodeId ∈ startedNodes state.run.events ∧
      attempt.input = nodeInput dag state.run.outputs attempt.input.nodeId) ∧
    (forall (node : NodeId) (value : Value), state.run.outputs[node]? = some value ->
      ∃ output : NodeOutput, output.value = value ∧
        (transcriptOf node history).getLast?.map Prod.snd = some (.ok output)) ∧
    history.length ≤ dag.nodes.size * max 1 config.maxRetries.toNat := by
  have accounted := Accounted.reachable accepted.wellFormed run
  have invariant := Invariant.reachable accepted.wellFormed accounted.run
  refine ⟨?_, ?_, ?_, ?_⟩
  · intro node
    have account := accounted.accounts node
    exact ⟨account.numbered, account.length_le, fun _entry member => account.dropLast_failed member⟩
  · exact fun attempt member => ⟨accounted.started attempt member, accounted.inputs attempt member⟩
  · intro node value found
    rcases accounted.outputs node value found with ⟨output, same, done⟩
    have account := accounted.accounts node
    rw [done] at account
    rcases account with ⟨_, impossible | impossible⟩ | ended
    · cases impossible
    · cases impossible
    · exact ⟨output, same, ended.getLast?⟩
  · rw [← Std.ExtTreeMap.length_keys]
    apply length_le_of_transcripts
    · intro attempt member
      exact Std.ExtTreeMap.mem_keys.mpr (invariant.declared_of_seen
        (Invariant.seen_of_started (accounted.started attempt member)))
    · exact fun node _declared => (accounted.accounts node).length_le

/-- Serve one call at one instant, whether or not the run has returned. -/
def TimedState.work (config : ResilienceConfig) (timer : Timer)
    (answers : NodeInput -> UInt32 -> KernelResult NodeOutput) (input : NodeInput) :
    Nat -> TimedState governor -> TimedState governor
  | 0, state => state
  | fuel + 1, state =>
      match (state.phases input.nodeId).advance config timer state.now state.shared with
      | some (shared, phase) =>
          (state.moveTo state.now shared input.nodeId phase).work config timer answers input fuel
      | none =>
          match state.phases input.nodeId with
          | .attempting count backoff =>
              (state.moveTo state.now state.shared input.nodeId
                (Phase.afterAttempt config timer state.now count backoff
                  (answers input count))).work config timer answers input fuel
          | _ => state

theorem TimedState.work_reaches {answers : NodeInput -> UInt32 -> KernelResult NodeOutput}
    {input : NodeInput} (fuel : Nat) (state : TimedState governor)
    (inflight : input ∈ state.run.inflight) (open_ : polled state.run.control = true) :
    Reaches (TimedStep dag backend config governor timer
        fun input count result => result = answers input count) state
      (state.work config timer answers input fuel) := by
  induction fuel generalizing state with
  | zero => exact .refl
  | succ fuel inductionHypothesis =>
      rw [work]
      split
      · rename_i shared phase advanced
        exact .head (.call state.now (Nat.le_refl _) input inflight open_ shared phase advanced)
          (inductionHypothesis _ inflight open_)
      · split
        · rename_i count backoff attempting
          exact .head (.attempt state.now (Nat.le_refl _) input inflight open_ count backoff
            attempting _ rfl) (inductionHypothesis _ inflight open_)
        · exact .refl

theorem twoNodes_accepted : twoNodes.Accepted := by
  refine ⟨"two", [.node "a" (), .node "b" ()], 0, ?_⟩
  apply DagBuilder.build_ok
  · intro edge member
    cases member
  · have ranked : twoNodes.graph.Ranked fun _node => 0 := by
      rintro first second ⟨edge, member, rfl, rfl⟩
      cases member
    exact ranked.acyclic

/-- Retries without pauses. -/
def hasty : ResilienceConfig :=
  { ResilienceConfig.default with initialBackoff := 0 }

def broken (_input : NodeInput) (_count : UInt32) : KernelResult NodeOutput :=
  .error (.other "boom")

/-- The first node has failed and the run has returned its error. -/
def failedState : TimedState Governor.gcra :=
  (TimedState.start twoNodes hasty .gcra 0).serve twoNodes .sample hasty .linux broken 30

theorem failedState_inflight :
    failedState.run.inflight = [nodeInput twoNodes ∅ "a", nodeInput twoNodes ∅ "b"] := by
  rfl

/-- The call of the second node has gone on after the return. -/
def leftoverState : TimedState Governor.gcra :=
  failedState.work hasty .linux broken (nodeInput twoNodes ∅ "b") 20

theorem attempts_account_for_run_leftover :
    ∃ history : List EndedAttempt,
      leftoverState.run.control = .returned (.error (.other "boom")) ∧
      failedState.phases "b" = .checking ∧
      leftoverState.phases "b" = .done (.error (.other "boom")) ∧
      (forall node,
        (transcriptOf node history).map (fun entry => entry.1.toNat) =
          List.range' 1 (transcriptOf node history).length ∧
        (transcriptOf node history).length ≤ 3 ∧
        forall entry, entry ∈ (transcriptOf node history).dropLast ->
          ∃ error, entry.2 = .error error) ∧
      (forall attempt, attempt ∈ history ->
        attempt.input.nodeId ∈ startedNodes leftoverState.run.events ∧
        attempt.input = nodeInput twoNodes leftoverState.run.outputs attempt.input.nodeId) ∧
      (forall (node : NodeId) (value : Value), leftoverState.run.outputs[node]? = some value ->
        ∃ output : NodeOutput, output.value = value ∧
          (transcriptOf node history).getLast?.map Prod.snd = some (.ok output)) ∧
      history.length ≤ twoNodes.nodes.size * 3 := by
  have inflight : nodeInput twoNodes ∅ "b" ∈ failedState.run.inflight := by
    rw [failedState_inflight]
    exact List.mem_cons_of_mem _ List.mem_cons_self
  have run : Reaches (TimedStep twoNodes .sample hasty .gcra .linux
      fun input count result => result = broken input count) (.start twoNodes hasty .gcra 0)
      leftoverState :=
    (TimedState.serve_reaches 30 _).trans (TimedState.work_reaches 20 failedState inflight (by rfl))
  rcases exists_traced_run run with ⟨history, traced⟩
  exact ⟨history, by rfl, by rfl, by rfl, attempts_account_for_run twoNodes_accepted .sample hasty
    .gcra .linux 0 _ leftoverState history traced⟩

/-! ## Termination -/

/-- What is left of the calls in flight. -/
def TimedState.pending (config : ResilienceConfig) (state : TimedState governor) : Nat :=
  (state.run.inflight.map fun input => (state.phases input.nodeId).weight config).sum

/-- The scheduler's own measure first, then that of the calls. -/
def TimedState.outstanding (dag : Dag P) (config : ResilienceConfig) (state : TimedState governor) :
    (Nat ×ₗ Nat ×ₗ Nat) ×ₗ Nat :=
  toLex (state.run.remaining dag, state.pending config)

theorem TimedState.pending_moveTo_lt {before : TimedState governor} {input : NodeInput}
    (inflight : input ∈ before.run.inflight) {phase : Phase NodeOutput}
    (lighter : phase.weight config < (before.phases input.nodeId).weight config) (now : Instant)
    (shared : Shared governor) :
    (before.moveTo now shared input.nodeId phase).pending config < before.pending config := by
  have each : forall other : NodeInput,
      (Function.update before.phases input.nodeId phase other.nodeId).weight config ≤
        (before.phases other.nodeId).weight config := by
    intro other
    by_cases same : other.nodeId = input.nodeId
    · rw [same, Function.update_self]
      exact Nat.le_of_lt lighter
    · rw [Function.update_of_ne same]
  apply List.sum_lt_sum
  · exact fun other _member => each other
  · refine ⟨input, inflight, ?_⟩
    change (Function.update before.phases input.nodeId phase input.nodeId).weight config < _
    rw [Function.update_self]
    exact lighter

/-- A state of the stack together with some history of it. -/
def Explained (dag : Dag P) (backend : HashBackend) (config : ResilienceConfig)
    (attempts : NodeInput -> UInt32 -> KernelResult NodeOutput -> Prop)
    (state : TimedState governor) : Prop :=
  ∃ history, Accounted dag backend config attempts ⟨state, history⟩

namespace Explained

variable {before after : TimedState governor}

theorem step (wellFormed : dag.WellFormed)
    (explained : Explained dag backend config attempts before)
    (step : TimedStep dag backend config governor timer attempts before after) :
    Explained dag backend config attempts after := by
  rcases explained with ⟨history, accounted⟩
  rcases step.exists_traced history with ⟨extended, next⟩
  exact ⟨extended, accounted.step wellFormed next⟩

theorem outstanding_lt (wellFormed : dag.WellFormed)
    (explained : Explained dag backend config attempts before)
    (step : TimedStep dag backend config governor timer attempts before after) :
    after.outstanding dag config < before.outstanding dag config := by
  rcases explained with ⟨history, accounted⟩
  have invariant := Invariant.reachable wellFormed accounted.run
  cases step with
  | schedule now later run advanced =>
      have moved : Step dag backend anyResult before.run run := Or.inl advanced
      exact Prod.Lex.toLex_lt_toLex.mpr (Or.inl (invariant.remaining_lt wellFormed moved))
  | call now later input inflight open_ shared phase advanced =>
      refine Prod.Lex.toLex_lt_toLex.mpr (Or.inr ⟨rfl, ?_⟩)
      exact TimedState.pending_moveTo_lt inflight
        ((accounted.accounts input.nodeId).weight_advance (Phase.advanced_of_advance advanced))
        now shared
  | attempt now later input inflight open_ count backoff attempting result ended =>
      refine Prod.Lex.toLex_lt_toLex.mpr (Or.inr ⟨rfl, ?_⟩)
      refine TimedState.pending_moveTo_lt inflight ?_ now before.shared
      rw [attempting]
      exact weight_afterAttempt config timer now count backoff result
  | deliver now later position input control found result replied =>
      have moved : Step dag backend anyResult before.run
          (before.run.deliver dag backend position input result) :=
        Or.inr ⟨position, input, result, control, found, trivial, rfl⟩
      exact Prod.Lex.toLex_lt_toLex.mpr (Or.inl (invariant.remaining_lt wellFormed moved))

/-- A call in flight can be moved or has answered. -/
theorem progress (wellFormed : dag.WellFormed)
    (explained : Explained dag backend config attempts before)
    (ends : forall input count, ∃ result, attempts input count result)
    (running : ¬ ∃ result, before.run.control = .returned result) :
    ∃ next, TimedStep dag backend config governor timer attempts before next := by
  rcases explained with ⟨history, accounted⟩
  have invariant := Invariant.reachable wellFormed accounted.run
  have enabled : ∃ next, Step dag backend anyResult before.run next :=
    invariant.progress (fun _input => ⟨.error .rateLimited, trivial⟩) running
  rcases enabled with ⟨next, advanced | ⟨position, input, result, control, found, _, _⟩⟩
  · exact ⟨_, .schedule before.now (Nat.le_refl _) next advanced⟩
  · have inflight := List.mem_of_getElem? found
    have open_ : polled before.run.control = true := by rw [control]; rfl
    cases replied : (before.phases input.nodeId).reply with
    | some answer =>
        exact ⟨_, .deliver before.now (Nat.le_refl _) position input control found answer replied⟩
    | none =>
        rcases Phase.moves_of_reply_eq_none config timer before.now before.shared replied with
          ⟨now, later, shared, phase, advanced⟩ | ⟨count, backoff, attempting⟩
        · exact ⟨_, .call now later input inflight open_ shared phase advanced⟩
        · rcases ends input count with ⟨answer, ended⟩
          exact ⟨_, .attempt before.now (Nat.le_refl _) input inflight open_ count backoff attempting
            answer ended⟩

end Explained

/-- Every run of the stack returns, whatever the attempts do, as long as each
of them ends: in success, in an error or by its timeout.  A panic of a call
unwinds its actor and drops the reply, which the run sees as an error; in a build
that aborts on a panic the process ends instead. -/
theorem stack_returns (accepted : dag.Accepted) (backend : HashBackend)
    (config : ResilienceConfig) (governor : Governor) (timer : Timer) (now : Instant)
    (attempts : NodeInput -> UInt32 -> KernelResult NodeOutput -> Prop)
    (ends : forall input count, ∃ result, attempts input count result) :
    Inevitably (TimedStep dag backend config governor timer attempts)
      (fun state => ∃ result, state.run.control = .returned result)
      (.start dag config governor now) := by
  have wellFormed := accepted.wellFormed
  apply Inevitably.of_measure (fun state => state.outstanding dag config)
    (fun _before _after explained step => Explained.step wellFormed explained step)
  · exact fun _state explained running => explained.progress wellFormed ends running
  · exact fun _before _after explained step => explained.outstanding_lt wellFormed step
  · exact ⟨[], .start now⟩

theorem stack_returns_pair :
    Inevitably (TimedStep (Dag.pair .always) .sample .default .gcra .linux
        (attemptsOf (.constant .null)))
      (fun state => ∃ result, state.run.control = .returned result)
      (.start (Dag.pair .always) .default .gcra 0) :=
  stack_returns (Dag.pair_accepted .always) .sample .default .gcra .linux 0 _
    fun _input _count => ⟨_, rfl⟩

end Resilience
end KernelFlow
