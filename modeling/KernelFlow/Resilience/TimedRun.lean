import Mathlib
import KernelFlow.Resilience.Executor
import KernelFlow.Scheduler.Agreement

namespace KernelFlow
namespace Resilience

open Transition Scheduler

/-!
# A scheduler run with its executor

The run of the scheduler, one executor machine for every node call, the shared
limiter and breaker, and a clock.  Every step happens at an instant that is not
earlier than the previous one, so every timing of the actors is a run here.
Actors work from the first poll of their batch on: while the ready list is
drained no call of the batch has been polled yet.  They are tasks of their own,
so a call that is in flight when the run returns an error goes on after the
return, with its retries and its reports to the breaker.

For nodes that succeed at once under conditions that hold, the only thing that
can go wrong is the limiter.  It counts one check per node, all against one
quota, so such a workflow is safe from it exactly when it has no more nodes than
the quota.
-/

variable {P : Type} {dag : Dag P} {backend : HashBackend} {config : ResilienceConfig}
  {governor : Governor} {timer : Timer} {sem : NodeSemantics}

structure TimedState (governor : Governor) where
  run : RunState
  shared : Shared governor
  now : Instant
  phases : NodeId -> Phase NodeOutput

/-- The calls in flight have been polled. -/
def polled : Control -> Bool
  | .awaiting => true
  | .unlocking _ _ => true
  | .returned _ => true
  | _ => false

namespace TimedState

def start (dag : Dag P) (config : ResilienceConfig) (governor : Governor) (now : Instant) :
    TimedState governor where
  run := Scheduler.start dag
  shared := .new config governor
  now := now
  phases := fun _node => .checking

/-- The call of one node moves to another phase. -/
def moveTo (state : TimedState governor) (now : Instant) (shared : Shared governor)
    (node : NodeId) (phase : Phase NodeOutput) : TimedState governor :=
  { state with
    shared := shared
    now := now
    phases := Function.update state.phases node phase }

/-- The scheduler itself moves. -/
def withRun (state : TimedState governor) (now : Instant) (run : RunState) :
    TimedState governor :=
  { state with run := run, now := now }

end TimedState

/-- One step of the scheduler, of a call, of a closure, or the delivery of a
reply. -/
inductive TimedStep (dag : Dag P) (backend : HashBackend) (config : ResilienceConfig)
    (governor : Governor) (timer : Timer)
    (attempts : NodeInput -> UInt32 -> KernelResult NodeOutput -> Prop)
    (before : TimedState governor) : TimedState governor -> Prop
  | schedule (now : Instant) (later : before.now ≤ now) (run : RunState)
      (advanced : before.run.advance dag backend = some run) :
      TimedStep dag backend config governor timer attempts before (before.withRun now run)
  | call (now : Instant) (later : before.now ≤ now) (input : NodeInput)
      (inflight : input ∈ before.run.inflight) (open_ : polled before.run.control = true)
      (shared : Shared governor) (phase : Phase NodeOutput)
      (advanced : (before.phases input.nodeId).advance config timer now before.shared =
        some (shared, phase)) :
      TimedStep dag backend config governor timer attempts before
        (before.moveTo now shared input.nodeId phase)
  | attempt (now : Instant) (later : before.now ≤ now) (input : NodeInput)
      (inflight : input ∈ before.run.inflight) (open_ : polled before.run.control = true)
      (count : UInt32) (backoff : Duration)
      (attempting : before.phases input.nodeId = .attempting count backoff)
      (result : KernelResult NodeOutput) (ended : attempts input count result) :
      TimedStep dag backend config governor timer attempts before
        (before.moveTo now before.shared input.nodeId
          (Phase.afterAttempt config timer now count backoff result))
  | deliver (now : Instant) (later : before.now ≤ now) (position : Nat) (input : NodeInput)
      (control : before.run.control = .awaiting)
      (found : before.run.inflight[position]? = some input) (result : KernelResult NodeOutput)
      (replied : (before.phases input.nodeId).reply = some result) :
      TimedStep dag backend config governor timer attempts before
        (before.withRun now (before.run.deliver dag backend position input result))

/-- Every attempt ends in time with the result of the node. -/
def attemptsOf (sem : NodeSemantics) : NodeInput -> UInt32 -> KernelResult NodeOutput -> Prop :=
  fun input _count result => result = sem input.nodeId input.parents

/-! ## Runs of healthy nodes -/

/-- A phase that the call of a healthy node can be in. -/
def HealthyPhase (sem : NodeSemantics) (input : NodeInput) : Phase NodeOutput -> Prop
  | .checking => True
  | .admitted => True
  | .allowed => True
  | .attempting _ _ => True
  | .sleeping _ _ _ => False
  | .recording result => ∃ output, result = .ok output ∧
      sem input.nodeId input.parents = .ok output
  | .done result => (∃ output, result = .ok output ∧
      sem input.nodeId input.parents = .ok output) ∨ result = .error .rateLimited
  | .panicked => False

/-- The call has been refused by the limiter. -/
def Refused (phase : Phase NodeOutput) : Prop :=
  phase = .done (.error .rateLimited)

/-- The phase after the check of the limiter. -/
def afterCheck (admitted : Bool) : Phase NodeOutput :=
  if admitted then .admitted else .done (.error .rateLimited)

/-- The state of a run of healthy nodes as long as no refusal has been
delivered.  The two lists are history: the nodes whose calls have been checked
by the limiter, and the instants of these checks. -/
structure Calm (dag : Dag P) (backend : HashBackend) (config : ResilienceConfig)
    (sem : NodeSemantics) (state : TimedState governor) (checked : List NodeId)
    (times : List Instant) : Prop where
  run : Reaches (Step dag backend (callsOf sem)) (Scheduler.start dag) state.run
  closed : state.shared.breaker.openUntil = none
  phases : forall input, input ∈ state.run.inflight ->
    HealthyPhase sem input (state.phases input.nodeId)
  completed : forall node, node ∈ state.run.outputs ->
    ∃ output, state.phases node = .done (.ok output)
  limiter : state.shared.limiter =
    governor.checks (governor.direct (max 1 config.rps.toNat)) times
  length : times.length = checked.length
  ordered : (times ++ [state.now]).Pairwise (· ≤ ·)
  nodup : checked.Nodup
  started : forall node, node ∈ checked -> node ∈ startedNodes state.run.events
  checked_iff : forall node, node ∈ checked ↔ state.phases node ≠ .checking

/-- What a step of such a run can be. -/
inductive HealthyMove (dag : Dag P) (backend : HashBackend) (governor : Governor)
    (sem : NodeSemantics) (before : TimedState governor) : TimedState governor -> Prop
  | schedule (now : Instant) (later : before.now ≤ now) (run : RunState)
      (advanced : before.run.advance dag backend = some run) :
      HealthyMove dag backend governor sem before (before.withRun now run)
  | check (now : Instant) (later : before.now ≤ now) (input : NodeInput)
      (inflight : input ∈ before.run.inflight)
      (checking : before.phases input.nodeId = .checking) :
      HealthyMove dag backend governor sem before (before.moveTo now
        { before.shared with limiter := (governor.check before.shared.limiter now).2 }
        input.nodeId (afterCheck (governor.check before.shared.limiter now).1))
  | work (now : Instant) (later : before.now ≤ now) (input : NodeInput)
      (inflight : input ∈ before.run.inflight)
      (past : before.phases input.nodeId ≠ .checking) (shared : Shared governor)
      (limiter : shared.limiter = before.shared.limiter)
      (closed : shared.breaker.openUntil = none) (phase : Phase NodeOutput)
      (healthy : HealthyPhase sem input phase) (still : phase ≠ .checking)
      (kept : Refused phase ↔ Refused (before.phases input.nodeId))
      (undone : forall result, before.phases input.nodeId ≠ .done result)
      (lower : phase.rank < (before.phases input.nodeId).rank) :
      HealthyMove dag backend governor sem before
        (before.moveTo now shared input.nodeId phase)
  | answer (now : Instant) (later : before.now ≤ now) (position : Nat) (input : NodeInput)
      (output : NodeOutput) (control : before.run.control = .awaiting)
      (found : before.run.inflight[position]? = some input)
      (done : before.phases input.nodeId = .done (.ok output))
      (called : callsOf sem input (.ok output)) :
      HealthyMove dag backend governor sem before
        (before.withRun now (before.run.deliver dag backend position input (.ok output)))
  | refuse (now : Instant) (position : Nat) (input : NodeInput)
      (control : before.run.control = .awaiting)
      (found : before.run.inflight[position]? = some input)
      (refused : Refused (before.phases input.nodeId)) :
      HealthyMove dag backend governor sem before (before.withRun now
        (before.run.deliver dag backend position input (.error .rateLimited)))

/-- A healthy node answers every call that is in flight. -/
theorem answer_of_inflight (wellFormed : dag.WellFormed) (succeed : AllSucceed dag sem)
    {state : RunState} (run : Reaches (Step dag backend (callsOf sem)) (Scheduler.start dag) state)
    {input : NodeInput} (inflight : input ∈ state.inflight) :
    ∃ output, sem input.nodeId input.parents = .ok output := by
  cases answer : sem input.nodeId input.parents with
  | ok output => exact ⟨output, rfl⟩
  | error error =>
      exact absurd (evaluates_of_failed wellFormed run inflight answer.symm) (succeed _ _)

namespace Calm

variable {before after : TimedState governor} {checked : List NodeId} {times : List Instant}

/-- A step of the executor, without a sleep and without an open breaker. -/
theorem move_call (calm : Calm dag backend config sem before checked times) {now : Instant}
    (later : before.now ≤ now) {input : NodeInput} (inflight : input ∈ before.run.inflight)
    {shared : Shared governor} {phase : Phase NodeOutput}
    (advanced : (before.phases input.nodeId).advance config timer now before.shared =
      some (shared, phase)) :
    HealthyMove dag backend governor sem before (before.moveTo now shared input.nodeId phase) := by
  have healthy := calm.phases input inflight
  have moved := Phase.advanced_of_advance advanced
  generalize position : before.phases input.nodeId = old at moved healthy
  cases moved with
  | passed admitted =>
      have step : HealthyMove dag backend governor sem before _ :=
        .check now later input inflight position
      rw [admitted] at step
      exact step
  | limited refused =>
      have step : HealthyMove dag backend governor sem before _ :=
        .check now later input inflight position
      rw [refused] at step
      exact step
  | allowed closed =>
      have stays : (before.shared.breaker.allow now).2.openUntil = none := by
        rw [CircuitBreaker.allow, calm.closed]
        exact calm.closed
      exact .work now later input inflight (by simp [position])
        ⟨before.shared.limiter, (before.shared.breaker.allow now).2⟩ rfl stays
        .allowed trivial (by simp) (by simp [Refused, position])
        (by simp [position]) (by rw [position]; exact Nat.lt_succ_self _)
  | refused blocked =>
      rw [CircuitBreaker.allow, calm.closed] at blocked
      cases blocked
  | entered =>
      exact .work now later input inflight (by simp [position]) before.shared rfl calm.closed
        (.attempting 1 config.initialBackoff) trivial (by simp) (by simp [Refused, position])
        (by simp [position]) (by rw [position]; exact Nat.lt_succ_self _)
  | woken attempt backoff wake awake doubled counted => exact healthy.elim
  | overflowed attempt backoff wake awake overflow => exact healthy.elim
  | succeeded value =>
      rcases healthy with ⟨output, same, answer⟩
      cases same
      exact .work now later input inflight (by simp [position])
        ⟨before.shared.limiter, before.shared.breaker.onSuccess⟩ rfl calm.closed
        (.done (.ok value)) (Or.inl ⟨value, rfl, answer⟩) (by simp)
        (by simp [Refused, position]) (by simp [position])
        (by rw [position]; exact Nat.lt_succ_self _)
  | failed error fits =>
      rcases healthy with ⟨output, impossible, _⟩
      cases impossible
  | unrepresentable error reached beyond =>
      rcases healthy with ⟨output, impossible, _⟩
      cases impossible

/-- A delivered reply is the answer of the node or a refusal. -/
theorem move_deliver (calm : Calm dag backend config sem before checked times) {now : Instant}
    (later : before.now ≤ now) {position : Nat} {input : NodeInput}
    (control : before.run.control = .awaiting)
    (found : before.run.inflight[position]? = some input) {result : KernelResult NodeOutput}
    (replied : (before.phases input.nodeId).reply = some result) :
    HealthyMove dag backend governor sem before
      (before.withRun now (before.run.deliver dag backend position input result)) := by
  have healthy := calm.phases input (List.mem_of_getElem? found)
  cases phase : before.phases input.nodeId with
  | done reply =>
      rw [phase] at healthy replied
      simp only [Phase.reply, Option.some.injEq] at replied
      subst replied
      rcases healthy with ⟨output, rfl, answer⟩ | rfl
      · exact .answer now later position input output control found phase answer.symm
      · exact .refuse now position input control found phase
  | panicked =>
      rw [phase] at healthy
      exact healthy.elim
  | _ =>
      rw [phase] at replied
      cases replied

theorem move (wellFormed : dag.WellFormed) (succeed : AllSucceed dag sem)
    (calm : Calm dag backend config sem before checked times)
    (step : TimedStep dag backend config governor timer (attemptsOf sem) before after) :
    HealthyMove dag backend governor sem before after := by
  cases step with
  | schedule now later run advanced => exact .schedule now later run advanced
  | call now later input inflight open_ shared phase advanced =>
      exact calm.move_call later inflight advanced
  | attempt now later input inflight open_ count backoff attempting result ended =>
      rcases answer_of_inflight wellFormed succeed calm.run inflight with ⟨output, answer⟩
      have same : result = .ok output := ended.trans answer
      subst same
      exact .work now later input inflight (by simp [attempting]) _ rfl calm.closed
        (.recording (.ok output)) ⟨output, rfl, answer⟩ (by simp) (by simp [Refused, attempting])
        (by simp [attempting])
        (by rw [attempting]; exact Nat.lt_succ_self _)
  | deliver now later position input control found result replied =>
      exact calm.move_deliver later control found replied

/-! ### What the moves preserve -/

/-- A node whose call has not been announced has not been checked. -/
theorem checking_of_not_started (calm : Calm dag backend config sem before checked times)
    {node : NodeId} (fresh : node ∉ startedNodes before.run.events) :
    before.phases node = .checking := by
  by_contra past
  exact fresh (calm.started node ((calm.checked_iff node).mpr past))

theorem schedule (wellFormed : dag.WellFormed)
    (calm : Calm dag backend config sem before checked times) {now : Instant}
    (later : before.now ≤ now) {run : RunState}
    (advanced : before.run.advance dag backend = some run) :
    Calm dag backend config sem (before.withRun now run) checked times := by
  rcases RunState.advance_frame advanced with ⟨outputs, inflight, events, appended⟩
  have invariant := Invariant.reachable wellFormed calm.run
  exact {
    run := calm.run.tail (Or.inl advanced)
    closed := calm.closed
    phases := by
      intro input member
      change input ∈ run.inflight at member
      change HealthyPhase sem input (before.phases input.nodeId)
      rcases inflight with same | ⟨node, queued, extended⟩
      · exact calm.phases input (same ▸ member)
      · rw [extended] at member
        rcases List.mem_append.mp member with old | new
        · exact calm.phases input old
        · rw [List.mem_singleton.mp new]
          have fresh := invariant.not_started_of_queued queued
          change HealthyPhase sem _ (before.phases node)
          rw [calm.checking_of_not_started fresh]
          exact trivial
    completed := by
      change forall node, node ∈ run.outputs -> _
      rw [outputs]
      exact calm.completed
    limiter := calm.limiter
    length := calm.length
    ordered := ordered_later calm.ordered later
    nodup := calm.nodup
    started := by
      intro node member
      change node ∈ startedNodes run.events
      rw [appended, startedNodes_append]
      exact List.mem_append_left _ (calm.started node member)
    checked_iff := calm.checked_iff }

/-- A call in flight that moves to a healthy phase leaves all of them healthy. -/
theorem phases_moved (wellFormed : dag.WellFormed)
    (calm : Calm dag backend config sem before checked times) {input other : NodeInput}
    (inflight : input ∈ before.run.inflight) {phase : Phase NodeOutput}
    (healthy : HealthyPhase sem input phase) (member : other ∈ before.run.inflight) :
    HealthyPhase sem other (Function.update before.phases input.nodeId phase other.nodeId) := by
  have invariant := Invariant.reachable wellFormed calm.run
  by_cases same : other.nodeId = input.nodeId
  · have equal : other = input := by
      rw [invariant.inflight_input other member, same, ← invariant.inflight_input input inflight]
    rw [equal, Function.update_self]
    exact healthy
  · rw [Function.update_of_ne same]
    exact calm.phases other member

/-- It leaves the calls of completed nodes as they are. -/
theorem completed_moved (wellFormed : dag.WellFormed)
    (calm : Calm dag backend config sem before checked times) {input : NodeInput}
    (inflight : input ∈ before.run.inflight) (phase : Phase NodeOutput) {node : NodeId}
    (output : node ∈ before.run.outputs) :
    ∃ result, Function.update before.phases input.nodeId phase node = .done (.ok result) := by
  have invariant := Invariant.reachable wellFormed calm.run
  have different : node ≠ input.nodeId := by
    intro same
    exact invariant.inflight_fresh input inflight (same ▸ output)
  rcases calm.completed node output with ⟨result, done⟩
  exact ⟨result, (Function.update_of_ne different _ _).trans done⟩

theorem check (wellFormed : dag.WellFormed)
    (calm : Calm dag backend config sem before checked times) {now : Instant}
    (later : before.now ≤ now) {input : NodeInput} (inflight : input ∈ before.run.inflight)
    (checking : before.phases input.nodeId = .checking) :
    Calm dag backend config sem (before.moveTo now
        { before.shared with limiter := (governor.check before.shared.limiter now).2 }
        input.nodeId (afterCheck (governor.check before.shared.limiter now).1))
      (input.nodeId :: checked) (times ++ [now]) := by
  have invariant := Invariant.reachable wellFormed calm.run
  have unchecked : input.nodeId ∉ checked := fun member =>
    (calm.checked_iff input.nodeId).mp member checking
  have past : afterCheck (governor.check before.shared.limiter now).1 ≠ .checking := by
    cases (governor.check before.shared.limiter now).1 <;> simp [afterCheck]
  have healthy : HealthyPhase sem input
      (afterCheck (governor.check before.shared.limiter now).1) := by
    cases (governor.check before.shared.limiter now).1
    · exact Or.inr rfl
    · exact trivial
  exact {
    run := calm.run
    closed := calm.closed
    phases := fun _other member => calm.phases_moved wellFormed inflight healthy member
    completed := fun _node output => calm.completed_moved wellFormed inflight _ output
    limiter := by
      rw [Governor.checks_append, ← calm.limiter]
      rfl
    length := by
      rw [List.length_append, calm.length]
      rfl
    ordered := by
      refine List.pairwise_append.mpr
        ⟨ordered_later calm.ordered later, List.pairwise_singleton _ _, ?_⟩
      intro time member last single
      rw [List.mem_singleton.mp single]
      rcases List.mem_append.mp member with old | new
      · have bound := (List.pairwise_append.mp calm.ordered).2.2 time old before.now
          List.mem_cons_self
        exact Nat.le_trans bound later
      · exact Nat.le_of_eq (List.mem_singleton.mp new)
    nodup := List.nodup_cons.mpr ⟨unchecked, calm.nodup⟩
    started := by
      intro node member
      rcases List.mem_cons.mp member with rfl | old
      · exact (invariant.started_iff _).mpr (Or.inr (List.mem_map_of_mem inflight))
      · exact calm.started node old
    checked_iff := by
      intro node
      change _ ↔ Function.update before.phases input.nodeId _ node ≠ .checking
      rw [List.mem_cons]
      by_cases same : node = input.nodeId
      · rw [same, Function.update_self]
        exact iff_of_true (Or.inl rfl) past
      · rw [Function.update_of_ne same, ← calm.checked_iff node]
        exact or_iff_right same }

theorem work (wellFormed : dag.WellFormed)
    (calm : Calm dag backend config sem before checked times) {now : Instant}
    (later : before.now ≤ now) {input : NodeInput} (inflight : input ∈ before.run.inflight)
    (past : before.phases input.nodeId ≠ .checking) {shared : Shared governor}
    (limiter : shared.limiter = before.shared.limiter)
    (closed : shared.breaker.openUntil = none) {phase : Phase NodeOutput}
    (healthy : HealthyPhase sem input phase) (still : phase ≠ .checking) :
    Calm dag backend config sem (before.moveTo now shared input.nodeId phase) checked times where
  run := calm.run
  closed := closed
  phases := fun _other member => calm.phases_moved wellFormed inflight healthy member
  completed := fun _node output => calm.completed_moved wellFormed inflight phase output
  limiter := limiter.trans calm.limiter
  length := calm.length
  ordered := ordered_later calm.ordered later
  nodup := calm.nodup
  started := calm.started
  checked_iff := by
    intro node
    change _ ↔ Function.update before.phases input.nodeId _ node ≠ .checking
    by_cases same : node = input.nodeId
    · rw [same, Function.update_self, calm.checked_iff]
      exact iff_of_true past still
    · rw [Function.update_of_ne same]
      exact calm.checked_iff node

theorem answer (calm : Calm dag backend config sem before checked times) {now : Instant}
    (later : before.now ≤ now) {position : Nat} {input : NodeInput} {output : NodeOutput}
    (control : before.run.control = .awaiting)
    (found : before.run.inflight[position]? = some input)
    (done : before.phases input.nodeId = .done (.ok output))
    (called : callsOf sem input (.ok output)) :
    Calm dag backend config sem
      (before.withRun now (before.run.deliver dag backend position input (.ok output)))
      checked times where
  run := calm.run.tail (Or.inr ⟨position, input, _, control, found, called, rfl⟩)
  closed := calm.closed
  phases := fun other member => calm.phases other (List.mem_of_mem_eraseIdx member)
  completed := by
    intro node member
    rcases (OrderedMap.mem_insert_eq _ _ _ _).mp member with rfl | old
    · exact ⟨output, done⟩
    · exact calm.completed node old
  limiter := calm.limiter
  length := calm.length
  ordered := ordered_later calm.ordered later
  nodup := calm.nodup
  started := by
    intro node member
    change node ∈ startedNodes (before.run.events ++ [_])
    rw [startedNodes_append]
    exact List.mem_append_left _ (calm.started node member)
  checked_iff := calm.checked_iff

theorem start (now : Instant) :
    Calm dag backend config sem (.start dag config governor now) [] [] where
  run := .refl
  closed := rfl
  phases := by
    intro input member
    exact trivial
  completed := by
    intro node member
    change node ∈ (Scheduler.start dag).outputs at member
    unfold Scheduler.start at member
    split at member <;> simp at member
  limiter := rfl
  length := rfl
  ordered := List.pairwise_singleton _ _
  nodup := List.nodup_nil
  started := fun _node absent => nomatch absent
  checked_iff := by
    intro node
    simp [TimedState.start]

/-- The checks so far belong to different nodes of the graph. -/
theorem length_le (wellFormed : dag.WellFormed)
    (calm : Calm dag backend config sem before checked times) :
    checked.length ≤ dag.nodes.size := by
  have invariant := Invariant.reachable wellFormed calm.run
  rw [← Std.ExtTreeMap.length_keys]
  refine (calm.nodup.subperm fun node member => ?_).length_le
  exact Std.ExtTreeMap.mem_keys.mpr (invariant.declared_of_seen
    (Invariant.seen_of_started (calm.started node member)))

/-- As long as the run has not returned, something can happen at once. -/
theorem progress (wellFormed : dag.WellFormed)
    (calm : Calm dag backend config sem before checked times)
    (running : ¬ ∃ result, before.run.control = .returned result) :
    ∃ next, TimedStep dag backend config governor timer (attemptsOf sem) before next ∧
      next.now = before.now := by
  have invariant := Invariant.reachable wellFormed calm.run
  by_cases waiting : before.run.control = .awaiting ∧ before.run.inflight ≠ []
  · rcases waiting with ⟨control, nonempty⟩
    rcases List.exists_mem_of_ne_nil _ nonempty with ⟨input, inflight⟩
    have open_ : polled before.run.control = true := by rw [control]; rfl
    have healthy := calm.phases input inflight
    cases phase : before.phases input.nodeId with
    | checking =>
        exact ⟨_, .call before.now (Nat.le_refl _) input inflight open_ _ _
          (by rw [phase]; rfl), rfl⟩
    | admitted =>
        exact ⟨_, .call before.now (Nat.le_refl _) input inflight open_ _ _
          (by rw [phase]; rfl), rfl⟩
    | allowed =>
        exact ⟨_, .call before.now (Nat.le_refl _) input inflight open_ _ _
          (by rw [phase]; rfl), rfl⟩
    | attempting count backoff =>
        exact ⟨_, .attempt before.now (Nat.le_refl _) input inflight open_ count backoff phase _ rfl,
          rfl⟩
    | sleeping count backoff wake =>
        rw [phase] at healthy
        exact healthy.elim
    | recording result =>
        rw [phase] at healthy
        rcases healthy with ⟨output, rfl, _answer⟩
        exact ⟨_, .call before.now (Nat.le_refl _) input inflight open_ _ _
          (by rw [phase]; rfl), rfl⟩
    | done result =>
        rcases List.mem_iff_getElem?.mp inflight with ⟨position, found⟩
        exact ⟨_, .deliver before.now (Nat.le_refl _) position input control found result
          (by rw [phase]; rfl), rfl⟩
    | panicked =>
        rw [phase] at healthy
        exact healthy.elim
  · have never : forall input : NodeInput, ∃ result, anyResult input result :=
      fun _input => ⟨.error .rateLimited, trivial⟩
    have move : ∃ next, Step dag backend anyResult before.run next :=
      invariant.progress never running
    rcases move with ⟨next, advanced | delivered⟩
    · exact ⟨_, .schedule before.now (Nat.le_refl _) next advanced, rfl⟩
    · rcases delivered with ⟨position, input, result, control, found, _⟩
      exact absurd ⟨control, List.ne_nil_of_mem (List.mem_of_getElem? found)⟩ waiting

end Calm

/-! ## Within the quota -/

/-- The termination measure: what the scheduler has left to do, then what the
calls in flight have left. -/
def TimedState.remaining (state : TimedState governor) (dag : Dag P) :
    (Nat ×ₗ Nat ×ₗ Nat) ×ₗ Nat :=
  toLex (state.run.remaining dag,
    (state.run.inflight.map fun input => (state.phases input.nodeId).rank).sum)

private theorem remaining_lt_of_run {before after : TimedState governor}
    (fewer : after.run.remaining dag < before.run.remaining dag) :
    after.remaining dag < before.remaining dag :=
  Prod.Lex.toLex_lt_toLex.mpr (Or.inl fewer)

private theorem remaining_lt_of_moveTo {before : TimedState governor} {now : Instant}
    {shared : Shared governor} {input : NodeInput} {phase : Phase NodeOutput}
    (inflight : input ∈ before.run.inflight)
    (lower : phase.rank < (before.phases input.nodeId).rank) :
    (before.moveTo now shared input.nodeId phase).remaining dag < before.remaining dag := by
  refine Prod.Lex.toLex_lt_toLex.mpr (Or.inr ⟨rfl, ?_⟩)
  refine List.sum_lt_sum _ _ ?_ ⟨input, inflight, ?_⟩
  · intro other _member
    change (Function.update before.phases input.nodeId phase other.nodeId).rank ≤ _
    by_cases same : other.nodeId = input.nodeId
    · rw [same, Function.update_self]
      exact Nat.le_of_lt lower
    · rw [Function.update_of_ne same]
  · change (Function.update before.phases input.nodeId phase input.nodeId).rank < _
    rw [Function.update_self]
    exact lower

/-- A calm state in which no call has been refused. -/
def Unrefused (dag : Dag P) (backend : HashBackend) (config : ResilienceConfig)
    (sem : NodeSemantics) (state : TimedState governor) : Prop :=
  (∃ checked times, Calm dag backend config sem state checked times) ∧
    forall node, ¬ Refused (state.phases node)

private theorem not_refused_update {phases : NodeId -> Phase NodeOutput}
    (unrefused : forall node, ¬ Refused (phases node)) {moved : NodeId} {phase : Phase NodeOutput}
    (fine : ¬ Refused phase) (node : NodeId) :
    ¬ Refused (Function.update phases moved phase node) := by
  by_cases same : node = moved
  · rw [same, Function.update_self]
    exact fine
  · rw [Function.update_of_ne same]
    exact unrefused node

/-- With a quota for every node no check is ever refused, and every step brings
the return nearer. -/
theorem Unrefused.step (wellFormed : dag.WellFormed) (succeed : AllSucceed dag sem)
    (limits : governor.PerSecond (max 1 config.rps.toNat))
    (enough : dag.nodes.size ≤ max 1 config.rps.toNat) {before after : TimedState governor}
    (unrefused : Unrefused dag backend config sem before)
    (step : TimedStep dag backend config governor timer (attemptsOf sem) before after) :
    Unrefused dag backend config sem after ∧ after.remaining dag < before.remaining dag := by
  rcases unrefused with ⟨⟨checked, times, calm⟩, none⟩
  have invariant := Invariant.reachable wellFormed calm.run
  cases calm.move wellFormed succeed step with
  | schedule now later run advanced =>
      have moved : Step dag backend (callsOf sem) before.run run := Or.inl advanced
      exact ⟨⟨⟨checked, times, calm.schedule wellFormed later advanced⟩, none⟩,
        remaining_lt_of_run (invariant.remaining_lt wellFormed moved)⟩
  | check now later input inflight checking =>
      have kept := calm.check wellFormed later inflight checking
      have fits : times.length < max 1 config.rps.toNat := by
        have bound := kept.length_le wellFormed
        rw [List.length_cons] at bound
        have same := calm.length
        omega
      have admitted : (governor.check before.shared.limiter now).1 = true := by
        rw [calm.limiter]
        exact limits.admits times now (ordered_later calm.ordered later) fits
      rw [admitted] at kept ⊢
      refine ⟨⟨⟨_, _, kept⟩, ?_⟩, remaining_lt_of_moveTo inflight ?_⟩
      · apply not_refused_update none
        intro refused
        cases refused
      · rw [checking]
        exact Nat.lt_succ_self _
  | work now later input inflight past shared limiter closed phase healthy still kept undone lower =>
      refine ⟨⟨⟨checked, times, calm.work wellFormed later inflight past limiter closed healthy
        still⟩, ?_⟩, remaining_lt_of_moveTo inflight lower⟩
      apply not_refused_update none
      intro refused
      exact none _ (kept.mp refused)
  | answer now later position input output control found done called =>
      have moved : Step dag backend (callsOf sem) before.run
          (before.run.deliver dag backend position input (.ok output)) :=
        Or.inr ⟨position, input, _, control, found, called, rfl⟩
      exact ⟨⟨⟨checked, times, calm.answer later control found done called⟩, none⟩,
        remaining_lt_of_run (invariant.remaining_lt wellFormed moved)⟩
  | refuse now position input control found refused => exact absurd refused (none _)

theorem returns_ok_of_le (wellFormed : dag.WellFormed) (succeed : AllSucceed dag sem)
    (reached : forall node, node ∈ dag.nodes -> Reached dag sem node)
    (limits : governor.PerSecond (max 1 config.rps.toNat))
    (enough : dag.nodes.size ≤ max 1 config.rps.toNat) (now : Instant) :
    Inevitably (TimedStep dag backend config governor timer (attemptsOf sem))
      (fun state => ∃ hash, state.run.control = .returned (.ok hash))
      (.start dag config governor now) := by
  have initially : Unrefused dag backend config sem (.start dag config governor now) :=
    ⟨⟨[], [], .start now⟩, fun _node impossible => nomatch impossible⟩
  have keeps : forall before after, Unrefused dag backend config sem before ->
      TimedStep dag backend config governor timer (attemptsOf sem) before after ->
      Unrefused dag backend config sem after := fun _before _after unrefused step =>
    (unrefused.step wellFormed succeed limits enough step).1
  have returned : Inevitably (TimedStep dag backend config governor timer (attemptsOf sem))
      (fun state => ∃ result, state.run.control = .returned result)
      (.start dag config governor now) := by
    refine Inevitably.of_measure (fun state => state.remaining dag) keeps ?_ ?_ _ initially
    · rintro state ⟨⟨checked, times, calm⟩, _none⟩ running
      rcases calm.progress wellFormed running with ⟨next, step, _⟩
      exact ⟨next, step⟩
    · exact fun _before _after unrefused step =>
        (unrefused.step wellFormed succeed limits enough step).2
  apply (returned.and_invariant initially keeps).mono
  rintro state ⟨⟨⟨checked, times, calm⟩, _none⟩, result, control⟩
  have agreement := agreement_of_returned wellFormed calm.run control
  rw [agreement.completed succeed reached] at control
  exact ⟨_, control⟩

/-! ## Beyond the quota -/

/-- After the return only calls move. -/
theorem returned_stays {attempts : NodeInput -> UInt32 -> KernelResult NodeOutput -> Prop}
    {before after : TimedState governor} {result : KernelResult String}
    (returned : before.run.control = .returned result)
    (step : TimedStep dag backend config governor timer attempts before after) :
    after.run = before.run := by
  cases step with
  | schedule time later run advanced =>
      rw [RunState.advance, returned] at advanced
      cases advanced
  | call => rfl
  | attempt => rfl
  | deliver time later position input control =>
      rw [returned] at control
      cases control

/-- All checks so far happened at one instant, and a check beyond the quota has
been refused. -/
structure AtOnce (config : ResilienceConfig) (state : TimedState governor) (now : Instant)
    (checked : List NodeId) (times : List Instant) : Prop where
  instant : state.now = now
  times : times = List.replicate checked.length now
  refused : max 1 config.rps.toNat < checked.length ->
    ∃ node ∈ checked, Refused (state.phases node)

/-- A check at the same instant: the one that exceeds the quota is refused. -/
theorem AtOnce.check (limits : governor.PerSecond (max 1 config.rps.toNat))
    {before : TimedState governor} {now : Instant} {checked : List NodeId} {times : List Instant}
    (calm : Calm dag backend config sem before checked times)
    (atOnce : AtOnce config before now checked times) {input : NodeInput}
    (checking : before.phases input.nodeId = .checking) :
    AtOnce config (before.moveTo now
        { before.shared with limiter := (governor.check before.shared.limiter now).2 }
        input.nodeId (afterCheck (governor.check before.shared.limiter now).1)) now
      (input.nodeId :: checked) (times ++ [now]) where
  instant := rfl
  times := by
    rw [atOnce.times, List.length_cons, List.replicate_succ']
  refused := by
    intro beyond
    rw [List.length_cons] at beyond
    by_cases exceeded : max 1 config.rps.toNat < checked.length
    · rcases atOnce.refused exceeded with ⟨node, member, refused⟩
      have different : node ≠ input.nodeId := by
        rintro rfl
        exact (calm.checked_iff _).mp member checking
      exact ⟨node, List.mem_cons_of_mem _ member,
        (Function.update_of_ne different _ _).trans refused⟩
    · have full : checked.length = max 1 config.rps.toNat := by omega
      have answer := limits.refuses now
      rw [← full, ← atOnce.times, full, ← calm.limiter] at answer
      refine ⟨input.nodeId, List.mem_cons_self, (Function.update_self _ _ _).trans ?_⟩
      rw [answer]
      rfl

/-- A run with too many nodes whose checks all happened at one instant has not
returned `Ok`: one of its calls was refused. -/
theorem AtOnce.not_returned_ok (wellFormed : dag.WellFormed)
    (tooMany : max 1 config.rps.toNat < dag.nodes.size) {state : TimedState governor}
    {now : Instant} {checked : List NodeId} {times : List Instant}
    (calm : Calm dag backend config sem state checked times)
    (atOnce : AtOnce config state now checked times) (hash : String) :
    state.run.control ≠ .returned (.ok hash) := by
  intro control
  have outputs := (completed_of_returned wellFormed calm.run control).2
  have done : forall node, node ∈ dag.nodes -> ∃ output, state.phases node = .done (.ok output) :=
    fun node declared => calm.completed node ((outputs node).mpr declared)
  have all : dag.nodes.size ≤ checked.length := by
    rw [← Std.ExtTreeMap.length_keys]
    refine ((Std.ExtTreeMap.nodup_keys (t := dag.nodes)).subperm fun node member => ?_).length_le
    rcases done node (Std.ExtTreeMap.mem_keys.mp member) with ⟨output, phase⟩
    exact (calm.checked_iff node).mpr (by rw [phase]; exact fun impossible => nomatch impossible)
  rcases atOnce.refused (Nat.lt_of_lt_of_le tooMany all) with ⟨node, member, refused⟩
  have invariant := Invariant.reachable wellFormed calm.run
  rcases done node (invariant.declared_of_seen
    (Invariant.seen_of_started (calm.started node member))) with ⟨output, phase⟩
  rw [Refused, phase] at refused
  cases refused

/-- The run has returned an error. -/
def Failed (state : TimedState governor) : Prop :=
  ∃ error, state.run.control = .returned (.error error)

/-- A calm state reached at one instant, or the return of an error. -/
def Rushed (dag : Dag P) (backend : HashBackend) (config : ResilienceConfig)
    (sem : NodeSemantics) (now : Instant) (state : TimedState governor) : Prop :=
  (∃ checked times, Calm dag backend config sem state checked times ∧
    AtOnce config state now checked times) ∨
  Failed state

theorem Rushed.step (wellFormed : dag.WellFormed) (succeed : AllSucceed dag sem)
    (limits : governor.PerSecond (max 1 config.rps.toNat)) {now : Instant}
    {before after : TimedState governor} (rushed : Rushed dag backend config sem now before)
    (step : TimedStep dag backend config governor timer (attemptsOf sem) before after)
    (same : after.now = before.now ∨ Failed before) :
    Rushed dag backend config sem now after := by
  have stays : Failed before -> Rushed dag backend config sem now after := by
    rintro ⟨error, returned⟩
    refine Or.inr ⟨error, ?_⟩
    rw [returned_stays returned step]
    exact returned
  rcases same with same | failed
  case inr => exact stays failed
  rcases rushed with ⟨checked, times, calm, atOnce⟩ | failed
  · cases calm.move wellFormed succeed step with
    | schedule time later run advanced =>
        exact Or.inl ⟨checked, times, calm.schedule wellFormed later advanced,
          same.trans atOnce.instant, atOnce.times, atOnce.refused⟩
    | check time later input inflight checking =>
        have here : time = now := same.trans atOnce.instant
        subst here
        exact Or.inl ⟨_, _, calm.check wellFormed later inflight checking,
          atOnce.check limits calm checking⟩
    | work time later input inflight past shared limiter closed phase healthy still kept undone =>
        refine Or.inl ⟨checked, times, calm.work wellFormed later inflight past limiter closed
          healthy still, same.trans atOnce.instant, atOnce.times, ?_⟩
        intro beyond
        rcases atOnce.refused beyond with ⟨node, member, refused⟩
        have different : node ≠ input.nodeId := by
          rintro rfl
          exact undone _ refused
        exact ⟨node, member, (Function.update_of_ne different _ _).trans refused⟩
    | answer time later position input output control found done called =>
        exact Or.inl ⟨checked, times, calm.answer later control found done called,
          same.trans atOnce.instant, atOnce.times, atOnce.refused⟩
    | refuse => exact Or.inr ⟨_, rfl⟩
  · exact stays failed

/-- A step that takes no time, unless the run has failed already. -/
def ImmediateStep (dag : Dag P) (backend : HashBackend) (config : ResilienceConfig)
    (governor : Governor) (timer : Timer)
    (attempts : NodeInput -> UInt32 -> KernelResult NodeOutput -> Prop)
    (before after : TimedState governor) : Prop :=
  TimedStep dag backend config governor timer attempts before after ∧
    (after.now = before.now ∨ Failed before)

/-- More nodes than the quota: some run at one instant never returns `Ok`. -/
theorem not_returns_ok_of_lt (wellFormed : dag.WellFormed) (succeed : AllSucceed dag sem)
    (limits : governor.PerSecond (max 1 config.rps.toNat))
    (tooMany : max 1 config.rps.toNat < dag.nodes.size) (now : Instant) :
    ¬ Inevitably (TimedStep dag backend config governor timer (attemptsOf sem))
      (fun state => ∃ hash, state.run.control = .returned (.ok hash))
      (.start dag config governor now) := by
  intro inevitable
  have initially : Rushed dag backend config sem now (.start dag config governor now) :=
    Or.inl ⟨[], [], .start now, rfl, rfl, fun impossible => absurd impossible (Nat.not_lt_zero _)⟩
  have included : forall before after,
      ImmediateStep dag backend config governor timer (attemptsOf sem) before after ->
      TimedStep dag backend config governor timer (attemptsOf sem) before after :=
    fun _before _after both => both.1
  have progress : forall state, Rushed dag backend config sem now state ->
      (¬ ∃ hash, state.run.control = .returned (.ok hash)) ->
      (∃ next, TimedStep dag backend config governor timer (attemptsOf sem) state next) ->
      ∃ next, ImmediateStep dag backend config governor timer (attemptsOf sem) state next := by
    intro state rushed unmet enabled
    rcases rushed with ⟨checked, times, calm, _atOnce⟩ | failed
    · by_cases running : ∃ result, state.run.control = .returned result
      · rcases running with ⟨error | hash, returned⟩
        · rcases enabled with ⟨next, step⟩
          exact ⟨next, step, Or.inr ⟨error, returned⟩⟩
        · exact absurd ⟨hash, returned⟩ unmet
      · rcases calm.progress wellFormed running with ⟨next, step, same⟩
        exact ⟨next, step, Or.inl same⟩
    · rcases enabled with ⟨next, step⟩
      exact ⟨next, step, Or.inr failed⟩
  rcases inevitable.exists_restricted_run included initially
    (fun _before _after rushed both => rushed.step wellFormed succeed limits both.1 both.2)
    progress with ⟨finish, run, hash, control⟩
  have rushed := run.invariant initially fun _before _after rushed both =>
    rushed.step wellFormed succeed limits both.1 both.2
  rcases rushed with ⟨checked, times, calm, atOnce⟩ | ⟨error, returned⟩
  · exact atOnce.not_returned_ok wellFormed tooMany calm hash control
  · rw [returned] at control
    cases control

/-- A workflow of healthy nodes whose conditions all hold returns `Ok` under
every timing exactly when it has no more nodes than the quota: the one limiter
of a run counts the calls of all nodes. -/
theorem healthy_returns_ok_iff (accepted : dag.Accepted) (backend : HashBackend)
    (config : ResilienceConfig) (governor : Governor)
    (limits : governor.PerSecond (max 1 config.rps.toNat)) (timer : Timer) (now : Instant)
    (sem : NodeSemantics) (succeed : AllSucceed dag sem)
    (conditions : forall edge, edge ∈ dag.edges -> ∃ output : NodeOutput,
      Evaluates dag sem edge.from (.ok output) ∧ edge.condition.evaluate output.value = true) :
    Inevitably (TimedStep dag backend config governor timer (attemptsOf sem))
        (fun state => ∃ hash, state.run.control = .returned (.ok hash))
        (.start dag config governor now) ↔
      dag.nodes.size ≤ max 1 config.rps.toNat := by
  have wellFormed := accepted.wellFormed
  constructor
  · intro inevitable
    by_contra tooMany
    exact not_returns_ok_of_lt wellFormed succeed limits (Nat.lt_of_not_le tooMany) now inevitable
  · exact fun enough => returns_ok_of_le wellFormed succeed
      ((reached_all_iff wellFormed).mpr conditions) limits enough now

/-- The first node of the pair is reached and returns its value. -/
theorem evaluates_pair (condition : EdgeCondition) (value : Value) :
    Evaluates (Dag.pair condition) (.constant value) "a" (.ok ⟨value, 0⟩) := by
  have declared : "a" ∈ (Dag.pair condition).nodes :=
    (OrderedMap.mem_insert_eq _ _ _ _).mpr
      (Or.inr ((OrderedMap.mem_insert_eq _ _ _ _).mpr (Or.inl rfl)))
  have isSource : forall edge, edge ∈ (Dag.pair condition).edges -> edge.to ≠ "a" := by
    intro edge member
    cases List.mem_singleton.mp member
    change "b" ≠ "a"
    decide
  exact .intro "a" (fun _ => ⟨value, 0⟩) declared
    (fun edge member target => absurd target (isSource edge member))
    fun edge member target => absurd target (isSource edge member)

theorem conditions_pair : forall edge, edge ∈ (Dag.pair .always).edges -> ∃ output : NodeOutput,
    Evaluates (Dag.pair .always) (.constant .null) edge.from (.ok output) ∧
      edge.condition.evaluate output.value = true := by
  intro edge member
  cases List.mem_singleton.mp member
  exact ⟨_, evaluates_pair .always .null, rfl⟩

theorem allSucceed_constant (value : Value) : AllSucceed dag (.constant value) := by
  intro node error evaluates
  cases evaluates

theorem healthy_returns_ok_iff_pair :
    Inevitably (TimedStep (Dag.pair .always) .sample .default .gcra .linux
        (attemptsOf (.constant .null)))
        (fun state => ∃ hash, state.run.control = .returned (.ok hash))
        (.start (Dag.pair .always) .default .gcra 0) ↔
      (Dag.pair .always).nodes.size ≤ max 1 1000 := by
  exact healthy_returns_ok_iff (Dag.pair_accepted .always) .sample .default .gcra
    (Governor.gcra_perSecond 1000 (by decide) (by decide)) .linux 0 (.constant .null)
    (allSucceed_constant .null) conditions_pair

/-! ## A refused workflow -/

/-- Run at one instant, serving the first call in flight.  The last argument but
one bounds the number of steps. -/
def TimedState.serve (dag : Dag P) (backend : HashBackend) (config : ResilienceConfig)
    (timer : Timer) (answers : NodeInput -> UInt32 -> KernelResult NodeOutput) :
    Nat -> TimedState governor -> TimedState governor
  | 0, state => state
  | fuel + 1, state =>
      match state.run.advance dag backend with
      | some run => (state.withRun state.now run).serve dag backend config timer answers fuel
      | none =>
          match state.run.control, state.run.inflight with
          | .awaiting, input :: _ =>
              match (state.phases input.nodeId).reply with
              | some result =>
                  (state.withRun state.now (state.run.deliver dag backend 0 input result)).serve
                    dag backend config timer answers fuel
              | none =>
                  match (state.phases input.nodeId).advance config timer state.now state.shared with
                  | some (shared, phase) =>
                      (state.moveTo state.now shared input.nodeId phase).serve
                        dag backend config timer answers fuel
                  | none =>
                      match state.phases input.nodeId with
                      | .attempting count backoff =>
                          (state.moveTo state.now state.shared input.nodeId
                            (Phase.afterAttempt config timer state.now count backoff
                              (answers input count))).serve
                            dag backend config timer answers fuel
                      | _ => state
          | _, _ => state

theorem TimedState.serve_reaches {answers : NodeInput -> UInt32 -> KernelResult NodeOutput}
    (fuel : Nat) (state : TimedState governor) :
    Reaches (TimedStep dag backend config governor timer
        fun input count result => result = answers input count) state
      (state.serve dag backend config timer answers fuel) := by
  induction fuel generalizing state with
  | zero => exact .refl
  | succ fuel inductionHypothesis =>
      rw [serve]
      split
      · rename_i run advanced
        exact .head (.schedule state.now (Nat.le_refl _) run advanced) (inductionHypothesis _)
      · split
        · rename_i input rest control inflight
          have member : input ∈ state.run.inflight := by
            rw [inflight]
            exact List.mem_cons_self
          have open_ : polled state.run.control = true := by rw [control]; rfl
          split
          · rename_i result replied
            exact .head (.deliver state.now (Nat.le_refl _) 0 input control (by rw [inflight]; rfl)
              result replied) (inductionHypothesis _)
          · split
            · rename_i shared phase advanced
              exact .head (.call state.now (Nat.le_refl _) input member open_ shared phase advanced)
                (inductionHypothesis _)
            · split
              · rename_i count backoff attempting
                exact .head (.attempt state.now (Nat.le_refl _) input member open_ count backoff
                  attempting _ rfl) (inductionHypothesis _)
              · exact .refl
        · exact .refl

/-- The same for nodes whose attempts all end alike. -/
def TimedState.drive (dag : Dag P) (backend : HashBackend) (config : ResilienceConfig)
    (timer : Timer) (sem : NodeSemantics) : Nat -> TimedState governor -> TimedState governor :=
  serve dag backend config timer fun input _count => sem input.nodeId input.parents

theorem TimedState.drive_reaches (fuel : Nat) (state : TimedState governor) :
    Reaches (TimedStep dag backend config governor timer (attemptsOf sem)) state
      (state.drive dag backend config timer sem fuel) :=
  serve_reaches fuel state

/-- Two nodes and no edge. -/
def twoNodes : Dag Unit where
  id := 0
  name := "two"
  nodes := Std.ExtTreeMap.ofList [("a", ()), ("b", ())]
  edges := []

/-- Two healthy nodes under a quota of one check per second: the second call
comes too early and the run fails. -/
theorem healthy_run_is_refused :
    (Dag.pair .always).Accepted ∧
    AllSucceed (Dag.pair .always) (.constant .null) ∧
    (forall edge, edge ∈ (Dag.pair .always).edges -> ∃ output : NodeOutput,
      Evaluates (Dag.pair .always) (.constant .null) edge.from (.ok output) ∧
        edge.condition.evaluate output.value = true) ∧
    ∃ state, Reaches (TimedStep (Dag.pair .always) .sample { ResilienceConfig.default with rps := 1 }
        .gcra .linux (attemptsOf (.constant .null)))
        (.start (Dag.pair .always) { ResilienceConfig.default with rps := 1 } .gcra 0) state ∧
      state.run.control = .returned (.error .rateLimited) :=
  ⟨Dag.pair_accepted .always, allSucceed_constant .null, conditions_pair, _,
    TimedState.drive_reaches 30 _, by rfl⟩

end Resilience
end KernelFlow
