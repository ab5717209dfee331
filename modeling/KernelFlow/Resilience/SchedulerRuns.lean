import Mathlib
import KernelFlow.Resilience.Concurrent
import KernelFlow.Resilience.TimedRun

namespace KernelFlow
namespace Resilience

open Transition Scheduler

/-!
# All runs of one scheduler

A `Scheduler` value keeps its configuration and its event channel and nothing
else: every `run` creates an executor of its own.  A session is the history of
one scheduler: any number of runs that begin at any time and overlap as they
like, and a log of what all their node calls did to the breakers.  A run goes on
moving after its return, as its actors do.

So the breaker protects within a run and not beyond it.
-/

variable {P : Type} {backend : HashBackend} {config : ResilienceConfig} {governor : Governor}
  {timer : Timer}

namespace TimedState

/-- The executor of a run with its node calls. -/
def executor (state : TimedState governor) : Executor governor NodeId NodeOutput where
  shared := state.shared
  now := state.now
  phases := state.phases

end TimedState

/-- Every step of a run is a step of its executor. -/
theorem TimedStep.executor {dag : Dag P}
    {attempts : NodeInput -> UInt32 -> KernelResult NodeOutput -> Prop}
    {before after : TimedState governor}
    (step : TimedStep dag backend config governor timer attempts before after) :
    ExecutorMove config timer before.executor after.executor := by
  cases step with
  | schedule now later run advanced => exact ⟨[], .idle now later⟩
  | call now later input inflight open_ shared phase advanced =>
      exact ⟨_, .call now later input.nodeId shared phase advanced⟩
  | attempt now later input inflight open_ count backoff attempting result ended =>
      exact ⟨[], .attempt now later input.nodeId count backoff attempting result⟩
  | deliver now later position input control found result replied =>
      exact ⟨[], .idle now later⟩

/-- So every run of the scheduler is a run of its executor, and what holds of all
runs of an executor holds of the executors of the scheduler. -/
theorem TimedState.reaches_executor {dag : Dag P}
    {attempts : NodeInput -> UInt32 -> KernelResult NodeOutput -> Prop}
    {start finish : TimedState governor}
    (run : Reaches (TimedStep dag backend config governor timer attempts) start finish) :
    Reaches (ExecutorMove config timer) start.executor finish.executor := by
  apply run.project
  intro before after step
  exact .single step.executor

/-- Every attempt may end with every result. -/
def anyAttempt : NodeInput -> UInt32 -> KernelResult NodeOutput -> Prop :=
  fun _input _count _result => True

/-- One run of the scheduler. -/
structure Slot (P : Type) (governor : Governor) where
  dag : Dag P
  state : TimedState governor

/-- The runs of one scheduler, numbered in the order in which they began.  The
log holds the number of the run with each call on its breaker. -/
structure Session (P : Type) (governor : Governor) where
  now : Instant
  slots : List (Slot P governor)
  log : List (Nat × Instant × NodeId × Call)

namespace Session

def new (now : Instant) : Session P governor where
  now := now
  slots := []
  log := []

/-- `Scheduler::run` is called. -/
def begin (session : Session P governor) (config : ResilienceConfig) (now : Instant)
    (dag : Dag P) : Session P governor where
  now := now
  slots := session.slots ++ [⟨dag, .start dag config governor now⟩]
  log := session.log

/-- One run moves. -/
def record (session : Session P governor) (index : Nat) (slot : Slot P governor)
    (state : TimedState governor) (calls : BreakerLog NodeId) : Session P governor where
  now := state.now
  slots := session.slots.set index { slot with state := state }
  log := session.log ++ calls.map fun call => (index, call)

end Session

/-- One step of some run. -/
inductive SessionStep (backend : HashBackend) (config : ResilienceConfig) (timer : Timer)
    (before : Session P governor) : Session P governor -> Prop
  | begin (now : Instant) (later : before.now ≤ now) (dag : Dag P) :
      SessionStep backend config timer before (before.begin config now dag)
  | run (index : Nat) (slot : Slot P governor) (found : before.slots[index]? = some slot)
      (state : TimedState governor) (later : before.now ≤ state.now)
      (step : TimedStep slot.dag backend config governor timer anyAttempt slot.state state)
      (calls : BreakerLog NodeId)
      (made : ExecutorStep config timer slot.state.executor calls state.executor) :
      SessionStep backend config timer before (before.record index slot state calls)

/-! ## The breaker of a run against the log -/

/-- The calls that one run made on its breaker. -/
def callsOf (index : Nat) (log : List (Nat × Instant × NodeId × Call)) : List (Instant × Call) :=
  log.filterMap fun entry =>
    if entry.1 = index then some (entry.2.1, entry.2.2.2) else none

/-- What a label says to the breaker. -/
def breakerCalls {ι : Type} (calls : BreakerLog ι) : List (Instant × Call) :=
  calls.map fun call => (call.1, call.2.2)

theorem callsOf_append (index : Nat) (first second : List (Nat × Instant × NodeId × Call)) :
    callsOf index (first ++ second) = callsOf index first ++ callsOf index second :=
  List.filterMap_append

theorem callsOf_own (index : Nat) (calls : BreakerLog NodeId) :
    callsOf index (calls.map fun call => (index, call)) = breakerCalls calls := by
  rw [callsOf, List.filterMap_map, breakerCalls, ← List.filterMap_eq_map]
  apply List.filterMap_congr
  intro call _member
  exact if_pos rfl

theorem callsOf_other {index other : Nat} (different : other ≠ index)
    (calls : BreakerLog NodeId) :
    callsOf index (calls.map fun call => (other, call)) = [] := by
  rw [callsOf, List.filterMap_map, List.filterMap_eq_nil_iff]
  intro call _member
  exact if_neg different

/-- As long as no call has panicked the breaker is what the recorded calls make
of a new one. -/
structure Recorded {ι α : Type} (config : ResilienceConfig) (calls : List (Instant × Call))
    (executor : Executor governor ι α) : Prop where
  ordered : (calls.map Prod.fst ++ [executor.now]).Pairwise (· ≤ ·)
  breaker : (forall caller, executor.phases caller ≠ .panicked) ->
    executor.shared.breaker =
      ((CircuitBreaker.new config.circuitThreshold config.circuitCooldown).run calls).1

namespace Recorded

variable {ι α : Type}

theorem new (config : ResilienceConfig) (now : Instant) :
    Recorded config [] (Executor.new config governor now : Executor governor ι α) where
  ordered := List.pairwise_singleton _ _
  breaker := fun _calm => rfl

variable [DecidableEq ι] {before after : Executor governor ι α} {calls : List (Instant × Call)}

theorem next (recorded : Recorded config calls before) {made : BreakerLog ι}
    (step : ExecutorStep config timer before made after) :
    Recorded config (calls ++ breakerCalls made) after := by
  have calmBefore : (forall caller, after.phases caller ≠ .panicked) ->
      forall caller, before.phases caller ≠ .panicked :=
    fun calm caller panicked => calm caller (step.panicked panicked)
  cases step with
  | idle now later =>
      rw [show breakerCalls ([] : BreakerLog ι) = [] from rfl, List.append_nil]
      exact ⟨ordered_later recorded.ordered later, recorded.breaker⟩
  | attempt now later mover count backoff attempting result =>
      rw [show breakerCalls ([] : BreakerLog ι) = [] from rfl, List.append_nil]
      exact ⟨ordered_later recorded.ordered later, fun calm => recorded.breaker (calmBefore calm)⟩
  | call now later mover shared phase advanced =>
      have moved := Phase.advanced_of_advance advanced
      have breaker : (forall caller, (before.moveTo now shared mover phase).phases caller ≠
          .panicked) -> shared.breaker = Phase.breakerAfter before.shared.breaker now
            (before.phases mover).breakerCall := by
        intro calm
        have fine := calm mover
        rw [Executor.phases_moveTo_self] at fine
        exact moved.breaker fine
      cases made : (before.phases mover).breakerCall with
      | none =>
          rw [made] at breaker
          change Recorded config (calls ++ []) _
          rw [List.append_nil]
          exact ⟨ordered_later recorded.ordered later,
            fun calm => (breaker calm).trans (recorded.breaker (calmBefore calm))⟩
      | some call =>
          rw [made] at breaker
          change Recorded config (calls ++ [(now, call)]) _
          refine ⟨?_, ?_⟩
          · rw [List.map_append]
            exact ordered_concat recorded.ordered later
          · intro calm
            refine (breaker calm).trans ?_
            rw [recorded.breaker (calmBefore calm)]
            exact (congrArg Prod.fst (CircuitBreaker.run_concat _ calls now call)).symm

end Recorded

namespace Session

/-- What holds in every session: the log accounts for the breaker of every run,
and only runs that have begun are in it. -/
structure Sound (config : ResilienceConfig) (session : Session P governor) : Prop where
  recorded : forall index slot, session.slots[index]? = some slot ->
    Recorded config (callsOf index session.log) slot.state.executor
  owners : forall entry, entry ∈ session.log -> entry.1 < session.slots.length

theorem Sound.record {session : Session P governor} (sound : Sound config session) {index : Nat}
    {slot : Slot P governor} (found : session.slots[index]? = some slot)
    {state : TimedState governor} {calls : BreakerLog NodeId}
    (made : ExecutorStep config timer slot.state.executor calls state.executor) :
    Sound config (session.record index slot state calls) where
  recorded := by
    intro other otherSlot otherFound
    change (session.slots.set index { slot with state := state })[other]? = some otherSlot
      at otherFound
    change Recorded config (callsOf other (session.log ++ _)) _
    rw [callsOf_append]
    by_cases same : index = other
    · subst same
      rw [List.getElem?_set_self (List.getElem?_eq_some_iff.mp found).1] at otherFound
      cases otherFound
      rw [callsOf_own]
      exact (sound.recorded index slot found).next made
    · rw [List.getElem?_set_ne same] at otherFound
      rw [callsOf_other same, List.append_nil]
      exact sound.recorded other otherSlot otherFound
  owners := by
    intro entry member
    change entry.1 < (session.slots.set index _).length
    rw [List.length_set]
    rcases List.mem_append.mp member with old | added
    · exact sound.owners entry old
    · rcases List.mem_map.mp added with ⟨call, _, rfl⟩
      exact (List.getElem?_eq_some_iff.mp found).1

theorem Sound.begin {session : Session P governor} (sound : Sound config session)
    (now : Instant) (dag : Dag P) : Sound config (session.begin config now dag) where
  recorded := by
    intro index slot found
    change (session.slots ++ [_])[index]? = some slot at found
    change Recorded config (callsOf index session.log) _
    by_cases old : index < session.slots.length
    · rw [List.getElem?_append_left old] at found
      exact sound.recorded index slot found
    · rw [List.getElem?_append_right (Nat.not_lt.mp old)] at found
      have none : callsOf index session.log = [] := by
        rw [callsOf, List.filterMap_eq_nil_iff]
        intro entry member
        refine if_neg ?_
        rintro rfl
        exact old (sound.owners entry member)
      rw [none, (List.mem_singleton.mp (List.mem_of_getElem? found))]
      exact .new config now
  owners := by
    intro entry member
    change entry.1 < (session.slots ++ [_]).length
    rw [List.length_append]
    exact Nat.lt_add_right _ (sound.owners entry member)

theorem sound_of_reaches {start : Instant} {session : Session P governor}
    (run : Reaches (SessionStep backend config timer) (.new start) session) :
    Sound config session := by
  induction run with
  | refl =>
      refine ⟨?_, ?_⟩
      · intro index slot found
        cases found
      · intro entry member
        cases member
  | tail _earlier step inductionHypothesis =>
      cases step with
      | begin now later dag => exact inductionHypothesis.begin now dag
      | run index slot found state later step calls made =>
          exact inductionHypothesis.record found made

/-- A step of the session leaves a run alone or is a step of its executor. -/
theorem executor_of_step {session next : Session P governor}
    (step : SessionStep backend config timer session next) {index : Nat}
    {slot after : Slot P governor} (found : session.slots[index]? = some slot)
    (foundAfter : next.slots[index]? = some after) :
    after = slot ∨ ExecutorMove config timer slot.state.executor after.state.executor := by
  have recorded : forall other otherSlot state calls, session.slots[other]? = some otherSlot ->
      ExecutorStep config timer otherSlot.state.executor calls state.executor ->
      (session.record other otherSlot state calls).slots[index]? = some after ->
      after = slot ∨ ExecutorMove config timer slot.state.executor after.state.executor := by
    intro other otherSlot state calls otherFound made foundHere
    change (session.slots.set other { otherSlot with state := state })[index]? = some after
      at foundHere
    by_cases same : other = index
    · subst same
      rw [List.getElem?_set_self (List.getElem?_eq_some_iff.mp found).1] at foundHere
      cases foundHere
      rw [found] at otherFound
      cases otherFound
      exact Or.inr ⟨calls, made⟩
    · rw [List.getElem?_set_ne same, found] at foundHere
      cases foundHere
      exact Or.inl rfl
  cases step with
  | begin now later dag =>
      change (session.slots ++ [_])[index]? = some after at foundAfter
      rw [List.getElem?_append_left (List.getElem?_eq_some_iff.mp found).1, found] at foundAfter
      cases foundAfter
      exact Or.inl rfl
  | run other otherSlot otherFound state later step calls made =>
      exact recorded other otherSlot state calls otherFound made foundAfter

end Session

/-- The breaker protects within a run.  Each run has a breaker of its own that
only its own node calls have touched.  Once enough executions of one run have
failed since its last success or reset, its next node call that asks the breaker
before the cooldown has passed is refused and not invoked. -/
theorem run_protected (backend : HashBackend) (config : ResilienceConfig) (governor : Governor)
    (timer : Timer) (start : Instant) (session : Session P governor)
    (run : Reaches (SessionStep backend config timer) (.new start) session) (index : Nat)
    (slot : Slot P governor) (found : session.slots[index]? = some slot)
    (calm : forall node, slot.state.phases node ≠ .panicked) :
    slot.state.shared.breaker =
      ((CircuitBreaker.new config.circuitThreshold config.circuitCooldown).run
        (callsOf index session.log)).1 ∧
    forall earlier later time,
      ((CircuitBreaker.new config.circuitThreshold config.circuitCooldown).run
        (callsOf index session.log)).2 = earlier ++ (time, .failure) :: later ->
      config.circuitThreshold.toNat ≤ streak earlier + 1 ->
      forall (next : Session P governor) (after : Slot P governor) (node : NodeId),
        SessionStep backend config timer session next ->
        next.slots[index]? = some after -> after.state.now < time + config.circuitCooldown ->
        slot.state.phases node = .admitted -> after.state.phases node ≠ .admitted ->
        after.state.phases node = .done (.error .circuitOpen) := by
  have recorded := (Session.sound_of_reaches run).recorded index slot found
  have breaker := recorded.breaker calm
  refine ⟨breaker, ?_⟩
  intro earlier later time split reached next after node step foundAfter recent asked moved
  rcases Session.executor_of_step step found foundAfter with rfl | ⟨calls, made⟩
  · exact absurd asked moved
  · apply made.refused asked moved
    rw [breaker]
    exact CircuitBreaker.refused_of_recent _ _ _ _ (ordered_later recorded.ordered made.now_le)
      split reached recent

/-! ## Scripts -/

/-- What a run can be made to do.  Calls are named by their position among those
in flight. -/
inductive RunEvent
  | schedule
  | call (position : Nat)
  | attempt (position : Nat) (result : KernelResult NodeOutput)
  | deliver (position : Nat)

/-- Make a run do something, if it can. -/
def TimedState.act (dag : Dag P) (backend : HashBackend) (config : ResilienceConfig)
    (timer : Timer) (now : Instant) (state : TimedState governor) :
    RunEvent -> Option (TimedState governor × BreakerLog NodeId)
  | .schedule =>
      match state.run.advance dag backend with
      | some run => some (state.withRun now run, [])
      | none => none
  | .call position =>
      match state.run.inflight[position]? with
      | some input =>
          if polled state.run.control = true then
            match (state.phases input.nodeId).advance config timer now state.shared with
            | some (shared, phase) =>
                some (state.moveTo now shared input.nodeId phase,
                  (state.phases input.nodeId).breakerCall.toList.map fun call =>
                    (now, input.nodeId, call))
            | none => none
          else none
      | none => none
  | .attempt position result =>
      match state.run.inflight[position]? with
      | some input =>
          if polled state.run.control = true then
            match state.phases input.nodeId with
            | .attempting count backoff =>
                some (state.moveTo now state.shared input.nodeId
                  (Phase.afterAttempt config timer now count backoff result), [])
            | _ => none
          else none
      | none => none
  | .deliver position =>
      match state.run.control, state.run.inflight[position]? with
      | .awaiting, some input =>
          match (state.phases input.nodeId).reply with
          | some result => some (state.withRun now (state.run.deliver dag backend position input result), [])
          | none => none
      | _, _ => none

/-- What a run is made to do is a step. -/
theorem TimedState.act_step {dag : Dag P} {now : Instant} {state after : TimedState governor}
    {event : RunEvent} {calls : BreakerLog NodeId} (later : state.now ≤ now)
    (acted : state.act dag backend config timer now event = some (after, calls)) :
    TimedStep dag backend config governor timer anyAttempt state after ∧
      ExecutorStep config timer state.executor calls after.executor ∧ after.now = now := by
  cases event with
  | schedule =>
      simp only [act] at acted
      split at acted
      · rename_i run advanced
        cases acted
        exact ⟨.schedule now later run advanced, .idle now later, rfl⟩
      · cases acted
  | call position =>
      simp only [act] at acted
      split at acted
      · rename_i input found
        split at acted
        · rename_i open_
          split at acted
          · rename_i shared phase advanced
            cases acted
            exact ⟨.call now later input (List.mem_of_getElem? found) open_ shared phase advanced,
              .call now later input.nodeId shared phase advanced, rfl⟩
          · cases acted
        · cases acted
      · cases acted
  | attempt position result =>
      simp only [act] at acted
      split at acted
      · rename_i input found
        split at acted
        · rename_i open_
          split at acted
          · rename_i count backoff attempting
            cases acted
            exact ⟨.attempt now later input (List.mem_of_getElem? found) open_ count backoff
                attempting result trivial,
              .attempt now later input.nodeId count backoff attempting result, rfl⟩
          · cases acted
        · cases acted
      · cases acted
  | deliver position =>
      simp only [act] at acted
      split at acted
      · rename_i input control found
        split at acted
        · rename_i result replied
          cases acted
          exact ⟨.deliver now later position input control found result replied,
            .idle now later, rfl⟩
        · cases acted
      · cases acted

/-- An entry of a script for a session. -/
inductive SessionEvent (P : Type)
  | begin (now : Instant) (dag : Dag P)
  | act (now : Instant) (index : Nat) (event : RunEvent)

namespace Session

/-- Play one entry, if it applies. -/
def act (backend : HashBackend) (config : ResilienceConfig) (timer : Timer)
    (session : Session P governor) : SessionEvent P -> Option (Session P governor)
  | .begin now dag => if now < session.now then none else some (session.begin config now dag)
  | .act now index event =>
      match session.slots[index]? with
      | some slot =>
          if now < session.now ∨ now < slot.state.now then none
          else match slot.state.act slot.dag backend config timer now event with
            | some (state, calls) => some (session.record index slot state calls)
            | none => none
      | none => none

theorem act_step {session next : Session P governor} {event : SessionEvent P}
    (acted : session.act backend config timer event = some next) :
    SessionStep backend config timer session next := by
  cases event with
  | begin now dag =>
      simp only [act] at acted
      split at acted
      · cases acted
      · rename_i later
        cases acted
        exact .begin now (Nat.not_lt.mp later) dag
  | act now index event =>
      simp only [act] at acted
      split at acted
      · rename_i slot found
        split at acted
        · cases acted
        · rename_i later
          rcases not_or.mp later with ⟨sessionLater, slotLater⟩
          split at acted
          · rename_i state calls moved
            cases acted
            rcases TimedState.act_step (Nat.not_lt.mp slotLater) moved with ⟨step, made, at_⟩
            refine .run index slot found state ?_ step calls made
            rw [at_]
            exact Nat.not_lt.mp sessionLater
          · cases acted
      · cases acted

/-- Play a script; entries that do not apply are skipped. -/
def play (backend : HashBackend) (config : ResilienceConfig) (timer : Timer)
    (session : Session P governor) (script : List (SessionEvent P)) : Session P governor :=
  script.foldl (fun session event => (session.act backend config timer event).getD session) session

theorem play_reaches (session : Session P governor) (script : List (SessionEvent P)) :
    Reaches (SessionStep backend config timer) session
      (session.play backend config timer script) := by
  induction script generalizing session with
  | nil => exact .refl
  | cons event script inductionHypothesis =>
      refine Relation.ReflTransGen.trans ?_ (inductionHypothesis _)
      change Reaches _ session ((session.act backend config timer event).getD session)
      cases acted : session.act backend config timer event with
      | none => exact .refl
      | some next => exact .single (act_step acted)

end Session

/-! ## Two runs -/

/-- One attempt for a call, and a breaker that trips at the first failure. -/
def strict : ResilienceConfig :=
  { ResilienceConfig.default with
    maxRetries := 1
    circuitThreshold := 1 }

/-- One node of a run fails while the call of the other one waits for the
breaker. -/
def failingRun : List (SessionEvent Unit) :=
  [.begin 0 twoNodes, .act 0 0 .schedule, .act 0 0 .schedule, .act 0 0 .schedule,
    .act 0 0 .schedule, .act 0 0 (.call 0), .act 0 0 (.call 1), .act 0 0 (.call 0),
    .act 0 0 (.call 0), .act 0 0 (.attempt 0 (.error (.other "boom"))), .act 0 0 (.call 0)]

/-- The run returns the error, and a second run begins one nanosecond later. -/
def secondRun : List (SessionEvent Unit) :=
  [.act 0 0 (.deliver 0), .begin 1 twoNodes, .act 1 1 .schedule, .act 1 1 .schedule,
    .act 1 1 .schedule, .act 1 1 .schedule, .act 1 1 (.call 0)]

def failedSession : Session Unit Governor.gcra :=
  (Session.new 0).play .sample strict .linux failingRun

theorem failedSession_reached :
    Reaches (SessionStep .sample strict .linux) (Session.new 0) failedSession :=
  Session.play_reaches (Session.new 0) failingRun

theorem failedSession_log : failedSession.log = [(0, 0, "a", .allow), (0, 0, "a", .onFailure)] := by
  rfl

/-- The first node has failed, and the second one asks next. -/
theorem failedSession_slot :
    ∃ slot, failedSession.slots[0]? = some slot ∧
      slot.state.phases = Function.update (Function.update (Function.update (Function.update
        (Function.update (Function.update (fun _node => .checking) "a" .admitted) "b" .admitted)
        "a" .allowed) "a" (.attempting 1 100000000)) "a" (.recording (.error (.other "boom"))))
        "a" (.done (.error (.other "boom"))) :=
  ⟨_, rfl, rfl⟩

theorem failedSession_facts :
    failedSession.now = 0 ∧ (failedSession.slots[0]?.map fun slot =>
      (slot.state.now, polled slot.state.run.control,
        slot.state.run.inflight[1]?.map NodeInput.nodeId)) = some (0, true, some "b") := by
  decide +kernel

/-- A call that can move does so in a step of its session. -/
theorem SessionStep.of_advance (session : Session P governor) (index : Nat)
    {slot : Slot P governor} (found : session.slots[index]? = some slot) {now : Instant}
    (later : session.now ≤ now) (slotLater : slot.state.now ≤ now) {input : NodeInput}
    (inflight : input ∈ slot.state.run.inflight) (open_ : polled slot.state.run.control = true)
    {shared : Shared governor} {phase : Phase NodeOutput}
    (advanced : (slot.state.phases input.nodeId).advance config timer now slot.state.shared =
      some (shared, phase)) :
    ∃ next : Session P governor, SessionStep backend config timer session next ∧ next.now = now ∧
      next.slots[index]? =
        some { slot with state := slot.state.moveTo now shared input.nodeId phase } := by
  have step : SessionStep backend config timer session
      (session.record index slot (slot.state.moveTo now shared input.nodeId phase) _) :=
    .run index slot found _ later (.call now slotLater input inflight open_ shared phase advanced) _
      (.call now slotLater input.nodeId shared phase advanced)
  exact ⟨_, step, rfl, List.getElem?_set_self (List.getElem?_eq_some_iff.mp found).1⟩

/-- The call of the second node is refused. -/
theorem run_protected_twoNodes :
    ∃ (next : Session Unit Governor.gcra) (after : Slot Unit Governor.gcra),
      SessionStep .sample strict .linux failedSession next ∧ next.slots[0]? = some after ∧
      after.state.phases "b" = .done (.error .circuitOpen) := by
  rcases failedSession_slot with ⟨slot, found, phases⟩
  have calm : forall node, slot.state.phases node ≠ .panicked := by
    intro node
    rw [phases]
    simp only [Function.update_apply]
    split_ifs <;> simp
  have asked : slot.state.phases "b" = .admitted := by
    rw [phases]
    rfl
  have history : ((CircuitBreaker.new strict.circuitThreshold strict.circuitCooldown).run
      (callsOf 0 failedSession.log)).2 = [(0, .admitted)] ++ (0, .failure) :: [] := by
    rw [failedSession_log]
    rfl
  rcases failedSession_facts with ⟨now, facts⟩
  rw [found, Option.map_some, Option.some.injEq] at facts
  simp only [Prod.mk.injEq] at facts
  rcases facts with ⟨slotNow, open_, inflight⟩
  rcases Option.map_eq_some_iff.mp inflight with ⟨input, second, named⟩
  rw [← named] at asked
  let shared : Shared Governor.gcra :=
    { slot.state.shared with breaker := (slot.state.shared.breaker.allow 0).2 }
  have advanced : (slot.state.phases input.nodeId).advance strict .linux 0 slot.state.shared =
      some (shared, if (slot.state.shared.breaker.allow 0).1 then .allowed
        else .done (.error .circuitOpen)) := by
    rw [asked]
    rfl
  rcases SessionStep.of_advance failedSession 0 found (Nat.le_of_eq now)
    (Nat.le_of_eq slotNow) (List.mem_of_getElem? second) open_ advanced with
    ⟨next, step, _, foundAfter⟩
  refine ⟨next, _, step, foundAfter, ?_⟩
  rw [named] at asked
  refine (run_protected .sample strict Governor.gcra .linux 0 failedSession
    failedSession_reached 0 slot found calm).2 _ _ _ history (by decide) next _ "b" step
    foundAfter (show 0 < 10000000000 by decide) asked ?_
  change Function.update slot.state.phases input.nodeId _ "b" ≠ _
  rw [named, Function.update_self]
  split <;> simp

/-- The second run is about to invoke its first node. -/
def laterSession : Session Unit Governor.gcra :=
  failedSession.play .sample strict .linux secondRun

theorem laterSession_now : laterSession.now = 1 := by
  decide +kernel

theorem laterSession_log : laterSession.log = [(0, 0, "a", .allow), (0, 0, "a", .onFailure)] := by
  rfl

theorem laterSession_slot :
    (laterSession.slots[1]?.map fun slot => (slot.state.now, polled slot.state.run.control,
        slot.state.run.inflight.head?.map NodeInput.nodeId,
        (slot.state.phases "a").breakerCall, (slot.state.shared.breaker.allow 1).1)) =
      some (1, true, some "a", some .allow, true) := by
  decide +kernel

/-- The breaker does not protect a second run: the failure of the first run is
in the log and the cooldown has not passed, but the breaker lets the node pass
and the node is invoked. -/
theorem second_run_not_protected :
    ∃ (session passed invoked : Session Unit Governor.gcra)
      (asking allowed running : Slot Unit Governor.gcra),
      Reaches (SessionStep .sample strict .linux) (.new 0) session ∧
      SessionStep .sample strict .linux session passed ∧
      SessionStep .sample strict .linux passed invoked ∧
      strict.circuitThreshold = 1 ∧
      session.log = [(0, 0, "a", .allow), (0, 0, "a", .onFailure)] ∧
      session.slots[1]? = some asking ∧ passed.slots[1]? = some allowed ∧
      invoked.slots[1]? = some running ∧
      running.state.now < 0 + strict.circuitCooldown ∧
      asking.state.phases "a" = .admitted ∧
      allowed.state.phases "a" = .allowed ∧
      running.state.phases "a" = .attempting 1 strict.initialBackoff := by
  have reached : Reaches (SessionStep .sample strict .linux) (Session.new 0) laterSession :=
    failedSession_reached.trans (Session.play_reaches failedSession secondRun)
  rcases Option.map_eq_some_iff.mp laterSession_slot with ⟨slot, found, facts⟩
  simp only [Prod.mk.injEq] at facts
  rcases facts with ⟨now, open_, inflight, asking, closed⟩
  rcases Option.map_eq_some_iff.mp inflight with ⟨input, first, named⟩
  have asked := Phase.breakerCall_eq_allow_iff.mp asking
  rw [← named] at asked
  have member := List.mem_of_head? first
  let shared : Shared Governor.gcra :=
    { slot.state.shared with breaker := (slot.state.shared.breaker.allow 1).2 }
  have allows : (slot.state.phases input.nodeId).advance strict .linux 1 slot.state.shared =
      some (shared, .allowed) := by
    rw [asked]
    change some (shared, if (slot.state.shared.breaker.allow 1).1 then _ else _) = _
    rw [closed, if_pos rfl]
  rcases SessionStep.of_advance laterSession 1 found
    (Nat.le_of_eq laterSession_now) (Nat.le_of_eq now) member open_ allows with
    ⟨passed, pass, passedNow, foundPassed⟩
  have here : (slot.state.moveTo 1 shared input.nodeId .allowed).phases input.nodeId = .allowed :=
    Function.update_self _ _ _
  have enters : ((slot.state.moveTo 1 shared input.nodeId .allowed).phases input.nodeId).advance
      strict .linux 1 shared = some (shared, .attempting 1 strict.initialBackoff) := by
    rw [here]
    rfl
  rcases SessionStep.of_advance passed 1 foundPassed (Nat.le_of_eq passedNow)
    (Nat.le_refl 1) member open_ enters with ⟨invoked, invoke, _, foundInvoked⟩
  rw [named] at asked here
  refine ⟨laterSession, passed, invoked, slot, _, _, reached, pass, invoke, rfl, laterSession_log,
    found, foundPassed, foundInvoked, (show 1 < 10000000000 by decide), asked, ?_, ?_⟩
  · exact (congrArg _ named.symm).trans (Function.update_self _ _ _)
  · exact (congrArg _ named.symm).trans (Function.update_self _ _ _)

end Resilience
end KernelFlow
