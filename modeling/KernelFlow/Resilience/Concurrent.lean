import Mathlib
import KernelFlow.Library.Transition
import KernelFlow.Resilience.Executor

namespace KernelFlow
namespace Resilience

open Transition

/-!
# Concurrent calls on one executor

Any number of calls share one limiter, one breaker and a clock that never goes
back.  A step moves one call, and it is labelled with the call that it makes on
the breaker.  Attempts may end with any result, so this system contains every
behaviour of the closures and every interleaving.

The breaker is asked once per call, before the retry loop, and its lock is given
up before the closure is called.  So no attempt asks the breaker when it starts,
and another call may trip it between the check and any of the attempts.
-/

/-- The breaker keeps a deadline that is still ahead. -/
def CircuitBreaker.OpenAt (breaker : CircuitBreaker) (now : Instant) : Prop :=
  ∃ deadline, breaker.openUntil = some deadline ∧ now < deadline

/-- A call is allowed exactly when the breaker is not open. -/
theorem CircuitBreaker.allow_iff_not_openAt (breaker : CircuitBreaker) (now : Instant) :
    (breaker.allow now).1 = true ↔ ¬ breaker.OpenAt now := by
  unfold allow OpenAt
  cases breaker.openUntil with
  | none => simp
  | some deadline =>
      by_cases early : now < deadline
      · simp [early]
      · simp [early]

/-- An `allow` that admits a call leaves no deadline. -/
theorem CircuitBreaker.openUntil_of_allowed {breaker : CircuitBreaker} {now : Instant}
    (allowed : (breaker.allow now).1 = true) : (breaker.allow now).2.openUntil = none := by
  unfold allow at allowed ⊢
  cases set : breaker.openUntil with
  | none => exact set
  | some deadline =>
      simp only [set] at allowed
      by_cases early : now < deadline
      · rw [if_pos early] at allowed
        cases allowed
      · simp only [if_neg early]

/-- An `allow` never sets a deadline. -/
theorem CircuitBreaker.openUntil_allow (breaker : CircuitBreaker) (now : Instant) :
    (breaker.allow now).2.openUntil = none ∨
      (breaker.allow now).2.openUntil = breaker.openUntil := by
  unfold allow
  cases set : breaker.openUntil with
  | none => exact Or.inl set
  | some deadline =>
      by_cases early : now < deadline
      · exact Or.inr (by simp only [if_pos early, set])
      · exact Or.inl (by simp only [if_neg early])

/-- One executor with the position of every call on it. -/
structure Executor (governor : Governor) (ι α : Type) where
  shared : Shared governor
  now : Instant
  phases : ι -> Phase α

/-- The calls made on the breaker, with the instant and the call of `run` that
made them. -/
abbrev BreakerLog (ι : Type) := List (Instant × ι × Call)

variable {governor : Governor} {ι α : Type} [DecidableEq ι] {config : ResilienceConfig}
  {timer : Timer}

namespace Executor

/-- No call has begun. -/
def new (config : ResilienceConfig) (governor : Governor) (now : Instant) :
    Executor governor ι α where
  shared := .new config governor
  now := now
  phases := fun _caller => .checking

def moveTo (executor : Executor governor ι α) (now : Instant) (shared : Shared governor)
    (caller : ι) (phase : Phase α) : Executor governor ι α where
  shared := shared
  now := now
  phases := Function.update executor.phases caller phase

@[simp]
theorem phases_moveTo_self (executor : Executor governor ι α) (now : Instant)
    (shared : Shared governor) (caller : ι) (phase : Phase α) :
    (executor.moveTo now shared caller phase).phases caller = phase :=
  Function.update_self _ _ _

theorem phases_moveTo_of_ne (executor : Executor governor ι α) (now : Instant)
    (shared : Shared governor) {caller other : ι} (phase : Phase α) (different : other ≠ caller) :
    (executor.moveTo now shared caller phase).phases other = executor.phases other :=
  Function.update_of_ne different _ _

end Executor

/-- One step, and the calls that it makes on the breaker. -/
inductive ExecutorStep (config : ResilienceConfig) (timer : Timer)
    (before : Executor governor ι α) : BreakerLog ι -> Executor governor ι α -> Prop
  | idle (now : Instant) (later : before.now ≤ now) :
      ExecutorStep config timer before [] { before with now := now }
  | call (now : Instant) (later : before.now ≤ now) (caller : ι) (shared : Shared governor)
      (phase : Phase α) (advanced :
        (before.phases caller).advance config timer now before.shared = some (shared, phase)) :
      ExecutorStep config timer before
        ((before.phases caller).breakerCall.toList.map fun call => (now, caller, call))
        (before.moveTo now shared caller phase)
  | attempt (now : Instant) (later : before.now ≤ now) (caller : ι) (count : UInt32)
      (backoff : Duration) (attempting : before.phases caller = .attempting count backoff)
      (result : KernelResult α) :
      ExecutorStep config timer before []
        (before.moveTo now before.shared caller
          (Phase.afterAttempt config timer now count backoff result))

/-- A step with any label. -/
def ExecutorMove (config : ResilienceConfig) (timer : Timer)
    (before after : Executor governor ι α) : Prop :=
  ∃ calls, ExecutorStep config timer before calls after

/-! ## What a step can do -/

namespace Phase

/-- The call has been let through and has not returned. -/
def InLoop : Phase α -> Prop
  | .allowed => True
  | .attempting _ _ => True
  | .sleeping _ _ _ => True
  | .recording _ => True
  | _ => False

namespace Advanced

variable {now : Instant} {shared next : Shared governor} {phase after : Phase α}

theorem settings (advanced : Advanced config timer now shared phase next after) :
    next.breaker.threshold = shared.breaker.threshold ∧
      next.breaker.cooldown = shared.breaker.cooldown := by
  cases advanced with
  | allowed closed => exact shared.breaker.observe_settings now .allow
  | refused blocked => exact shared.breaker.observe_settings now .allow
  | _ => exact ⟨rfl, rfl⟩

/-- A deadline is only set by the report of a failure. -/
theorem openUntil_cases (advanced : Advanced config timer now shared phase next after) :
    next.breaker.openUntil = none ∨
    next.breaker.openUntil = shared.breaker.openUntil ∨
    ∃ error, phase = .recording (.error error) ∧ after = .done (.error error) ∧
      next.breaker.openUntil = some (now + shared.breaker.cooldown) := by
  cases advanced with
  | allowed closed => exact Or.inl (CircuitBreaker.openUntil_of_allowed closed)
  | refused blocked =>
      rcases shared.breaker.openUntil_allow now with cleared | same
      · exact Or.inl cleared
      · exact Or.inr (Or.inl same)
  | failed error fits =>
      by_cases reached : shared.breaker.threshold ≤ saturatingAdd shared.breaker.failures 1
      · exact Or.inr (Or.inr ⟨error, rfl, rfl, if_pos reached⟩)
      · exact Or.inr (Or.inl (if_neg reached))
  | _ => exact Or.inr (Or.inl rfl)

/-- A call is let through by the check, which finds the breaker not open. -/
theorem inLoop_cases (advanced : Advanced config timer now shared phase next after)
    (inside : after.InLoop) :
    phase.InLoop ∨
    (phase = .admitted ∧ after = .allowed ∧
      ¬ shared.breaker.OpenAt now ∧ next.breaker.openUntil = none) := by
  cases advanced with
  | allowed closed =>
      exact Or.inr ⟨rfl, rfl, (CircuitBreaker.allow_iff_not_openAt _ _).mp closed,
        CircuitBreaker.openUntil_of_allowed closed⟩
  | entered => exact Or.inl trivial
  | woken attempt backoff wake awake doubled counted => exact Or.inl trivial
  | _ => exact inside.elim

/-- An attempt is the first one or starts after a sleep. -/
theorem cases_of_attempting {count : UInt32} {backoff : Duration}
    (advanced : Advanced config timer now shared phase next (.attempting count backoff)) :
    phase = .allowed ∨ ∃ count backoff wake, phase = .sleeping count backoff wake := by
  cases advanced with
  | entered => exact Or.inl rfl
  | woken attempt pause wake awake doubled counted => exact Or.inr ⟨_, _, _, rfl⟩

/-- A call that a breaker refuses ends without an invocation. -/
theorem circuitOpen (advanced : Advanced config timer now shared .admitted next after)
    (blocked : (shared.breaker.allow now).1 = false) : after = .done (.error .circuitOpen) := by
  cases advanced with
  | allowed closed =>
      rw [closed] at blocked
      cases blocked
  | refused blocked => rfl

end Advanced

end Phase

namespace ExecutorStep

variable {before after : Executor governor ι α} {calls : BreakerLog ι}

theorem now_le (step : ExecutorStep config timer before calls after) :
    before.now ≤ after.now := by
  cases step with
  | idle now later => exact later
  | call now later => exact later
  | attempt now later => exact later

/-- The shared state changes with the phase of one call. -/
theorem shared_cases (step : ExecutorStep config timer before calls after) :
    after.shared = before.shared ∨
    ∃ caller, Phase.Advanced config timer after.now before.shared (before.phases caller)
      after.shared (after.phases caller) := by
  cases step with
  | idle now later => exact Or.inl rfl
  | attempt now later caller count backoff attempting result => exact Or.inl rfl
  | call now later caller shared phase advanced =>
      refine Or.inr ⟨caller, ?_⟩
      rw [Executor.phases_moveTo_self]
      exact Phase.advanced_of_advance advanced

/-- A call stays where it is, or advances, or its attempt has ended. -/
theorem phase_cases (step : ExecutorStep config timer before calls after) (caller : ι) :
    after.phases caller = before.phases caller ∨
    Phase.Advanced config timer after.now before.shared (before.phases caller) after.shared
      (after.phases caller) ∨
    ∃ count backoff result, before.phases caller = .attempting count backoff ∧
      after.phases caller = Phase.afterAttempt config timer after.now count backoff result := by
  cases step with
  | idle now later => exact Or.inl rfl
  | attempt now later mover count backoff attempting result =>
      by_cases same : caller = mover
      · subst same
        rw [Executor.phases_moveTo_self]
        exact Or.inr (Or.inr ⟨count, backoff, result, attempting, rfl⟩)
      · exact Or.inl (Executor.phases_moveTo_of_ne _ _ _ _ same)
  | call now later mover shared phase advanced =>
      by_cases same : caller = mover
      · subst same
        rw [Executor.phases_moveTo_self]
        exact Or.inr (Or.inl (Phase.advanced_of_advance advanced))
      · exact Or.inl (Executor.phases_moveTo_of_ne _ _ _ _ same)

theorem settings (step : ExecutorStep config timer before calls after) :
    after.shared.breaker.threshold = before.shared.breaker.threshold ∧
      after.shared.breaker.cooldown = before.shared.breaker.cooldown := by
  rcases step.shared_cases with same | ⟨caller, advanced⟩
  · rw [same]
    exact ⟨rfl, rfl⟩
  · exact advanced.settings

/-- A deadline is only set by the report of a failure. -/
theorem openUntil_cases (step : ExecutorStep config timer before calls after) :
    after.shared.breaker.openUntil = none ∨
    after.shared.breaker.openUntil = before.shared.breaker.openUntil ∨
    ∃ caller error, before.phases caller = .recording (.error error) ∧
      after.phases caller = .done (.error error) ∧
      after.shared.breaker.openUntil = some (after.now + before.shared.breaker.cooldown) := by
  rcases step.shared_cases with same | ⟨caller, advanced⟩
  · rw [same]
    exact Or.inr (Or.inl rfl)
  · rcases advanced.openUntil_cases with cleared | same | ⟨error, failing, failed, tripped⟩
    · exact Or.inl cleared
    · exact Or.inr (Or.inl same)
    · exact Or.inr (Or.inr ⟨caller, error, failing, failed, tripped⟩)

/-- A call is let through by its check, which finds the breaker not open. -/
theorem inLoop_cases (step : ExecutorStep config timer before calls after) {caller : ι}
    (inside : (after.phases caller).InLoop) :
    (before.phases caller).InLoop ∨
    (before.phases caller = .admitted ∧ after.phases caller = .allowed ∧
      ¬ before.shared.breaker.OpenAt after.now ∧ after.shared.breaker.openUntil = none) := by
  rcases step.phase_cases caller with same | advanced | ⟨count, backoff, result, attempting, _⟩
  · rw [same] at inside
    exact Or.inl inside
  · exact advanced.inLoop_cases inside
  · rw [attempting]
    exact Or.inl trivial

/-- An attempt only starts at the head of the loop or after a sleep. -/
theorem start_cases (step : ExecutorStep config timer before calls after) {caller : ι}
    (idle : forall count backoff, before.phases caller ≠ .attempting count backoff)
    {count : UInt32} {backoff : Duration}
    (starts : after.phases caller = .attempting count backoff) :
    before.phases caller = .allowed ∨
      ∃ count backoff wake, before.phases caller = .sleeping count backoff wake := by
  rcases step.phase_cases caller with same | advanced | ⟨_, _, result, attempting, _⟩
  · exact absurd (same.symm.trans starts) (idle _ _)
  · rw [starts] at advanced
    exact advanced.cases_of_attempting
  · exact absurd attempting (idle _ _)

/-- A panic is final. -/
theorem panicked (step : ExecutorStep config timer before calls after) {caller : ι}
    (panicked : before.phases caller = .panicked) : after.phases caller = .panicked := by
  rcases step.phase_cases caller with same | advanced | ⟨_, _, result, attempting, _⟩
  · exact same.trans panicked
  · rw [panicked] at advanced
    cases advanced
  · rw [panicked] at attempting
    cases attempting

/-- A call that asks a breaker that refuses it ends without an invocation. -/
theorem refused (step : ExecutorStep config timer before calls after) {caller : ι}
    (asked : before.phases caller = .admitted) (moved : after.phases caller ≠ .admitted)
    (blocked : (before.shared.breaker.allow after.now).1 = false) :
    after.phases caller = .done (.error .circuitOpen) := by
  rcases step.phase_cases caller with same | advanced | ⟨_, _, result, attempting, _⟩
  · exact absurd (same.trans asked) moved
  · rw [asked] at advanced
    exact advanced.circuitOpen blocked
  · rw [asked] at attempting
    cases attempting

end ExecutorStep

/-! ## Runs -/

theorem now_le_of_reaches {start finish : Executor governor ι α}
    (run : Reaches (ExecutorMove config timer) start finish) : start.now ≤ finish.now := by
  induction run with
  | refl => exact Nat.le_refl _
  | tail _earlier move inductionHypothesis =>
      rcases move with ⟨calls, step⟩
      exact Nat.le_trans inductionHypothesis step.now_le

theorem cooldown_of_reaches {finish : Executor governor ι α} {now : Instant}
    (run : Reaches (ExecutorMove config timer) (.new config governor now) finish) :
    finish.shared.breaker.cooldown = config.circuitCooldown := by
  induction run with
  | refl => rfl
  | tail _earlier move inductionHypothesis =>
      rcases move with ⟨calls, step⟩
      exact step.settings.2.trans inductionHypothesis

/-- An invocation of the closure starts in a step: the call enters an attempt
that it was not in before. -/
def Starts (config : ResilienceConfig) (timer : Timer) (caller : ι)
    (before after : Executor governor ι α) : Prop :=
  ExecutorMove config timer before after ∧
    (forall count backoff, before.phases caller ≠ .attempting count backoff) ∧
    ∃ count backoff, after.phases caller = .attempting count backoff

/-- Between two states of a run the failure of another call has set this
deadline. -/
def TrippedSince (config : ResilienceConfig) (timer : Timer) (caller : ι)
    (passed current : Executor governor ι α) (deadline : Instant) : Prop :=
  ∃ tripping tripped other error,
    Reaches (ExecutorMove config timer) passed tripping ∧
    ExecutorMove config timer tripping tripped ∧
    Reaches (ExecutorMove config timer) tripped current ∧
    other ≠ caller ∧
    tripping.phases other = .recording (.error error) ∧
    tripped.phases other = .done (.error error) ∧
    deadline = tripped.now + config.circuitCooldown

/-- A call that has been let through was admitted in one step of the run, in
which the breaker was not open, and a deadline that the breaker has now was set
later. -/
structure Admission (config : ResilienceConfig) (timer : Timer) (caller : ι)
    (start current checked passed : Executor governor ι α) : Prop where
  earlier : Reaches (ExecutorMove config timer) start checked
  step : ExecutorMove config timer checked passed
  since : Reaches (ExecutorMove config timer) passed current
  atCheck : checked.phases caller = .admitted
  atPass : passed.phases caller = .allowed
  closed : ¬ checked.shared.breaker.OpenAt passed.now
  tripped : forall deadline, current.shared.breaker.openUntil = some deadline ->
    TrippedSince config timer caller passed current deadline

namespace Admission

variable {start before after checked passed : Executor governor ι α} {caller : ι}

/-- The admission is remembered until the call returns. -/
theorem next (admission : Admission config timer caller start before checked passed)
    (cooldown : before.shared.breaker.cooldown = config.circuitCooldown)
    (move : ExecutorMove config timer before after)
    (inside : (after.phases caller).InLoop) :
    Admission config timer caller start after checked passed where
  earlier := admission.earlier
  step := admission.step
  since := admission.since.tail move
  atCheck := admission.atCheck
  atPass := admission.atPass
  closed := admission.closed
  tripped := by
    intro deadline set
    have extended : before.shared.breaker.openUntil = some deadline ->
        TrippedSince config timer caller passed after deadline := by
      intro already
      rcases admission.tripped deadline already with
        ⟨tripping, tripped, other, error, first, trip, rest, different, failing, failed, equal⟩
      exact ⟨tripping, tripped, other, error, first, trip, rest.tail move, different, failing,
        failed, equal⟩
    have moved := move
    rcases moved with ⟨calls, step⟩
    rcases step.openUntil_cases with cleared | same | ⟨other, error, failing, failed, tripped⟩
    · rw [cleared] at set
      cases set
    · exact extended (same.symm.trans set)
    · have different : other ≠ caller := by
        rintro rfl
        rw [failed] at inside
        exact inside
      rw [tripped, cooldown, Option.some.injEq] at set
      exact ⟨before, after, other, error, admission.since, move, .refl, different, failing,
        failed, set.symm⟩

end Admission

/-- Every call past the check has been admitted. -/
theorem admission_of_inLoop {now : Instant} {current : Executor governor ι α}
    (run : Reaches (ExecutorMove config timer) (.new config governor now) current) (caller : ι)
    (inside : (current.phases caller).InLoop) :
    ∃ checked passed,
      Admission config timer caller (.new config governor now) current checked passed := by
  induction run with
  | refl => exact inside.elim
  | @tail before after earlier move inductionHypothesis =>
      have moved := move
      rcases moved with ⟨calls, step⟩
      rcases step.inLoop_cases inside with already | ⟨atCheck, atPass, closed, cleared⟩
      · rcases inductionHypothesis already with ⟨checked, passed, admission⟩
        exact ⟨checked, passed, admission.next (cooldown_of_reaches earlier) move inside⟩
      · refine ⟨before, after, earlier, move, .refl, atCheck, atPass, closed, ?_⟩
        intro deadline set
        rw [cleared] at set
        cases set

/-- An attempt only starts in a call that the breaker has admitted, and it does
not ask the breaker again, be it the first one or a retry.  The breaker was not
open at the check of the call; if it is open when the attempt starts then the
failure of another call has tripped it in between. -/
theorem attempts_admitted (config : ResilienceConfig) (governor : Governor) (timer : Timer)
    (now : Instant) (caller : ι) (before after : Executor governor ι α)
    (run : Reaches (ExecutorMove config timer) (.new config governor now) before)
    (starts : Starts config timer caller before after) :
    (before.phases caller = .allowed ∨
      ∃ count backoff wake, before.phases caller = .sleeping count backoff wake) ∧
    ∃ checked passed,
      Admission config timer caller (.new config governor now) after checked passed ∧
      passed.now ≤ after.now := by
  rcases starts with ⟨move, idle, count, backoff, running⟩
  have inside : (after.phases caller).InLoop := by
    rw [running]
    trivial
  rcases admission_of_inLoop (run.tail move) caller inside with ⟨checked, passed, admission⟩
  rcases move with ⟨calls, step⟩
  exact ⟨step.start_cases idle running, checked, passed, admission,
    now_le_of_reaches admission.since⟩

/-! ## Scripts -/

/-- An entry of a script. -/
inductive ScriptEvent (ι α : Type)
  | call (now : Instant) (caller : ι)
  | attempt (now : Instant) (caller : ι) (result : KernelResult α)

/-- Play one entry; one that does not apply is skipped. -/
def Executor.play (config : ResilienceConfig) (timer : Timer)
    (executor : Executor governor ι α) : ScriptEvent ι α -> Executor governor ι α
  | .call now caller =>
      if now < executor.now then executor
      else match (executor.phases caller).advance config timer now executor.shared with
        | some (shared, phase) => executor.moveTo now shared caller phase
        | none => executor
  | .attempt now caller result =>
      if now < executor.now then executor
      else match executor.phases caller with
        | .attempting count backoff => executor.moveTo now executor.shared caller
            (Phase.afterAttempt config timer now count backoff result)
        | _ => executor

theorem Executor.play_reaches (executor : Executor governor ι α) (event : ScriptEvent ι α) :
    Reaches (ExecutorMove config timer) executor (executor.play config timer event) := by
  cases event with
  | call now caller =>
      rw [play]
      split
      · exact .refl
      · rename_i later
        split
        · rename_i shared phase advanced
          have step := ExecutorStep.call now (Nat.not_lt.mp later) caller shared phase advanced
          exact .single ⟨_, step⟩
        · exact .refl
  | attempt now caller result =>
      rw [play]
      split
      · exact .refl
      · rename_i later
        split
        · rename_i count backoff attempting
          have step : ExecutorStep config timer executor [] _ :=
            .attempt now (Nat.not_lt.mp later) caller count backoff attempting result
          exact .single ⟨_, step⟩
        · exact .refl

theorem Executor.script_reaches (executor : Executor governor ι α)
    (script : List (ScriptEvent ι α)) :
    Reaches (ExecutorMove config timer) executor
      (script.foldl (Executor.play config timer) executor) := by
  induction script generalizing executor with
  | nil => exact .refl
  | cons event script inductionHypothesis =>
      exact (executor.play_reaches event).trans (inductionHypothesis _)

/-- Two attempts for a call, and a breaker that trips at the first failure. -/
def overlapping : ResilienceConfig :=
  { ResilienceConfig.default with
    maxRetries := 2
    initialBackoff := 100
    circuitThreshold := 1
    circuitCooldown := 1000 }

/-- Three calls are let through.  Two of them fail their first attempt, and the
second attempt of one of these fails as well and trips the breaker.  The second
call sleeps by then, and the third one has not called its closure yet. -/
def overlappingCalls : List (ScriptEvent Nat Nat) :=
  [.call 0 0, .call 0 0, .call 0 0, .attempt 0 0 (.error (.network "x")),
    .call 50 1, .call 50 1, .call 50 1, .attempt 50 1 (.error (.network "x")),
    .call 90 2, .call 90 2,
    .call 100 0, .attempt 100 0 (.error (.network "x")), .call 100 0]

/-- The breaker is open. -/
def tripped : Executor Governor.gcra Nat Nat :=
  overlappingCalls.foldl (Executor.play overlapping .linux) (.new overlapping Governor.gcra 0)

/-- The second call has started its second attempt. -/
def retried : Executor Governor.gcra Nat Nat :=
  tripped.moveTo 150 tripped.shared 1 (.attempting 2 200)

/-- The third call has started its first attempt. -/
def entered : Executor Governor.gcra Nat Nat :=
  tripped.moveTo 150 tripped.shared 2 (.attempting 1 100)

theorem tripped_sleeping : tripped.phases 1 = .sleeping 1 100 150 := by
  rfl

theorem tripped_allowed : tripped.phases 2 = .allowed := by
  rfl

theorem tripped_reached :
    Reaches (ExecutorMove overlapping .linux) (.new overlapping Governor.gcra 0) tripped :=
  Executor.script_reaches _ _

theorem retried_starts : Starts overlapping .linux 1 tripped retried := by
  refine ⟨⟨_, .call 150 (by decide) 1 tripped.shared (.attempting 2 200) (by rfl)⟩, ?_, 2, 200,
    by rfl⟩
  rw [tripped_sleeping]
  intro count backoff impossible
  cases impossible

theorem entered_starts : Starts overlapping .linux 2 tripped entered := by
  refine ⟨⟨_, .call 150 (by decide) 2 tripped.shared (.attempting 1 100) (by rfl)⟩, ?_, 1, 100,
    by rfl⟩
  rw [tripped_allowed]
  intro count backoff impossible
  cases impossible

theorem attempts_admitted_retried :
    ∃ checked passed, Admission overlapping .linux 1 (.new overlapping Governor.gcra 0)
      retried checked passed ∧ passed.now ≤ 150 := by
  have admitted := attempts_admitted overlapping Governor.gcra .linux 0 1 tripped retried
    tripped_reached retried_starts
  exact admitted.2

/-- Both a first attempt and a retry start although the breaker is open. -/
theorem attempts_start_while_open :
    Reaches (ExecutorMove overlapping .linux) (.new overlapping Governor.gcra 0) tripped ∧
    (Starts overlapping .linux 2 tripped entered ∧ entered.shared.breaker.OpenAt entered.now) ∧
    Starts overlapping .linux 1 tripped retried ∧ retried.shared.breaker.OpenAt retried.now :=
  ⟨tripped_reached, ⟨entered_starts, 1100, by rfl, by decide⟩, retried_starts, 1100, by rfl,
    by decide⟩

end Resilience
end KernelFlow
