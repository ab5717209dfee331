import Mathlib
import KernelFlow.Resilience.CircuitBreaker

namespace KernelFlow
namespace Resilience

/-!
# The resilient executor

`ResilientExecutor::run` as a small machine for one call: admission by the rate
limiter, admission by the circuit breaker, attempts with exponential backoff
between them, and one report to the breaker at the end.  Limiter and breaker are
shared by all calls on one executor, so the machine reads and writes a `Shared`
record beside its own phase; what other calls do to that record between two
steps is up to the system that runs the machine.

The limiter and the timer come from third-party crates and are parameters.
Arithmetic that panics in the source leads to the phase `panicked`.
-/

structure ResilienceConfig where
  timeout : Duration
  maxRetries : UInt32
  initialBackoff : Duration
  maxBackoff : Duration
  rps : UInt32
  circuitThreshold : UInt8
  circuitCooldown : Duration

/-- `Default`. -/
def ResilienceConfig.default : ResilienceConfig where
  timeout := 30000000000
  maxRetries := 3
  initialBackoff := 100000000
  maxBackoff := 5000000000
  rps := 1000
  circuitThreshold := 5
  circuitCooldown := 10000000000

/-! ## The rate limiter -/

/-- A direct rate limiter: its state after construction with a quota per second,
and one check at an instant. -/
structure Governor where
  State : Type
  direct : Nat -> State
  check : State -> Instant -> Bool × State

namespace Governor

/-- The state after checks at the listed instants. -/
def checks (governor : Governor) (state : governor.State) (times : List Instant) :
    governor.State :=
  times.foldl (fun state now => (governor.check state now).2) state

/-- The documented behaviour for a quota: up to that many checks are admitted,
at one instant or spread over time, and the next one at the same instant is
refused. -/
structure PerSecond (governor : Governor) (quota : Nat) : Prop where
  admits : forall (times : List Instant) (now : Instant), (times ++ [now]).Pairwise (· ≤ ·) ->
    times.length < quota ->
    (governor.check (governor.checks (governor.direct quota) times) now).1 = true
  refuses : forall now : Instant,
    (governor.check (governor.checks (governor.direct quota) (List.replicate quota now)) now).1 =
      false

theorem checks_append (governor : Governor) (state : governor.State) (times : List Instant)
    (now : Instant) : governor.checks state (times ++ [now]) =
      (governor.check (governor.checks state times) now).2 := by
  rw [checks, List.foldl_append]
  rfl

/-- The generic cell rate algorithm.  The state holds the quota and the
theoretical arrival time of the next cell. -/
def gcra : Governor where
  State := Nat × Option Instant
  direct := fun quota => (quota, none)
  check := fun (quota, arrival) now =>
    let interval := 1000000000 / quota
    let expected := arrival.getD (now + interval)
    if now < expected - quota * interval then (false, (quota, arrival))
    else (true, (quota, some (max expected now + interval)))

/-- A check of the algorithm that is not early passes. -/
private theorem gcra_check (quota : Nat) (arrival : Option Nat) (now : Nat)
    (inTime : arrival.getD (now + 1000000000 / quota) ≤ now + quota * (1000000000 / quota)) :
    gcra.check (quota, arrival) now = (true, (quota,
      some (max (arrival.getD (now + 1000000000 / quota)) now + 1000000000 / quota))) := by
  have notEarly : ¬ now < arrival.getD (now + 1000000000 / quota) -
      quota * (1000000000 / quota) := by
    omega
  exact if_neg notEarly

/-- After fewer checks than the quota the arrival time is less than a full
burst ahead. -/
private theorem gcra_checks (quota : Nat) (times : List Nat) (now : Nat)
    (ordered : (times ++ [now]).Pairwise (· ≤ ·)) (fits : times.length ≤ quota) :
    ∃ arrival : Option Nat, gcra.checks (gcra.direct quota) times = (quota, arrival) ∧
      arrival.getD (now + 1000000000 / quota) ≤
        now + (times.length + 1) * (1000000000 / quota) := by
  induction times using List.reverseRecOn generalizing now with
  | nil => exact ⟨none, rfl, by simp⟩
  | append_singleton times last inductionHypothesis =>
      rcases List.pairwise_append.mp ordered with ⟨earlier, _, before⟩
      have lastLe : last ≤ now :=
        before last (List.mem_append_right _ List.mem_cons_self) now List.mem_cons_self
      rw [List.length_append, List.length_singleton] at fits ⊢
      rcases inductionHypothesis last earlier (by omega) with ⟨arrival, state, bound⟩
      have step : (times.length + 1) * (1000000000 / quota) ≤ quota * (1000000000 / quota) :=
        Nat.mul_le_mul_right _ fits
      have next : (times.length + 1 + 1) * (1000000000 / quota) =
          (times.length + 1) * (1000000000 / quota) + 1000000000 / quota := Nat.succ_mul _ _
      have checked := gcra_check quota arrival last (by omega)
      refine ⟨_, (checks_append _ _ _ _).trans (by rw [state, checked]), ?_⟩
      rw [Option.getD_some, next]
      omega

/-- Checks at one instant advance the arrival time by one interval each. -/
private theorem gcra_replicate (quota now count : Nat) (fits : count + 1 ≤ quota) :
    gcra.checks (gcra.direct quota) (List.replicate (count + 1) now) =
      (quota, some (now + (count + 2) * (1000000000 / quota))) := by
  have burst : (count + 1) * (1000000000 / quota) ≤ quota * (1000000000 / quota) :=
    Nat.mul_le_mul_right _ fits
  have next : (count + 2) * (1000000000 / quota) =
      (count + 1) * (1000000000 / quota) + 1000000000 / quota := Nat.succ_mul _ _
  rw [List.replicate_succ']
  refine (checks_append _ _ _ _).trans ?_
  cases count with
  | zero =>
      have first := gcra_check quota none now (by simpa using burst)
      rw [List.replicate_zero]
      change (gcra.check (quota, none) now).2 = _
      rw [first, Option.getD_none, max_eq_left (Nat.le_add_right _ _), next]
      simp only [Nat.zero_add, Nat.one_mul, Nat.add_assoc]
      rfl
  | succ count =>
      rw [gcra_replicate quota now count (by omega)]
      have checked := gcra_check quota (some (now + (count + 2) * (1000000000 / quota))) now
        (Nat.add_le_add_left burst now)
      rw [checked, Option.getD_some, max_eq_left (Nat.le_add_right _ _), next, Nat.add_assoc]

/-- The algorithm behaves as documented as long as its interval is positive. -/
theorem gcra_perSecond (quota : Nat) (positive : 0 < quota) (small : quota ≤ 1000000000) :
    gcra.PerSecond quota where
  admits := by
    intro times now ordered fits
    rcases gcra_checks quota times now ordered (Nat.le_of_lt fits) with ⟨arrival, state, bound⟩
    have burst : (times.length + 1) * (1000000000 / quota) ≤ quota * (1000000000 / quota) :=
      Nat.mul_le_mul_right _ fits
    rw [state, gcra_check quota arrival now (Nat.le_trans bound (Nat.add_le_add_left burst now))]
  refuses := by
    intro now
    have interval : 0 < 1000000000 / quota := Nat.div_pos small positive
    rcases Nat.exists_eq_succ_of_ne_zero (Nat.ne_of_gt positive) with ⟨count, rfl⟩
    have next : (count + 2) * (1000000000 / (count + 1)) =
        (count + 1) * (1000000000 / (count + 1)) + 1000000000 / (count + 1) := Nat.succ_mul _ _
    rw [Nat.succ_eq_add_one, gcra_replicate (count + 1) now count (Nat.le_refl _)]
    have beyond : forall here burst interval : Nat, 0 < interval ->
        here < here + (burst + interval) - burst := by
      intro here burst interval positive
      omega
    have early : now < (some (now + (count + 2) * (1000000000 / (count + 1)))).getD
        (now + 1000000000 / (count + 1)) - (count + 1) * (1000000000 / (count + 1)) := by
      rw [Option.getD_some, next]
      exact beyond now _ _ interval
    simp only [gcra, if_pos early]

end Governor

/-! ## The timer -/

/-- The clock of the platform and the timer on it: the last representable
instant, and the instant at which a sleep ends that begins at some instant.  A
sleep is exact if its end is representable; otherwise the timer picks an end
that is. -/
structure Timer where
  latest : Instant
  sleepUntil : Instant -> Duration -> Instant
  exact : forall (now : Instant) (duration : Duration), now + duration ≤ latest ->
    sleepUntil now duration = now + duration
  onward : forall (now : Instant) (duration : Duration), now ≤ latest ->
    now ≤ sleepUntil now duration
  bounded : forall (now : Instant) (duration : Duration), now ≤ latest ->
    sleepUntil now duration ≤ latest

namespace Timer

/-- Thirty years. -/
def farFuture : Duration := 86400 * 365 * 30 * 1000000000

/-- A sleep whose end is not representable lasts for thirty years, as far as
these are representable. -/
def tokio (latest : Instant) : Timer where
  latest := latest
  sleepUntil := fun now duration =>
    if now + duration ≤ latest then now + duration else min (now + farFuture) latest
  exact := fun _now _duration representable => if_pos representable
  onward := by
    intro now duration past
    split
    · exact Nat.le_add_right _ _
    · exact Nat.le_min.mpr ⟨Nat.le_add_right _ _, past⟩
  bounded := by
    intro now duration _past
    split
    · rename_i representable
      exact representable
    · exact Nat.min_le_right _ _

/-- Seconds that are signed and have 64 bits. -/
def linux : Timer :=
  .tokio (2 ^ 63 * 1000000000 - 1)

end Timer

/-! ## One call -/

/-- The longest representable duration. -/
def maxDuration : Duration := 2 ^ 64 * 1000000000 - 1

/-- The position inside `run` for one call. -/
inductive Phase (α : Type)
  /-- before the check of the rate limiter -/
  | checking
  /-- before the lock on the breaker for `allow` -/
  | admitted
  /-- let through by the breaker and no longer holding its lock, before the first
  call of the closure -/
  | allowed
  /-- the closure runs under the timeout -/
  | attempting (attempt : UInt32) (backoff : Duration)
  | sleeping (attempt : UInt32) (backoff : Duration) (wake : Instant)
  /-- before the lock on the breaker for the report -/
  | recording (result : KernelResult α)
  | done (result : KernelResult α)
  | panicked

/-- What all calls on one executor share. -/
structure Shared (governor : Governor) where
  limiter : governor.State
  breaker : CircuitBreaker

/-- `ResilientExecutor::new`.  A quota of zero is raised to one. -/
def Shared.new (config : ResilienceConfig) (governor : Governor) : Shared governor where
  limiter := governor.direct (max 1 config.rps.toNat)
  breaker := .new config.circuitThreshold config.circuitCooldown

namespace Phase

variable {α : Type} {governor : Governor}

/-- The steps of a call that do not wait for the closure. -/
def advance (config : ResilienceConfig) (timer : Timer) (now : Instant) (shared : Shared governor) :
    Phase α -> Option (Shared governor × Phase α)
  | .checking =>
      let (passed, limiter) := governor.check shared.limiter now
      some ({ shared with limiter := limiter },
        if passed then .admitted else .done (.error .rateLimited))
  | .admitted =>
      let (closed, breaker) := shared.breaker.allow now
      some ({ shared with breaker := breaker },
        if closed then .allowed else .done (.error .circuitOpen))
  | .allowed => some (shared, .attempting 1 config.initialBackoff)
  | .attempting _ _ => none
  | .sleeping attempt backoff wake =>
      if now < wake then none
      else some (shared,
        if maxDuration < backoff * 2 ∨ attempt.toNat + 1 = 2 ^ 32 then .panicked
        else .attempting (attempt + 1) (min (backoff * 2) config.maxBackoff))
  | .recording (.ok value) =>
      some ({ shared with breaker := shared.breaker.onSuccess }, .done (.ok value))
  | .recording (.error error) =>
      if shared.breaker.threshold ≤ saturatingAdd shared.breaker.failures 1 ∧
          timer.latest < now + shared.breaker.cooldown then
        -- the count is raised before the deadline is computed
        some ({ shared with
          breaker := { shared.breaker with
            failures := saturatingAdd shared.breaker.failures 1 } }, .panicked)
      else some ({ shared with breaker := shared.breaker.onFailure now }, .done (.error error))
  | .done _ => none
  | .panicked => none

/-- The closure has ended, or the timeout has fired, with this result. -/
def afterAttempt (config : ResilienceConfig) (timer : Timer) (now : Instant) (attempt : UInt32)
    (backoff : Duration) (result : KernelResult α) : Phase α :=
  match result with
  | .ok value => .recording (.ok value)
  | .error error =>
      if config.maxRetries ≤ attempt then .recording (.error error)
      else .sleeping attempt backoff (timer.sleepUntil now backoff)

/-- What the caller of the actor receives.  A panic drops the reply channel. -/
def reply : Phase α -> Option (KernelResult α)
  | .done result => some result
  | .panicked => some (.error (.network "actor reply dropped"))
  | _ => none

/-- What a step that does not wait for the closure can do. -/
inductive Advanced (config : ResilienceConfig) (timer : Timer) (now : Instant)
    (shared : Shared governor) : Phase α -> Shared governor -> Phase α -> Prop
  | passed (admitted : (governor.check shared.limiter now).1 = true) :
      Advanced config timer now shared .checking
        { shared with limiter := (governor.check shared.limiter now).2 } .admitted
  | limited (refused : (governor.check shared.limiter now).1 = false) :
      Advanced config timer now shared .checking
        { shared with limiter := (governor.check shared.limiter now).2 }
        (.done (.error .rateLimited))
  | allowed (closed : (shared.breaker.allow now).1 = true) :
      Advanced config timer now shared .admitted
        { shared with breaker := (shared.breaker.allow now).2 } .allowed
  | refused (blocked : (shared.breaker.allow now).1 = false) :
      Advanced config timer now shared .admitted
        { shared with breaker := (shared.breaker.allow now).2 }
        (.done (.error .circuitOpen))
  | entered :
      Advanced config timer now shared .allowed shared (.attempting 1 config.initialBackoff)
  | woken (attempt : UInt32) (backoff : Duration) (wake : Instant) (awake : wake ≤ now)
      (doubled : backoff * 2 ≤ maxDuration) (counted : attempt.toNat + 1 ≠ 2 ^ 32) :
      Advanced config timer now shared (.sleeping attempt backoff wake) shared
        (.attempting (attempt + 1) (min (backoff * 2) config.maxBackoff))
  | overflowed (attempt : UInt32) (backoff : Duration) (wake : Instant) (awake : wake ≤ now)
      (overflow : maxDuration < backoff * 2 ∨ attempt.toNat + 1 = 2 ^ 32) :
      Advanced config timer now shared (.sleeping attempt backoff wake) shared .panicked
  | succeeded (value : α) :
      Advanced config timer now shared (.recording (.ok value))
        { shared with breaker := shared.breaker.onSuccess } (.done (.ok value))
  | failed (error : KernelError)
      (fits : shared.breaker.threshold ≤ saturatingAdd shared.breaker.failures 1 ->
        now + shared.breaker.cooldown ≤ timer.latest) :
      Advanced config timer now shared (.recording (.error error))
        { shared with breaker := shared.breaker.onFailure now } (.done (.error error))
  | unrepresentable (error : KernelError)
      (reached : shared.breaker.threshold ≤ saturatingAdd shared.breaker.failures 1)
      (beyond : timer.latest < now + shared.breaker.cooldown) :
      Advanced config timer now shared (.recording (.error error))
        { shared with
          breaker := { shared.breaker with
            failures := saturatingAdd shared.breaker.failures 1 } } .panicked

/-- A step is one of these. -/
theorem advanced_of_advance {config : ResilienceConfig} {timer : Timer} {now : Instant}
    {shared next : Shared governor} {phase after : Phase α}
    (advanced : phase.advance config timer now shared = some (next, after)) :
    Advanced config timer now shared phase next after := by
  cases phase with
  | checking =>
      simp only [advance, Option.some.injEq, Prod.mk.injEq] at advanced
      rcases advanced with ⟨rfl, rfl⟩
      cases passed : (governor.check shared.limiter now).1 with
      | false => exact .limited passed
      | true => exact .passed passed
  | admitted =>
      simp only [advance, Option.some.injEq, Prod.mk.injEq] at advanced
      rcases advanced with ⟨rfl, rfl⟩
      cases closed : (shared.breaker.allow now).1 with
      | false => exact .refused closed
      | true => exact .allowed closed
  | allowed =>
      simp only [advance, Option.some.injEq, Prod.mk.injEq] at advanced
      rcases advanced with ⟨rfl, rfl⟩
      exact .entered
  | attempting attempt backoff => cases advanced
  | sleeping attempt backoff wake =>
      simp only [advance] at advanced
      split at advanced
      · cases advanced
      · rename_i awake
        simp only [Option.some.injEq, Prod.mk.injEq] at advanced
        rcases advanced with ⟨rfl, rfl⟩
        split
        · rename_i overflow
          exact .overflowed attempt backoff wake (Nat.not_lt.mp awake) overflow
        · rename_i fits
          rcases not_or.mp fits with ⟨doubled, counted⟩
          exact .woken attempt backoff wake (Nat.not_lt.mp awake) (Nat.not_lt.mp doubled) counted
  | recording result =>
      cases result with
      | ok value =>
          simp only [advance, Option.some.injEq, Prod.mk.injEq] at advanced
          rcases advanced with ⟨rfl, rfl⟩
          exact .succeeded value
      | error error =>
          simp only [advance] at advanced
          split at advanced
          · rename_i beyond
            simp only [Option.some.injEq, Prod.mk.injEq] at advanced
            rcases advanced with ⟨rfl, rfl⟩
            exact .unrepresentable error beyond.1 beyond.2
          · rename_i fits
            simp only [Option.some.injEq, Prod.mk.injEq] at advanced
            rcases advanced with ⟨rfl, rfl⟩
            exact .failed error fun reached => Nat.not_lt.mp (not_and.mp fits reached)
  | done result => cases advanced
  | panicked => cases advanced

/-- A call only goes to sleep when the configuration allows another attempt. -/
theorem lt_maxRetries_of_afterAttempt {config : ResilienceConfig} {timer : Timer}
    {now : Instant} {count attempt : UInt32} {pause backoff : Duration} {wake : Instant}
    {result : KernelResult α}
    (ended : afterAttempt config timer now count pause result = .sleeping attempt backoff wake) :
    attempt < config.maxRetries := by
  cases result with
  | ok value => cases ended
  | error error =>
      rw [afterAttempt] at ended
      split at ended
      · cases ended
      · rename_i another
        cases ended
        exact UInt32.not_le.mp another

/-- Only the end of an attempt sends a call to sleep. -/
theorem Advanced.ne_sleeping {config : ResilienceConfig} {timer : Timer} {now : Instant}
    {shared next : Shared governor} {phase after : Phase α}
    (advanced : Advanced config timer now shared phase next after) (attempt : UInt32)
    (backoff : Duration) (wake : Instant) : after ≠ .sleeping attempt backoff wake := by
  cases advanced <;> simp

/-- The event that belongs to a result. -/
def reportOf : KernelResult α -> Call
  | .ok _ => .onSuccess
  | .error _ => .onFailure

/-- The call on the breaker that the next step makes. -/
def breakerCall : Phase α -> Option Call
  | .admitted => some .allow
  | .recording result => some (reportOf result)
  | _ => none

theorem breakerCall_eq_allow_iff {phase : Phase α} :
    phase.breakerCall = some .allow ↔ phase = .admitted := by
  cases phase with
  | recording result => cases result <;> simp [breakerCall, reportOf]
  | _ => simp [breakerCall]

/-- The breaker after a step that makes this call, if any. -/
def breakerAfter (breaker : CircuitBreaker) (now : Instant) : Option Call -> CircuitBreaker
  | some call => (breaker.observe now call).1
  | none => breaker

/-- A step that does not panic changes the breaker by the call it makes, and
not at all if it makes none. -/
theorem Advanced.breaker {config : ResilienceConfig} {timer : Timer} {now : Instant}
    {shared next : Shared governor} {phase after : Phase α}
    (advanced : Advanced config timer now shared phase next after) (calm : after ≠ .panicked) :
    next.breaker = breakerAfter shared.breaker now phase.breakerCall := by
  cases advanced with
  | overflowed attempt backoff wake awake overflow => exact absurd rfl calm
  | unrepresentable error reached beyond => exact absurd rfl calm
  | _ => rfl

/-- The number of steps that a successful call still needs. -/
def rank : Phase α -> Nat
  | .checking => 5
  | .admitted => 4
  | .allowed => 3
  | .sleeping _ _ _ => 3
  | .attempting _ _ => 2
  | .recording _ => 1
  | .done _ => 0
  | .panicked => 0

end Phase

end Resilience
end KernelFlow
