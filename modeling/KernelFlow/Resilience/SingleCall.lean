import Mathlib
import KernelFlow.Resilience.Executor

namespace KernelFlow
namespace Resilience

/-!
# One call from start to end

The retry loop of `run` for a single call.  The world decides at which instant
each step happens and in which state the step finds the limiter and the
breaker, so other calls on the same executor may do anything in between; the
outcomes of the attempts are an infinite sequence, counted from one.

Steps are counted from zero.  Attempt `k` runs in the state after `2 * k + 1`
steps, the last attempt is reported in step `2 * k + 2`, and the call has ended
after `2 * k + 3` steps.
-/

/-- How one attempt ends. -/
inductive Attempt (α : Type)
  | ok (value : α)
  | err (error : KernelError)
  | timeout

/-- The `match` on the result of the timeout. -/
def Attempt.outcome {α : Type} (config : ResilienceConfig) : Attempt α -> KernelResult α
  | .ok value => .ok value
  | .err error => .error error
  | .timeout => .error (.timeout config.timeout)

/-- Only a success of the closure counts as one. -/
theorem Attempt.outcome_eq_ok_iff {α : Type} (config : ResilienceConfig) (attempt : Attempt α)
    (value : α) : attempt.outcome config = .ok value ↔ attempt = .ok value := by
  cases attempt with
  | ok found => simp [outcome]
  | err error => simp [outcome]
  | timeout => simp [outcome]

namespace Phase

variable {α : Type}

/-- The events that the next step reports to the breaker. -/
def reports : Phase α -> List Call
  | .recording result => [reportOf result]
  | _ => []

/-- The number of invocations of the closure on entering the phase. -/
def invocations : Phase α -> Nat
  | .attempting _ _ => 1
  | _ => 0

/-- A sleeper is woken when its timer has fired, never before. -/
def reading (now : Instant) : Phase α -> Instant
  | .sleeping _ _ wake => max wake now
  | _ => now

end Phase

/-- A call with what it has done to the outside. -/
@[ext]
structure CallState (α : Type) where
  phase : Phase α
  invocations : Nat
  reports : List Call

/-- The instants of the steps of one call, and what they find in the shared
state. -/
abbrev World (governor : Governor) := Nat -> Instant × Shared governor

namespace CallState

variable {α : Type} {governor : Governor}

def start : CallState α where
  phase := .checking
  invocations := 0
  reports := []

/-- One step at a moment of the world. -/
def step (config : ResilienceConfig) (timer : Timer) (outcomes : Nat -> Attempt α)
    (moment : Instant × Shared governor) (state : CallState α) : CallState α :=
  match state.phase.advance config timer (state.phase.reading moment.1) moment.2 with
  | some (_, next) =>
      { phase := next
        invocations := state.invocations + next.invocations
        reports := state.reports ++ state.phase.reports }
  | none =>
      match state.phase with
      | .attempting attempt backoff =>
          { state with
            phase := Phase.afterAttempt config timer moment.1 attempt backoff
              ((outcomes state.invocations).outcome config) }
      | _ => state

/-- The state after a number of steps. -/
def after (config : ResilienceConfig) (timer : Timer) (outcomes : Nat -> Attempt α)
    (world : World governor) : Nat -> CallState α
  | 0 => start
  | steps + 1 => step config timer outcomes (world steps) (after config timer outcomes world steps)

theorem after_succ (config : ResilienceConfig) (timer : Timer) (outcomes : Nat -> Attempt α)
    (world : World governor) (steps : Nat) :
    after config timer outcomes world (steps + 1) =
      step config timer outcomes (world steps) (after config timer outcomes world steps) := rfl

/-! ## The steps of each phase -/

variable {config : ResilienceConfig} {timer : Timer} {outcomes : Nat -> Attempt α}
  {moment : Instant × Shared governor} {invocations : Nat} {reports : List Call}

/-- A step that does not wait for the closure. -/
theorem step_of_advance {state : CallState α} {next : Phase α} {shared : Shared governor}
    (advanced : state.phase.advance config timer (state.phase.reading moment.1) moment.2 =
      some (shared, next)) :
    step config timer outcomes moment state =
      ⟨next, state.invocations + next.invocations, state.reports ++ state.phase.reports⟩ := by
  simp only [step, advanced]

theorem step_checking :
    step config timer outcomes moment ⟨.checking, invocations, reports⟩ =
      ⟨if (governor.check moment.2.limiter moment.1).1 then .admitted
        else .done (.error .rateLimited), invocations, reports⟩ := by
  refine (step_of_advance rfl).trans ?_
  rw [show (Phase.checking : Phase α).reports = [] from rfl, List.append_nil]
  change CallState.mk (if (governor.check moment.2.limiter moment.1).1 then _ else _)
    (invocations + Phase.invocations
      (if (governor.check moment.2.limiter moment.1).1 then _ else _)) reports = _
  cases (governor.check moment.2.limiter moment.1).1 with
  | false => rfl
  | true => rfl

theorem step_admitted :
    step config timer outcomes moment ⟨.admitted, invocations, reports⟩ =
      ⟨if (moment.2.breaker.allow moment.1).1 then .allowed
        else .done (.error .circuitOpen), invocations, reports⟩ := by
  refine (step_of_advance rfl).trans ?_
  rw [show (Phase.admitted : Phase α).reports = [] from rfl, List.append_nil]
  change CallState.mk (if (moment.2.breaker.allow moment.1).1 then _ else _)
    (invocations + Phase.invocations
      (if (moment.2.breaker.allow moment.1).1 then _ else _)) reports = _
  cases (moment.2.breaker.allow moment.1).1 with
  | false => rfl
  | true => rfl

theorem step_allowed :
    step config timer outcomes moment ⟨.allowed, invocations, reports⟩ =
      ⟨.attempting 1 config.initialBackoff, invocations + 1, reports⟩ := by
  refine (step_of_advance rfl).trans ?_
  rw [show (Phase.allowed : Phase α).reports = [] from rfl, List.append_nil]
  rfl

theorem step_attempting (attempt : UInt32) (backoff : Duration) :
    step config timer outcomes moment ⟨.attempting attempt backoff, invocations, reports⟩ =
      ⟨Phase.afterAttempt config timer moment.1 attempt backoff
        ((outcomes invocations).outcome config), invocations, reports⟩ := rfl

/-- A sleeper wakes up for the next attempt if doubling and counting stay in
range. -/
theorem step_sleeping {attempt : UInt32} {backoff : Duration} (wake : Instant)
    (doubled : 2 * backoff ≤ maxDuration) (counted : attempt.toNat + 1 < 2 ^ 32) :
    step config timer outcomes moment ⟨.sleeping attempt backoff wake, invocations, reports⟩ =
      ⟨.attempting (attempt + 1) (min (backoff * 2) config.maxBackoff), invocations + 1,
        reports⟩ := by
  have awake : ¬ max wake moment.1 < wake := Nat.not_lt.mpr (Nat.le_max_left _ _)
  have fits : ¬ (maxDuration < backoff * 2 ∨ attempt.toNat + 1 = 2 ^ 32) := by
    rintro (overflow | wrapped)
    · rw [Nat.mul_comm] at overflow
      exact Nat.not_lt.mpr doubled overflow
    · exact Nat.ne_of_lt counted wrapped
  have advanced : (Phase.sleeping attempt backoff wake : Phase α).advance config timer
      (max wake moment.1) moment.2 = some (moment.2,
        .attempting (attempt + 1) (min (backoff * 2) config.maxBackoff)) := by
    rw [Phase.advance, if_neg awake, if_neg fits]
  refine (step_of_advance advanced).trans ?_
  simp only [Phase.invocations, Phase.reports, List.append_nil]

/-- A sleeper whose backoff cannot be doubled panics. -/
theorem step_sleeping_panics {attempt : UInt32} {backoff : Duration} (wake : Instant)
    (overflow : ¬ 2 * backoff ≤ maxDuration) :
    step config timer outcomes moment ⟨.sleeping attempt backoff wake, invocations, reports⟩ =
      ⟨.panicked, invocations, reports⟩ := by
  have awake : ¬ max wake moment.1 < wake := Nat.not_lt.mpr (Nat.le_max_left _ _)
  have beyond : maxDuration < backoff * 2 := by
    rw [Nat.mul_comm]
    exact Nat.not_le.mp overflow
  have advanced : (Phase.sleeping attempt backoff wake : Phase α).advance config timer
      (max wake moment.1) moment.2 = some (moment.2, .panicked) := by
    rw [Phase.advance, if_neg awake, if_pos (Or.inl beyond)]
  refine (step_of_advance advanced).trans ?_
  simp only [Phase.invocations, Phase.reports, Nat.add_zero, List.append_nil]

theorem step_recording_ok (value : α) :
    step config timer outcomes moment ⟨.recording (.ok value), invocations, reports⟩ =
      ⟨.done (.ok value), invocations, reports ++ [.onSuccess]⟩ := rfl

/-- The report of a failure panics if the deadline does not fit. -/
theorem step_recording_error (error : KernelError) :
    step config timer outcomes moment ⟨.recording (.error error), invocations, reports⟩ =
      ⟨if moment.2.breaker.threshold ≤ saturatingAdd moment.2.breaker.failures 1 ∧
          timer.latest < moment.1 + moment.2.breaker.cooldown then .panicked
        else .done (.error error), invocations, reports ++ [.onFailure]⟩ := by
  by_cases unrepresentable :
      moment.2.breaker.threshold ≤ saturatingAdd moment.2.breaker.failures 1 ∧
        timer.latest < moment.1 + moment.2.breaker.cooldown
  · rw [if_pos unrepresentable]
    exact step_of_advance (if_pos unrepresentable)
  · rw [if_neg unrepresentable]
    exact step_of_advance (if_neg unrepresentable)

/-- The phase of a call that has ended. -/
def Ended : Phase α -> Prop
  | .done _ => True
  | .panicked => True
  | _ => False

theorem step_of_ended {state : CallState α} (ended : Ended state.phase) :
    step config timer outcomes moment state = state := by
  rcases state with ⟨phase, invocations, reports⟩
  cases phase with
  | done result => rfl
  | panicked => rfl
  | _ => exact ended.elim

variable {world : World governor}

/-- A call that has ended stays as it is. -/
theorem after_add_of_ended {steps : Nat}
    (ended : Ended (after config timer outcomes world steps).phase) (more : Nat) :
    after config timer outcomes world (steps + more) =
      after config timer outcomes world steps := by
  induction more with
  | zero => rfl
  | succ more inductionHypothesis =>
      rw [← Nat.add_assoc, after_succ, inductionHypothesis]
      exact step_of_ended ended

end CallState

/-! ## The backoffs -/

/-- The backoff after a number of attempts beyond the first, as the loop
computes it. -/
def ResilienceConfig.pause (config : ResilienceConfig) : Nat -> Duration
  | 0 => config.initialBackoff
  | count + 1 => min (config.pause count * 2) config.maxBackoff

theorem ResilienceConfig.pause_doubled {config : ResilienceConfig}
    (initial : 2 * config.initialBackoff ≤ maxDuration)
    (capped : 2 * config.maxBackoff ≤ maxDuration) (count : Nat) :
    2 * config.pause count ≤ maxDuration := by
  cases count with
  | zero => exact initial
  | succ count => exact Nat.le_trans (Nat.mul_le_mul_left 2 (Nat.min_le_right _ _)) capped

/-! ## The number of attempts -/

/-- The attempts at which the loop may stop: the successes, and the last one
that the configuration allows. -/
def Stops {α : Type} (config : ResilienceConfig) (outcomes : Nat -> Attempt α) : Set Nat :=
  {attempt | (1 ≤ attempt ∧ ∃ value, outcomes attempt = .ok value) ∨
    attempt = max 1 config.maxRetries.toNat}

namespace Stops

variable {α : Type} {config : ResilienceConfig} {outcomes : Nat -> Attempt α} {last : Nat}

theorem exists_isLeast (config : ResilienceConfig) (outcomes : Nat -> Attempt α) :
    ∃ last, IsLeast (Stops config outcomes) last := by
  have nonempty : (Stops config outcomes).Nonempty := ⟨_, Or.inr rfl⟩
  exact ⟨sInf (Stops config outcomes), Nat.sInf_mem nonempty, fun _attempt => Nat.sInf_le⟩

theorem one_le (least : IsLeast (Stops config outcomes) last) : 1 ≤ last := by
  rcases least.1 with success | limit
  · exact success.1
  · rw [limit]
    exact Nat.le_max_left _ _

theorem le_limit (least : IsLeast (Stops config outcomes) last) :
    last ≤ max 1 config.maxRetries.toNat :=
  least.2 (Or.inr rfl)

/-- The counter has room for every attempt. -/
theorem lt_counter (least : IsLeast (Stops config outcomes) last) : last < 2 ^ 32 := by
  have limit := le_limit least
  have small := config.maxRetries.toNat_lt
  omega

/-- An attempt before the last one fails, and the configuration allows another
one. -/
theorem fails_before (least : IsLeast (Stops config outcomes) last) {attempt : Nat}
    (positive : 1 ≤ attempt) (before : attempt < last) :
    (∃ error, (outcomes attempt).outcome config = .error error) ∧
      attempt < config.maxRetries.toNat := by
  have going : attempt ∉ Stops config outcomes :=
    fun stops => Nat.not_le.mpr before (least.2 stops)
  refine ⟨?_, ?_⟩
  · cases ending : outcomes attempt with
    | ok value => exact absurd (Or.inl ⟨positive, value, ending⟩) going
    | err error => exact ⟨error, rfl⟩
    | timeout => exact ⟨.timeout config.timeout, rfl⟩
  · have limit := le_limit least
    omega

/-- After the last attempt the loop is left. -/
theorem afterAttempt_last (least : IsLeast (Stops config outcomes) last) (now : Instant)
    (backoff : Duration) :
    Phase.afterAttempt config timer now (UInt32.ofNat last) backoff ((outcomes last).outcome config) =
      .recording ((outcomes last).outcome config) := by
  cases result : (outcomes last).outcome config with
  | ok value => rfl
  | error error =>
      have exhausted : config.maxRetries ≤ UInt32.ofNat last := by
        rcases least.1 with ⟨_, value, success⟩ | limit
        · rw [success] at result
          cases result
        · rw [UInt32.le_iff_toNat_le, UInt32.toNat_ofNat_of_lt' (lt_counter least), limit]
          exact Nat.le_max_right _ _
      exact if_pos exhausted

end Stops

namespace CallState

variable {α : Type} {governor : Governor} {config : ResilienceConfig} {timer : Timer}
  {outcomes : Nat -> Attempt α} {world : World governor} {last : Nat}

/-- The limiter refuses the call. -/
def RateLimited (world : World governor) : Prop :=
  (governor.check (world 0).2.limiter (world 0).1).1 = false

/-- The breaker refuses the call. -/
def CircuitOpen (world : World governor) : Prop :=
  ((world 1).2.breaker.allow (world 1).1).1 = false

instance (world : World governor) : Decidable (RateLimited world) :=
  inferInstanceAs (Decidable (_ = _))

instance (world : World governor) : Decidable (CircuitOpen world) :=
  inferInstanceAs (Decidable (_ = _))

theorem after_of_rateLimited (refused : RateLimited world) :
    after config timer outcomes world 1 = ⟨.done (.error .rateLimited), 0, []⟩ := by
  refine step_checking.trans ?_
  rw [show (governor.check (world 0).2.limiter (world 0).1).1 = false from refused]
  rfl

theorem after_of_passed (passed : ¬ RateLimited world) :
    after config timer outcomes world 1 = ⟨.admitted, 0, []⟩ := by
  refine step_checking.trans ?_
  rw [show (governor.check (world 0).2.limiter (world 0).1).1 = true from
    Bool.not_eq_false _ |>.mp passed]
  rfl

theorem after_of_circuitOpen (passed : ¬ RateLimited world) (refused : CircuitOpen world) :
    after config timer outcomes world 2 = ⟨.done (.error .circuitOpen), 0, []⟩ := by
  rw [after_succ, after_of_passed passed, step_admitted,
    show ((world 1).2.breaker.allow (world 1).1).1 = false from refused]
  rfl

theorem after_of_allowed (passed : ¬ RateLimited world) (allowed : ¬ CircuitOpen world) :
    after config timer outcomes world 2 = ⟨.allowed, 0, []⟩ := by
  rw [after_succ, after_of_passed passed, step_admitted,
    show ((world 1).2.breaker.allow (world 1).1).1 = true from
      Bool.not_eq_false _ |>.mp allowed]
  rfl

theorem after_of_entered (passed : ¬ RateLimited world) (allowed : ¬ CircuitOpen world) :
    after config timer outcomes world 3 = ⟨.attempting 1 config.initialBackoff, 1, []⟩ := by
  rw [after_succ, after_of_allowed passed allowed, step_allowed]

/-- A failed attempt before the last one is followed by a sleep. -/
theorem after_asleep (least : IsLeast (Stops config outcomes) last) {index : Nat}
    (before : index + 1 < last) {backoff : Duration}
    (reached : after config timer outcomes world (2 * (index + 1) + 1) =
      ⟨.attempting (UInt32.ofNat (index + 1)) backoff, index + 1, []⟩) :
    after config timer outcomes world (2 * (index + 1) + 2) =
      ⟨.sleeping (UInt32.ofNat (index + 1)) backoff
        (timer.sleepUntil (world (2 * (index + 1) + 1)).1 backoff), index + 1, []⟩ := by
  rcases Stops.fails_before least (Nat.le_add_left 1 index) before with ⟨⟨error, failed⟩, another⟩
  have room : index + 1 < 2 ^ 32 := Nat.lt_trans before (Stops.lt_counter least)
  have again : ¬ config.maxRetries ≤ UInt32.ofNat (index + 1) := by
    rw [UInt32.le_iff_toNat_le, UInt32.toNat_ofNat_of_lt' room]
    exact Nat.not_le.mpr another
  rw [after_succ, reached, step_attempting, failed, Phase.afterAttempt, if_neg again]

/-- Up to the last attempt every second step starts one, if the backoffs before
it can be doubled. -/
theorem after_attempt (passed : ¬ RateLimited world) (allowed : ¬ CircuitOpen world)
    (least : IsLeast (Stops config outcomes) last) (index : Nat) (within : index + 1 ≤ last)
    (fits : forall earlier, earlier < index -> 2 * config.pause earlier ≤ maxDuration) :
    after config timer outcomes world (2 * (index + 1) + 1) =
      ⟨.attempting (UInt32.ofNat (index + 1)) (config.pause index), index + 1, []⟩ := by
  induction index with
  | zero => exact after_of_entered passed allowed
  | succ index inductionHypothesis =>
      have reached := inductionHypothesis (Nat.le_of_succ_le within)
        fun earlier before => fits earlier (Nat.lt_succ_of_lt before)
      have room : index + 1 + 1 < 2 ^ 32 :=
        Nat.lt_of_le_of_lt within (Stops.lt_counter least)
      have counted : (UInt32.ofNat (index + 1)).toNat + 1 < 2 ^ 32 := by
        rw [UInt32.toNat_ofNat_of_lt' (Nat.lt_of_succ_lt room)]
        exact room
      rw [Nat.mul_succ, after_succ, after_asleep least within reached,
        step_sleeping _ (fits index (Nat.lt_succ_self index)) counted, UInt32.ofNat_add (index + 1)]
      rfl

/-- The last attempt runs, if the backoffs before it can be doubled. -/
theorem after_last_attempt (passed : ¬ RateLimited world) (allowed : ¬ CircuitOpen world)
    (least : IsLeast (Stops config outcomes) last)
    (fits : forall earlier, earlier + 1 < last -> 2 * config.pause earlier ≤ maxDuration) :
    after config timer outcomes world (2 * last + 1) =
      ⟨.attempting (UInt32.ofNat last) (config.pause (last - 1)), last, []⟩ := by
  rcases Nat.exists_eq_succ_of_ne_zero (Nat.ne_of_gt (Stops.one_le least)) with ⟨index, rfl⟩
  exact after_attempt passed allowed least index (Nat.le_refl _)
    fun earlier before => fits earlier (Nat.succ_lt_succ before)

/-- After the last attempt its result is reported. -/
theorem after_last (passed : ¬ RateLimited world) (allowed : ¬ CircuitOpen world)
    (least : IsLeast (Stops config outcomes) last)
    (fits : forall earlier, earlier + 1 < last -> 2 * config.pause earlier ≤ maxDuration) :
    after config timer outcomes world (2 * last + 2) =
      ⟨.recording ((outcomes last).outcome config), last, []⟩ := by
  rw [after_succ, after_last_attempt passed allowed least fits, step_attempting,
    Stops.afterAttempt_last least]

/-- The breaker can take the report on the last attempt: the attempt has
succeeded, or its failure does not trip the breaker, or the deadline of the trip
is representable. -/
def Reportable (timer : Timer) (outcomes : Nat -> Attempt α) (world : World governor)
    (last : Nat) : Prop :=
  let (now, shared) := world (2 * last + 2)
  (∃ value, outcomes last = .ok value) ∨
    ¬ shared.breaker.threshold ≤ saturatingAdd shared.breaker.failures 1 ∨
    now + shared.breaker.cooldown ≤ timer.latest

/-- A report that fits ends the call. -/
theorem step_report (invocations : Nat) (reportable : Reportable timer outcomes world last) :
    step config timer outcomes (world (2 * last + 2))
        ⟨.recording ((outcomes last).outcome config), invocations, []⟩ =
      ⟨.done ((outcomes last).outcome config), invocations,
        [Phase.reportOf ((outcomes last).outcome config)]⟩ := by
  cases result : (outcomes last).outcome config with
  | ok value => exact step_recording_ok value
  | error error =>
      refine (step_recording_error error).trans ?_
      have fits : ¬ ((world (2 * last + 2)).2.breaker.threshold ≤
            saturatingAdd (world (2 * last + 2)).2.breaker.failures 1 ∧
          timer.latest < (world (2 * last + 2)).1 + (world (2 * last + 2)).2.breaker.cooldown) := by
        rintro ⟨reached, beyond⟩
        rcases reportable with ⟨value, success⟩ | short | fits
        · rw [success] at result
          cases result
        · exact short reached
        · exact Nat.not_le.mpr beyond fits
      rw [if_neg fits]
      rfl

/-- A report that does not fit panics. -/
theorem step_report_panics (invocations : Nat)
    (unreportable : ¬ Reportable timer outcomes world last) :
    (step config timer outcomes (world (2 * last + 2))
      ⟨.recording ((outcomes last).outcome config), invocations, []⟩).phase = .panicked := by
  rcases not_or.mp unreportable with ⟨noSuccess, tripped⟩
  rcases not_or.mp tripped with ⟨reached, beyond⟩
  cases result : (outcomes last).outcome config with
  | ok value =>
      exact absurd ⟨value, (Attempt.outcome_eq_ok_iff config _ value).mp result⟩ noSuccess
  | error error =>
      rw [step_recording_error]
      exact if_pos ⟨not_not.mp reached, Nat.not_le.mp beyond⟩

/-- A call only sleeps when the configuration allows another attempt. -/
theorem lt_maxRetries_of_sleeping (steps : Nat) {attempt : UInt32} {backoff : Duration}
    {wake : Instant}
    (sleeping : (after config timer outcomes world steps).phase =
      .sleeping attempt backoff wake) : attempt < config.maxRetries := by
  induction steps with
  | zero => cases sleeping
  | succ steps inductionHypothesis =>
      rw [after_succ] at sleeping
      generalize after config timer outcomes world steps = before at sleeping inductionHypothesis
      unfold step at sleeping
      split at sleeping
      · rename_i shared next advanced
        exact absurd sleeping ((Phase.advanced_of_advance advanced).ne_sleeping _ _ _)
      · split at sleeping
        · exact Phase.lt_maxRetries_of_afterAttempt sleeping
        · exact inductionHypothesis sleeping

/-! ## The call end to end -/

/-- What the loop is to have done for a call. -/
structure Fulfilled (config : ResilienceConfig) (outcomes : Nat -> Attempt α)
    (world : World governor) (final : CallState α) : Prop where
  limited : RateLimited world -> final = ⟨.done (.error .rateLimited), 0, []⟩
  refused : ¬ RateLimited world -> CircuitOpen world ->
    final = ⟨.done (.error .circuitOpen), 0, []⟩
  admitted : ¬ RateLimited world -> ¬ CircuitOpen world ->
    forall last, IsLeast (Stops config outcomes) last ->
      final = ⟨.done ((outcomes last).outcome config), last,
        [Phase.reportOf ((outcomes last).outcome config)]⟩

/-- From some step on the call has done what it is to do, and the counter of
its attempts never wraps. -/
def Fulfills (config : ResilienceConfig) (timer : Timer) (outcomes : Nat -> Attempt α)
    (world : World governor) : Prop :=
  (∃ steps, forall later, steps ≤ later ->
    Fulfilled config outcomes world (after config timer outcomes world later)) ∧
  forall steps attempt backoff wake,
    (after config timer outcomes world steps).phase = .sleeping attempt backoff wake ->
      attempt.toNat + 1 < 2 ^ 32

/-- A call that has ended as it should does so from then on. -/
private theorem fulfills_of_ended {steps : Nat}
    (ended : Ended (after config timer outcomes world steps).phase)
    (fulfilled : Fulfilled config outcomes world (after config timer outcomes world steps)) :
    Fulfills config timer outcomes world := by
  refine ⟨⟨steps, ?_⟩, ?_⟩
  · intro later reached
    rcases Nat.exists_eq_add_of_le reached with ⟨more, rfl⟩
    rw [after_add_of_ended ended]
    exact fulfilled
  · intro steps attempt backoff wake sleeping
    have another := lt_maxRetries_of_sleeping steps sleeping
    have small := config.maxRetries.toNat_lt
    rw [UInt32.lt_iff_toNat_lt] at another
    omega

theorem fulfills_of_rateLimited (limited : RateLimited world) :
    Fulfills config timer outcomes world := by
  have reached : after config timer outcomes world 1 = ⟨.done (.error .rateLimited), 0, []⟩ :=
    after_of_rateLimited limited
  apply fulfills_of_ended
  · rw [reached]
    trivial
  · exact {
      limited := fun _limited => reached
      refused := fun passed => absurd limited passed
      admitted := fun passed => absurd limited passed }

theorem fulfills_of_circuitOpen (passed : ¬ RateLimited world) (refused : CircuitOpen world) :
    Fulfills config timer outcomes world := by
  have reached : after config timer outcomes world 2 = ⟨.done (.error .circuitOpen), 0, []⟩ :=
    after_of_circuitOpen passed refused
  apply fulfills_of_ended
  · rw [reached]
    trivial
  · exact {
      limited := fun limited => absurd limited passed
      refused := fun _passed _refused => reached
      admitted := fun _passed allowed => absurd refused allowed }

theorem fulfills_of_reportable (initial : 2 * config.initialBackoff ≤ maxDuration)
    (capped : 2 * config.maxBackoff ≤ maxDuration) (passed : ¬ RateLimited world)
    (allowed : ¬ CircuitOpen world) (least : IsLeast (Stops config outcomes) last)
    (reportable : Reportable timer outcomes world last) :
    Fulfills config timer outcomes world := by
  have reached : after config timer outcomes world (2 * last + 3) =
      ⟨.done ((outcomes last).outcome config), last,
        [Phase.reportOf ((outcomes last).outcome config)]⟩ := by
    rw [after_succ, after_last passed allowed least fun _earlier _before =>
      config.pause_doubled initial capped _]
    exact step_report last reportable
  apply fulfills_of_ended
  · rw [reached]
    trivial
  · exact {
      limited := fun limited => absurd limited passed
      refused := fun _passed refused => absurd refused allowed
      admitted := by
        intro _ _ other otherLeast
        rw [otherLeast.unique least]
        exact reached }

/-- An admitted call that does what it should can take its report. -/
theorem reportable_of_fulfills (initial : 2 * config.initialBackoff ≤ maxDuration)
    (capped : 2 * config.maxBackoff ≤ maxDuration) (passed : ¬ RateLimited world)
    (allowed : ¬ CircuitOpen world) (least : IsLeast (Stops config outcomes) last)
    (fulfills : Fulfills config timer outcomes world) :
    Reportable timer outcomes world last := by
  rcases fulfills with ⟨⟨steps, ends⟩, _⟩
  by_contra unreportable
  have panics : (after config timer outcomes world (2 * last + 3)).phase = .panicked := by
    rw [after_succ, after_last passed allowed least fun _earlier _before =>
      config.pause_doubled initial capped _]
    exact step_report_panics last unreportable
  have stays : after config timer outcomes world (2 * last + 3 + steps) =
      after config timer outcomes world (2 * last + 3) :=
    after_add_of_ended (by rw [panics]; trivial) steps
  have done := (ends (2 * last + 3 + steps) (Nat.le_add_left _ _)).admitted passed allowed
    last least
  rw [← stays, done] at panics
  cases panics

/-- The retry loop.  A call that the limiter or the breaker refuses returns
that error without an invocation and without a report.  An admitted call stops
at the first success or after the allowed number of attempts, returns the result
of its last attempt and reports it once, if and only if the report does not need
a deadline beyond the last instant of the platform. -/
theorem run_fulfills_iff (config : ResilienceConfig) (governor : Governor) (timer : Timer)
    (outcomes : Nat -> Attempt α) (world : World governor)
    (initial : 2 * config.initialBackoff ≤ maxDuration)
    (capped : 2 * config.maxBackoff ≤ maxDuration) :
    Fulfills config timer outcomes world ↔
      (RateLimited world ∨ CircuitOpen world ∨
        forall last, IsLeast (Stops config outcomes) last ->
          Reportable timer outcomes world last) := by
  by_cases limited : RateLimited world
  · exact iff_of_true (fulfills_of_rateLimited limited) (Or.inl limited)
  by_cases refused : CircuitOpen world
  · exact iff_of_true (fulfills_of_circuitOpen limited refused) (Or.inr (Or.inl refused))
  constructor
  · intro fulfills
    refine Or.inr (Or.inr ?_)
    intro last least
    exact reportable_of_fulfills initial capped limited refused least fulfills
  · rintro (impossible | impossible | reportable)
    · exact absurd impossible limited
    · exact absurd impossible refused
    · rcases Stops.exists_isLeast config outcomes with ⟨last, least⟩
      exact fulfills_of_reportable initial capped limited refused least (reportable last least)

/-- The first call on an executor, with nothing else on it.  The limiter is read
in the first step only, and the breaker does not change before the report.  A
step is made every minute of the first two hours. -/
def alone (config : ResilienceConfig) (governor : Governor) : World governor :=
  fun step => (min step 120 * 60000000000, .new config governor)

/-- The default configuration, a failure and then a success. -/
theorem run_fulfills_iff_default :
    Fulfills .default .linux
      (fun attempt => if attempt ≤ 1 then .err (.network "x") else .ok 42)
      (alone .default Governor.gcra) :=
  (run_fulfills_iff .default Governor.gcra _ _ _ (by decide) (by decide)).mpr
    (Or.inr (Or.inr fun _last _least => Or.inr (Or.inl (by decide))))

/-- With the longest cooldown the failure that trips the breaker panics and
returns nothing. -/
theorem long_cooldown_not_fulfilled :
    let config := { ResilienceConfig.default with
      maxRetries := 1
      circuitThreshold := 1
      circuitCooldown := maxDuration }
    2 * config.initialBackoff ≤ maxDuration ∧ 2 * config.maxBackoff ≤ maxDuration ∧
      ¬ Fulfills (α := Nat) config .linux
        (fun _attempt => .err (.network "x")) (alone config Governor.gcra) := by
  intro config
  have least : IsLeast (Stops (α := Nat) config fun _attempt => .err (.network "x")) 1 := by
    refine ⟨Or.inr rfl, ?_⟩
    rintro attempt (⟨positive, _⟩ | limit)
    · exact positive
    · exact Nat.le_of_eq limit.symm
  refine ⟨by decide, by decide, ?_⟩
  intro fulfills
  rcases reportable_of_fulfills (by decide) (by decide) (by decide) (by decide) least fulfills
    with ⟨value, impossible⟩ | impossible | impossible
  · cases impossible
  · exact impossible (by decide)
  · exact absurd impossible (by decide)

end CallState

end Resilience
end KernelFlow
