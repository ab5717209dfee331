import Mathlib
import KernelFlow.Resilience.Backoff
import KernelFlow.Resilience.Projection

namespace KernelFlow
namespace Resilience

open Transition

/-!
# Arithmetic of the executor

Four numbers grow in a run: the attempt counter, the backoff, the failure count
and the deadline of the breaker.  The failure count saturates and the counter
stays below the number of retries, so neither overflows.  The other two may, and
a run panics in the first step in which one of them does: a call wakes up with a
backoff that cannot be doubled, or a failure trips the breaker with a cooldown
that reaches beyond the last instant of the platform.

What a run needs not to panic can be read off its configuration and its clock.
The other way round, a configuration whose backoffs cannot all be doubled has a
run that panics, and so has one that trips at the first failure with a cooldown
that is too long for some instant.
-/

variable {governor : Governor} {ι α : Type} [DecidableEq ι] {config : ResilienceConfig}
  {timer : Timer}

namespace Phase

/-- What the next step of a call computes is representable. -/
def Fits (timer : Timer) (now : Instant) (breaker : CircuitBreaker) : Phase α -> Prop
  | .sleeping _ backoff _ => 2 * backoff ≤ maxDuration
  | .recording (.error _) =>
      breaker.threshold ≤ saturatingAdd breaker.failures 1 ->
        now + breaker.cooldown ≤ timer.latest
  | _ => True

namespace Advanced

variable {now : Instant} {shared next : Shared governor} {phase after : Phase α}

/-- A step that does not panic has computed what fits. -/
theorem fits (advanced : Advanced config timer now shared phase next after)
    (calm : after ≠ .panicked) : phase.Fits timer now shared.breaker := by
  cases advanced with
  | woken attempt backoff wake awake doubled counted =>
      rw [Nat.mul_comm] at doubled
      exact doubled
  | failed error fits => exact fits
  | overflowed attempt backoff wake awake overflow => exact absurd rfl calm
  | unrepresentable error reached beyond => exact absurd rfl calm
  | _ => exact trivial

/-- A step whose numbers fit does not panic. -/
theorem ne_panicked (advanced : Advanced config timer now shared phase next after)
    (counted : forall attempt backoff wake, phase = .sleeping attempt backoff wake ->
      attempt.toNat + 1 ≠ 2 ^ 32)
    (fits : phase.Fits timer now shared.breaker) : after ≠ .panicked := by
  cases advanced with
  | overflowed attempt backoff wake awake overflow =>
      rcases overflow with beyond | wrapped
      · rw [Nat.mul_comm] at beyond
        exact absurd fits (Nat.not_le.mpr beyond)
      · exact absurd wrapped (counted _ _ _ rfl)
  | unrepresentable error reached beyond =>
      exact absurd (fits reached) (Nat.not_le.mpr beyond)
  | _ => simp

end Advanced

theorem afterAttempt_ne_panicked (now : Instant) (attempt : UInt32) (backoff : Duration)
    (result : KernelResult α) :
    afterAttempt config timer now attempt backoff result ≠ .panicked := by
  cases result with
  | ok value => simp [afterAttempt]
  | error error =>
      rw [afterAttempt]
      split_ifs <;> simp

end Phase

/-- No call on the executor has panicked. -/
def NoPanic (executor : Executor governor ι α) : Prop :=
  forall caller, executor.phases caller ≠ .panicked

/-- A step in which the call that moves computes what fits. -/
def FittingMove (config : ResilienceConfig) (timer : Timer)
    (before after : Executor governor ι α) : Prop :=
  ExecutorMove config timer before after ∧
    forall caller, after.phases caller ≠ before.phases caller ->
      (before.phases caller).Fits timer after.now before.shared.breaker

/-- A step into a state without a panic was a fitting one. -/
theorem ExecutorMove.fitting {before after : Executor governor ι α}
    (move : ExecutorMove config timer before after) (calm : NoPanic after) :
    FittingMove config timer before after := by
  refine ⟨move, ?_⟩
  intro caller moved
  rcases move with ⟨calls, step⟩
  rcases step.phase_cases caller with same | advanced | ⟨count, backoff, result, attempting, _⟩
  · exact absurd same moved
  · exact advanced.fits (calm caller)
  · rw [attempting]
    trivial

/-- The step lemma: a fitting step from a reachable state without a panic leads
to another one. -/
theorem FittingMove.noPanic {now : Instant} {before after : Executor governor ι α}
    (run : Reaches (ExecutorMove config timer) (.new config governor now) before)
    (fitting : FittingMove config timer before after) (calm : NoPanic before) : NoPanic after := by
  intro caller
  rcases fitting with ⟨⟨calls, step⟩, fits⟩
  rcases step.phase_cases caller with same | advanced | ⟨count, backoff, result, _, ended⟩
  · rw [same]
    exact calm caller
  · by_cases moved : after.phases caller = before.phases caller
    · rw [moved]
      exact calm caller
    · refine advanced.ne_panicked ?_ (fits caller moved)
      -- the counter stays below the number of retries
      intro attempt backoff wake sleeping
      have another := counter_of_reaches run sleeping
      have small := config.maxRetries.toNat_lt
      rw [UInt32.lt_iff_toNat_lt] at another
      omega
  · rw [ended]
    exact Phase.afterAttempt_ne_panicked _ _ _ _

/-- The run lemma: a run of fitting steps is a run without a panic. -/
theorem noPanic_of_fitting {now : Instant} {current : Executor governor ι α}
    (run : Reaches (FittingMove config timer) (.new config governor now) current) :
    Reaches (ExecutorMove config timer) (.new config governor now) current ∧ NoPanic current := by
  induction run with
  | refl =>
      refine ⟨.refl, ?_⟩
      intro caller impossible
      cases impossible
  | tail _earlier fitting inductionHypothesis =>
      rcases inductionHypothesis with ⟨earlier, calm⟩
      exact ⟨earlier.tail fitting.1, fitting.noPanic earlier calm⟩

/-- A run without a panic is a run of fitting steps, since a panic stays. -/
theorem fitting_of_noPanic {now : Instant} {current : Executor governor ι α}
    (run : Reaches (ExecutorMove config timer) (.new config governor now) current)
    (calm : NoPanic current) :
    Reaches (FittingMove config timer) (.new config governor now) current := by
  induction run with
  | refl => exact .refl
  | @tail before after earlier move inductionHypothesis =>
      have calmBefore : NoPanic before := by
        intro caller panicked
        rcases move with ⟨calls, step⟩
        exact calm caller (step.panicked panicked)
      exact (inductionHypothesis calmBefore).tail (move.fitting calm)

/-- The runs without a panic are the runs of fitting steps.  In particular no
run panics all of whose steps fit, and any run that panics has taken a step that
does not. -/
theorem noPanic_iff_fitting (config : ResilienceConfig) (governor : Governor) (timer : Timer)
    (now : Instant) (current : Executor governor ι α) :
    Reaches (ExecutorMove config timer) (.new config governor now) current ∧ NoPanic current ↔
      Reaches (FittingMove config timer) (.new config governor now) current := by
  constructor
  · intro reached
    exact fitting_of_noPanic reached.1 reached.2
  · intro run
    exact noPanic_of_fitting run

/-! ## A condition on the configuration and the clock -/

/-- The backoffs of the configuration that a call may have to double. -/
def ResilienceConfig.Doubles (config : ResilienceConfig) : Prop :=
  config.maxRetries ≤ 1 ∨
    2 * max config.initialBackoff (config.delay (config.maxRetries.toNat - 2)) ≤ maxDuration

instance (config : ResilienceConfig) : Decidable config.Doubles :=
  inferInstanceAs (Decidable (_ ∨ _))

theorem ResilienceConfig.doubles_iff (config : ResilienceConfig) :
    config.Doubles ↔ forall index, index + 1 < config.maxRetries.toNat ->
      2 * config.pause index ≤ maxDuration := by
  have single : config.maxRetries ≤ 1 ↔ config.maxRetries.toNat ≤ 1 := UInt32.le_iff_toNat_le
  rw [Doubles, single]
  rcases Nat.lt_or_ge 1 config.maxRetries.toNat with several | one
  · rw [pauses_fit_iff config several]
    exact or_iff_right (Nat.not_le.mpr several)
  · refine iff_of_true (Or.inl one) ?_
    intro index before
    omega

/-- The breaker has a representable deadline for a trip at this instant, or
fewer calls than its threshold have begun. -/
def Timely (config : ResilienceConfig) (timer : Timer) (executor : Executor governor ι α) : Prop :=
  executor.now + config.circuitCooldown ≤ timer.latest ∨
    ∃ callers : Finset ι, callers.card < config.circuitThreshold.toNat ∧
      forall caller, caller ∉ callers -> executor.phases caller = .checking

/-- No call begins a second time. -/
theorem Phase.Advanced.ne_checking {now : Instant} {shared next : Shared governor}
    {phase after : Phase α} (advanced : Advanced config timer now shared phase next after) :
    after ≠ .checking := by
  cases advanced <;> simp

/-- A call that has not begun had not begun before. -/
theorem ExecutorStep.checking {before after : Executor governor ι α} {calls : BreakerLog ι}
    (step : ExecutorStep config timer before calls after) {caller : ι}
    (checking : after.phases caller = .checking) : before.phases caller = .checking := by
  rcases step.phase_cases caller with same | advanced | ⟨count, backoff, result, _, ended⟩
  · exact same.symm.trans checking
  · rw [checking] at advanced
    exact absurd rfl advanced.ne_checking
  · rw [ended] at checking
    cases result with
    | ok value => cases checking
    | error error =>
        rw [Phase.afterAttempt] at checking
        split at checking <;> cases checking

/-- What holds at the end of a run has held all along. -/
theorem Timely.before {before after : Executor governor ι α}
    (timely : Timely config timer after) (move : ExecutorMove config timer before after) :
    Timely config timer before := by
  rcases move with ⟨calls, step⟩
  rcases timely with early | ⟨callers, few, begun⟩
  · exact Or.inl (Nat.le_trans (Nat.add_le_add_right step.now_le _) early)
  · exact Or.inr ⟨callers, few, fun caller outside => step.checking (begun caller outside)⟩

/-- A call has a backoff of the configuration, and it only sleeps on one that
another attempt follows. -/
def Phase.Paused (config : ResilienceConfig) : Phase α -> Prop
  | .attempting count backoff =>
      ∃ index, count.toNat = index + 1 ∧ backoff = config.pause index
  | .sleeping count backoff _ =>
      ∃ index, count.toNat = index + 1 ∧ backoff = config.pause index ∧
        index + 1 < config.maxRetries.toNat
  | _ => True

theorem Phase.Advanced.paused {now : Instant} {shared next : Shared governor}
    {phase after : Phase α} (advanced : Advanced config timer now shared phase next after)
    (paused : phase.Paused config) : after.Paused config := by
  cases advanced with
  | entered => exact ⟨0, rfl, rfl⟩
  | woken attempt backoff wake awake doubled counted =>
      rcases paused with ⟨index, count, rfl, _⟩
      have small := attempt.toNat_lt
      have room : attempt.toNat + 1 < 2 ^ 32 := by omega
      have next : (attempt + 1).toNat = attempt.toNat + 1 := by
        rw [UInt32.toNat_add]
        exact Nat.mod_eq_of_lt room
      exact ⟨index + 1, by rw [next, count], rfl⟩
  | _ => trivial

theorem Phase.paused_afterAttempt {now : Instant} {count : UInt32} {backoff : Duration}
    (result : KernelResult α)
    (paused : (Phase.attempting count backoff : Phase α).Paused config) :
    (Phase.afterAttempt config timer now count backoff result).Paused config := by
  cases result with
  | ok value => trivial
  | error error =>
      rw [afterAttempt]
      split
      · trivial
      · rename_i another
        rcases paused with ⟨index, counted, rfl⟩
        rw [UInt32.le_iff_toNat_le, counted] at another
        exact ⟨index, counted, rfl, Nat.not_le.mp another⟩

/-- The settings of the configuration, its backoffs, and a failure for each count
of the breaker. -/
structure Moderate (config : ResilienceConfig) (executor : Executor governor ι α) : Prop where
  settings : executor.shared.breaker.threshold = config.circuitThreshold ∧
    executor.shared.breaker.cooldown = config.circuitCooldown
  paused : forall caller, (executor.phases caller).Paused config
  counted : ∃ failed : Finset ι, executor.shared.breaker.failures.toNat ≤ failed.card ∧
    forall caller, caller ∈ failed -> ∃ error, executor.phases caller = .done (.error error)

omit [DecidableEq ι] in
theorem Moderate.new (config : ResilienceConfig) (governor : Governor) (now : Instant) :
    Moderate config (.new config governor now : Executor governor ι α) where
  settings := ⟨rfl, rfl⟩
  paused := fun _caller => trivial
  counted := ⟨∅, Nat.le_refl _, fun _caller impossible => absurd impossible (Finset.notMem_empty _)⟩

/-- The count of the breaker changes by a report or a reset. -/
theorem Phase.Advanced.failures_cases {now : Instant} {shared next : Shared governor}
    {phase after : Phase α} (advanced : Advanced config timer now shared phase next after)
    (calm : after ≠ .panicked) :
    next.breaker.failures.toNat ≤ shared.breaker.failures.toNat ∨
    (∃ error, phase = .recording (.error error) ∧ after = .done (.error error) ∧
      next.breaker.failures.toNat ≤ shared.breaker.failures.toNat + 1) := by
  have reset : (shared.breaker.allow now).2.failures.toNat ≤ shared.breaker.failures.toNat := by
    unfold CircuitBreaker.allow
    split
    · split
      · exact Nat.le_refl _
      · exact Nat.zero_le _
    · exact Nat.le_refl _
  cases advanced with
  | allowed closed => exact Or.inl reset
  | refused blocked => exact Or.inl reset
  | succeeded value => exact Or.inl (Nat.zero_le _)
  | failed error fits =>
      refine Or.inr ⟨error, rfl, rfl, ?_⟩
      change (saturatingAdd shared.breaker.failures 1).toNat ≤ _
      rw [toNat_saturatingAdd]
      exact Nat.min_le_right _ _
  | unrepresentable error reached beyond => exact absurd rfl calm
  | _ => exact Or.inl (Nat.le_refl _)

/-- A call that has returned stays where it is. -/
theorem ExecutorStep.done {before after : Executor governor ι α} {calls : BreakerLog ι}
    (step : ExecutorStep config timer before calls after) {caller : ι} {result : KernelResult α}
    (done : before.phases caller = .done result) : after.phases caller = .done result := by
  rcases step.phase_cases caller with same | advanced | ⟨_, _, _, attempting, _⟩
  · exact same.trans done
  · rw [done] at advanced
    cases advanced
  · rw [done] at attempting
    cases attempting

/-- Every failure that the breaker counts is the end of another call. -/
theorem Moderate.counted_step {before after : Executor governor ι α}
    (moderate : Moderate config before) (move : ExecutorMove config timer before after)
    (calm : NoPanic after) :
    ∃ failed : Finset ι, after.shared.breaker.failures.toNat ≤ failed.card ∧
      forall caller, caller ∈ failed -> ∃ error, after.phases caller = .done (.error error) := by
  rcases move with ⟨calls, step⟩
  rcases moderate.counted with ⟨failed, count, ended⟩
  have still : forall caller, caller ∈ failed ->
      ∃ error, after.phases caller = .done (.error error) := by
    intro caller member
    rcases ended caller member with ⟨error, done⟩
    exact ⟨error, step.done done⟩
  rcases step.shared_cases with same | ⟨mover, advanced⟩
  · rw [same]
    exact ⟨failed, count, still⟩
  · rcases advanced.failures_cases (calm mover) with kept | ⟨error, failing, done, raised⟩
    · exact ⟨failed, Nat.le_trans kept count, still⟩
    · have fresh : mover ∉ failed := by
        intro member
        rcases ended mover member with ⟨_, finished⟩
        rw [failing] at finished
        cases finished
      refine ⟨insert mover failed, ?_, ?_⟩
      · rw [Finset.card_insert_of_notMem fresh]
        exact Nat.le_trans raised (Nat.succ_le_succ count)
      · intro caller member
        rcases Finset.mem_insert.mp member with rfl | earlier
        · exact ⟨error, done⟩
        · exact still caller earlier

/-- The step lemma of the invariant. -/
theorem Moderate.step {before after : Executor governor ι α} (moderate : Moderate config before)
    (move : ExecutorMove config timer before after) (calm : NoPanic after) :
    Moderate config after where
  settings := by
    rcases move with ⟨calls, step⟩
    rw [step.settings.1, step.settings.2]
    exact moderate.settings
  paused := by
    intro caller
    rcases move with ⟨calls, step⟩
    have paused := moderate.paused caller
    rcases step.phase_cases caller with same | advanced | ⟨count, backoff, result, attempting, ended⟩
    · rw [same]
      exact paused
    · exact advanced.paused paused
    · rw [attempting] at paused
      rw [ended]
      exact Phase.paused_afterAttempt result paused
  counted := moderate.counted_step move calm

/-- With fewer calls than the threshold no failure trips the breaker. -/
theorem Moderate.lt_threshold {executor : Executor governor ι α}
    (moderate : Moderate config executor) {callers : Finset ι}
    (few : callers.card < config.circuitThreshold.toNat)
    (begun : forall caller, caller ∉ callers -> executor.phases caller = .checking)
    {caller : ι} {error : KernelError}
    (failing : executor.phases caller = .recording (.error error)) :
    ¬ executor.shared.breaker.threshold ≤ saturatingAdd executor.shared.breaker.failures 1 := by
  rcases moderate.counted with ⟨failed, count, ended⟩
  have fresh : caller ∉ failed := by
    intro member
    rcases ended caller member with ⟨_, finished⟩
    rw [failing] at finished
    cases finished
  have inside : insert caller failed ⊆ callers := by
    intro other member
    by_contra outside
    have checking := begun other outside
    rcases Finset.mem_insert.mp member with rfl | earlier
    · rw [failing] at checking
      cases checking
    · rcases ended other earlier with ⟨_, finished⟩
      rw [finished] at checking
      cases checking
  have size := Finset.card_le_card inside
  rw [Finset.card_insert_of_notMem fresh] at size
  rw [moderate.settings.1, UInt8.le_iff_toNat_le, toNat_saturatingAdd]
  have one : (1 : UInt8).toNat = 1 := rfl
  omega

/-- Under the condition every step computes what fits. -/
theorem Moderate.fits {executor : Executor governor ι α} (moderate : Moderate config executor)
    (doubles : config.Doubles) {now : Instant}
    (timely : Timely config timer { executor with now := now }) (caller : ι) :
    (executor.phases caller).Fits timer now executor.shared.breaker := by
  have paused := moderate.paused caller
  cases phase : executor.phases caller with
  | sleeping attempt backoff wake =>
      rw [phase] at paused
      rcases paused with ⟨index, _, rfl, another⟩
      exact config.doubles_iff.mp doubles index another
  | recording result =>
      cases result with
      | ok value => exact trivial
      | error error =>
          intro reached
          rcases timely with early | ⟨callers, few, begun⟩
          · rw [moderate.settings.2]
            exact early
          · exact absurd reached (moderate.lt_threshold few begun phase)
  | _ => exact trivial

/-- No run panics whose configuration has backoffs that can be doubled, and
whose clock stays a cooldown away from the last instant or which has fewer calls
than the threshold. -/
theorem noPanic_of_moderate (config : ResilienceConfig) (governor : Governor) (timer : Timer)
    (now : Instant) (current : Executor governor ι α)
    (run : Reaches (ExecutorMove config timer) (.new config governor now) current)
    (doubles : config.Doubles) (timely : Timely config timer current) : NoPanic current := by
  have moderate : Moderate config current ∧
      Reaches (FittingMove config timer) (.new config governor now) current := by
    induction run with
    | refl => exact ⟨.new config governor now, .refl⟩
    | @tail before after earlier move inductionHypothesis =>
        rcases inductionHypothesis (timely.before move) with ⟨moderate, fitting⟩
        have moved := move
        rcases moved with ⟨calls, step⟩
        have fits : FittingMove config timer before after := by
          refine ⟨move, ?_⟩
          intro caller _moved
          apply moderate.fits doubles
          -- the clock of the step, and the calls that have begun before it
          exact timely.imp_right fun ⟨callers, few, begun⟩ =>
            ⟨callers, few, fun caller outside => step.checking (begun caller outside)⟩
        have onward := fitting.tail fits
        exact ⟨moderate.step move (noPanic_of_fitting onward).2, onward⟩
  exact (noPanic_of_fitting moderate.2).2

/-- The run of three calls in which a breaker opens. -/
theorem noPanic_of_moderate_tripped : NoPanic tripped :=
  noPanic_of_moderate overlapping Governor.gcra .linux 0 tripped tripped_reached (by decide)
    (Or.inl (by decide))

/-! ## Runs that panic -/

/-- A call moves by itself. -/
private theorem move_call {executor : Executor governor ι α} {caller : ι} {now : Instant}
    {shared : Shared governor} {phase : Phase α} (later : executor.now ≤ now)
    (advanced :
      (executor.phases caller).advance config timer now executor.shared = some (shared, phase)) :
    ExecutorMove config timer executor (executor.moveTo now shared caller phase) :=
  ⟨_, .call now later caller shared phase advanced⟩

/-- An attempt of a call fails. -/
private theorem move_attempt {executor : Executor governor ι α} {caller : ι} {count : UInt32}
    {backoff : Duration} (attempting : executor.phases caller = .attempting count backoff)
    (error : KernelError) :
    ExecutorMove config timer executor (executor.moveTo executor.now executor.shared caller
      (Phase.afterAttempt config timer executor.now count backoff (.error error))) :=
  ⟨[], .attempt executor.now (Nat.le_refl _) caller count backoff attempting (.error error)⟩

/-- A run of one call that begins its first attempt. -/
private theorem exists_first_attempt {now : Instant} (admits :
      (governor.check (governor.direct (max 1 config.rps.toNat)) now).1 = true) (caller : ι) :
    ∃ current : Executor governor ι α,
      Reaches (ExecutorMove config timer) (.new config governor now) current ∧
      current.phases caller = .attempting 1 config.initialBackoff ∧
      current.shared.breaker = .new config.circuitThreshold config.circuitCooldown := by
  let start : Executor governor ι α := .new config governor now
  let limiter := (governor.check (governor.direct (max 1 config.rps.toNat)) now).2
  let shared : Shared governor := ⟨limiter, .new config.circuitThreshold config.circuitCooldown⟩
  let passed := start.moveTo now shared caller .admitted
  let allowed := passed.moveTo now shared caller .allowed
  have check : ExecutorMove config timer start passed := by
    refine move_call (Nat.le_refl _) ?_
    change some (shared, if (governor.check _ now).1 then _ else _) = _
    rw [if_pos (show (governor.check start.shared.limiter now).1 = true from admits)]
  have ask : ExecutorMove config timer passed allowed := by
    refine move_call (Nat.le_refl _) ?_
    rw [Executor.phases_moveTo_self]
    rfl
  have enter : ExecutorMove config timer allowed
      (allowed.moveTo now shared caller (.attempting 1 config.initialBackoff)) := by
    refine move_call (Nat.le_refl _) ?_
    rw [Executor.phases_moveTo_self]
    rfl
  exact ⟨_, ((Relation.ReflTransGen.single check).tail ask).tail enter,
    Executor.phases_moveTo_self _ _ _ _ _, rfl⟩

/-- A failed attempt that the configuration follows up is followed by a sleep,
after which the call is about to double its backoff. -/
private theorem exists_asleep {executor : Executor governor ι α} {caller : ι} {count : UInt32}
    {backoff : Duration} (attempting : executor.phases caller = .attempting count backoff)
    (another : ¬ config.maxRetries ≤ count) :
    ∃ (asleep : Executor governor ι α) (wake : Instant),
      ExecutorMove config timer executor asleep ∧
      asleep.phases caller = .sleeping count backoff wake ∧ asleep.shared = executor.shared := by
  refine ⟨_, timer.sleepUntil executor.now backoff, move_attempt attempting (.network "x"), ?_, rfl⟩
  rw [Executor.phases_moveTo_self, Phase.afterAttempt, if_neg another]

/-- A run of one call that fails as long as its backoffs can be doubled. -/
theorem exists_attempting {now : Instant} (admits :
      (governor.check (governor.direct (max 1 config.rps.toNat)) now).1 = true) (caller : ι)
    (index : Nat) (within : index + 1 ≤ max 1 config.maxRetries.toNat)
    (fits : forall earlier, earlier < index -> 2 * config.pause earlier ≤ maxDuration) :
    ∃ current : Executor governor ι α,
      Reaches (ExecutorMove config timer) (.new config governor now) current ∧
      current.phases caller = .attempting (UInt32.ofNat (index + 1)) (config.pause index) ∧
      current.shared.breaker = .new config.circuitThreshold config.circuitCooldown := by
  induction index with
  | zero => exact exists_first_attempt admits caller
  | succ index inductionHypothesis =>
      rcases inductionHypothesis (Nat.le_of_succ_le within)
        (fun earlier before => fits earlier (Nat.lt_succ_of_lt before)) with
        ⟨current, run, attempting, breaker⟩
      have small := config.maxRetries.toNat_lt
      have room : index + 1 + 1 < 2 ^ 32 := by omega
      have counted : (UInt32.ofNat (index + 1)).toNat = index + 1 :=
        UInt32.toNat_ofNat_of_lt' (Nat.lt_of_succ_lt room)
      have another : ¬ config.maxRetries ≤ UInt32.ofNat (index + 1) := by
        rw [UInt32.le_iff_toNat_le, counted]
        omega
      rcases exists_asleep attempting another with ⟨asleep, wake, fail, sleeping, same⟩
      have advanced : (asleep.phases caller).advance config timer (max wake asleep.now)
          asleep.shared = some (asleep.shared, .attempting (UInt32.ofNat (index + 1) + 1)
            (min (config.pause index * 2) config.maxBackoff)) := by
        have doubled : ¬ maxDuration < config.pause index * 2 := by
          rw [Nat.mul_comm]
          exact Nat.not_lt.mpr (fits index (Nat.lt_succ_self _))
        have unwrapped : ¬ (UInt32.ofNat (index + 1)).toNat + 1 = 2 ^ 32 := by
          rw [counted]
          exact Nat.ne_of_lt room
        rw [sleeping, Phase.advance, if_neg (Nat.not_lt.mpr (Nat.le_max_left _ _)),
          if_neg (not_or.mpr ⟨doubled, unwrapped⟩)]
      refine ⟨_, (run.tail fail).tail (move_call (Nat.le_max_right _ _) advanced), ?_, ?_⟩
      · rw [Executor.phases_moveTo_self, UInt32.ofNat_add (index + 1)]
        rfl
      · change asleep.shared.breaker = _
        rw [same, breaker]

/-- A configuration with a backoff that cannot be doubled has a run that
panics. -/
theorem exists_panic_of_not_doubles {now : Instant} (admits :
      (governor.check (governor.direct (max 1 config.rps.toNat)) now).1 = true) (caller : ι)
    (overflows : ¬ config.Doubles) :
    ∃ current : Executor governor ι α,
      Reaches (ExecutorMove config timer) (.new config governor now) current ∧
        ¬ NoPanic current := by
  rcases pauses_fit_or config config.maxRetries.toNat with fits | ⟨index, before, overflow, fits⟩
  · exact absurd (config.doubles_iff.mpr fits) overflows
  · have small := config.maxRetries.toNat_lt
    have room : index + 1 < 2 ^ 32 := by omega
    have counted : (UInt32.ofNat (index + 1)).toNat = index + 1 := UInt32.toNat_ofNat_of_lt' room
    have another : ¬ config.maxRetries ≤ UInt32.ofNat (index + 1) := by
      rw [UInt32.le_iff_toNat_le, counted]
      exact Nat.not_le.mpr before
    rcases exists_attempting (α := α) admits caller index
      (by omega) fits with ⟨current, run, attempting, _⟩
    rcases exists_asleep attempting another with ⟨asleep, wake, fail, sleeping, _⟩
    have advanced : (asleep.phases caller).advance config timer (max wake asleep.now)
        asleep.shared = some (asleep.shared, .panicked) := by
      have beyond : maxDuration < config.pause index * 2 := by
        rw [Nat.mul_comm]
        exact Nat.not_le.mp overflow
      rw [sleeping, Phase.advance, if_neg (Nat.not_lt.mpr (Nat.le_max_left _ _)),
        if_pos (Or.inl beyond)]
    refine ⟨_, (run.tail fail).tail (move_call (Nat.le_max_right _ _) advanced), ?_⟩
    intro calm
    exact calm caller (Executor.phases_moveTo_self _ _ _ _ _)

/-- A configuration that trips at the first failure has a run that panics if its
cooldown is too long for some instant. -/
theorem exists_panic_of_cooldown {now : Instant} (admits :
      (governor.check (governor.direct (max 1 config.rps.toNat)) now).1 = true) (caller : ι)
    (trips : config.circuitThreshold ≤ 1) (late : Instant)
    (beyond : timer.latest < late + config.circuitCooldown) :
    ∃ current : Executor governor ι α,
      Reaches (ExecutorMove config timer) (.new config governor now) current ∧
        ¬ NoPanic current := by
  by_cases doubles : config.Doubles
  · have fits := config.doubles_iff.mp doubles
    have positive : 1 ≤ max 1 config.maxRetries.toNat := Nat.le_max_left _ _
    rcases Nat.exists_eq_succ_of_ne_zero (Nat.ne_of_gt positive) with ⟨index, equal⟩
    have small := config.maxRetries.toNat_lt
    rcases exists_attempting (α := α) admits caller index
      (Nat.le_of_eq equal.symm) (fun earlier before => fits earlier (by omega)) with
      ⟨current, run, attempting, breaker⟩
    have exhausted : config.maxRetries ≤ UInt32.ofNat (index + 1) := by
      have room : index + 1 < 2 ^ 32 := by omega
      rw [UInt32.le_iff_toNat_le, UInt32.toNat_ofNat_of_lt' room]
      omega
    let failed := current.moveTo current.now current.shared caller (.recording (.error (.network "x")))
    have fail : ExecutorMove config timer current failed := by
      have moved : ExecutorMove config timer current _ := move_attempt attempting (.network "x")
      rw [Phase.afterAttempt, if_pos exhausted] at moved
      exact moved
    have tripped : current.shared.breaker.threshold ≤
        saturatingAdd current.shared.breaker.failures 1 := by
      rw [breaker]
      exact trips
    have tooLong : timer.latest < max late current.now + current.shared.breaker.cooldown := by
      rw [breaker]
      exact Nat.lt_of_lt_of_le beyond (Nat.add_le_add_right (Nat.le_max_left _ _) _)
    have report : (failed.phases caller).advance config timer (max late current.now)
        failed.shared = some ({ current.shared with
          breaker := { current.shared.breaker with
            failures := saturatingAdd current.shared.breaker.failures 1 } }, .panicked) := by
      rw [Executor.phases_moveTo_self]
      exact if_pos ⟨tripped, tooLong⟩
    refine ⟨_, (run.tail fail).tail (move_call (Nat.le_max_right _ _) report), ?_⟩
    intro calm
    exact calm caller (Executor.phases_moveTo_self _ _ _ _ _)
  · exact exists_panic_of_not_doubles admits caller doubles

/-- A breaker that opens at the first failure, for as long as a duration can
say. -/
def openForGood : ResilienceConfig :=
  { ResilienceConfig.default with
    maxRetries := 1
    circuitThreshold := 1
    circuitCooldown := maxDuration }

/-- A single call fails once. -/
def failingCall : List (ScriptEvent Unit Nat) :=
  [.call 0 (), .call 0 (), .call 0 (), .attempt 0 () (.error (.network "x")), .call 0 ()]

/-- The report of the failure panics. -/
theorem openForGood_panics :
    ∃ current : Executor Governor.gcra Unit Nat,
      Reaches (ExecutorMove openForGood .linux)
        (.new openForGood Governor.gcra 0) current ∧ ¬ NoPanic current := by
  refine ⟨_, Executor.script_reaches _ failingCall, ?_⟩
  intro calm
  exact calm () (by rfl)

end Resilience
end KernelFlow
