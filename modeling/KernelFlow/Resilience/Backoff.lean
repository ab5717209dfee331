import Mathlib
import KernelFlow.Resilience.SingleCall

namespace KernelFlow
namespace Resilience

/-!
# The delays between attempts

A call alternates between attempts and sleeps.  The loop sleeps first and doubles
and caps the backoff afterwards, so the cap does not reach the first backoff.
From the second one on the backoffs follow the capped exponential; all of them do
if the initial backoff is within the cap.

A sleep takes as long as its backoff if the timer can represent its end.  A
backoff that cannot be doubled ends the call in a panic after the sleep, with no
attempt to follow.
-/

/-- What a call does over time. -/
inductive Activity
  | attempt
  | sleep (duration : Duration)
  deriving DecidableEq

namespace Activity

def duration : Activity -> Option Duration
  | .attempt => none
  | .sleep duration => some duration

/-- The durations of the sleeps. -/
def sleeps (activities : List Activity) : List Duration :=
  activities.filterMap duration

/-- One sleep between any two consecutive attempts, and none after the last. -/
def alternation (durations : List Duration) : List Activity :=
  .attempt :: durations.flatMap fun duration => [.sleep duration, .attempt]

theorem sleeps_alternation (durations : List Duration) :
    sleeps (alternation durations) = durations := by
  induction durations with
  | nil => rfl
  | cons first rest inductionHypothesis =>
      change first :: sleeps (alternation rest) = _
      rw [inductionHypothesis]

theorem alternation_concat (durations : List Duration) (duration : Duration) :
    alternation (durations ++ [duration]) =
      alternation durations ++ [.sleep duration] ++ [.attempt] := by
  simp [alternation]

/-- The last activity is an attempt. -/
theorem getLast?_alternation (durations : List Duration) :
    (alternation durations).getLast? = some .attempt := by
  rcases List.eq_nil_or_concat durations with rfl | ⟨earlier, last, rfl⟩
  · rfl
  · rw [List.concat_eq_append, alternation_concat, List.getLast?_concat]

end Activity

/-- The activity that a phase stands for which began at an instant. -/
def Phase.activity {α : Type} (since : Instant) : Phase α -> Option Activity
  | .attempting _ _ => some .attempt
  | .sleeping _ _ wake => some (.sleep (wake - since))
  | _ => none

open Activity

/-- The sleeps of a call follow the capped exponential. -/
structure CappedExponential (config : ResilienceConfig) (activities : List Activity) : Prop where
  exponential : forall (index : Nat) (duration : Duration),
    (sleeps activities)[index]? = some duration ->
      duration = min (config.initialBackoff * 2 ^ index) config.maxBackoff
  capped : forall duration, duration ∈ sleeps activities -> duration ≤ config.maxBackoff
  increasing : (sleeps activities).Pairwise (· ≤ ·)
  alternating : activities = [] ∨ activities = alternation (sleeps activities)

/-! ## The backoffs in closed form -/

section Pauses

variable {config : ResilienceConfig}

private theorem min_doubled (value cap : Nat) :
    min (min value cap * 2) cap = min (value * 2) cap := by
  omega

/-- The cap holds after the first backoff in any case. -/
theorem pause_succ (config : ResilienceConfig) (count : Nat) :
    config.pause (count + 1) =
      min (config.initialBackoff * 2 ^ (count + 1)) config.maxBackoff := by
  induction count with
  | zero => rfl
  | succ count inductionHypothesis =>
      rw [ResilienceConfig.pause, inductionHypothesis, pow_succ _ (count + 1), ← Nat.mul_assoc]
      exact min_doubled _ _

/-- The capped exponential. -/
def ResilienceConfig.delay (config : ResilienceConfig) (index : Nat) : Duration :=
  min (config.initialBackoff * 2 ^ index) config.maxBackoff

theorem delay_mono (config : ResilienceConfig) {first second : Nat} (ordered : first ≤ second) :
    config.delay first ≤ config.delay second := by
  apply min_le_min_right
  exact Nat.mul_le_mul_left _ (Nat.pow_le_pow_right (by decide) ordered)

theorem delay_zero (config : ResilienceConfig) :
    config.delay 0 = min config.initialBackoff config.maxBackoff := by
  rw [ResilienceConfig.delay, pow_zero, Nat.mul_one]

/-- No backoff up to the last attempt exceeds the longer one of the first and
the capped exponential. -/
theorem pause_le (config : ResilienceConfig) {index count : Nat} (ordered : index ≤ count) :
    config.pause index ≤ max config.initialBackoff (config.delay count) := by
  cases index with
  | zero => exact Nat.le_max_left _ _
  | succ index =>
      rw [pause_succ]
      exact Nat.le_trans (delay_mono config ordered) (Nat.le_max_right _ _)

/-- All backoffs before the last attempt can be doubled if the longest one can. -/
theorem pauses_fit_iff (config : ResilienceConfig) {last : Nat} (several : 2 ≤ last) :
    (forall earlier, earlier + 1 < last -> 2 * config.pause earlier ≤ maxDuration) ↔
      2 * max config.initialBackoff (config.delay (last - 2)) ≤ maxDuration := by
  constructor
  · intro fits
    have first : 2 * config.initialBackoff ≤ maxDuration := fits 0 several
    rw [← Nat.mul_max_mul_left]
    refine Nat.max_le.mpr ⟨first, ?_⟩
    rcases Nat.eq_zero_or_pos (last - 2) with two | more
    · rw [two, delay_zero]
      exact Nat.le_trans (Nat.mul_le_mul_left 2 (Nat.min_le_left _ _)) first
    · rcases Nat.exists_eq_succ_of_ne_zero (Nat.ne_of_gt more) with ⟨index, equal⟩
      have longest := fits (index + 1) (by omega)
      rw [pause_succ] at longest
      rw [equal]
      exact longest
  · intro longest earlier before
    have shorter : config.pause earlier ≤ max config.initialBackoff (config.delay (last - 2)) :=
      pause_le config (by omega)
    exact Nat.le_trans (Nat.mul_le_mul_left 2 shorter) longest

/-- At most one attempt and no sleep. -/
theorem cappedExponential_of_no_sleep {activities : List Activity} (silent : sleeps activities = [])
    (alternating : activities = [] ∨ activities = alternation []) :
    CappedExponential config activities where
  exponential := by
    intro index duration found
    rw [silent] at found
    cases found
  capped := by
    intro duration member
    rw [silent] at member
    exact absurd member List.not_mem_nil
  increasing := by
    rw [silent]
    exact List.Pairwise.nil
  alternating := by
    rw [silent]
    exact alternating

/-- Sleeps between attempts follow the capped exponential if each of them
does. -/
theorem cappedExponential_alternation_iff (durations : Nat -> Duration) (count : Nat) :
    CappedExponential config (alternation ((List.range count).map durations)) ↔
      forall index, index < count -> durations index = config.delay index := by
  constructor
  · intro paced index inside
    apply paced.exponential
    rw [sleeps_alternation, List.getElem?_map, List.getElem?_range inside]
    rfl
  · intro follows
    have same : (List.range count).map durations = (List.range count).map config.delay :=
      List.map_congr_left fun index member => follows index (List.mem_range.mp member)
    rw [same]
    constructor
    · intro index duration found
      rw [sleeps_alternation, List.getElem?_map] at found
      rcases Option.map_eq_some_iff.mp found with ⟨position, listed, rfl⟩
      rcases List.getElem?_eq_some_iff.mp listed with ⟨inside, rfl⟩
      rw [List.getElem_range]
      rfl
    · intro duration member
      rw [sleeps_alternation] at member
      rcases List.mem_map.mp member with ⟨index, _, rfl⟩
      exact Nat.min_le_right _ _
    · rw [sleeps_alternation, List.pairwise_map]
      exact List.pairwise_le_range.imp fun ordered => delay_mono config ordered
    · rw [sleeps_alternation]
      exact Or.inr rfl

/-- Up to the last attempt all backoffs can be doubled, or there is a first one
that cannot. -/
theorem pauses_fit_or (config : ResilienceConfig) (last : Nat) :
    (forall earlier, earlier + 1 < last -> 2 * config.pause earlier ≤ maxDuration) ∨
      ∃ index, index + 1 < last ∧ ¬ 2 * config.pause index ≤ maxDuration ∧
        forall earlier, earlier < index -> 2 * config.pause earlier ≤ maxDuration := by
  classical
  by_cases overflow : ∃ index, index + 1 < last ∧ ¬ 2 * config.pause index ≤ maxDuration
  · right
    refine ⟨Nat.find overflow, (Nat.find_spec overflow).1, (Nat.find_spec overflow).2, ?_⟩
    intro earlier smaller
    have before := Nat.lt_trans (Nat.succ_lt_succ smaller) (Nat.find_spec overflow).1
    have minimal := not_and.mp (Nat.find_min overflow smaller) before
    exact not_not.mp minimal
  · left
    intro earlier before
    by_contra beyond
    exact overflow ⟨earlier, before, beyond⟩

/-- Nothing follows the capped exponential that ends in a sleep. -/
theorem not_cappedExponential_of_sleep (activities : List Activity) (duration : Duration) :
    ¬ CappedExponential config (activities ++ [.sleep duration]) := by
  intro paced
  rcases paced.alternating with empty | alternates
  · exact absurd empty (List.append_ne_nil_of_right_ne_nil _ (List.cons_ne_nil _ _))
  · have last := getLast?_alternation (sleeps (activities ++ [.sleep duration]))
    rw [← alternates, List.getLast?_concat] at last
    cases last

end Pauses

/-! ## The sleeps -/

namespace Timer

variable {timer : Timer} {now : Instant}

/-- A sleep takes some time if it ends that much later. -/
theorem slept_eq_iff (past : now ≤ timer.latest) (duration slept : Duration) :
    timer.sleepUntil now duration - now = slept ↔ timer.sleepUntil now duration = now + slept := by
  rw [Nat.sub_eq_iff_eq_add (timer.onward now duration past), Nat.add_comm]

/-- A sleep takes its duration if its end is representable, and less if it is
not. -/
theorem slept_eq_self_iff (past : now ≤ timer.latest) (duration : Duration) :
    timer.sleepUntil now duration - now = duration ↔ now + duration ≤ timer.latest := by
  rw [slept_eq_iff past]
  constructor
  · intro ends
    rw [← ends]
    exact timer.bounded now duration past
  · exact timer.exact now duration

end Timer

namespace CallState

variable {α : Type} {governor : Governor} {config : ResilienceConfig} {timer : Timer}
  {outcomes : Nat -> Attempt α} {world : World governor} {last : Nat}

/-- The time between the end of an attempt, counted from zero, and the instant
at which the timer wakes the call. -/
def slept (config : ResilienceConfig) (timer : Timer) (world : World governor) (index : Nat) :
    Duration :=
  timer.sleepUntil (world (2 * index + 3)).1 (config.pause index) - (world (2 * index + 3)).1

/-- The first sleep follows the capped exponential: the initial backoff is
within the cap and the timer can represent its end, or the timer replaces a
longer sleep by one that lasts as long as the cap. -/
def FirstSleep (config : ResilienceConfig) (timer : Timer) (now : Instant) : Prop :=
  (config.initialBackoff ≤ config.maxBackoff ∧ now + config.initialBackoff ≤ timer.latest) ∨
    (config.maxBackoff < config.initialBackoff ∧
      timer.sleepUntil now config.initialBackoff = now + config.maxBackoff)

/-- The sleeps follow the capped exponential if the first of them does and the
timer can represent the ends of the others. -/
theorem slept_eq_delay_iff (clock : forall step, (world step).1 ≤ timer.latest) (index : Nat) :
    slept config timer world index = config.delay index ↔
      (index = 0 ∧ FirstSleep config timer (world 3).1) ∨
        (1 ≤ index ∧ (world (2 * index + 3)).1 + config.delay index ≤ timer.latest) := by
  cases index with
  | zero =>
      have past := clock 3
      change timer.sleepUntil (world 3).1 config.initialBackoff - (world 3).1 = _ ↔ _
      rw [delay_zero]
      rcases Nat.lt_or_ge config.maxBackoff config.initialBackoff with beyond | within
      · rw [Nat.min_eq_right beyond.le, Timer.slept_eq_iff past]
        simp [FirstSleep, beyond, Nat.not_le.mpr beyond]
      · rw [Nat.min_eq_left within, Timer.slept_eq_self_iff past]
        simp [FirstSleep, within, Nat.not_lt.mpr within]
  | succ index =>
      rw [slept, pause_succ]
      refine (Timer.slept_eq_self_iff (clock _) _).trans ?_
      simp [ResilienceConfig.delay]

/-- What the call has done up to a step.  It takes one step to end an attempt
and one to end a sleep, so each of them shows up once. -/
def activities (config : ResilienceConfig) (timer : Timer) (outcomes : Nat -> Attempt α)
    (world : World governor) (steps : Nat) : List Activity :=
  (List.range (steps + 1)).filterMap fun step =>
    (after config timer outcomes world step).phase.activity (world (step - 1)).1

/-- From some step on the call has ended and its sleeps have followed the capped
exponential. -/
def Paced (config : ResilienceConfig) (timer : Timer) (outcomes : Nat -> Attempt α)
    (world : World governor) : Prop :=
  ∃ steps, forall later, steps ≤ later ->
    Ended (after config timer outcomes world later).phase ∧
      CappedExponential config (activities config timer outcomes world later)

theorem activities_succ (steps : Nat) :
    activities config timer outcomes world (steps + 1) =
      activities config timer outcomes world steps ++
        ((after config timer outcomes world (steps + 1)).phase.activity
          (world steps).1).toList := by
  rw [activities, List.range_succ, List.filterMap_append, List.filterMap_cons,
    Nat.add_sub_cancel]
  cases (after config timer outcomes world (steps + 1)).phase.activity (world steps).1 <;> rfl

theorem activity_of_ended {phase : Phase α} (since : Instant) (ended : Ended phase) :
    phase.activity since = none := by
  cases phase with
  | done result => rfl
  | panicked => rfl
  | _ => exact ended.elim

/-- Nothing happens after the end. -/
theorem activities_of_ended {steps : Nat}
    (ended : Ended (after config timer outcomes world steps).phase) (more : Nat) :
    activities config timer outcomes world (steps + more) =
      activities config timer outcomes world steps := by
  induction more with
  | zero => rfl
  | succ more inductionHypothesis =>
      have still : Ended (after config timer outcomes world (steps + more + 1)).phase := by
        rw [Nat.add_assoc, after_add_of_ended ended]
        exact ended
      rw [← Nat.add_assoc, activities_succ, inductionHypothesis, activity_of_ended _ still,
        Option.toList_none, List.append_nil]

/-- A call that has ended is judged by what it has done until then. -/
theorem paced_iff_of_ended {steps : Nat}
    (ended : Ended (after config timer outcomes world steps).phase) :
    Paced config timer outcomes world ↔
      CappedExponential config (activities config timer outcomes world steps) := by
  constructor
  · intro eventually
    rcases eventually with ⟨start, paced⟩
    rw [← activities_of_ended ended start]
    exact (paced _ (Nat.le_add_left _ _)).2
  · intro paced
    refine ⟨steps, ?_⟩
    intro later reached
    rcases Nat.exists_eq_add_of_le reached with ⟨more, rfl⟩
    rw [after_add_of_ended ended, activities_of_ended ended]
    exact ⟨ended, paced⟩

/-- Without an attempt there is nothing to pace. -/
private theorem paced_of_idle {steps : Nat}
    (ended : Ended (after config timer outcomes world steps).phase)
    (idle : activities config timer outcomes world steps = []) :
    Paced config timer outcomes world := by
  rw [paced_iff_of_ended ended, idle]
  exact cappedExponential_of_no_sleep rfl (Or.inl rfl)

theorem paced_of_rateLimited (limited : RateLimited world) :
    Paced config timer outcomes world := by
  have reached : after config timer outcomes world 1 = ⟨.done (.error .rateLimited), 0, []⟩ :=
    after_of_rateLimited limited
  have ended : Ended (after config timer outcomes world 1).phase := by
    rw [reached]
    trivial
  apply paced_of_idle ended
  rw [activities_succ, reached]
  rfl

theorem paced_of_circuitOpen (passed : ¬ RateLimited world) (refused : CircuitOpen world) :
    Paced config timer outcomes world := by
  have reached : after config timer outcomes world 2 = ⟨.done (.error .circuitOpen), 0, []⟩ :=
    after_of_circuitOpen passed refused
  have ended : Ended (after config timer outcomes world 2).phase := by
    rw [reached]
    trivial
  apply paced_of_idle ended
  rw [activities_succ, activities_succ, reached, after_of_passed passed]
  rfl

/-! ## Calls that are admitted -/

/-- What the call has done when an attempt begins. -/
theorem activities_attempt (passed : ¬ RateLimited world) (allowed : ¬ CircuitOpen world)
    (least : IsLeast (Stops config outcomes) last) (index : Nat) (within : index + 1 ≤ last)
    (fits : forall earlier, earlier < index -> 2 * config.pause earlier ≤ maxDuration) :
    activities config timer outcomes world (2 * (index + 1) + 1) =
      alternation ((List.range index).map (slept config timer world)) := by
  induction index with
  | zero =>
      change activities config timer outcomes world 3 = _
      rw [activities_succ, activities_succ, activities_succ, after_of_entered passed allowed,
        after_of_allowed passed allowed, after_of_passed passed]
      rfl
  | succ index inductionHypothesis =>
      have fewer : forall earlier, earlier < index -> 2 * config.pause earlier ≤ maxDuration :=
        fun earlier before => fits earlier (Nat.lt_succ_of_lt before)
      have asleep : after config timer outcomes world (2 * (index + 1) + 2) = _ :=
        after_asleep least within
          (after_attempt passed allowed least index (Nat.le_of_succ_le within) fewer)
      have next : after config timer outcomes world (2 * (index + 1) + 2 + 1) = _ :=
        after_attempt passed allowed least (index + 1) within fits
      rw [Nat.mul_succ, activities_succ, next, activities_succ, asleep,
        inductionHypothesis (Nat.le_of_succ_le within) fewer, List.range_succ, List.map_append,
        List.map_singleton, alternation_concat]
      rfl

/-- A call whose backoffs can all be doubled has slept before every attempt but
the first. -/
theorem activities_last (passed : ¬ RateLimited world) (allowed : ¬ CircuitOpen world)
    (least : IsLeast (Stops config outcomes) last)
    (fits : forall earlier, earlier + 1 < last -> 2 * config.pause earlier ≤ maxDuration) :
    Ended (after config timer outcomes world (2 * last + 3)).phase ∧
      activities config timer outcomes world (2 * last + 3) =
        alternation ((List.range (last - 1)).map (slept config timer world)) := by
  have reported : after config timer outcomes world (2 * last + 2) = _ :=
    after_last passed allowed least fits
  have ended : Ended (after config timer outcomes world (2 * last + 3)).phase := by
    rw [after_succ, reported]
    cases (outcomes last).outcome config with
    | ok value => trivial
    | error error =>
        rw [step_recording_error]
        dsimp only
        split_ifs <;> trivial
  refine ⟨ended, ?_⟩
  rcases Nat.exists_eq_succ_of_ne_zero (Nat.ne_of_gt (Stops.one_le least)) with ⟨index, rfl⟩
  rw [activities_succ, activity_of_ended _ ended, activities_succ, reported,
    activities_attempt passed allowed least index (Nat.le_refl _)
      fun earlier before => fits earlier (Nat.succ_lt_succ before)]
  simp [Phase.activity]

/-- The first backoff that cannot be doubled ends the call after the sleep. -/
theorem activities_overflow (passed : ¬ RateLimited world) (allowed : ¬ CircuitOpen world)
    (least : IsLeast (Stops config outcomes) last) {index : Nat} (before : index + 1 < last)
    (fits : forall earlier, earlier < index -> 2 * config.pause earlier ≤ maxDuration)
    (overflow : ¬ 2 * config.pause index ≤ maxDuration) :
    Ended (after config timer outcomes world (2 * (index + 1) + 3)).phase ∧
      activities config timer outcomes world (2 * (index + 1) + 3) =
        alternation ((List.range index).map (slept config timer world)) ++
          [.sleep (slept config timer world index)] := by
  have asleep : after config timer outcomes world (2 * (index + 1) + 2) = _ :=
    after_asleep least before (after_attempt passed allowed least index before.le fits)
  have ended : Ended (after config timer outcomes world (2 * (index + 1) + 3)).phase := by
    rw [after_succ, asleep, step_sleeping_panics _ overflow]
    trivial
  refine ⟨ended, ?_⟩
  rw [activities_succ, activity_of_ended _ ended, activities_succ, asleep,
    activities_attempt passed allowed least index before.le fits, Option.toList_none,
    List.append_nil]
  rfl

/-- An admitted call whose backoffs can all be doubled. -/
theorem paced_iff_of_fits (passed : ¬ RateLimited world) (allowed : ¬ CircuitOpen world)
    (least : IsLeast (Stops config outcomes) last)
    (fits : forall earlier, earlier + 1 < last -> 2 * config.pause earlier ≤ maxDuration) :
    Paced config timer outcomes world ↔
      forall index, index + 1 < last -> slept config timer world index = config.delay index := by
  rcases activities_last passed allowed least fits with ⟨ended, done⟩
  rw [paced_iff_of_ended ended, done, cappedExponential_alternation_iff]
  simp only [Nat.lt_sub_iff_add_lt]

/-- An admitted call that reaches a backoff that cannot be doubled. -/
theorem not_paced_of_overflow (passed : ¬ RateLimited world) (allowed : ¬ CircuitOpen world)
    (least : IsLeast (Stops config outcomes) last) {index : Nat} (before : index + 1 < last)
    (fits : forall earlier, earlier < index -> 2 * config.pause earlier ≤ maxDuration)
    (overflow : ¬ 2 * config.pause index ≤ maxDuration) :
    ¬ Paced config timer outcomes world := by
  rcases activities_overflow passed allowed least before fits overflow with ⟨ended, done⟩
  rw [paced_iff_of_ended ended, done]
  exact not_cappedExponential_of_sleep _ _

/-- An admitted call.  All its backoffs can be doubled and all its sleeps follow
the capped exponential. -/
theorem paced_iff_of_admitted (passed : ¬ RateLimited world) (allowed : ¬ CircuitOpen world)
    (least : IsLeast (Stops config outcomes) last) :
    Paced config timer outcomes world ↔
      (forall earlier, earlier + 1 < last -> 2 * config.pause earlier ≤ maxDuration) ∧
        forall index, index + 1 < last -> slept config timer world index = config.delay index := by
  rcases pauses_fit_or config last with fits | ⟨index, before, overflow, fits⟩
  · rw [paced_iff_of_fits passed allowed least fits, and_iff_right fits]
  · apply iff_of_false (not_paced_of_overflow passed allowed least before fits overflow)
    intro holds
    exact overflow (holds.1 index before)

/-- The same for a call with several attempts, in terms of the configuration and
the clock. -/
theorem paced_iff_of_several (clock : forall step, (world step).1 ≤ timer.latest)
    (passed : ¬ RateLimited world) (allowed : ¬ CircuitOpen world)
    (least : IsLeast (Stops config outcomes) last) (several : 2 ≤ last) :
    Paced config timer outcomes world ↔
      2 * max config.initialBackoff (config.delay (last - 2)) ≤ maxDuration ∧
        FirstSleep config timer (world 3).1 ∧
        forall index, 1 ≤ index -> index + 1 < last ->
          (world (2 * index + 3)).1 + config.delay index ≤ timer.latest := by
  rw [paced_iff_of_admitted passed allowed least, pauses_fit_iff config several]
  simp only [slept_eq_delay_iff clock]
  refine and_congr_right fun _fits => ?_
  constructor
  · intro follows
    refine ⟨?_, ?_⟩
    · rcases follows 0 several with ⟨_, first⟩ | ⟨impossible, _⟩
      · exact first
      · cases impossible
    · intro index later before
      rcases follows index before with ⟨zero, _⟩ | ⟨_, representable⟩
      · omega
      · exact representable
  · rintro ⟨first, others⟩ index before
    rcases Nat.eq_zero_or_pos index with zero | later
    · exact Or.inl ⟨zero, first⟩
    · exact Or.inr ⟨later, others index later before⟩

/-- The delays of a call follow the capped exponential exactly if the call is
refused, or its first attempt is its last, or the longest backoff can be doubled,
the first sleep is within the cap, and the timer can represent the ends of the
sleeps. -/
theorem paced_iff (config : ResilienceConfig) (governor : Governor) (timer : Timer)
    (outcomes : Nat -> Attempt α) (world : World governor)
    (clock : forall step, (world step).1 ≤ timer.latest) :
    Paced config timer outcomes world ↔
      (RateLimited world ∨ CircuitOpen world ∨
        forall last, IsLeast (Stops config outcomes) last -> last = 1 ∨
          (2 * max config.initialBackoff (config.delay (last - 2)) ≤ maxDuration ∧
            FirstSleep config timer (world 3).1 ∧
            forall index, 1 ≤ index -> index + 1 < last ->
              (world (2 * index + 3)).1 + config.delay index ≤ timer.latest)) := by
  by_cases limited : RateLimited world
  · exact iff_of_true (paced_of_rateLimited limited) (Or.inl limited)
  by_cases refused : CircuitOpen world
  · exact iff_of_true (paced_of_circuitOpen limited refused) (Or.inr (Or.inl refused))
  rcases Stops.exists_isLeast config outcomes with ⟨last, least⟩
  rw [or_iff_right limited, or_iff_right refused]
  have unique : forall holds : Nat -> Prop,
      (forall other, IsLeast (Stops config outcomes) other -> holds other) ↔ holds last :=
    fun holds => ⟨fun all => all last least, fun here other otherLeast => by
      rw [otherLeast.unique least]
      exact here⟩
  rw [unique]
  rcases Nat.eq_or_lt_of_le (Stops.one_le least) with one | several
  · subst one
    rw [paced_iff_of_admitted limited refused least]
    refine iff_of_true ⟨?_, ?_⟩ (Or.inl rfl)
    · intro earlier before
      omega
    · intro index before
      omega
  · rw [paced_iff_of_several clock limited refused least several]
    exact (or_iff_right (Nat.ne_of_gt several)).symm

theorem alone_le (config : ResilienceConfig) (governor : Governor) (step : Nat) :
    (alone config governor step).1 ≤ Timer.linux.latest := by
  have bounded : min step 120 * 60000000000 ≤ 120 * 60000000000 :=
    Nat.mul_le_mul_right _ (Nat.min_le_right _ _)
  exact Nat.le_trans bounded (by decide)

/-- The default configuration, with failures only. -/
theorem paced_iff_default :
    Paced .default .linux (fun _attempt => (.timeout : Attempt Nat))
      (alone .default Governor.gcra) := by
  refine (paced_iff .default Governor.gcra .linux _ _ (alone_le _ _)).mpr (Or.inr (Or.inr ?_))
  intro last least
  have capped : forall index, ResilienceConfig.default.delay index ≤ 5000000000 :=
    fun _index => Nat.min_le_right _ _
  have soon : forall step, (alone .default Governor.gcra step).1 ≤ 120 * 60000000000 :=
    fun _step => Nat.mul_le_mul_right _ (Nat.min_le_right _ _)
  refine Or.inr ⟨?_, Or.inl ⟨by decide, by decide⟩, ?_⟩
  · have longest : max ResilienceConfig.default.initialBackoff
        (ResilienceConfig.default.delay (last - 2)) ≤ 5000000000 :=
      Nat.max_le.mpr ⟨by decide, capped _⟩
    exact Nat.le_trans (Nat.mul_le_mul_left 2 longest) (by decide)
  · intro index _later _before
    exact Nat.le_trans (Nat.add_le_add (soon _) (capped _)) (by decide)

/-- The first of two attempts is followed by a sleep beyond the cap. -/
theorem long_initial_backoff_not_paced :
    let config := { ResilienceConfig.default with
      maxRetries := 2
      initialBackoff := 10000000000 }
    ¬ Paced (α := Nat) config .linux (fun _attempt => .err (.network "x"))
      (alone config Governor.gcra) := by
  intro config paced
  have least : IsLeast (Stops (α := Nat) config fun _attempt => .err (.network "x")) 2 := by
    refine ⟨Or.inr rfl, ?_⟩
    rintro attempt (⟨_, value, impossible⟩ | limit)
    · cases impossible
    · exact Nat.le_of_eq limit.symm
  have passed : ¬ RateLimited (alone config Governor.gcra) := by decide
  have allowed : ¬ CircuitOpen (alone config Governor.gcra) := by decide
  rcases (paced_iff_of_several (alone_le _ _) passed allowed least (Nat.le_refl 2)).mp paced with
    ⟨_, ⟨within, _⟩ | ⟨_, replaced⟩, _⟩
  · exact absurd within (by decide)
  · exact absurd replaced (by decide)

end CallState

end Resilience
end KernelFlow
