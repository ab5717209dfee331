import Mathlib
import KernelFlow.Resilience.SingleCall
import KernelFlow.Resilience.Concurrent

namespace KernelFlow
namespace Resilience

open Transition

/-!
# Every concurrent call is a single call

Seen from one call, the other calls on its executor are the world: they decide
at which instants it moves and what it finds in the shared state.  So whatever
holds of a single call in every world holds of every call in every interleaving.

A state of a call depends on the past of the world and on the attempts that have
ended, which is what `Attained` says; the induction over a run extends both.
-/

variable {governor : Governor} {ι α : Type} {config : ResilienceConfig} {timer : Timer}

/-- An attempt that ends with a given result. -/
def Attempt.ofResult : KernelResult α -> Attempt α
  | .ok value => .ok value
  | .error error => .err error

theorem Attempt.outcome_ofResult (config : ResilienceConfig) (result : KernelResult α) :
    (ofResult result).outcome config = result := by
  cases result with
  | ok value => rfl
  | error error => rfl

/-- A step that is possible at an instant happens at that instant. -/
theorem Phase.reading_of_advance {now : Instant} {shared next : Shared governor}
    {phase after : Phase α}
    (advanced : phase.advance config timer now shared = some (next, after)) :
    phase.reading now = now := by
  cases Phase.advanced_of_advance advanced with
  | woken attempt backoff wake awake doubled counted => exact max_eq_right awake
  | overflowed attempt backoff wake awake overflow => exact max_eq_right awake
  | _ => rfl

namespace CallState

/-- The number of attempts whose outcome the state may depend on. -/
def used (state : CallState α) : Nat :=
  match state.phase with
  | .attempting _ _ => state.invocations
  | _ => state.invocations + 1

/-- The call is in this state after a number of steps, however later attempts
end and whatever the world does later. -/
def Attained (config : ResilienceConfig) (timer : Timer) (outcomes : Nat -> Attempt α)
    (world : World governor) (steps : Nat) (state : CallState α) : Prop :=
  forall (others : Nat -> Attempt α) (elsewhere : World governor),
    (forall attempt, attempt < state.used -> others attempt = outcomes attempt) ->
    (forall step, step < steps -> elsewhere step = world step) ->
    after config timer others elsewhere steps = state

variable {outcomes : Nat -> Attempt α} {world : World governor} {steps : Nat}
  {state : CallState α}

theorem Attained.start : Attained config timer outcomes world 0 CallState.start :=
  fun _others _elsewhere _sameOutcomes _sameWorld => rfl

/-- The past of a world with one more moment. -/
private theorem attained_past (attained : Attained config timer outcomes world steps state)
    {others : Nat -> Attempt α} {elsewhere : World governor} {moment : Instant × Shared governor}
    (sameOutcomes : forall attempt, attempt < state.used -> others attempt = outcomes attempt)
    (sameWorld : forall step, step < steps + 1 ->
      elsewhere step = Function.update world steps moment step) :
    after config timer others elsewhere (steps + 1) =
      step config timer others moment state := by
  have before : after config timer others elsewhere steps = state := by
    apply attained others elsewhere sameOutcomes
    intro step inside
    rw [sameWorld step (Nat.lt_succ_of_lt inside), Function.update_of_ne (Nat.ne_of_lt inside)]
  rw [after_succ, before, sameWorld steps (Nat.lt_succ_self _), Function.update_self]

/-- One more step that does not wait for the closure. -/
theorem Attained.advance (attained : Attained config timer outcomes world steps state)
    {now : Instant} {shared next : Shared governor} {phase : Phase α}
    (advanced : state.phase.advance config timer now shared = some (next, phase)) :
    ∃ elsewhere : World governor, Attained config timer outcomes elsewhere (steps + 1)
      ⟨phase, state.invocations + phase.invocations, state.reports ++ state.phase.reports⟩ := by
  refine ⟨Function.update world steps (now, shared), ?_⟩
  intro others elsewhere sameOutcomes sameWorld
  have used : (CallState.mk phase (state.invocations + phase.invocations)
      (state.reports ++ state.phase.reports)).used = state.used := by
    rcases state with ⟨position, invocations, reports⟩
    cases Phase.advanced_of_advance advanced <;> rfl
  rw [used] at sameOutcomes
  rw [attained_past attained sameOutcomes sameWorld]
  apply step_of_advance
  rw [Phase.reading_of_advance advanced]
  exact advanced

/-- One more step in which an attempt ends. -/
theorem Attained.attempt {count : UInt32} {backoff : Duration} {invocations : Nat}
    {reports : List Call} (attained : Attained config timer outcomes world steps
      ⟨.attempting count backoff, invocations, reports⟩)
    (now : Instant) (shared : Shared governor) (result : KernelResult α) :
    ∃ (ended : Nat -> Attempt α) (elsewhere : World governor),
      Attained config timer ended elsewhere (steps + 1)
        ⟨Phase.afterAttempt config timer now count backoff result, invocations, reports⟩ := by
  refine ⟨Function.update outcomes invocations (.ofResult result),
    Function.update world steps (now, shared), ?_⟩
  intro others elsewhere sameOutcomes sameWorld
  have used : (CallState.mk (Phase.afterAttempt config timer now count backoff result) invocations
      reports).used = invocations + 1 := by
    cases result with
    | ok value => rfl
    | error error =>
        rw [Phase.afterAttempt]
        split <;> rfl
  rw [used] at sameOutcomes
  have earlier : forall attempt, attempt < invocations -> others attempt = outcomes attempt := by
    intro attempt inside
    rw [sameOutcomes attempt (Nat.lt_succ_of_lt inside),
      Function.update_of_ne (Nat.ne_of_lt inside)]
  rw [attained_past attained earlier sameWorld, step_attempting,
    sameOutcomes invocations (Nat.lt_succ_self _), Function.update_self,
    Attempt.outcome_ofResult]

end CallState

/-- In every run on a shared executor each call does what a single call does in
some world. -/
theorem call_of_reaches [DecidableEq ι] {now : Instant} {current : Executor governor ι α}
    (run : Reaches (ExecutorMove config timer) (.new config governor now) current)
    (caller : ι) :
    ∃ (outcomes : Nat -> Attempt α) (world : World governor) (steps : Nat),
      (CallState.after config timer outcomes world steps).phase = current.phases caller := by
  have attained : ∃ (outcomes : Nat -> Attempt α) (world : World governor) (steps : Nat)
      (state : CallState α), CallState.Attained config timer outcomes world steps state ∧
        state.phase = current.phases caller := by
    induction run with
    | refl =>
        exact ⟨fun _attempt => .timeout, fun _step => (now, .new config governor), 0, .start,
          .start, rfl⟩
    | tail _earlier move inductionHypothesis =>
        rcases inductionHypothesis with ⟨outcomes, world, steps, state, attained, same⟩
        rcases move with ⟨calls, step⟩
        cases step with
        | idle time later => exact ⟨outcomes, world, steps, state, attained, same⟩
        | call time later mover shared phase advanced =>
            by_cases mine : caller = mover
            · subst mine
              rw [← same] at advanced
              rcases attained.advance advanced with ⟨elsewhere, reached⟩
              exact ⟨outcomes, elsewhere, steps + 1, _, reached,
                (Executor.phases_moveTo_self _ _ _ _ _).symm⟩
            · rw [Executor.phases_moveTo_of_ne _ _ _ _ mine]
              exact ⟨outcomes, world, steps, state, attained, same⟩
        | attempt time later mover count backoff attempting result =>
            by_cases mine : caller = mover
            · subst mine
              rcases state with ⟨position, invocations, reports⟩
              change position = _ at same
              rw [attempting] at same
              subst same
              rcases attained.attempt time (.new config governor) result with
                ⟨ended, elsewhere, reached⟩
              exact ⟨ended, elsewhere, steps + 1, _, reached,
                (Executor.phases_moveTo_self _ _ _ _ _).symm⟩
            · rw [Executor.phases_moveTo_of_ne _ _ _ _ mine]
              exact ⟨outcomes, world, steps, state, attained, same⟩
  rcases attained with ⟨outcomes, world, steps, state, attained, same⟩
  refine ⟨outcomes, world, steps, ?_⟩
  rw [attained outcomes world (fun _attempt _inside => rfl) (fun _step _inside => rfl), same]

/-- The attempt counter of no call ever wraps, whatever the other calls do. -/
theorem counter_of_reaches [DecidableEq ι] {now : Instant} {current : Executor governor ι α}
    (run : Reaches (ExecutorMove config timer) (.new config governor now) current)
    {caller : ι} {attempt : UInt32} {backoff : Duration} {wake : Instant}
    (sleeping : current.phases caller = .sleeping attempt backoff wake) :
    attempt < config.maxRetries := by
  rcases call_of_reaches run caller with ⟨outcomes, world, steps, same⟩
  exact CallState.lt_maxRetries_of_sleeping steps (same.trans sleeping)

end Resilience
end KernelFlow
