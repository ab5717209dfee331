import Mathlib
import KernelFlow.Core.Event

namespace KernelFlow
namespace Resilience

/-!
# The circuit breaker and its trace specification

The breaker keeps a saturating failure count and one deadline.  Its
specification speaks about the history of calls instead: a failure trips the
breaker when enough failures have accumulated since the latest success or
reset, and calls are refused while some trip after the latest reset is recent.
`Tracks` relates the two fields to the history, and every call at a time that
is not earlier than the previous ones keeps it.

Times are natural numbers, so the addition that computes a deadline is exact.
-/

/-- `u8::saturating_add`. -/
def saturatingAdd (left right : UInt8) : UInt8 :=
  if left.toNat + right.toNat < 256 then left + right else 255

structure CircuitBreaker where
  threshold : UInt8
  cooldown : Duration
  failures : UInt8
  openUntil : Option Instant
  deriving DecidableEq

namespace CircuitBreaker

def new (threshold : UInt8) (cooldown : Duration) : CircuitBreaker where
  threshold := threshold
  cooldown := cooldown
  failures := 0
  openUntil := none

/-- An expired deadline is cleared together with the failure count. -/
def allow (breaker : CircuitBreaker) (now : Instant) : Bool × CircuitBreaker :=
  match breaker.openUntil with
  | some deadline =>
      if now < deadline then (false, breaker)
      else (true, { breaker with openUntil := none, failures := 0 })
  | none => (true, breaker)

def onSuccess (breaker : CircuitBreaker) : CircuitBreaker :=
  { breaker with failures := 0 }

def onFailure (breaker : CircuitBreaker) (now : Instant) : CircuitBreaker :=
  let failures := saturatingAdd breaker.failures 1
  { breaker with
    failures := failures
    openUntil :=
      if breaker.threshold ≤ failures then some (now + breaker.cooldown)
      else breaker.openUntil }

end CircuitBreaker

/-! ## Histories -/

inductive Call
  | allow
  | onSuccess
  | onFailure
  deriving DecidableEq

/-- What a call did.  A reset is an `allow` that found the deadline set and
already reached. -/
inductive Observation
  | admitted
  | refused
  | reset
  | success
  | failure
  deriving DecidableEq

abbrev History := List (Instant × Observation)

/-- Time goes on after the listed instants. -/
theorem ordered_later {times : List Instant} {now later : Instant}
    (ordered : (times ++ [now]).Pairwise (· ≤ ·)) (after : now ≤ later) :
    (times ++ [later]).Pairwise (· ≤ ·) := by
  rcases List.pairwise_append.mp ordered with ⟨earlier, _, before⟩
  refine List.pairwise_append.mpr ⟨earlier, List.pairwise_singleton _ _, ?_⟩
  intro time member last single
  rw [List.mem_singleton.mp single]
  exact Nat.le_trans (before time member now List.mem_cons_self) after

/-- An instant is added to the list. -/
theorem ordered_concat {times : List Instant} {now later : Instant}
    (ordered : (times ++ [now]).Pairwise (· ≤ ·)) (after : now ≤ later) :
    (times ++ [later] ++ [later]).Pairwise (· ≤ ·) := by
  refine List.pairwise_append.mpr
    ⟨ordered_later ordered after, List.pairwise_singleton _ _, ?_⟩
  intro time member last single
  rw [List.mem_singleton.mp single]
  rcases List.mem_append.mp member with old | added
  · exact (List.pairwise_append.mp (ordered_later ordered after)).2.2 time old later
      List.mem_cons_self
  · exact Nat.le_of_eq (List.mem_singleton.mp added)

def CircuitBreaker.observe (breaker : CircuitBreaker) (now : Instant) :
    Call -> CircuitBreaker × Observation
  | .allow =>
      let (allowed, after) := breaker.allow now
      (after, if allowed = false then .refused
        else if breaker.openUntil = none then .admitted else .reset)
  | .onSuccess => (breaker.onSuccess, .success)
  | .onFailure => (breaker.onFailure now, .failure)

/-- The three outcomes of an `allow`. -/
theorem CircuitBreaker.observe_allow (breaker : CircuitBreaker) (now : Instant) :
    (breaker.openUntil = none ∧ breaker.observe now .allow = (breaker, .admitted)) ∨
    (∃ deadline, breaker.openUntil = some deadline ∧ now < deadline ∧
      breaker.observe now .allow = (breaker, .refused)) ∨
    ∃ deadline, breaker.openUntil = some deadline ∧ ¬ now < deadline ∧
      breaker.observe now .allow = ({ breaker with openUntil := none, failures := 0 }, .reset) := by
  cases set : breaker.openUntil with
  | none => exact Or.inl ⟨rfl, by simp [observe, allow, set]⟩
  | some deadline =>
      by_cases early : now < deadline
      · exact Or.inr (Or.inl ⟨deadline, rfl, early, by simp [observe, allow, set, early]⟩)
      · exact Or.inr (Or.inr ⟨deadline, rfl, early, by simp [observe, allow, set, early]⟩)

/-- Make the calls one by one and record what they did. -/
def CircuitBreaker.run (breaker : CircuitBreaker) (calls : List (Instant × Call)) :
    CircuitBreaker × History :=
  calls.foldl (fun (breaker, history) (now, call) =>
    let (after, observation) := breaker.observe now call
    (after, history ++ [(now, observation)])) (breaker, [])

/-- The number of failures since the latest success or reset. -/
def streak (history : History) : Nat :=
  (history.reverse.takeWhile fun entry =>
    entry.2 != .success && entry.2 != .reset).countP fun entry => entry.2 == .failure

/-- A failure at this time, after the latest reset, was at least the
`threshold`-th since the latest success or reset before it. -/
def Tripped (threshold : Nat) (history : History) (time : Instant) : Prop :=
  ∃ before after, history = before ++ (time, .failure) :: after ∧
    (forall entry, entry ∈ after -> entry.2 ≠ .reset) ∧ threshold ≤ streak before + 1

/-- Some trip lies less than the cooldown back. -/
def Blocked (threshold : Nat) (cooldown : Duration) (history : History) (now : Instant) : Prop :=
  ∃ time, Tripped threshold history time ∧ now < time + cooldown

theorem streak_append (history : History) (time : Instant) (observation : Observation) :
    streak (history ++ [(time, observation)]) = match observation with
      | .success => 0
      | .reset => 0
      | .failure => streak history + 1
      | .admitted => streak history
      | .refused => streak history := by
  unfold streak
  rw [List.reverse_append]
  cases observation <;> simp

theorem tripped_append (threshold : Nat) (history : History) (now : Instant)
    (observation : Observation) (time : Instant) :
    Tripped threshold (history ++ [(now, observation)]) time ↔
      (observation ≠ .reset ∧ Tripped threshold history time) ∨
        (observation = .failure ∧ now = time ∧ threshold ≤ streak history + 1) := by
  constructor
  · rintro ⟨before, after, split, quiet, reached⟩
    rcases List.eq_nil_or_concat after with rfl | ⟨init, final, rfl⟩
    · have parts := List.append_inj' split rfl
      have last : (now, observation) = (time, Observation.failure) := by simpa using parts.2
      cases last
      exact Or.inr ⟨rfl, rfl, parts.1 ▸ reached⟩
    · rw [List.concat_eq_append] at split quiet
      rw [← List.cons_append, ← List.append_assoc] at split
      have parts := List.append_inj' split rfl
      have last : (now, observation) = final := by simpa using parts.2
      refine Or.inl ⟨?_, before, init, parts.1, ?_, reached⟩
      · exact quiet (now, observation) (last ▸ List.mem_append_right _ List.mem_cons_self)
      · exact fun entry member => quiet entry (List.mem_append_left _ member)
  · rintro (⟨notReset, before, after, rfl, quiet, reached⟩ | ⟨rfl, rfl, reached⟩)
    · refine ⟨before, after ++ [(now, observation)], by simp, ?_, reached⟩
      intro entry member
      rcases List.mem_append.mp member with old | new
      · exact quiet entry old
      · rw [List.mem_singleton.mp new]
        exact notReset
    · exact ⟨history, [], rfl, fun _entry absent => (nomatch absent), reached⟩

/-! ## The fields against the history -/

/-- The counter is the streak up to saturation, and the deadline belongs to the
latest trip. -/
structure Tracks (breaker : CircuitBreaker) (history : History) : Prop where
  failures : breaker.failures.toNat = min 255 (streak history)
  closed : breaker.openUntil = none -> forall time,
    ¬ Tripped breaker.threshold.toNat history time
  opened : forall deadline, breaker.openUntil = some deadline ->
    (∃ time, Tripped breaker.threshold.toNat history time ∧
      deadline = time + breaker.cooldown) ∧
    forall time, Tripped breaker.threshold.toNat history time ->
      time + breaker.cooldown ≤ deadline

theorem toNat_saturatingAdd (left right : UInt8) :
    (saturatingAdd left right).toNat = min 255 (left.toNat + right.toNat) := by
  unfold saturatingAdd
  split
  · rename_i small
    rw [UInt8.toNat_add, Nat.mod_eq_of_lt small]
    omega
  · change 255 = _
    omega

namespace Tracks

variable {breaker : CircuitBreaker} {history : History}

theorem new (threshold : UInt8) (cooldown : Duration) : Tracks (.new threshold cooldown) [] where
  failures := rfl
  closed := by
    rintro _ time ⟨before, after, impossible, _⟩
    simp at impossible
  opened := fun _deadline impossible => nomatch impossible

/-- The counter and the streak agree about every `u8` threshold. -/
theorem threshold_le_iff (tracks : Tracks breaker history) (threshold : UInt8) :
    threshold ≤ breaker.failures ↔ threshold.toNat ≤ streak history := by
  rw [UInt8.le_iff_toNat_le, tracks.failures]
  have small := threshold.toNat_lt
  omega

/-- So does the test that follows the increment. -/
theorem threshold_le_succ_iff (tracks : Tracks breaker history) (threshold : UInt8) :
    threshold ≤ saturatingAdd breaker.failures 1 ↔ threshold.toNat ≤ streak history + 1 := by
  rw [UInt8.le_iff_toNat_le, toNat_saturatingAdd, tracks.failures]
  have small := threshold.toNat_lt
  have one : (1 : UInt8).toNat = 1 := rfl
  omega

/-- The answer is the one the specification asks for. -/
theorem allow_iff (tracks : Tracks breaker history) (now : Instant) :
    (breaker.allow now).1 = false ↔
      Blocked breaker.threshold.toNat breaker.cooldown history now := by
  unfold CircuitBreaker.allow
  cases deadline : breaker.openUntil with
  | none =>
      refine iff_of_false (by simp) ?_
      rintro ⟨time, tripped, _⟩
      exact tracks.closed deadline time tripped
  | some limit =>
      rcases tracks.opened limit deadline with ⟨⟨time, tripped, rfl⟩, latest⟩
      by_cases early : now < time + breaker.cooldown
      · simp only [if_pos early, true_iff]
        exact ⟨time, tripped, early⟩
      · simp only [if_neg early]
        refine iff_of_false (by simp) ?_
        rintro ⟨other, otherTripped, recent⟩
        exact early (Nat.lt_of_lt_of_le recent (latest other otherTripped))

/-- Events that are neither failures nor resets leave the trips alone. -/
private theorem quiet (tracks : Tracks breaker history) (now : Instant)
    {observation : Observation} {failures : UInt8}
    (other : observation ≠ .reset ∧ observation ≠ .failure)
    (counter : failures.toNat = min 255 (streak (history ++ [(now, observation)]))) :
    Tracks { breaker with failures := failures } (history ++ [(now, observation)]) := by
  have same : forall time,
      Tripped breaker.threshold.toNat (history ++ [(now, observation)]) time ↔
        Tripped breaker.threshold.toNat history time := by
    intro time
    rw [tripped_append]
    constructor
    · rintro (old | new)
      · exact old.2
      · exact absurd new.1 other.2
    · exact fun old => Or.inl ⟨other.1, old⟩
  exact {
    failures := counter
    closed := fun none time tripped => tracks.closed none time ((same time).mp tripped)
    opened := by
      intro deadline set
      rcases tracks.opened deadline set with ⟨⟨time, tripped, equal⟩, latest⟩
      exact ⟨⟨time, (same time).mpr tripped, equal⟩,
        fun other otherTripped => latest other ((same other).mp otherTripped)⟩ }

theorem allow (tracks : Tracks breaker history) (now : Instant) :
    Tracks (breaker.observe now .allow).1
      (history ++ [(now, (breaker.observe now .allow).2)]) := by
  rcases breaker.observe_allow now with
    ⟨_none, observed⟩ | ⟨deadline, _set, _early, observed⟩ | ⟨deadline, _set, _late, observed⟩
  · rw [observed]
    exact tracks.quiet now (by simp) (by rw [streak_append]; exact tracks.failures)
  · rw [observed]
    exact tracks.quiet now (by simp) (by rw [streak_append]; exact tracks.failures)
  · rw [observed]
    exact {
      failures := by
        rw [streak_append]
        rfl
      closed := by
        intro _ time tripped
        rcases (tripped_append _ _ _ _ _).mp tripped with old | impossible
        · exact old.1 rfl
        · exact absurd impossible.1 (by simp)
      opened := fun _limit impossible => nomatch impossible }

theorem onSuccess (tracks : Tracks breaker history) (now : Instant) :
    Tracks breaker.onSuccess (history ++ [(now, .success)]) :=
  tracks.quiet now (by simp) (by rw [streak_append]; rfl)

/-- Trips are recorded in the order of time, so a new trip has the latest
deadline. -/
theorem onFailure (tracks : Tracks breaker history) {now : Instant}
    (ordered : forall entry, entry ∈ history -> entry.1 ≤ now) :
    Tracks (breaker.onFailure now) (history ++ [(now, .failure)]) := by
  have earlier : forall time, Tripped breaker.threshold.toNat history time -> time ≤ now := by
    rintro time ⟨before, after, rfl, _⟩
    exact ordered (time, .failure) (List.mem_append_right _ List.mem_cons_self)
  have trips : forall time, Tripped breaker.threshold.toNat (history ++ [(now, .failure)]) time ↔
      Tripped breaker.threshold.toNat history time ∨
        (now = time ∧ breaker.threshold.toNat ≤ streak history + 1) := by
    intro time
    rw [tripped_append]
    simp
  have counter : (saturatingAdd breaker.failures 1).toNat =
      min 255 (streak (history ++ [(now, .failure)])) := by
    rw [toNat_saturatingAdd, streak_append, tracks.failures]
    change min 255 (min 255 (streak history) + 1) = min 255 (streak history + 1)
    omega
  unfold CircuitBreaker.onFailure
  by_cases reached : breaker.threshold ≤ saturatingAdd breaker.failures 1
  · have enough := (tracks.threshold_le_succ_iff breaker.threshold).mp reached
    simp only [if_pos reached]
    exact {
      failures := counter
      closed := fun impossible => nomatch impossible
      opened := by
        intro deadline same
        cases same
        refine ⟨⟨now, (trips now).mpr (Or.inr ⟨rfl, enough⟩), rfl⟩, ?_⟩
        intro time tripped
        change time + breaker.cooldown ≤ now + breaker.cooldown
        rcases (trips time).mp tripped with old | new
        · exact Nat.add_le_add_right (earlier time old) _
        · rw [new.1] }
  · have short := mt (tracks.threshold_le_succ_iff breaker.threshold).mpr reached
    simp only [if_neg reached]
    have same : forall time,
        Tripped breaker.threshold.toNat (history ++ [(now, .failure)]) time ↔
          Tripped breaker.threshold.toNat history time := by
      intro time
      rw [trips]
      exact or_iff_left fun new => short new.2
    exact {
      failures := counter
      closed := by
        simp only [same]
        exact tracks.closed
      opened := by
        simp only [same]
        exact tracks.opened }

/-- One call at a time that is not earlier than the history. -/
theorem observe (tracks : Tracks breaker history) {now : Instant}
    (ordered : forall entry, entry ∈ history -> entry.1 ≤ now) (call : Call) :
    Tracks (breaker.observe now call).1 (history ++ [(now, (breaker.observe now call).2)]) := by
  cases call with
  | allow => exact tracks.allow now
  | onSuccess => exact tracks.onSuccess now
  | onFailure => exact tracks.onFailure ordered

/-- A success does not touch the deadline. -/
theorem allow_onSuccess (breaker : CircuitBreaker) (now : Instant) :
    (breaker.onSuccess.allow now).1 = (breaker.allow now).1 := by
  unfold CircuitBreaker.allow CircuitBreaker.onSuccess
  cases breaker.openUntil with
  | none => rfl
  | some deadline => by_cases early : now < deadline <;> simp [early]

/-- A failure after which a call is refused that would have been admitted has
reached the threshold. -/
theorem reached_of_extended (tracks : Tracks breaker history) {now later : Instant}
    (allowed : (breaker.allow later).1 = true)
    (refused : ((breaker.onFailure now).allow later).1 = false) :
    breaker.threshold.toNat ≤ streak history + 1 := by
  by_contra short
  have notReached := mt (tracks.threshold_le_succ_iff breaker.threshold).mp short
  have same : ((breaker.onFailure now).allow later).1 = (breaker.allow later).1 := by
    unfold CircuitBreaker.allow CircuitBreaker.onFailure
    simp only [if_neg notReached]
    cases breaker.openUntil with
    | none => rfl
    | some deadline => by_cases early : later < deadline <;> simp [early]
  rw [same, allowed] at refused
  cases refused

end Tracks

/-! ## Sequences of calls -/

namespace CircuitBreaker

/-- No call changes the settings. -/
theorem observe_settings (breaker : CircuitBreaker) (now : Instant) (call : Call) :
    (breaker.observe now call).1.threshold = breaker.threshold ∧
      (breaker.observe now call).1.cooldown = breaker.cooldown := by
  cases call with
  | allow =>
      rcases breaker.observe_allow now with ⟨_, same⟩ | ⟨_, _, _, same⟩ | ⟨_, _, _, same⟩
      · rw [same]
        exact ⟨rfl, rfl⟩
      · rw [same]
        exact ⟨rfl, rfl⟩
      · rw [same]
        exact ⟨rfl, rfl⟩
  | onSuccess => exact ⟨rfl, rfl⟩
  | onFailure => exact ⟨rfl, rfl⟩

/-- The settings never change, and the history has the times of the calls. -/
theorem run_frame (breaker : CircuitBreaker) (calls : List (Instant × Call)) :
    (breaker.run calls).1.threshold = breaker.threshold ∧
    (breaker.run calls).1.cooldown = breaker.cooldown ∧
    (breaker.run calls).2.map Prod.fst = calls.map Prod.fst := by
  induction calls using List.reverseRecOn with
  | nil => exact ⟨rfl, rfl, rfl⟩
  | append_singleton calls last inductionHypothesis =>
      rcases last with ⟨now, call⟩
      have settings := observe_settings (breaker.run calls).1 now call
      rw [run, List.foldl_append]
      refine ⟨?_, ?_, ?_⟩
      · exact settings.1.trans inductionHypothesis.1
      · exact settings.2.trans inductionHypothesis.2.1
      · rw [List.map_append, ← inductionHypothesis.2.2]
        exact List.map_append

/-- The fields track the history after every sequence of calls in the order of
time. -/
theorem run_tracks (threshold : UInt8) (cooldown : Duration) (calls : List (Instant × Call))
    (ordered : (calls.map Prod.fst).Pairwise (· ≤ ·)) :
    Tracks ((new threshold cooldown).run calls).1 ((new threshold cooldown).run calls).2 := by
  induction calls using List.reverseRecOn with
  | nil => exact .new threshold cooldown
  | append_singleton calls last inductionHypothesis =>
      rcases last with ⟨now, call⟩
      rw [List.map_append, List.pairwise_append] at ordered
      have times := (run_frame (new threshold cooldown) calls).2.2
      rw [run, List.foldl_append]
      refine (inductionHypothesis ordered.1).observe ?_ call
      intro entry member
      refine ordered.2.2 entry.1 ?_ now List.mem_cons_self
      rw [← times]
      exact List.mem_map_of_mem member

/-- The last call of a sequence. -/
theorem run_concat (breaker : CircuitBreaker) (calls : List (Instant × Call)) (now : Instant)
    (call : Call) :
    breaker.run (calls ++ [(now, call)]) =
      (((breaker.run calls).1.observe now call).1,
        (breaker.run calls).2 ++ [(now, ((breaker.run calls).1.observe now call).2)]) := by
  rw [run, List.foldl_append]
  rfl

/-- A reset finds a deadline that has passed. -/
theorem deadline_of_reset {breaker : CircuitBreaker} {now : Instant} {call : Call}
    (reset : (breaker.observe now call).2 = .reset) :
    ∃ deadline, breaker.openUntil = some deadline ∧ deadline ≤ now := by
  cases call with
  | allow =>
      rcases breaker.observe_allow now with
        ⟨_none, observed⟩ | ⟨deadline, _set, _early, observed⟩ | ⟨deadline, set, late, _observed⟩
      · rw [observed] at reset
        cases reset
      · rw [observed] at reset
        cases reset
      · exact ⟨deadline, set, Nat.not_lt.mp late⟩
  | onSuccess => cases reset
  | onFailure => cases reset

/-- Nothing resets the breaker before the cooldown of a trip has passed. -/
theorem cooldown_le_of_reset (threshold : UInt8) (cooldown : Duration)
    (calls : List (Instant × Call)) (ordered : (calls.map Prod.fst).Pairwise (· ≤ ·))
    {earlier later : History} {time : Instant}
    (split : ((new threshold cooldown).run calls).2 = earlier ++ (time, .failure) :: later)
    (reached : threshold.toNat ≤ streak earlier + 1) :
    forall entry, entry ∈ later -> entry.2 = .reset -> time + cooldown ≤ entry.1 := by
  induction calls using List.reverseRecOn generalizing later with
  | nil =>
      intro entry _member _reset
      exact absurd split.symm (by simp [run])
  | append_singleton calls last inductionHypothesis =>
      rcases last with ⟨now, call⟩
      rw [List.map_append, List.pairwise_append] at ordered
      rcases ordered with ⟨before, _, beforeLast⟩
      rw [run_concat] at split
      rcases List.eq_nil_or_concat later with rfl | ⟨init, final, rfl⟩
      · intro entry impossible
        cases impossible
      rw [List.concat_eq_append, ← List.cons_append, ← List.append_assoc] at split
      have parts := List.append_inj' split rfl
      have latest : final = (now, (((new threshold cooldown).run calls).1.observe now call).2) :=
        (List.singleton_inj.mp parts.2).symm
      have tracks := run_tracks threshold cooldown calls before
      have frame := run_frame (new threshold cooldown) calls
      have waited := inductionHypothesis before parts.1
      intro entry member reset
      rcases List.mem_append.mp (List.concat_eq_append ▸ member) with old | added
      · exact waited entry old reset
      rw [List.mem_singleton.mp added, latest] at reset ⊢
      change time + cooldown ≤ now
      by_cases again : ∃ other, other ∈ init ∧ other.2 = .reset
      · rcases again with ⟨other, otherMember, otherReset⟩
        have listed : other.1 ∈ calls.map Prod.fst := by
          rw [show calls.map Prod.fst = _ from frame.2.2.symm, parts.1]
          exact List.mem_map_of_mem
            (List.mem_append_right _ (List.mem_cons_of_mem _ otherMember))
        exact Nat.le_trans (waited other otherMember otherReset)
          (beforeLast other.1 listed now List.mem_cons_self)
      · rcases deadline_of_reset reset with ⟨deadline, set, passed⟩
        have tripped : Tripped ((new threshold cooldown).run calls).1.threshold.toNat
            ((new threshold cooldown).run calls).2 time := by
          rw [frame.1]
          exact ⟨earlier, init, parts.1,
            fun other otherMember otherReset => again ⟨other, otherMember, otherReset⟩, reached⟩
        have limit := (tracks.opened deadline set).2 time tripped
        rw [frame.2.1] at limit
        exact Nat.le_trans limit passed

/-- Calls are refused from a trip on until its cooldown has passed. -/
theorem refused_of_recent (threshold : UInt8) (cooldown : Duration)
    (calls : List (Instant × Call)) (now : Instant)
    (ordered : (calls.map Prod.fst ++ [now]).Pairwise (· ≤ ·))
    {earlier later : History} {time : Instant}
    (split : ((new threshold cooldown).run calls).2 = earlier ++ (time, .failure) :: later)
    (reached : threshold.toNat ≤ streak earlier + 1) (recent : now < time + cooldown) :
    (((new threshold cooldown).run calls).1.allow now).1 = false := by
  rcases List.pairwise_append.mp ordered with ⟨before, _, beforeNow⟩
  have frame := run_frame (new threshold cooldown) calls
  have tracks := run_tracks threshold cooldown calls before
  refine (tracks.allow_iff now).mpr ⟨time, ⟨earlier, later, split, ?_, ?_⟩, ?_⟩
  · intro entry member reset
    have listed : entry.1 ∈ calls.map Prod.fst := by
      rw [show calls.map Prod.fst = _ from frame.2.2.symm, split]
      exact List.mem_map_of_mem (List.mem_append_right _ (List.mem_cons_of_mem _ member))
    have waited := cooldown_le_of_reset threshold cooldown calls before split reached entry member
      reset
    exact Nat.not_lt.mpr (Nat.le_trans waited (beforeNow entry.1 listed now List.mem_cons_self))
      recent
  · rw [frame.1]
    exact reached
  · rw [frame.2.1]
    exact recent

/-- The circuit breaker refines its trace specification: a call is refused
exactly when the history blocks it.  The saturation of the counter is not
visible, a success never closes an open breaker, and a failure extends the open
period only if enough failures have accumulated. -/
theorem allow_refines (threshold : UInt8) (cooldown : Duration)
    (calls : List (Instant × Call)) (now : Instant)
    (ordered : (calls.map Prod.fst ++ [now]).Pairwise (· ≤ ·))
    (breaker : CircuitBreaker) (history : History)
    (made : (new threshold cooldown).run calls = (breaker, history)) :
    ((breaker.allow now).1 = false ↔ Blocked threshold.toNat cooldown history now) ∧
    (threshold ≤ breaker.failures ↔ threshold.toNat ≤ streak history) ∧
    (forall later, now ≤ later -> (breaker.allow later).1 = false ->
      (breaker.onSuccess.allow later).1 = false) ∧
    (forall later, now ≤ later -> (breaker.allow later).1 = true ->
      ((breaker.onFailure now).allow later).1 = false ->
      threshold.toNat ≤ streak history + 1) := by
  have tracks := run_tracks threshold cooldown calls (List.pairwise_append.mp ordered).1
  have settings : breaker.threshold = threshold ∧ breaker.cooldown = cooldown := by
    have frame := run_frame (new threshold cooldown) calls
    rw [made] at frame
    exact ⟨frame.1, frame.2.1⟩
  rw [made] at tracks
  refine ⟨?_, tracks.threshold_le_iff threshold, ?_, ?_⟩
  · rw [← settings.1, ← settings.2]
    exact tracks.allow_iff now
  · intro later _ refused
    rw [Tracks.allow_onSuccess, refused]
  · intro later _ allowed refused
    rw [← settings.1]
    exact tracks.reached_of_extended allowed refused

/-- Two failures trip the breaker, and the late success does not close it. -/
theorem allow_refines_sample :
    Blocked 2 10 [(0, .admitted), (1, .failure), (2, .failure), (3, .success), (4, .refused)] 5 :=
  (allow_refines 2 10 [(0, .allow), (1, .onFailure), (2, .onFailure), (3, .onSuccess),
    (4, .allow)] 5 (by decide) _ _ rfl).1.mp (by decide)

end CircuitBreaker

end Resilience
end KernelFlow
