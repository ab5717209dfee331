import Mathlib
import KernelFlow.Resilience.Executor
import KernelFlow.Scheduler.Run

namespace KernelFlow
namespace Resilience

open Scheduler

/-!
# The transcript of a call

The retry loop of one call leaves a transcript: the numbers and the results of
the attempts that have ended.  The phase of a call and its transcript determine
each other as far as the loop is concerned.  All attempts but the last have
failed, they are numbered from one without a gap, and there are never more of
them than the configuration allows.

The second part is a weight that every step of a call lowers, retries included.
-/

/-- How often the closure of one call may run.  The first attempt is not a
retry, so there is always one. -/
def ResilienceConfig.attemptLimit (config : ResilienceConfig) : Nat :=
  max 1 config.maxRetries.toNat

/-- The attempts of one call that have ended, in order. -/
abbrev Transcript := List (UInt32 × KernelResult NodeOutput)

namespace Transcript

/-- The attempts are numbered from one. -/
def Numbered (transcript : Transcript) : Prop :=
  transcript.map (fun entry => entry.1.toNat) = List.range' 1 transcript.length

/-- Only failures so far. -/
structure Failing (transcript : Transcript) : Prop where
  numbered : Numbered transcript
  failed : forall entry, entry ∈ transcript -> ∃ error, entry.2 = .error error

/-- The loop has ended with a result: the first success, or the failure of the
last attempt that the configuration allows. -/
structure Ended (config : ResilienceConfig) (transcript : Transcript)
    (result : KernelResult NodeOutput) : Prop where
  last : ∃ earlier count, transcript = earlier ++ [(count, result)] ∧ Failing earlier
  numbered : Numbered transcript
  within : transcript.length ≤ config.attemptLimit
  exhausted : forall error, result = .error error -> transcript.length = config.attemptLimit

theorem Numbered.append {transcript : Transcript} (numbered : Numbered transcript)
    {count : UInt32} (next : count.toNat = transcript.length + 1)
    (result : KernelResult NodeOutput) : Numbered (transcript ++ [(count, result)]) := by
  unfold Numbered at numbered ⊢
  rw [List.map_append, numbered, List.length_append, List.length_singleton, List.range'_1_concat,
    List.map_singleton, next, Nat.add_comm 1]

theorem Failing.nil : Failing [] where
  numbered := rfl
  failed := fun _entry member => absurd member List.not_mem_nil

theorem Failing.append {transcript : Transcript} (failing : Failing transcript) {count : UInt32}
    (next : count.toNat = transcript.length + 1) (error : KernelError) :
    Failing (transcript ++ [(count, .error error)]) where
  numbered := failing.numbered.append next _
  failed := by
    intro entry member
    rcases List.mem_append.mp member with old | new
    · exact failing.failed entry old
    · exact ⟨error, congrArg Prod.snd (List.mem_singleton.mp new)⟩

theorem Ended.failing {config : ResilienceConfig} {transcript : Transcript} {error : KernelError}
    (ended : Ended config transcript (.error error)) : Failing transcript where
  numbered := ended.numbered
  failed := by
    intro entry member
    rcases ended.last with ⟨earlier, count, rfl, failing⟩
    rcases List.mem_append.mp member with old | new
    · exact failing.failed entry old
    · exact ⟨error, congrArg Prod.snd (List.mem_singleton.mp new)⟩

theorem Ended.getLast? {config : ResilienceConfig} {transcript : Transcript}
    {result : KernelResult NodeOutput} (ended : Ended config transcript result) :
    transcript.getLast?.map Prod.snd = some result := by
  rcases ended.last with ⟨earlier, count, rfl, _failing⟩
  rw [List.getLast?_concat, Option.map_some]

end Transcript

open Transcript

/-! ## Phase and transcript -/

/-- What the transcript of a call is when the call is in a phase. -/
def Account (config : ResilienceConfig) (transcript : Transcript) : Phase NodeOutput -> Prop
  | .checking => transcript = []
  | .admitted => transcript = []
  | .allowed => transcript = []
  | .attempting count _ => Failing transcript ∧ count.toNat = transcript.length + 1 ∧
      count.toNat ≤ config.attemptLimit
  | .sleeping count _ _ => Failing transcript ∧ count.toNat = transcript.length ∧
      count.toNat < config.attemptLimit
  | .recording result => Ended config transcript result
  | .done result => (transcript = [] ∧
      (result = .error .rateLimited ∨ result = .error .circuitOpen)) ∨
      Ended config transcript result
  | .panicked => Failing transcript ∧ transcript.length ≤ config.attemptLimit

namespace Account

variable {config : ResilienceConfig} {timer : Timer} {now : Instant} {governor : Governor}
  {shared next : Shared governor} {transcript : Transcript} {phase after : Phase NodeOutput}

theorem length_le (account : Account config transcript phase) :
    transcript.length ≤ config.attemptLimit := by
  cases phase with
  | checking =>
      rw [account]
      exact Nat.zero_le _
  | admitted =>
      rw [account]
      exact Nat.zero_le _
  | allowed =>
      rw [account]
      exact Nat.zero_le _
  | attempting count backoff =>
      rcases account with ⟨_, counted, within⟩
      omega
  | sleeping count backoff wake =>
      rcases account with ⟨_, counted, within⟩
      omega
  | recording result => exact account.within
  | done result =>
      rcases account with ⟨rfl, _⟩ | ended
      · exact Nat.zero_le _
      · exact ended.within
  | panicked => exact account.2

theorem numbered (account : Account config transcript phase) : Numbered transcript := by
  cases phase with
  | checking =>
      rw [account]
      rfl
  | admitted =>
      rw [account]
      rfl
  | allowed =>
      rw [account]
      rfl
  | attempting count backoff => exact account.1.numbered
  | sleeping count backoff wake => exact account.1.numbered
  | recording result => exact Ended.numbered account
  | done result =>
      rcases account with ⟨rfl, _⟩ | ended
      · rfl
      · exact ended.numbered
  | panicked => exact account.1.numbered

/-- Everything before the last attempt has failed. -/
theorem dropLast_failed (account : Account config transcript phase)
    {entry : UInt32 × KernelResult NodeOutput} (member : entry ∈ transcript.dropLast) :
    ∃ error, entry.2 = .error error := by
  have ofEnded : forall {result}, Ended config transcript result ->
      ∃ error, entry.2 = .error error := by
    intro result ended
    rcases ended.last with ⟨earlier, count, rfl, failing⟩
    rw [List.dropLast_concat] at member
    exact failing.failed entry member
  cases phase with
  | checking =>
      rw [account] at member
      cases member
  | admitted =>
      rw [account] at member
      cases member
  | allowed =>
      rw [account] at member
      cases member
  | attempting count backoff => exact account.1.failed entry (List.mem_of_mem_dropLast member)
  | sleeping count backoff wake => exact account.1.failed entry (List.mem_of_mem_dropLast member)
  | recording result => exact ofEnded account
  | done result =>
      rcases account with ⟨rfl, _⟩ | ended
      · cases member
      · exact ofEnded ended
  | panicked => exact account.1.failed entry (List.mem_of_mem_dropLast member)

/-- A step that does not wait for the closure adds nothing to the transcript. -/
theorem advance (account : Account config transcript phase)
    (advanced : Phase.Advanced config timer now shared phase next after) :
    Account config transcript after := by
  cases advanced with
  | passed => exact account
  | limited => exact Or.inl ⟨account, Or.inl rfl⟩
  | allowed => exact account
  | refused => exact Or.inl ⟨account, Or.inr rfl⟩
  | entered =>
      have empty : transcript = [] := account
      rw [empty]
      exact ⟨.nil, rfl, Nat.le_max_left _ _⟩
  | woken attempt backoff wake awake doubled counted =>
      rcases account with ⟨failing, same, below⟩
      have bound := attempt.toNat_lt
      have raised : (attempt + 1).toNat = attempt.toNat + 1 := by
        rw [UInt32.toNat_add, UInt32.toNat_one]
        exact Nat.mod_eq_of_lt (by omega)
      exact ⟨failing, by omega, by omega⟩
  | overflowed attempt backoff wake awake overflow =>
      rcases account with ⟨failing, same, below⟩
      exact ⟨failing, by omega⟩
  | succeeded value => exact Or.inr account
  | failed error fits => exact Or.inr account
  | unrepresentable error reached beyond => exact ⟨account.failing, account.within⟩

/-- The end of an attempt adds its result. -/
theorem attempt {count : UInt32} {backoff : Duration}
    (account : Account config transcript (.attempting count backoff))
    (result : KernelResult NodeOutput) :
    Account config (transcript ++ [(count, result)])
      (Phase.afterAttempt config timer now count backoff result) := by
  rcases account with ⟨failing, counted, within⟩
  have length : (transcript ++ [(count, result)]).length = count.toNat := by
    rw [List.length_append, List.length_singleton, counted]
  cases result with
  | ok output => exact {
      last := ⟨transcript, count, rfl, failing⟩
      numbered := failing.numbered.append counted _
      within := length ▸ within
      exhausted := fun _error impossible => nomatch impossible }
  | error error =>
      rw [Phase.afterAttempt]
      split
      · rename_i final
        have reached : config.attemptLimit ≤ count.toNat :=
          max_le (by omega) (UInt32.le_iff_toNat_le.mp final)
        exact {
          last := ⟨transcript, count, rfl, failing⟩
          numbered := failing.numbered.append counted _
          within := length ▸ within
          exhausted := fun _error _same => length.trans (Nat.le_antisymm within reached) }
      · rename_i another
        refine ⟨failing.append counted error, length.symm, ?_⟩
        exact Nat.lt_of_lt_of_le (UInt32.lt_iff_toNat_lt.mp (UInt32.not_le.mp another))
          (Nat.le_max_right _ _)

end Account

/-! ## What a call may answer -/

/-- A result that the actor of a node may send back for an input.  `attempts`
says which results an attempt may have. -/
inductive Reply (config : ResilienceConfig)
    (attempts : NodeInput -> UInt32 -> KernelResult NodeOutput -> Prop) (input : NodeInput) :
    KernelResult NodeOutput -> Prop
  | limited : Reply config attempts input (.error .rateLimited)
  | refused : Reply config attempts input (.error .circuitOpen)
  | answered (transcript : Transcript) (result : KernelResult NodeOutput)
      (allowed : forall entry, entry ∈ transcript -> attempts input entry.1 entry.2)
      (ended : Ended config transcript result) : Reply config attempts input result
  | dropped : Reply config attempts input (.error (.network "actor reply dropped"))

/-- A call with a lawful transcript replies lawfully. -/
theorem Account.reply {config : ResilienceConfig} {transcript : Transcript}
    {phase : Phase NodeOutput} (account : Account config transcript phase)
    {attempts : NodeInput -> UInt32 -> KernelResult NodeOutput -> Prop} {input : NodeInput}
    (allowed : forall entry, entry ∈ transcript -> attempts input entry.1 entry.2)
    {result : KernelResult NodeOutput} (replied : phase.reply = some result) :
    Reply config attempts input result := by
  cases phase with
  | done answer =>
      cases replied
      rcases account with ⟨_, limited | refused⟩ | ended
      · rw [limited]
        exact .limited
      · rw [refused]
        exact .refused
      · exact .answered transcript _ allowed ended
  | panicked =>
      cases replied
      exact .dropped
  | _ => cases replied

/-- A successful reply is the result of some attempt. -/
theorem Reply.attempt_of_ok {config : ResilienceConfig}
    {attempts : NodeInput -> UInt32 -> KernelResult NodeOutput -> Prop} {input : NodeInput}
    {output : NodeOutput} (reply : Reply config attempts input (.ok output)) :
    ∃ count, attempts input count (.ok output) := by
  cases reply with
  | answered transcript _ allowed ended =>
      rcases ended.last with ⟨earlier, count, rfl, _failing⟩
      exact ⟨count, allowed (count, .ok output) (List.mem_append_right _ List.mem_cons_self)⟩

/-! ## The weight of a call -/

/-- The number of steps that a call may still take. -/
def Phase.weight (config : ResilienceConfig) : Phase NodeOutput -> Nat
  | .checking => 2 * config.attemptLimit + 3
  | .admitted => 2 * config.attemptLimit + 2
  | .allowed => 2 * config.attemptLimit + 1
  | .attempting count _ => 2 * (config.attemptLimit - count.toNat) + 2
  | .sleeping count _ _ => 2 * (config.attemptLimit - count.toNat) + 1
  | .recording _ => 1
  | .done _ => 0
  | .panicked => 0

theorem Account.weight_advance {config : ResilienceConfig} {timer : Timer} {now : Instant}
    {governor : Governor} {shared next : Shared governor} {transcript : Transcript}
    {phase after : Phase NodeOutput} (account : Account config transcript phase)
    (advanced : Phase.Advanced config timer now shared phase next after) :
    after.weight config < phase.weight config := by
  have positive : 1 ≤ config.attemptLimit := Nat.le_max_left _ _
  have kept := account.advance advanced
  cases advanced with
  | passed => exact Nat.lt_succ_self _
  | limited => exact Nat.succ_pos _
  | allowed => exact Nat.lt_succ_self _
  | refused => exact Nat.succ_pos _
  | entered =>
      change 2 * (config.attemptLimit - 1) + 2 < 2 * config.attemptLimit + 1
      omega
  | woken attempt backoff wake awake doubled counted =>
      rcases account with ⟨_, same, below⟩
      rcases kept with ⟨_, raised, _⟩
      simp only [Phase.weight]
      omega
  | overflowed => exact Nat.succ_pos _
  | succeeded => exact Nat.one_pos
  | failed => exact Nat.one_pos
  | unrepresentable => exact Nat.one_pos

theorem weight_afterAttempt (config : ResilienceConfig) (timer : Timer) (now : Instant) (count : UInt32)
    (backoff : Duration) (result : KernelResult NodeOutput) :
    (Phase.afterAttempt config timer now count backoff result).weight config <
      (Phase.attempting count backoff).weight config := by
  cases result with
  | ok output => exact Nat.lt_add_left _ Nat.one_lt_two
  | error error =>
      rw [Phase.afterAttempt]
      split
      · exact Nat.lt_add_left _ Nat.one_lt_two
      · exact Nat.lt_succ_self _

/-- A call that has not answered can move now or when its pause is over, unless
its closure runs. -/
theorem Phase.moves_of_reply_eq_none {governor : Governor} (config : ResilienceConfig)
    (timer : Timer) (now : Instant) (shared : Shared governor) {phase : Phase NodeOutput}
    (silent : phase.reply = none) :
    (∃ later, now ≤ later ∧ ∃ next after,
      phase.advance config timer later shared = some (next, after)) ∨
    ∃ count backoff, phase = .attempting count backoff := by
  cases phase with
  | checking => exact Or.inl ⟨now, Nat.le_refl _, _, _, rfl⟩
  | admitted => exact Or.inl ⟨now, Nat.le_refl _, _, _, rfl⟩
  | allowed => exact Or.inl ⟨now, Nat.le_refl _, _, _, rfl⟩
  | attempting count backoff => exact Or.inr ⟨count, backoff, rfl⟩
  | sleeping count backoff wake =>
      refine Or.inl ⟨max now wake, Nat.le_max_left _ _, ?_⟩
      simp only [Phase.advance, if_neg (Nat.not_lt.mpr (Nat.le_max_right now wake))]
      exact ⟨_, _, rfl⟩
  | recording result =>
      cases result with
      | ok output => exact Or.inl ⟨now, Nat.le_refl _, _, _, rfl⟩
      | error error =>
          refine Or.inl ⟨now, Nat.le_refl _, ?_⟩
          simp only [Phase.advance]
          split
          · exact ⟨_, _, rfl⟩
          · exact ⟨_, _, rfl⟩
  | done result => cases silent
  | panicked => cases silent

end Resilience
end KernelFlow
