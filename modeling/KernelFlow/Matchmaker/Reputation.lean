import Mathlib
import KernelFlow.Library.MovingAverage
import KernelFlow.Matchmaker.Pool

namespace KernelFlow
namespace Matchmaker

open MovingAverage

/-!
# The reputation of an operator

Reputations are moving averages of outcomes.  Of all calls on the registry only
a recorded outcome changes a reputation, and only that of its own operator, so
after any sequence of calls the reputation is the average of the operator's own
outcomes.  Bounds and the comparison of two operators are then those of moving
averages.

The calls come in any order and from anyone.  The runs of the pool, in which
clients release only what they hold, are among them.
-/

/-! ## Calls on the registry -/

/-- The methods of the registry, and the selection, which reads a snapshot. -/
inductive RegistryCall
  | register (op : Operator)
  | deregister (id : OperatorId)
  | snapshot
  | select (req : ResourceRequirements) (draw : Nat)
  | reserve (id : OperatorId) (req : ResourceRequirements)
  | release (id : OperatorId) (req : ResourceRequirements)
  | recordOutcome (id : OperatorId) (outcome : DelegationOutcome)

namespace RegistryCall

/-- The operator whose entry the call may change. -/
def subject : RegistryCall -> Option OperatorId
  | .register op => some op.id
  | .deregister id => some id
  | .snapshot => none
  | .select _ _ => none
  | .reserve id _ => some id
  | .release id _ => some id
  | .recordOutcome id _ => some id

/-- The call registers or deregisters the operator. -/
def Enrols (id : OperatorId) : RegistryCall -> Prop
  | .register op => op.id = id
  | .deregister named => named = id
  | _ => False

/-- The outcome that the call records for the operator. -/
def outcomeFor (id : OperatorId) : RegistryCall -> Option DelegationOutcome
  | .recordOutcome named outcome => if named = id then some outcome else none
  | _ => none

end RegistryCall

namespace OperatorRegistry

/-- The registry after a call. -/
def after (registry : OperatorRegistry) : RegistryCall -> OperatorRegistry
  | .register op => registry.register op
  | .deregister id => (registry.deregister id).2
  | .snapshot => registry
  | .select _ _ => registry
  | .reserve id req => (registry.reserve id req).2
  | .release id req => registry.release id req
  | .recordOutcome id outcome => registry.recordOutcome id outcome

/-- The registry after calls one after the other. -/
def afterAll (registry : OperatorRegistry) (calls : List RegistryCall) : OperatorRegistry :=
  calls.foldl after registry

/-- The reputation under which the operator is listed. -/
def reputationOf (registry : OperatorRegistry) (id : OperatorId) : Option ℚ :=
  registry.inner[id]?.map Operator.reputation

end OperatorRegistry

/-- The call on the registry that an action of the pool makes. -/
def Action.call : Action -> RegistryCall
  | .register id total => .register (.new id total)
  | .deregister id => .deregister id
  | .snapshot _ _ => .snapshot
  | .select _ req draw => .select req draw
  | .reserve _ id req => .reserve id req
  | .release held => .release held.account held.reservation.req
  | .recordOutcome id outcome => .recordOutcome id outcome

theorem Pool.registry_perform (pool : Pool) (action : Action) :
    (pool.perform action).registry = pool.registry.after action.call := by
  cases action with
  | reserve client id req => exact pool.reserve_registry client id req
  | _ => rfl

/-- A run of the pool is a run of its registry. -/
theorem Pool.registry_performAll (pool : Pool) (actions : List Action) :
    (pool.performAll actions).registry = pool.registry.afterAll (actions.map Action.call) := by
  induction actions generalizing pool with
  | nil => rfl
  | cons action rest inductionHypothesis =>
      refine (inductionHypothesis (pool.perform action)).trans ?_
      rw [registry_perform]
      rfl

/-! ## Scores -/

def DelegationOutcome.isSuccess : DelegationOutcome -> Bool
  | .success => true
  | _ => false

theorem DelegationOutcome.sample_eq (outcome : DelegationOutcome) :
    outcome.sample = if outcome.isSuccess then 1 else 0 := by
  cases outcome <;> rfl

/-- The outcomes that the calls record for the operator, the latest last. -/
def outcomesOf (id : OperatorId) (calls : List RegistryCall) : List DelegationOutcome :=
  calls.filterMap (RegistryCall.outcomeFor id)

def successes (outcomes : List DelegationOutcome) : Nat :=
  outcomes.countP DelegationOutcome.isSuccess

/-- The average of the outcomes from a reputation. -/
def score (reputation : ℚ) (outcomes : List DelegationOutcome) : ℚ :=
  average alpha reputation (outcomes.map DelegationOutcome.sample)

theorem alpha_nonneg : 0 ≤ alpha := by
  norm_num [alpha]

theorem alpha_le_one : alpha ≤ 1 := by
  norm_num [alpha]

/-- A final stretch of samples sums up to its successes. -/
theorem sum_rtake_samples (outcomes : List DelegationOutcome) (count : Nat) :
    ((outcomes.map DelegationOutcome.sample).rtake count).sum = successes (outcomes.rtake count) := by
  have whole : forall stretch : List DelegationOutcome,
      (stretch.map DelegationOutcome.sample).sum = (successes stretch : ℚ) := by
    intro stretch
    induction stretch with
    | nil => rfl
    | cons head tail inductionHypothesis =>
        have counted : successes (head :: tail) =
            successes tail + if head.isSuccess then 1 else 0 := List.countP_cons
        rw [List.map_cons, List.sum_cons, inductionHypothesis, counted,
          DelegationOutcome.sample_eq]
        cases head.isSuccess <;> simp [add_comm]
  rw [← whole, List.rtake, List.rtake, List.map_drop, List.length_map]

theorem score_append (reputation : ℚ) (earlier later : List DelegationOutcome) :
    score reputation (earlier ++ later) = score (score reputation earlier) later := by
  rw [score, List.map_append, average_append]
  rfl

theorem score_mem_Icc {reputation : ℚ} (begins : reputation ∈ Set.Icc 0 1)
    (outcomes : List DelegationOutcome) : score reputation outcomes ∈ Set.Icc 0 1 := by
  apply average_mem_Icc alpha_nonneg alpha_le_one begins
  intro sample member
  rcases List.mem_map.mp member with ⟨outcome, _, rfl⟩
  rw [DelegationOutcome.sample_eq]
  split_ifs
  · exact Set.right_mem_Icc.mpr zero_le_one
  · exact Set.left_mem_Icc.mpr zero_le_one

/-- More recent success is worth more. -/
theorem score_le_score (reputation : ℚ) {first second : List DelegationOutcome}
    (sameLength : first.length = second.length)
    (ahead : forall count, successes (second.rtake count) ≤ successes (first.rtake count)) :
    score reputation second ≤ score reputation first := by
  apply average_le_average alpha_nonneg alpha_le_one
  · rw [List.length_map, List.length_map, sameLength]
  · intro count
    rw [sum_rtake_samples, sum_rtake_samples]
    exact Nat.cast_le.mpr (ahead count)

/-! ## Runs of the registry -/

namespace OperatorRegistry

variable {registry : OperatorRegistry} {id : OperatorId}

/-- A call leaves the operators that it does not name as they are. -/
theorem after_frame (registry : OperatorRegistry) (call : RegistryCall) (id : OperatorId)
    (elsewhere : call.subject ≠ some id) :
    (registry.after call).inner[id]? = registry.inner[id]? := by
  have differs : forall named, call.subject = some named -> named ≠ id := by
    intro named subject same
    exact elsewhere (subject.trans (congrArg some same))
  cases call with
  | register op => exact registry.register_frame (differs op.id rfl)
  | deregister named => exact registry.deregister_frame (differs named rfl)
  | snapshot => rfl
  | select req draw => rfl
  | reserve named req => exact (registry.updated_reserve named req).frame (differs named rfl)
  | release named req => exact (registry.updated_release named req).frame (differs named rfl)
  | recordOutcome named outcome =>
      exact (registry.updated_recordOutcome named outcome).frame (differs named rfl)

/-- Every call keeps the operators under their own ids. -/
theorem Keyed.after (keyed : registry.Keyed) (call : RegistryCall) : (registry.after call).Keyed := by
  cases call with
  | register op => exact keyed.register op
  | deregister id => exact keyed.deregister id
  | snapshot => exact keyed
  | select req draw => exact keyed
  | reserve id req => exact (registry.updated_reserve id req).keyed keyed
  | release id req => exact (registry.updated_release id req).keyed keyed
  | recordOutcome id outcome => exact (registry.updated_recordOutcome id outcome).keyed keyed

/-- So they are under their own ids after any calls on a new registry. -/
theorem keyed_afterAll (calls : List RegistryCall) : (new.afterAll calls).Keyed := by
  have kept : forall (start : OperatorRegistry), start.Keyed -> (start.afterAll calls).Keyed := by
    induction calls with
    | nil => exact fun _start keyed => keyed
    | cons call rest inductionHypothesis =>
        intro start keyed
        exact inductionHypothesis (start.after call) (keyed.after call)
  exact kept new Keyed.new

theorem reputationOf_insert (op : Operator) :
    reputationOf ⟨registry.inner.insert id op⟩ id = some op.reputation := by
  rw [reputationOf, OrderedMap.getElem?_insert_eq, if_pos rfl, Option.map_some]

/-- The step lemma: a call that does not enrol the operator changes its
reputation by the outcome that it records for it, if any. -/
theorem reputationOf_after {call : RegistryCall} (keeps : ¬ call.Enrols id) {reputation : ℚ}
    (listed : registry.reputationOf id = some reputation) :
    (registry.after call).reputationOf id =
      some (score reputation (call.outcomeFor id).toList) := by
  rcases Option.map_eq_some_iff.mp listed with ⟨op, found, rfl⟩
  by_cases named : call.subject = some id
  · cases call with
    | register other => exact absurd (Option.some.inj named) keeps
    | deregister other => exact absurd (Option.some.inj named) keeps
    | snapshot => cases named
    | select req draw => cases named
    | reserve other req =>
        cases named
        change (registry.reserve id req).2.reputationOf id = some op.reputation
        rcases registry.reserve_cases id req with
          ⟨holder, present, _can, reserved⟩ | ⟨error, refused⟩
        · rw [found] at present
          cases present
          rw [reserved]
          exact reputationOf_insert (op.commit req)
        · rw [refused]
          exact listed
    | release other req =>
        cases named
        change (registry.release id req).reputationOf id = some op.reputation
        rw [release_of_found found]
        exact reputationOf_insert (op.giveBack req)
    | recordOutcome other outcome =>
        cases named
        change (registry.recordOutcome id outcome).reputationOf id = _
        rw [recordOutcome_of_found found, reputationOf_insert, RegistryCall.outcomeFor, if_pos rfl]
        rfl
  · have silent : call.outcomeFor id = none := by
      cases call with
      | recordOutcome other outcome => exact if_neg fun same => named (congrArg some same)
      | _ => rfl
    rw [reputationOf, after_frame registry call id named, silent]
    exact listed

/-- The run lemma: the reputation is the average of the operator's own outcomes. -/
theorem reputationOf_afterAll {calls : List RegistryCall}
    (once : forall call, call ∈ calls -> ¬ call.Enrols id) {reputation : ℚ}
    (listed : registry.reputationOf id = some reputation) :
    (registry.afterAll calls).reputationOf id = some (score reputation (outcomesOf id calls)) := by
  induction calls generalizing registry reputation with
  | nil => exact listed
  | cons call rest inductionHypothesis =>
      have stepped := reputationOf_after (once call List.mem_cons_self) listed
      have continued := inductionHypothesis
        (fun other member => once other (List.mem_cons_of_mem _ member)) stepped
      have outcomes : outcomesOf id (call :: rest) =
          (call.outcomeFor id).toList ++ outcomesOf id rest := by
        unfold outcomesOf
        rw [List.filterMap_cons]
        cases call.outcomeFor id <;> rfl
      rw [outcomes, score_append]
      exact continued

end OperatorRegistry

/-- An operator that is listed when the calls begin, as it is after its
registration, and that none of them registers or deregisters. -/
structure Enrolled (registry : OperatorRegistry) (calls : List RegistryCall) (op : Operator) :
    Prop where
  listed : registry.inner[op.id]? = some op
  once : forall call, call ∈ calls -> ¬ call.Enrols op.id

/-- A registration enrols the operator for the calls that follow. -/
theorem Enrolled.of_register (registry : OperatorRegistry) (op : Operator)
    {calls : List RegistryCall} (once : forall call, call ∈ calls -> ¬ call.Enrols op.id) :
    Enrolled (registry.register op) calls op where
  listed := by
    rw [OperatorRegistry.register, OrderedMap.getElem?_insert_eq, if_pos rfl]
  once := once

theorem Enrolled.reputationOf {registry : OperatorRegistry} {calls : List RegistryCall}
    {op : Operator} (enrolled : Enrolled registry calls op) :
    (registry.afterAll calls).reputationOf op.id =
      some (score op.reputation (outcomesOf op.id calls)) :=
  OperatorRegistry.reputationOf_afterAll enrolled.once
    (congrArg (Option.map Operator.reputation) enrolled.listed)

/-- After any sequence of calls the reputation of an enrolled operator is a
number between 0 and 1.  An operator that was enrolled with the same reputation,
in this run or another one, has the same reputation after the same outcomes, and
no larger one after equally many outcomes of which every final stretch has no
more successes. -/
theorem reputation_recency {registry : OperatorRegistry} {calls : List RegistryCall}
    {op : Operator} (enrolled : Enrolled registry calls op) (lower : 0 ≤ op.reputation)
    (upper : op.reputation ≤ 1) :
    ∃ reputation, (registry.afterAll calls).reputationOf op.id = some reputation ∧
      0 ≤ reputation ∧ reputation ≤ 1 ∧
      forall (otherRegistry : OperatorRegistry) (otherCalls : List RegistryCall) (other : Operator),
        Enrolled otherRegistry otherCalls other -> other.reputation = op.reputation ->
        ∃ otherReputation,
          (otherRegistry.afterAll otherCalls).reputationOf other.id = some otherReputation ∧
          (outcomesOf other.id otherCalls = outcomesOf op.id calls ->
            otherReputation = reputation) ∧
          ((outcomesOf op.id calls).length = (outcomesOf other.id otherCalls).length ->
            (forall count, successes ((outcomesOf other.id otherCalls).rtake count) ≤
              successes ((outcomesOf op.id calls).rtake count)) ->
            otherReputation ≤ reputation) := by
  have bounded := score_mem_Icc ⟨lower, upper⟩ (outcomesOf op.id calls)
  refine ⟨_, enrolled.reputationOf, bounded.1, bounded.2, ?_⟩
  intro otherRegistry otherCalls other otherEnrolled sameStart
  refine ⟨_, otherEnrolled.reputationOf, ?_, ?_⟩
  · intro sameOutcomes
    rw [sameStart, sameOutcomes]
  · intro sameLength ahead
    rw [sameStart]
    exact score_le_score _ sameLength ahead

/-- A new operator of this name, with nothing to offer. -/
def newcomer (id : OperatorId) : Operator :=
  .new id ⟨0, 0, 0, ∅⟩

/-- Two of them. -/
def newcomers : OperatorRegistry :=
  (OperatorRegistry.new.register (newcomer "a")).register (newcomer "b")

/-- One success and one failure each, the success of the first being later. -/
def newcomerCalls : List RegistryCall :=
  [.recordOutcome "a" .timeout, .recordOutcome "b" .success, .reserve "a" ⟨0, 0, 0, ∅⟩,
    .recordOutcome "b" .operatorDisconnect, .select ⟨0, 0, 0, ∅⟩ 0, .recordOutcome "a" .success]

/-- The second one is not preferred. -/
theorem reputation_recency_newcomers : ∃ first second,
    (newcomers.afterAll newcomerCalls).reputationOf "a" = some first ∧ 0 ≤ first ∧ first ≤ 1 ∧
    (newcomers.afterAll newcomerCalls).reputationOf "b" = some second ∧ second ≤ first := by
  have enrolled : forall id, id = "a" ∨ id = "b" ->
      Enrolled newcomers newcomerCalls (newcomer id) := by
    intro id either
    refine ⟨?_, ?_⟩
    · rcases either with rfl | rfl <;> rfl
    · intro call member
      simp only [newcomerCalls, List.mem_cons, List.not_mem_nil, or_false] at member
      rcases member with rfl | rfl | rfl | rfl | rfl | rfl <;> exact not_false
  rcases reputation_recency (enrolled "a" (Or.inl rfl)) (by norm_num [newcomer, Operator.new])
    (by norm_num [newcomer, Operator.new]) with ⟨first, firstListed, lower, upper, compared⟩
  rcases compared newcomers newcomerCalls (newcomer "b") (enrolled "b" (Or.inr rfl)) rfl with
    ⟨second, secondListed, _same, behind⟩
  refine ⟨first, second, firstListed, lower, upper, secondListed, behind rfl ?_⟩
  intro count
  rcases count with _ | _ | count
  · decide
  · decide
  · have all : forall outcomes : List DelegationOutcome, outcomes.length = 2 ->
        outcomes.rtake (count + 2) = outcomes := by
      intro outcomes two
      rw [List.rtake, two, Nat.sub_eq_zero_of_le (Nat.le_add_left 2 count), List.drop_zero]
    rw [all _ rfl, all _ rfl]
    decide

end Matchmaker
end KernelFlow
