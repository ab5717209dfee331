import Mathlib
import KernelFlow.Matchmaker.Accounting

namespace KernelFlow
namespace Matchmaker

open Transition

/-!
# Operators that reconnect

The registry stores one operator per identifier and does not know which
registration a reservation belongs to.  Registering an identifier that is
present forgets what is in flight on it, and a release that comes after the
operator has left and returned is subtracted from the new entry.  Both let the
registry grant more than the capacity.

`Undisturbed` names the steps where neither happens.  Runs of such steps are
safe, and after any other step the pool is, or can be brought, out of bounds.
-/

/-- An operator always registers with the same capacity. -/
def SameCapacity (capacityOf : OperatorId -> ResourceCapacity) (_pool : Pool) : Action -> Prop
  | .register id total => total = capacityOf id
  | _ => True

/-- An identifier is registered while it is absent or has nothing in flight,
and the release of a stale reservation finds, in each dimension, nothing in
flight or nothing to subtract. -/
def Undisturbed (pool : Pool) : Action -> Prop
  | .register id _ => forall op, pool.registry.inner[id]? = some op ->
      forall dimension, op.inFlight.amounts dimension = 0
  | .release held => held ∉ pool.outstanding -> forall op,
      pool.registry.inner[held.account]? = some op ->
      forall dimension, op.inFlight.amounts dimension = 0 ∨ held.amount dimension = 0
  | _ => True

/-- The steps of a run without disturbance. -/
def Steady (capacityOf : OperatorId -> ResourceCapacity) (pool : Pool) (action : Action) : Prop :=
  SameCapacity capacityOf pool action ∧ Undisturbed pool action

namespace Pool

variable {pool : Pool} {capacityOf : OperatorId -> ResourceCapacity}

/-- The sum of the outstanding reservations on one operator that were made
under its current registration. -/
def currentOn (pool : Pool) (id : OperatorId) : Amounts := fun dimension =>
  ((pool.outstanding.filter fun held =>
      held.account = id ∧ held.registration = pool.registrations id).map fun held =>
    held.amount dimension).sum

/-- No operator has more outstanding than its capacity. -/
def WithinCapacity (pool : Pool) : Prop :=
  forall (id : OperatorId) op, pool.registry.inner[id]? = some op -> forall dimension,
    pool.outstandingOn id dimension ≤ op.total.amounts dimension

/-- What the current reservations hold is still in flight. -/
def HoldsCurrent (pool : Pool) (id : OperatorId) : Prop :=
  forall op, pool.registry.inner[id]? = some op -> forall dimension,
    pool.currentOn id dimension ≤ op.inFlight.amounts dimension

/-- No overcommit, and no release that belongs to an earlier registration frees
what the current reservations hold. -/
structure NoOvercommit (allowed : Pool -> Action -> Prop) (pool : Pool) : Prop where
  within : pool.WithinCapacity
  lateRelease : forall held, pool.Enabled (.release held) -> allowed pool (.release held) ->
    held.registration < pool.registrations held.account ->
    (pool.perform (.release held)).HoldsCurrent held.account

theorem harmless_of_undisturbed {action : Action} (undisturbed : Undisturbed pool action) :
    pool.Harmless action := by
  cases action with
  | register id total => exact fun op found => funext (undisturbed op found)
  | release held =>
      intro returned op found
      funext dimension
      rcases undisturbed returned op found dimension with nothing | free
      · rw [Pi.sub_apply, nothing, Nat.zero_sub]
      · rw [Pi.sub_apply, free, Nat.sub_zero]
  | _ => trivial

theorem currentOn_eq_booked (pool : Pool) (id : OperatorId) :
    pool.currentOn id = Ledger.booked Held.account Held.amount
      (pool.outstanding.filter fun held => held.registration = pool.registrations id) id := by
  funext dimension
  rw [Ledger.booked, Pi.multiset_sum_apply, Multiset.map_map, Multiset.filter_filter]
  rfl

theorem currentOn_le (pool : Pool) (id : OperatorId) : pool.currentOn id ≤ pool.outstandingOn id := by
  rw [currentOn_eq_booked, outstandingOn_eq_booked]
  exact Ledger.booked_mono _ _ (Multiset.filter_le _ _) id

theorem Accounted.holdsCurrent (accounted : pool.Accounted) (id : OperatorId) :
    pool.HoldsCurrent id := by
  intro op found dimension
  rw [accounted.inFlight id op found]
  exact pool.currentOn_le id dimension

/-- The invariant of steady runs.  A reservation that is older than the current
registration is empty or stale. -/
structure Reconnecting (pool : Pool) : Prop where
  accounted : pool.Accounted
  current : forall held, held ∈ pool.outstanding ->
    held.registration = pool.registrations held.account ∨ held.amount = 0
  earlier : forall held, held ∈ pool.stale -> pool.registry.inner[held.account]? ≠ none ->
    held.registration < pool.registrations held.account
  past : forall held, held ∈ pool.held -> held.registration ≤ pool.registrations held.account

theorem reconnecting_start : start.Reconnecting where
  accounted := accounted_start
  current _held member := absurd member (Multiset.notMem_zero _)
  earlier _held member := absurd member (Multiset.notMem_zero _)
  past _held member := absurd member (Multiset.notMem_zero _)

/-- Nothing outstanding on an operator means that its reservations are empty. -/
theorem amount_eq_zero {held : Held} (member : held ∈ pool.outstanding)
    (nothing : pool.outstandingOn held.account = 0) : held.amount = 0 := by
  rw [outstandingOn_eq_booked] at nothing
  have below := Ledger.amount_le_booked Held.account Held.amount member
  rw [nothing] at below
  exact le_antisymm below zero_le

/-! ### What the actions preserve -/

namespace Reconnecting

/-- An action that registers nothing and adds no reservation. -/
theorem kept (reconnecting : pool.Reconnecting) {action : Action}
    (accounted : (pool.perform action).Accounted)
    (entries : forall (id : OperatorId), (pool.perform action).registry.inner[id]? = none ↔
      pool.registry.inner[id]? = none)
    (registrations : (pool.perform action).registrations = pool.registrations)
    (fewer : (pool.perform action).outstanding ≤ pool.outstanding)
    (fewerStale : (pool.perform action).stale ≤ pool.stale) :
    (pool.perform action).Reconnecting where
  accounted := accounted
  current := by
    intro held member
    rw [registrations]
    exact reconnecting.current held (Multiset.mem_of_le fewer member)
  earlier := by
    intro held member present
    rw [registrations]
    exact reconnecting.earlier held (Multiset.mem_of_le fewerStale member)
      (mt (entries _).mpr present)
  past := by
    intro held member
    rw [registrations]
    exact reconnecting.past held (Multiset.mem_of_le (add_le_add fewer fewerStale) member)

/-- A registration makes the reservations on its identifier old ones. -/
theorem register (reconnecting : pool.Reconnecting) {id : OperatorId} {total : ResourceCapacity}
    (accounted : (pool.perform (.register id total)).Accounted)
    (nothing : pool.outstandingOn id = 0) :
    (pool.perform (.register id total)).Reconnecting := by
  have counted : forall (other : OperatorId), (pool.perform (.register id total)).registrations
      other = if other = id then pool.registrations id + 1 else pool.registrations other :=
    fun other => Function.update_apply ..
  refine ⟨accounted, ?_, ?_, ?_⟩
  · intro held member
    rw [counted]
    split_ifs with same
    · exact Or.inr (@amount_eq_zero pool held member (same ▸ nothing))
    · exact reconnecting.current held member
  · intro held member present
    have before := reconnecting.past held (Multiset.mem_add.mpr (Or.inr member))
    rw [counted]
    split_ifs with same
    · rw [same] at before
      exact Nat.lt_succ_of_le before
    · apply reconnecting.earlier held member
      rw [ne_eq, absent_perform_iff, not_and] at present
      exact present (Ne.symm same)
  · intro held member
    have before := reconnecting.past held member
    rw [counted]
    split_ifs with same
    · rw [same] at before
      exact before.trans (Nat.le_succ _)
    · exact before

/-- The reservations on an operator that leaves become stale. -/
theorem deregister (reconnecting : pool.Reconnecting) {id : OperatorId}
    (accounted : (pool.perform (.deregister id)).Accounted) :
    (pool.perform (.deregister id)).Reconnecting := by
  refine ⟨accounted, ?_, ?_, ?_⟩
  · intro held member
    exact reconnecting.current held (Multiset.mem_filter.mp member).1
  · intro held member present
    rw [ne_eq, absent_perform_iff, not_or] at present
    rcases Multiset.mem_add.mp member with before | ended
    · exact reconnecting.earlier held before present.2
    · exact absurd (Multiset.mem_filter.mp ended).2.symm present.1
  · intro held member
    apply reconnecting.past held
    rcases Multiset.mem_add.mp member with remaining | stale
    · exact Multiset.mem_add.mpr (Or.inl (Multiset.mem_filter.mp remaining).1)
    · rcases Multiset.mem_add.mp stale with before | ended
      · exact Multiset.mem_add.mpr (Or.inr before)
      · exact Multiset.mem_add.mpr (Or.inl (Multiset.mem_filter.mp ended).1)

/-- A reservation that is granted belongs to the current registration. -/
theorem reserve (reconnecting : pool.Reconnecting) {client : ClientId} {id : OperatorId}
    {req : ResourceRequirements}
    (accounted : (pool.perform (.reserve client id req)).Accounted) :
    (pool.perform (.reserve client id req)).Reconnecting := by
  rcases OperatorRegistry.reserve_cases pool.registry id req with
    ⟨op, found, can, _reserved⟩ | ⟨error, refused⟩
  · have taken : (pool.perform (.reserve client id req)).outstanding =
        ⟨client, ⟨id, req⟩, pool.registrations id⟩ ::ₘ pool.outstanding :=
      congrArg Pool.outstanding (reserve_of_canTake client found can)
    have registrations : (pool.perform (.reserve client id req)).registrations =
        pool.registrations := reserve_registrations ..
    have stale : (pool.perform (.reserve client id req)).stale = pool.stale :=
      reserve_stale ..
    refine ⟨accounted, ?_, ?_, ?_⟩
    · intro held member
      rw [registrations]
      rw [taken] at member
      rcases Multiset.mem_cons.mp member with same | before
      · exact Or.inl (by rw [same]; rfl)
      · exact reconnecting.current held before
    · intro held member present
      rw [registrations]
      rw [stale] at member
      exact reconnecting.earlier held member
        (mt (absent_perform_iff pool (.reserve client id req) _).mpr present)
    · intro held member
      rw [registrations]
      rw [Pool.held, taken, stale, Multiset.cons_add] at member
      rcases Multiset.mem_cons.mp member with same | before
      · rw [same]
        exact le_rfl
      · exact reconnecting.past held before
  · have unchanged : pool.perform (.reserve client id req) = pool := reserve_of_error refused
    rw [unchanged]
    exact reconnecting

theorem step (reconnecting : pool.Reconnecting) {action : Action}
    (undisturbed : Undisturbed pool action) : (pool.perform action).Reconnecting := by
  have harmless := harmless_of_undisturbed undisturbed
  have accounted := reconnecting.accounted.of_refines
    (reconnecting.accounted.perform action harmless)
  cases action with
  | register id total =>
      exact reconnecting.register accounted
        (reconnecting.accounted.outstandingOn_of_harmless harmless)
  | deregister id => exact reconnecting.deregister accounted
  | snapshot client ops => exact reconnecting.kept accounted (fun _id => Iff.rfl) rfl le_rfl le_rfl
  | select client req draw =>
      exact reconnecting.kept accounted (fun _id => Iff.rfl) rfl le_rfl le_rfl
  | reserve client id req => exact reconnecting.reserve accounted
  | release held =>
      exact reconnecting.kept accounted (fun id => absent_perform_iff pool _ id) rfl
        (Multiset.erase_le held _) (release_stale_le held)
  | recordOutcome id outcome =>
      exact reconnecting.kept accounted (fun id => absent_perform_iff pool _ id) rfl le_rfl le_rfl

end Reconnecting

theorem reconnecting_of_reaches (run : Reaches (PoolStep (Steady capacityOf)) .start pool) :
    pool.Reconnecting := by
  apply run.invariant reconnecting_start
  rintro before after reconnecting ⟨action, _enabled, steady, rfl⟩
  exact reconnecting.step steady.2

/-- In every steady run nothing is overcommitted and no late release frees what
a current reservation holds. -/
theorem steady_noOvercommit (run : Reaches (PoolStep (Steady capacityOf)) .start pool) :
    pool.NoOvercommit (Steady capacityOf) := by
  have accounted := (reconnecting_of_reaches run).accounted
  constructor
  · exact fun _id _op found => accounted.outstandingOn_le found
  · intro held _enabled steady _earlier
    have after := accounted.of_refines
      (accounted.perform _ (harmless_of_undisturbed steady.2))
    exact after.holdsCurrent held.account

/-! ## Every disturbance matters -/

/-- Some reservation fills an operator that has nothing in flight, whatever is
outstanding on it. -/
theorem not_withinCapacity_of_reserve {id : OperatorId} {op : Operator}
    (found : pool.registry.inner[id]? = some op) (empty : op.inFlight.amounts = 0)
    {dimension : Dimension}
    (outstanding : pool.outstandingOn id dimension ≠ 0) (client : ClientId) :
    ∃ req, ¬ (pool.perform (.reserve client id req)).WithinCapacity := by
  let req : ResourceRequirements := ⟨op.total.cpuCores, op.total.ramMb, op.total.gpuVramMb, []⟩
  have everything : req.amounts = op.total.amounts := by
    funext dimension
    cases dimension <;> rfl
  have can : op.canTake req = true := by
    rw [Operator.canTake_iff, empty, tsub_zero, everything]
    exact ⟨le_rfl, fun capability member => nomatch member⟩
  refine ⟨req, fun within => ?_⟩
  have performed := reserve_of_canTake client found can
  have taken : (pool.reserve client id req).outstanding =
      ⟨client, ⟨id, req⟩, pool.registrations id⟩ ::ₘ pool.outstanding := by rw [performed]
  have entry : (pool.reserve client id req).registry.inner[id]? = some (op.commit req) := by
    rw [performed]
    exact (OrderedMap.getElem?_insert_eq ..).trans (if_pos rfl)
  have bounded := within id _ entry dimension
  have sum := congrFun (outstandingOn_cons taken id) dimension
  change _ = (if id = id then req.amounts else 0) dimension + _ at sum
  rw [if_pos rfl, everything] at sum
  change (pool.reserve client id req).outstandingOn id dimension ≤ op.total.amounts dimension
    at bounded
  omega

/-- In a steady run the reservations of the current registration hold all that
is outstanding. -/
theorem Reconnecting.currentOn_eq (reconnecting : pool.Reconnecting) (id : OperatorId) :
    pool.currentOn id = pool.outstandingOn id := by
  rw [currentOn_eq_booked, outstandingOn_eq_booked]
  apply Ledger.booked_filter_of_eq_zero
  intro held member onId old
  exact (reconnecting.current held member).resolve_left (onId ▸ old)

/-- The condition of a steady run is exact: from a state of such a run, a step
that is not steady leads to an overcommitted operator or frees what a current
reservation holds. -/
theorem disturbed_overcommits (run : Reaches (PoolStep (Steady capacityOf)) .start pool)
    {action : Action} (enabled : pool.Enabled action)
    (same : SameCapacity capacityOf pool action) (disturbing : ¬ Undisturbed pool action) :
    ∃ after, Reaches (PoolStep (SameCapacity capacityOf)) pool after ∧
      ¬ after.NoOvercommit (SameCapacity capacityOf) := by
  have reconnecting := reconnecting_of_reaches run
  cases action with
  | register id total =>
      simp only [Undisturbed, not_forall] at disturbing
      rcases disturbing with ⟨op, found, dimension, inFlight⟩
      have entry : (pool.perform (.register id total)).registry.inner[id]? = some (.new id total) :=
        (OrderedMap.getElem?_insert_eq ..).trans (if_pos rfl)
      rw [reconnecting.accounted.inFlight id op found] at inFlight
      rcases not_withinCapacity_of_reserve entry (Operator.new_inFlight_amounts id total) inFlight 0
        with ⟨req, overcommitted⟩
      have steps : Pool.Follows (SameCapacity capacityOf) pool
          [.register id total, .reserve 0 id req] := ⟨enabled, same, trivial, trivial, trivial⟩
      exact ⟨_, steps.reaches, fun safe => overcommitted safe.within⟩
  | release held =>
      simp only [Undisturbed, not_forall, not_or] at disturbing
      rcases disturbing with ⟨returned, op, found, dimension, inFlight, amount⟩
      have stale : held ∈ pool.stale := (Multiset.mem_add.mp enabled).resolve_left returned
      have earlier := reconnecting.earlier held stale (by rw [found]; exact Option.some_ne_none op)
      refine ⟨pool, .refl, fun safe => ?_⟩
      have entry : (pool.perform (.release held)).registry.inner[held.account]? =
          some (op.giveBack held.reservation.req) := by
        change (pool.registry.release held.account held.reservation.req).inner[held.account]? = _
        rw [OperatorRegistry.release_of_found found]
        exact (OrderedMap.getElem?_insert_eq ..).trans (if_pos rfl)
      have kept : (pool.perform (.release held)).currentOn held.account =
          pool.currentOn held.account := by
        rw [currentOn_eq_booked, currentOn_eq_booked]
        change Ledger.booked _ _ ((pool.outstanding.erase held).filter _) _ = _
        rw [Multiset.erase_of_notMem returned]
        rfl
      have bounded := safe.lateRelease held enabled same earlier _ entry dimension
      rw [kept, reconnecting.currentOn_eq, ← reconnecting.accounted.inFlight _ op found,
        Operator.giveBack_amounts] at bounded
      change op.inFlight.amounts dimension ≤
        op.inFlight.amounts dimension - held.amount dimension at bounded
      omega
  | _ => exact absurd trivial disturbing

end Pool

/-! ## Two clients of a reconnecting operator -/

/-- The reservation of all cores that the first client makes. -/
def firstBooking : Held :=
  ⟨1, ⟨"solo", allCores⟩, 1⟩

/-- The first client books the operator, which then leaves and returns. -/
def returned : List Action :=
  [.register "solo" eightCores, .reserve 1 "solo" allCores, .deregister "solo",
    .register "solo" eightCores]

/-- A second client books it too. -/
def rebooked : List Action :=
  returned ++ [.reserve 2 "solo" allCores]

/-- The operator registers again while the first client holds all its cores. -/
def reregistered : List Action :=
  [.register "solo" eightCores, .reserve 1 "solo" allCores, .register "solo" eightCores,
    .reserve 2 "solo" allCores]

theorem follows_returned :
    Pool.start.Follows (Steady fun _id => eightCores) (returned ++ [.release firstBooking]) := by
  have absent : (Pool.start.performAll (returned.take 3)).registry.inner["solo"]? = none := by
    rfl
  have present : (Pool.start.performAll returned).registry.inner["solo"]? =
      some (.new "solo" eightCores) := by
    rfl
  refine ⟨trivial, ⟨rfl, fun op found => nomatch found⟩, trivial, ⟨trivial, trivial⟩, trivial,
    ⟨trivial, trivial⟩, trivial, ⟨rfl, fun op found => ?_⟩, ?_, ⟨trivial, ?_⟩, trivial⟩
  · exact absurd (absent.symm.trans found) (Option.some_ne_none op).symm
  · exact Multiset.mem_add.mpr (Or.inr (Multiset.mem_cons_self firstBooking 0))
  · intro _late op found dimension
    left
    rw [← Option.some.inj (present.symm.trans found)]
    exact congrFun (Operator.new_inFlight_amounts "solo" eightCores) dimension

theorem steady_noOvercommit_solo :
    (Pool.start.performAll (returned ++ [.release firstBooking])).NoOvercommit
      (Steady fun _id => eightCores) :=
  Pool.steady_noOvercommit follows_returned.reaches

/-- A second registration lets the second client book cores that the first one
still holds, and a late release frees the cores of the second client. -/
theorem reconnect_overcommits :
    (∃ pool, Reaches (PoolStep (SameCapacity fun _id => eightCores)) .start pool ∧
      ¬ pool.WithinCapacity) ∧
    ∃ pool held, Reaches (PoolStep (SameCapacity fun _id => eightCores)) .start pool ∧
      pool.Enabled (.release held) ∧ held.registration < pool.registrations held.account ∧
      ¬ (pool.perform (.release held)).HoldsCurrent held.account := by
  constructor
  · have follows : Pool.start.Follows (SameCapacity fun _id => eightCores) reregistered :=
      ⟨trivial, rfl, trivial, trivial, trivial, rfl, trivial, trivial, trivial⟩
    refine ⟨_, follows.reaches, fun within => ?_⟩
    have overcommitted := within "solo" _ rfl .cpuCores
    exact absurd overcommitted (by decide)
  · have follows : Pool.start.Follows (SameCapacity fun _id => eightCores) rebooked :=
      ⟨trivial, rfl, trivial, trivial, trivial, trivial, trivial, rfl, trivial, trivial, trivial⟩
    refine ⟨_, firstBooking, follows.reaches, ?_, by decide, fun holds => ?_⟩
    · exact Multiset.mem_add.mpr (Or.inr (Multiset.mem_cons_self firstBooking 0))
    · have freed := holds _ rfl .cpuCores
      exact absurd freed (by decide)

end Matchmaker
end KernelFlow
