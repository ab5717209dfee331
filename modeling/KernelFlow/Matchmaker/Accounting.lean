import Mathlib
import KernelFlow.Matchmaker.Pool

namespace KernelFlow
namespace Matchmaker

open Transition

/-!
# Exact accounting

In a run that registers every identifier at most once, a stale reservation
belongs to an operator that is gone for good, so no action can do harm and the
books of the pool are exact in every state.  What the registry decides about a
reservation is then a statement about the reservations that are outstanding.
-/

/-- Every identifier is registered at most once. -/
def RegisteredOnce (pool : Pool) : Action -> Prop
  | .register id _ => pool.registrations id = 0
  | _ => True

namespace Pool

variable {pool : Pool}

/-- The invariant of such runs. -/
structure Once (pool : Pool) : Prop where
  accounted : pool.Accounted
  registered : forall id, pool.registry.inner[id]? ≠ none -> pool.registrations id ≠ 0
  gone : forall held, held ∈ pool.stale ->
    pool.registry.inner[held.account]? = none ∧ pool.registrations held.account ≠ 0

theorem once_start : start.Once where
  accounted := accounted_start
  registered _id present := absurd Std.ExtTreeMap.getElem?_empty present
  gone _held member := absurd member (Multiset.notMem_zero _)

theorem Once.harmless (once : pool.Once) {action : Action} (enabled : pool.Enabled action)
    (allowed : RegisteredOnce pool action) : pool.Harmless action := by
  cases action with
  | register id total =>
      intro op found
      have present : pool.registry.inner[id]? ≠ none := by
        rw [found]
        exact Option.some_ne_none op
      exact absurd allowed (once.registered id present)
  | release held =>
      intro returned op found
      have stale : held ∈ pool.stale :=
        (Multiset.mem_add.mp enabled).resolve_left returned
      rw [(once.gone held stale).1] at found
      cases found
  | _ => trivial

namespace Once

/-- An action that registers nothing and makes no reservation stale. -/
theorem kept (once : pool.Once) {action : Action}
    (accounted : (pool.perform action).Accounted)
    (entries : forall (id : OperatorId), (pool.perform action).registry.inner[id]? = none ↔
      pool.registry.inner[id]? = none)
    (registrations : (pool.perform action).registrations = pool.registrations)
    (fewer : (pool.perform action).stale ≤ pool.stale) : (pool.perform action).Once where
  accounted := accounted
  registered := by
    intro id present
    rw [registrations]
    exact once.registered id (mt (entries id).mpr present)
  gone := by
    intro held member
    rw [registrations, entries]
    exact once.gone held (Multiset.mem_of_le fewer member)

theorem register (once : pool.Once) {id : OperatorId} {total : ResourceCapacity}
    (accounted : (pool.perform (.register id total)).Accounted)
    (allowed : pool.registrations id = 0) : (pool.perform (.register id total)).Once := by
  have counted : forall other, pool.registrations other ≠ 0 ->
      (pool.perform (.register id total)).registrations other ≠ 0 := by
    intro other before
    change Function.update pool.registrations id _ other ≠ 0
    rw [Function.update_apply]
    split_ifs
    · exact Nat.succ_ne_zero _
    · exact before
  refine ⟨accounted, ?_, ?_⟩
  · intro other present
    rw [ne_eq, absent_perform_iff, not_and_or, not_not] at present
    rcases present with same | before
    · subst same
      change Function.update pool.registrations id _ id ≠ 0
      rw [Function.update_self]
      exact Nat.succ_ne_zero _
    · exact counted other (once.registered other before)
  · intro held member
    rcases once.gone held member with ⟨absent, before⟩
    refine ⟨?_, counted _ before⟩
    rw [absent_perform_iff]
    exact ⟨fun same => before (same ▸ allowed), absent⟩

theorem deregister (once : pool.Once) {id : OperatorId}
    (accounted : (pool.perform (.deregister id)).Accounted) :
    (pool.perform (.deregister id)).Once := by
  refine ⟨accounted, ?_, ?_⟩
  · intro other present
    rw [ne_eq, absent_perform_iff, not_or] at present
    exact once.registered other present.2
  · intro held member
    rw [absent_perform_iff]
    rcases Multiset.mem_add.mp member with before | ended
    · rcases once.gone held before with ⟨absent, counted⟩
      exact ⟨Or.inr absent, counted⟩
    · rcases Multiset.mem_filter.mp ended with ⟨outstanding, same⟩
      refine ⟨Or.inl same.symm, ?_⟩
      apply once.registered
      intro absent
      exact once.accounted.sound.backed held outstanding (congrArg (Option.map _) absent)

theorem step (once : pool.Once) {action : Action} (enabled : pool.Enabled action)
    (allowed : RegisteredOnce pool action) : (pool.perform action).Once := by
  have accounted := once.accounted.of_refines
    (once.accounted.perform action (once.harmless enabled allowed))
  cases action with
  | register id total => exact once.register accounted allowed
  | deregister id => exact once.deregister accounted
  | snapshot client ops => exact once.kept accounted (fun _id => Iff.rfl) rfl le_rfl
  | select client req draw => exact once.kept accounted (fun _id => Iff.rfl) rfl le_rfl
  | reserve client id req =>
      exact once.kept accounted (fun id => absent_perform_iff pool _ id)
        (reserve_registrations ..) (reserve_stale ..).le
  | release held =>
      exact once.kept accounted (fun id => absent_perform_iff pool _ id) rfl
        (release_stale_le held)
  | recordOutcome id outcome =>
      exact once.kept accounted (fun id => absent_perform_iff pool _ id) rfl le_rfl

end Once

theorem once_of_reaches (run : Reaches (PoolStep RegisteredOnce) .start pool) : pool.Once := by
  apply run.invariant once_start
  rintro before after once ⟨action, enabled, allowed, rfl⟩
  exact once.step enabled allowed

/-! ## Releasing everything -/

theorem held_release {held : Held} :
    (pool.perform (.release held)).held = pool.held.erase held := by
  change pool.outstanding.erase held +
    (if held ∈ pool.outstanding then pool.stale else pool.stale.erase held) = _
  unfold Pool.held
  split_ifs with member
  · rw [Multiset.erase_add_left_pos pool.stale member]
  · rw [Multiset.erase_of_notMem member, Multiset.erase_add_right_neg pool.stale member]

/-- A sequence of releases keeps the operators and takes its reservations off
the outstanding ones. -/
theorem Once.releases (once : pool.Once) {order : List Held}
    (inHand : (order : Multiset Held) ≤ pool.held) :
    (pool.performAll (order.map .release)).Once ∧
      (pool.performAll (order.map .release)).outstanding =
        pool.outstanding - (order : Multiset Held) ∧
      forall (id : OperatorId), (pool.performAll (order.map .release)).registry.inner[id]? = none ↔
        pool.registry.inner[id]? = none := by
  induction order generalizing pool with
  | nil => exact ⟨once, (tsub_zero _).symm, fun _id => Iff.rfl⟩
  | cons first rest inductionHypothesis =>
      have enabled : pool.Enabled (.release first) :=
        Multiset.mem_of_le inHand (Multiset.mem_coe.mpr List.mem_cons_self)
      have remaining : (rest : Multiset Held) ≤ (pool.perform (.release first)).held := by
        rw [held_release]
        have erased := Multiset.erase_le_erase first inHand
        rw [← Multiset.cons_coe, Multiset.erase_cons_head] at erased
        exact erased
      rcases inductionHypothesis (once.step enabled trivial) remaining with
        ⟨onceAfter, outstanding, entries⟩
      refine ⟨onceAfter, ?_, ?_⟩
      · rw [← Multiset.cons_coe, Multiset.sub_cons]
        exact outstanding
      · intro id
        exact (entries id).trans (absent_perform_iff pool _ id)

/-! ## The contract -/

/-- What a state of the pool owes to its clients. -/
structure ExactlyBooked (pool : Pool) : Prop where
  balanced : forall (id : OperatorId) op, pool.registry.inner[id]? = some op -> forall dimension,
    op.inFlight.amounts dimension = pool.outstandingOn id dimension ∧
      op.inFlight.amounts dimension ≤ op.total.amounts dimension
  reserve_ok_iff : forall (id : OperatorId) req, (pool.registry.reserve id req).1 = .ok () ↔
    ∃ op, pool.registry.inner[id]? = some op ∧
      (forall capability, capability ∈ req.capabilities -> capability ∈ op.total.capabilities) ∧
      forall dimension, req.amounts dimension ≤
        op.total.amounts dimension - pool.outstandingOn id dimension
  refused : forall (id : OperatorId) req, (pool.registry.reserve id req).1 ≠ .ok () ->
    (pool.registry.reserve id req).2 = pool.registry
  elsewhere : forall (action : Action) (id : OperatorId), action.subject ≠ some id ->
    (pool.perform action).registry.inner[id]? = pool.registry.inner[id]?
  noOverflow : forall (id : OperatorId) req op, pool.registry.inner[id]? = some op ->
    (pool.registry.reserve id req).1 = .ok () -> forall dimension,
      op.inFlight.amounts dimension + req.amounts dimension < 2 ^ 32
  releaseAll : forall (id : OperatorId) (order : List Held), pool.registry.inner[id]? ≠ none ->
    (pool.outstanding.filter fun held => held.account = id) ≤ (order : Multiset Held) ->
    (order : Multiset Held) ≤ pool.held ->
    ∃ op, (pool.performAll (order.map .release)).registry.inner[id]? = some op ∧
      forall dimension, op.inFlight.amounts dimension = 0

theorem Once.reserve_ok_iff (once : pool.Once) (id : OperatorId) (req : ResourceRequirements) :
    (pool.registry.reserve id req).1 = .ok () ↔
      ∃ op, pool.registry.inner[id]? = some op ∧
        (forall capability, capability ∈ req.capabilities ->
          capability ∈ op.total.capabilities) ∧
        forall dimension, req.amounts dimension ≤
          op.total.amounts dimension - pool.outstandingOn id dimension := by
  rw [OperatorRegistry.reserve_eq_ok_iff]
  apply exists_congr
  intro op
  apply and_congr_right
  intro found
  rw [Operator.canTake_iff, once.accounted.inFlight id op found]
  exact and_comm

/-- Releasing at least everything that is outstanding on an operator, in any
order, leaves nothing in flight on it. -/
theorem Once.release_all (once : pool.Once) {id : OperatorId} {order : List Held}
    (present : pool.registry.inner[id]? ≠ none)
    (everything : (pool.outstanding.filter fun held => held.account = id) ≤
      (order : Multiset Held))
    (inHand : (order : Multiset Held) ≤ pool.held) :
    ∃ op, (pool.performAll (order.map .release)).registry.inner[id]? = some op ∧
      op.inFlight.amounts = 0 := by
  rcases once.releases inHand with ⟨after, outstanding, entries⟩
  rcases Option.ne_none_iff_exists'.mp (mt (entries id).mp present) with ⟨op, found⟩
  refine ⟨op, found, ?_⟩
  rw [after.accounted.inFlight id op found, outstandingOn_eq_booked, outstanding]
  apply Ledger.booked_eq_zero
  intro held member onId
  have both : held ∈ (pool.outstanding - (order : Multiset Held)).filter
      fun held => held.account = id := Multiset.mem_filter.mpr ⟨member, onId⟩
  have covered := Multiset.filter_le_filter (fun held : Held => held.account = id) everything
  rw [Multiset.filter_filter] at covered
  simp only [and_self] at covered
  rw [Multiset.filter_sub, tsub_eq_zero_of_le covered] at both
  exact Multiset.notMem_zero held both

/-- No double booking: in every run that registers an identifier at most once,
whatever the clients do in between, the amounts in flight are the sums of the
outstanding reservations and stay below the capacity, and the registry grants a
reservation exactly when there is room for it. -/
theorem reservations_exactly_booked (run : Reaches (PoolStep RegisteredOnce) .start pool) :
    pool.ExactlyBooked := by
  have once := once_of_reaches run
  refine ⟨?_, once.reserve_ok_iff, ?_, pool.perform_frame, ?_, ?_⟩
  · intro id op found dimension
    rw [once.accounted.inFlight id op found]
    exact ⟨rfl, once.accounted.outstandingOn_le found dimension⟩
  · intro id req failed
    rcases OperatorRegistry.reserve_cases pool.registry id req with
      ⟨_op, _found, _can, reserved⟩ | ⟨error, refused⟩
    · rw [reserved] at failed
      exact absurd rfl failed
    · rw [refused]
  · intro id req op found succeeded dimension
    rcases OperatorRegistry.reserve_eq_ok_iff.mp succeeded with ⟨same, lookup, can⟩
    rw [found, Option.some.injEq] at lookup
    exact Operator.fits_of_canTake (lookup ▸ can) dimension
  · intro id order present everything inHand
    rcases once.release_all present everything inHand with ⟨op, found, nothing⟩
    exact ⟨op, found, fun dimension => congrFun nothing dimension⟩

end Pool

/-! ## Two clients of one operator -/

/-- An operator of eight cores. -/
def eightCores : ResourceCapacity :=
  { cpuCores := 8, ramMb := 32000, gpuVramMb := 0, capabilities := [.genericCpu] }

/-- A request for all eight. -/
def allCores : ResourceRequirements :=
  { cpuCores := 8, ramMb := 0, gpuVramMb := 0, capabilities := [.genericCpu] }

/-- Both clients ask for all cores, and the second is refused. -/
def doubleBooking : List Action :=
  [.register "solo" eightCores, .reserve 1 "solo" allCores, .reserve 2 "solo" allCores]

theorem follows_doubleBooking : Pool.start.Follows RegisteredOnce doubleBooking :=
  ⟨trivial, rfl, trivial, trivial, trivial, trivial, trivial⟩

theorem reservations_exactly_booked_solo :
    (Pool.start.performAll doubleBooking).ExactlyBooked ∧
      (Pool.start.performAll doubleBooking).outstandingOn "solo" .cpuCores = 8 :=
  ⟨Pool.reservations_exactly_booked follows_doubleBooking.reaches, by rfl⟩

end Matchmaker
end KernelFlow
