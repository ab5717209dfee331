import Mathlib
import KernelFlow.Library.Ledger
import KernelFlow.Matchmaker.Strategy

namespace KernelFlow
namespace Matchmaker

open Transition

/-!
# The operator pool and its clients

A run interleaves the registry operations of operators and clients.  Next to
the registry the state holds what each client remembers, a snapshot that may be
stale and its last selection, and the reservations that clients have made and
not yet released.  A reservation is outstanding until its operator is
deregistered; after that it is stale, but its client may still release it.

Read as a ledger, the pool has one account for every registered operator, with
the capacity as its limit, and one hold for every outstanding reservation.  As
long as the amounts in flight are the amounts held, a step of the pool that does
no harm is a step of the ledger or changes nothing there, and the amounts in
flight remain the amounts held.
-/

abbrev ClientId := Nat

/-- A reservation in the hands of a client, with the number of the registration
of the operator that it was made under. -/
structure Held where
  client : ClientId
  reservation : Reservation
  registration : Nat
  deriving DecidableEq

namespace Held

def account (held : Held) : OperatorId :=
  held.reservation.opId

def amount (held : Held) : Amounts :=
  held.reservation.req.amounts

end Held

structure Pool where
  registry : OperatorRegistry
  registrations : OperatorId -> Nat
  snapshots : ClientId -> List Operator
  selected : ClientId -> Option (KernelResult OperatorId)
  outstanding : Multiset Held
  stale : Multiset Held

inductive Action
  | register (id : OperatorId) (total : ResourceCapacity)
  | deregister (id : OperatorId)
  | snapshot (client : ClientId) (ops : List Operator)
  | select (client : ClientId) (req : ResourceRequirements) (draw : Nat)
  | reserve (client : ClientId) (id : OperatorId) (req : ResourceRequirements)
  | release (held : Held)
  | recordOutcome (id : OperatorId) (outcome : DelegationOutcome)

/-- The operator whose entry the action may change. -/
def Action.subject : Action -> Option OperatorId
  | .register id _ => some id
  | .deregister id => some id
  | .snapshot _ _ => none
  | .select _ _ _ => none
  | .reserve _ id _ => some id
  | .release held => some held.account
  | .recordOutcome id _ => some id

namespace Pool

def start : Pool where
  registry := .new
  registrations := fun _id => 0
  snapshots := fun _client => []
  selected := fun _client => none
  outstanding := 0
  stale := 0

/-- Every reservation that some client may still release. -/
def held (pool : Pool) : Multiset Held :=
  pool.outstanding + pool.stale

/-- A snapshot lists the operators of the moment in any order, and a client
releases only what it holds. -/
def Enabled (pool : Pool) : Action -> Prop
  | .snapshot _ ops => ops.Perm pool.registry.snapshot
  | .release held => held ∈ pool.held
  | _ => True

/-- A successful reservation is put into the hands of the client. -/
def reserve (pool : Pool) (client : ClientId) (id : OperatorId) (req : ResourceRequirements) :
    Pool :=
  match pool.registry.reserve id req with
  | (.ok (), registry) =>
      { pool with
        registry := registry
        outstanding := ⟨client, ⟨id, req⟩, pool.registrations id⟩ ::ₘ pool.outstanding }
  | (.error _, registry) => { pool with registry := registry }

/-- Operators are registered as `Operator::new` makes them.  A release removes
the reservation from the hands of its client. -/
def perform (pool : Pool) : Action -> Pool
  | .register id total =>
      { pool with
        registry := pool.registry.register (.new id total)
        registrations :=
          Function.update pool.registrations id (pool.registrations id + 1) }
  | .deregister id =>
      { pool with
        registry := (pool.registry.deregister id).2
        outstanding := pool.outstanding.filter fun held => held.account ≠ id
        stale := pool.stale + pool.outstanding.filter fun held => held.account = id }
  | .snapshot client ops =>
      { pool with snapshots := Function.update pool.snapshots client ops }
  | .select client req draw =>
      { pool with
        selected := Function.update pool.selected client
          (some (ReputationMatchmaker.select (pool.snapshots client) req draw)) }
  | .reserve client id req => pool.reserve client id req
  | .release held =>
      { pool with
        registry := pool.registry.release held.account held.reservation.req
        outstanding := pool.outstanding.erase held
        stale := if held ∈ pool.outstanding then pool.stale else pool.stale.erase held }
  | .recordOutcome id outcome =>
      { pool with registry := pool.registry.recordOutcome id outcome }

/-- The sum of the outstanding reservations on one operator. -/
def outstandingOn (pool : Pool) (id : OperatorId) : Amounts := fun dimension =>
  ((pool.outstanding.filter fun held => held.account = id).map fun held =>
    held.amount dimension).sum

/-- The pool as a ledger. -/
def ledger (pool : Pool) : Ledger OperatorId Held Amounts where
  limit id := pool.registry.inner[id]?.map fun op => op.total.amounts
  outstanding := pool.outstanding

end Pool

/-- One action that a policy allows. -/
def PoolStep (allowed : Pool -> Action -> Prop) (before after : Pool) : Prop :=
  ∃ action, before.Enabled action ∧ allowed before action ∧ after = before.perform action

/-- A list of actions that can be performed one after the other. -/
def Pool.Follows (allowed : Pool -> Action -> Prop) : Pool -> List Action -> Prop
  | _, [] => True
  | pool, action :: rest =>
      pool.Enabled action ∧ allowed pool action ∧ (pool.perform action).Follows allowed rest

namespace Pool

variable {pool : Pool} {allowed : Pool -> Action -> Prop}

/-- Perform the actions one after the other. -/
def performAll (pool : Pool) (actions : List Action) : Pool :=
  actions.foldl perform pool

theorem Follows.reaches {actions : List Action} (follows : pool.Follows allowed actions) :
    Reaches (PoolStep allowed) pool (pool.performAll actions) := by
  induction actions generalizing pool with
  | nil => exact .refl
  | cons action rest inductionHypothesis =>
      rcases follows with ⟨enabled, permitted, continues⟩
      exact .head ⟨action, enabled, permitted, rfl⟩ (inductionHypothesis continues)

theorem reserve_of_canTake (client : ClientId) {id : OperatorId} {req : ResourceRequirements}
    {op : Operator} (found : pool.registry.inner[id]? = some op) (can : op.canTake req = true) :
    pool.reserve client id req =
      { pool with
        registry := ⟨pool.registry.inner.insert id (op.commit req)⟩
        outstanding := ⟨client, ⟨id, req⟩, pool.registrations id⟩ ::ₘ pool.outstanding } := by
  unfold reserve
  rw [OperatorRegistry.reserve_of_canTake found can]

theorem reserve_of_error {client : ClientId} {id : OperatorId} {req : ResourceRequirements}
    {error : KernelError} (refused : pool.registry.reserve id req = (.error error, pool.registry)) :
    pool.reserve client id req = pool := by
  unfold reserve
  rw [refused]

theorem reserve_registry (pool : Pool) (client : ClientId) (id : OperatorId)
    (req : ResourceRequirements) :
    (pool.reserve client id req).registry = (pool.registry.reserve id req).2 := by
  unfold reserve
  split
  · rename_i registry reserved
    rw [reserved]
  · rename_i error registry refused
    rw [refused]

/-- An action leaves the operators that it does not name as they are. -/
theorem perform_frame (pool : Pool) (action : Action) (id : OperatorId)
    (elsewhere : action.subject ≠ some id) :
    (pool.perform action).registry.inner[id]? = pool.registry.inner[id]? := by
  have differs : forall named, action.subject = some named -> named ≠ id := by
    intro named subject same
    exact elsewhere (subject.trans (congrArg some same))
  cases action with
  | register named total =>
      exact pool.registry.register_frame (differs named rfl)
  | deregister named => exact pool.registry.deregister_frame (differs named rfl)
  | snapshot client ops => rfl
  | select client req draw => rfl
  | reserve client named req =>
      change (pool.reserve client named req).registry.inner[id]? = _
      rw [reserve_registry]
      exact (pool.registry.updated_reserve named req).frame (differs named rfl)
  | release held => exact (pool.registry.updated_release _ _).frame (differs held.account rfl)
  | recordOutcome named outcome =>
      exact (pool.registry.updated_recordOutcome named outcome).frame (differs named rfl)

@[simp]
theorem reserve_registrations (pool : Pool) (client : ClientId) (id : OperatorId)
    (req : ResourceRequirements) :
    (pool.reserve client id req).registrations = pool.registrations := by
  unfold reserve
  split <;> rfl

@[simp]
theorem reserve_stale (pool : Pool) (client : ClientId) (id : OperatorId)
    (req : ResourceRequirements) : (pool.reserve client id req).stale = pool.stale := by
  unfold reserve
  split <;> rfl

theorem release_stale_le (held : Held) : (pool.perform (.release held)).stale ≤ pool.stale := by
  change (if held ∈ pool.outstanding then pool.stale else pool.stale.erase held) ≤ pool.stale
  split_ifs
  · exact le_rfl
  · exact Multiset.erase_le held pool.stale

/-- Only a registration adds an operator, and only a deregistration removes
one. -/
theorem absent_perform_iff (pool : Pool) (action : Action) (id : OperatorId) :
    (pool.perform action).registry.inner[id]? = none ↔
      match action with
      | .register named _ => named ≠ id ∧ pool.registry.inner[id]? = none
      | .deregister named => named = id ∨ pool.registry.inner[id]? = none
      | _ => pool.registry.inner[id]? = none := by
  cases action with
  | register named total =>
      change (pool.registry.inner.insert named _)[id]? = none ↔ _
      rw [OrderedMap.getElem?_insert_eq]
      split_ifs with same
      · simp [same]
      · simp [same]
  | deregister named =>
      change (pool.registry.inner.erase named)[id]? = none ↔ _
      rw [OrderedMap.getElem?_erase_eq]
      split_ifs with same
      · simp [same]
      · simp [same]
  | snapshot client ops => rfl
  | select client req draw => rfl
  | reserve client named req =>
      change (pool.reserve client named req).registry.inner[id]? = none ↔ _
      rw [reserve_registry]
      exact (pool.registry.updated_reserve named req).absent_iff
  | release held => exact (pool.registry.updated_release _ _).absent_iff
  | recordOutcome named outcome => exact (pool.registry.updated_recordOutcome named outcome).absent_iff

/-! ## The pool as a ledger -/

theorem outstandingOn_eq_booked (pool : Pool) (id : OperatorId) :
    pool.outstandingOn id = Ledger.booked Held.account Held.amount pool.outstanding id := by
  funext dimension
  rw [Ledger.booked, Pi.multiset_sum_apply, Multiset.map_map]
  rfl

theorem limit_of_found {id : OperatorId} {op : Operator}
    (found : pool.registry.inner[id]? = some op) : pool.ledger.limit id = some op.total.amounts :=
  congrArg (Option.map _) found

/-- What is in flight on an operator is what its outstanding reservations hold. -/
def Exact (pool : Pool) : Prop :=
  forall id op, pool.registry.inner[id]? = some op -> op.inFlight.amounts = pool.outstandingOn id

structure Accounted (pool : Pool) : Prop where
  inFlight : pool.Exact
  sound : pool.ledger.Sound Held.account Held.amount

theorem accounted_start : Accounted start where
  inFlight id op found := by
    rw [start, OperatorRegistry.new, Std.ExtTreeMap.getElem?_empty] at found
    cases found
  sound := Ledger.sound_empty

/-- A registration does no harm over an operator that has nothing in flight,
and a late release does none where it subtracts nothing. -/
def Harmless (pool : Pool) : Action -> Prop
  | .register id _ => forall op, pool.registry.inner[id]? = some op -> op.inFlight.amounts = 0
  | .release held => held ∉ pool.outstanding -> forall op,
      pool.registry.inner[held.account]? = some op ->
        op.inFlight.amounts - held.amount = op.inFlight.amounts
  | _ => True

/-- The pool keeps exact books, and the ledger follows. -/
def Refines (before after : Pool) : Prop :=
  after.Exact ∧ Reaches (Ledger.Step Held.account Held.amount) before.ledger after.ledger

theorem Accounted.of_refines {after : Pool} (accounted : pool.Accounted)
    (refines : pool.Refines after) : after.Accounted where
  inFlight := refines.1
  sound := accounted.sound.reaches refines.2

/-- The books stay exact when one entry changes together with what is held on
it. -/
theorem Exact.insert {after : Pool} {id : OperatorId} {op : Operator} (inFlight : pool.Exact)
    (entries : after.registry = ⟨pool.registry.inner.insert id op⟩)
    (here : op.inFlight.amounts = after.outstandingOn id)
    (elsewhere : forall other, id ≠ other ->
      after.outstandingOn other = pool.outstandingOn other) : after.Exact := by
  intro other found lookup
  rw [entries, OrderedMap.getElem?_insert_eq] at lookup
  by_cases same : id = other
  · subst same
    rw [if_pos rfl, Option.some.injEq] at lookup
    exact lookup ▸ here
  · rw [if_neg same] at lookup
    rw [elsewhere other same]
    exact inFlight other found lookup

/-- Changing an entry and not its capacity keeps every limit. -/
theorem ledger_insert {after : Pool} {id : OperatorId} {op changed : Operator}
    (found : pool.registry.inner[id]? = some op)
    (entries : after.registry = ⟨pool.registry.inner.insert id changed⟩)
    (total : changed.total = op.total) :
    after.ledger = { pool.ledger with outstanding := after.outstanding } := by
  unfold ledger
  congr 1
  funext other
  rw [entries, OrderedMap.getElem?_insert_eq]
  split_ifs with same
  · subst same
    exact (congrArg (fun total => some total.amounts) total).trans (limit_of_found found).symm
  · rfl

theorem outstandingOn_cons {after : Pool} {held : Held}
    (taken : after.outstanding = held ::ₘ pool.outstanding) (id : OperatorId) :
    after.outstandingOn id =
      (if held.account = id then held.amount else 0) + pool.outstandingOn id := by
  rw [outstandingOn_eq_booked, outstandingOn_eq_booked, taken, Ledger.booked_cons]

theorem outstandingOn_erase {after : Pool} {held : Held} (member : held ∈ pool.outstanding)
    (released : after.outstanding = pool.outstanding.erase held) (id : OperatorId) :
    pool.outstandingOn id =
      (if held.account = id then held.amount else 0) + after.outstandingOn id := by
  rw [outstandingOn_eq_booked, outstandingOn_eq_booked, released, ← Ledger.booked_erase _ _ member]

theorem outstandingOn_congr {after : Pool} (same : after.outstanding = pool.outstanding) :
    after.outstandingOn = pool.outstandingOn := by
  funext id
  rw [outstandingOn_eq_booked, outstandingOn_eq_booked, same]

/-- The capacity of an operator covers what is outstanding on it. -/
theorem Accounted.outstandingOn_le (accounted : pool.Accounted) {id : OperatorId} {op : Operator}
    (found : pool.registry.inner[id]? = some op) : pool.outstandingOn id ≤ op.total.amounts := by
  rw [outstandingOn_eq_booked]
  exact accounted.sound.within id _ (limit_of_found found)

/-- Nothing is outstanding on an operator that is not registered. -/
theorem Accounted.outstandingOn_of_absent (accounted : pool.Accounted) {id : OperatorId}
    (absent : pool.registry.inner[id]? = none) : pool.outstandingOn id = 0 := by
  rw [outstandingOn_eq_booked]
  exact accounted.sound.booked_of_closed (congrArg (Option.map _) absent)

theorem Accounted.of_same {after : Pool} (accounted : pool.Accounted)
    (entries : after.registry = pool.registry)
    (same : after.outstanding = pool.outstanding) : pool.Refines after := by
  constructor
  · intro id op found
    rw [entries] at found
    rw [outstandingOn_congr same]
    exact accounted.inFlight id op found
  · have unchanged : after.ledger = pool.ledger := by
      unfold ledger
      rw [entries, same]
    rw [unchanged]

/-- A registration that does no harm finds nothing outstanding. -/
theorem Accounted.outstandingOn_of_harmless (accounted : pool.Accounted) {id : OperatorId}
    {total : ResourceCapacity} (harmless : pool.Harmless (.register id total)) :
    pool.outstandingOn id = 0 := by
  cases found : pool.registry.inner[id]? with
  | none => exact accounted.outstandingOn_of_absent found
  | some op => rw [← accounted.inFlight id op found, harmless op found]

theorem Accounted.register (accounted : pool.Accounted) {id : OperatorId}
    {total : ResourceCapacity} (harmless : pool.Harmless (.register id total)) :
    pool.Refines (pool.perform (.register id total)) := by
  have nothing := accounted.outstandingOn_of_harmless harmless
  have entries : (pool.perform (.register id total)).registry =
      ⟨pool.registry.inner.insert id (.new id total)⟩ := rfl
  constructor
  · apply accounted.inFlight.insert entries
    · rw [Operator.new_inFlight_amounts]
      exact nothing.symm
    · exact fun _other _elsewhere => rfl
  · have opened : (pool.perform (.register id total)).ledger =
        { pool.ledger with
          limit := Function.update pool.ledger.limit id (some total.amounts) } := by
      unfold ledger
      congr 1
      funext other
      change Option.map _ (pool.registry.inner.insert id (.new id total))[other]? = _
      rw [OrderedMap.getElem?_insert_eq, Function.update_apply]
      by_cases same : id = other
      · rw [if_pos same, if_pos same.symm]
        rfl
      · rw [if_neg same, if_neg (Ne.symm same)]
    rw [opened]
    apply Relation.ReflTransGen.single
    apply Ledger.Step.enrol
    change Ledger.booked Held.account Held.amount pool.outstanding id ≤ total.amounts
    rw [← outstandingOn_eq_booked, nothing]
    exact zero_le

theorem Accounted.deregister (accounted : pool.Accounted) (id : OperatorId) :
    pool.Refines (pool.perform (.deregister id)) := by
  constructor
  · intro other op found
    change (pool.registry.inner.erase id)[other]? = some op at found
    rw [OrderedMap.getElem?_erase_eq] at found
    split_ifs at found with same
    rw [accounted.inFlight other op found, outstandingOn_eq_booked, outstandingOn_eq_booked]
    change _ = Ledger.booked Held.account Held.amount
      (pool.outstanding.filter fun held => held.account ≠ id) other
    rw [Ledger.booked_filter_ne, if_neg same]
  · have closed : (pool.perform (.deregister id)).ledger =
        { limit := Function.update pool.ledger.limit id none
          outstanding := pool.ledger.outstanding.filter fun held => held.account ≠ id } := by
      unfold ledger
      congr 1
      funext other
      change Option.map _ (pool.registry.inner.erase id)[other]? = _
      rw [OrderedMap.getElem?_erase_eq, Function.update_apply]
      by_cases same : id = other
      · rw [if_pos same, if_pos same.symm]
        rfl
      · rw [if_neg same, if_neg (Ne.symm same)]
    rw [closed]
    exact .single (.close id)

theorem Accounted.reserve (accounted : pool.Accounted) (client : ClientId) (id : OperatorId)
    (req : ResourceRequirements) : pool.Refines (pool.reserve client id req) := by
  rcases OperatorRegistry.reserve_cases pool.registry id req with
    ⟨op, found, can, _reserved⟩ | ⟨error, refused⟩
  · have performed := reserve_of_canTake client found can
    have entries : (pool.reserve client id req).registry =
        ⟨pool.registry.inner.insert id (op.commit req)⟩ := by rw [performed]
    have taken : (pool.reserve client id req).outstanding =
        ⟨client, ⟨id, req⟩, pool.registrations id⟩ ::ₘ pool.outstanding := by rw [performed]
    constructor
    · apply accounted.inFlight.insert entries
      · rw [Operator.commit_amounts can, accounted.inFlight id op found, outstandingOn_cons taken id]
        exact (congrArg (· + pool.outstandingOn id) (if_pos rfl)).symm
      · intro other elsewhere
        rw [outstandingOn_cons taken other]
        exact (congrArg (· + pool.outstandingOn other) (if_neg elsewhere)).trans (zero_add _)
    · rw [ledger_insert found entries rfl, taken]
      apply Relation.ReflTransGen.single
      apply Ledger.Step.book _ op.total.amounts (limit_of_found found)
      have free := ((Operator.canTake_iff op req).mp can).1
      rw [accounted.inFlight id op found,
        le_tsub_iff_right (accounted.outstandingOn_le found), outstandingOn_eq_booked] at free
      exact free
  · rw [reserve_of_error refused]
    exact accounted.of_same rfl rfl

theorem Accounted.release (accounted : pool.Accounted) {held : Held}
    (harmless : pool.Harmless (.release held)) :
    pool.Refines (pool.perform (.release held)) := by
  have settled : Reaches (Ledger.Step Held.account Held.amount) pool.ledger
      { pool.ledger with outstanding := pool.outstanding.erase held } := by
    by_cases member : held ∈ pool.outstanding
    · exact .single (.settle held member)
    · rw [Multiset.erase_of_notMem member]
      exact .refl
  cases found : pool.registry.inner[held.account]? with
  | none =>
      have absent : held ∉ pool.outstanding := by
        intro member
        exact accounted.sound.backed held member (congrArg (Option.map _) found)
      exact accounted.of_same (OperatorRegistry.release_of_absent found)
        (Multiset.erase_of_notMem absent)
  | some op =>
      have entries : (pool.perform (.release held)).registry =
          ⟨pool.registry.inner.insert held.account (op.giveBack held.reservation.req)⟩ :=
        OperatorRegistry.release_of_found found
      constructor
      · by_cases member : held ∈ pool.outstanding
        · have released : (pool.perform (.release held)).outstanding =
              pool.outstanding.erase held := rfl
          have split := outstandingOn_erase member released
          apply accounted.inFlight.insert entries
          · rw [Operator.giveBack_amounts, accounted.inFlight _ op found, split, if_pos rfl]
            exact add_tsub_cancel_left _ _
          · intro other elsewhere
            rw [split other, if_neg elsewhere, zero_add]
        · have same : (pool.perform (.release held)).outstanding = pool.outstanding :=
            Multiset.erase_of_notMem member
          apply accounted.inFlight.insert entries
          · rw [Operator.giveBack_amounts, outstandingOn_congr same,
              ← accounted.inFlight _ op found]
            exact harmless member op found
          · intro other _elsewhere
            rw [outstandingOn_congr same]
      · rw [ledger_insert found entries rfl]
        exact settled

theorem Accounted.recordOutcome (accounted : pool.Accounted) (id : OperatorId)
    (outcome : DelegationOutcome) : pool.Refines (pool.perform (.recordOutcome id outcome)) := by
  cases found : pool.registry.inner[id]? with
  | none =>
      exact accounted.of_same (OperatorRegistry.recordOutcome_of_absent found) rfl
  | some op =>
      have entries : (pool.perform (.recordOutcome id outcome)).registry =
          ⟨pool.registry.inner.insert id (op.rate outcome)⟩ :=
        OperatorRegistry.recordOutcome_of_found found
      constructor
      · exact accounted.inFlight.insert entries (accounted.inFlight id op found)
          fun _other _elsewhere => rfl
      · rw [ledger_insert found entries rfl]
        exact .refl

/-- The step lemma: an action that does no harm keeps exact books and is a step
of the ledger, or none. -/
theorem Accounted.perform (accounted : pool.Accounted) (action : Action)
    (harmless : pool.Harmless action) : pool.Refines (pool.perform action) := by
  cases action with
  | register id total => exact accounted.register harmless
  | deregister id => exact accounted.deregister id
  | snapshot client ops => exact accounted.of_same rfl rfl
  | select client req draw => exact accounted.of_same rfl rfl
  | reserve client id req => exact accounted.reserve client id req
  | release held => exact accounted.release harmless
  | recordOutcome id outcome => exact accounted.recordOutcome id outcome

end Pool

end Matchmaker
end KernelFlow
