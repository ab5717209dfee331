import Mathlib
import KernelFlow.Library.OrderedMap
import KernelFlow.Core.Capability
import KernelFlow.Core.Event

namespace KernelFlow
namespace Matchmaker

/-!
# Operators and their registry

An operator carries its capacity and what is in flight on it.  The registry is
behind a lock, so each of its methods is one atomic step on the map.  Additions
on `u32` wrap here as they do in a release build; that no addition of a
successful reservation wraps is the lemma `Operator.fits_of_canTake`.

Reputations are rational numbers.
-/

abbrev OperatorId := String

/-- `u32::saturating_sub`. -/
def saturatingSub (left right : UInt32) : UInt32 :=
  if right ≤ left then left - right else 0

theorem saturatingSub_toNat (left right : UInt32) :
    (saturatingSub left right).toNat = left.toNat - right.toNat := by
  unfold saturatingSub
  split_ifs with below
  · exact UInt32.toNat_sub_of_le left right below
  · rw [UInt32.le_iff_toNat_le, Nat.not_le] at below
    exact (Nat.sub_eq_zero_of_le below.le).symm

structure Operator where
  id : OperatorId
  total : ResourceCapacity
  inFlight : ResourceCapacity
  reputation : ℚ

namespace Operator

def new (id : OperatorId) (total : ResourceCapacity) : Operator where
  id := id
  inFlight := { cpuCores := 0, ramMb := 0, gpuVramMb := 0, capabilities := total.capabilities }
  total := total
  reputation := 1 / 2

def free (op : Operator) : ResourceCapacity where
  cpuCores := saturatingSub op.total.cpuCores op.inFlight.cpuCores
  ramMb := saturatingSub op.total.ramMb op.inFlight.ramMb
  gpuVramMb := saturatingSub op.total.gpuVramMb op.inFlight.gpuVramMb
  capabilities := op.total.capabilities

def canTake (op : Operator) (req : ResourceRequirements) : Bool :=
  op.free.satisfies req

/-- The additions of a successful reservation. -/
def commit (op : Operator) (req : ResourceRequirements) : Operator :=
  { op with
    inFlight :=
      { op.inFlight with
        cpuCores := op.inFlight.cpuCores + req.cpuCores
        ramMb := op.inFlight.ramMb + req.ramMb
        gpuVramMb := op.inFlight.gpuVramMb + req.gpuVramMb } }

/-- The subtractions of a release. -/
def giveBack (op : Operator) (req : ResourceRequirements) : Operator :=
  { op with
    inFlight :=
      { op.inFlight with
        cpuCores := saturatingSub op.inFlight.cpuCores req.cpuCores
        ramMb := saturatingSub op.inFlight.ramMb req.ramMb
        gpuVramMb := saturatingSub op.inFlight.gpuVramMb req.gpuVramMb } }

end Operator

inductive DelegationOutcome
  | success
  | failure (error : String)
  | timeout
  | operatorDisconnect

/-- The score of one outcome. -/
def DelegationOutcome.sample : DelegationOutcome -> ℚ
  | .success => 1
  | .failure _ => 0
  | .timeout => 0
  | .operatorDisconnect => 0

/-- The weight of the latest outcome. -/
def alpha : ℚ := 1 / 5

def Operator.rate (op : Operator) (outcome : DelegationOutcome) : Operator :=
  { op with reputation := alpha * outcome.sample + (1 - alpha) * op.reputation }

structure OperatorRegistry where
  inner : BTreeMap OperatorId Operator

namespace OperatorRegistry

def new : OperatorRegistry where
  inner := ∅

def register (registry : OperatorRegistry) (op : Operator) : OperatorRegistry where
  inner := registry.inner.insert op.id op

def deregister (registry : OperatorRegistry) (id : OperatorId) :
    Option Operator × OperatorRegistry :=
  (registry.inner[id]?, ⟨registry.inner.erase id⟩)

/-- The operators in key order.  The source iterates a hash map, so a caller
sees them in some other order. -/
def snapshot (registry : OperatorRegistry) : List Operator :=
  registry.inner.values

def reserve (registry : OperatorRegistry) (id : OperatorId) (req : ResourceRequirements) :
    KernelResult Unit × OperatorRegistry :=
  match registry.inner[id]? with
  | none => (.error (.nodeNotFound id), registry)
  | some op =>
      if !op.canTake req then (.error .rateLimited, registry)
      else (.ok (), ⟨registry.inner.insert id (op.commit req)⟩)

def release (registry : OperatorRegistry) (id : OperatorId) (req : ResourceRequirements) :
    OperatorRegistry :=
  match registry.inner[id]? with
  | none => registry
  | some op => ⟨registry.inner.insert id (op.giveBack req)⟩

def recordOutcome (registry : OperatorRegistry) (id : OperatorId) (outcome : DelegationOutcome) :
    OperatorRegistry :=
  match registry.inner[id]? with
  | none => registry
  | some op => ⟨registry.inner.insert id (op.rate outcome)⟩

end OperatorRegistry

/-! ## Amounts of an operator -/

namespace Operator

variable {op : Operator} {req : ResourceRequirements}

@[simp]
theorem new_inFlight_amounts (id : OperatorId) (total : ResourceCapacity) :
    (new id total).inFlight.amounts = 0 := by
  funext dimension
  cases dimension <;> rfl

theorem free_amounts (op : Operator) : op.free.amounts = op.total.amounts - op.inFlight.amounts := by
  funext dimension
  cases dimension <;> exact saturatingSub_toNat _ _

theorem giveBack_amounts (op : Operator) (req : ResourceRequirements) :
    (op.giveBack req).inFlight.amounts = op.inFlight.amounts - req.amounts := by
  funext dimension
  cases dimension <;> exact saturatingSub_toNat _ _

/-- The resource filter and the capability filter. -/
theorem canTake_iff (op : Operator) (req : ResourceRequirements) :
    op.canTake req = true ↔
      req.amounts ≤ op.total.amounts - op.inFlight.amounts ∧
        forall capability, capability ∈ req.capabilities ->
          capability ∈ op.total.capabilities := by
  unfold canTake
  rw [ResourceCapacity.satisfies_iff, free_amounts]
  rfl

/-- The check of `canTake` rules out an overflow, also for an operator whose
resources in flight exceed its capacity. -/
theorem fits_of_canTake (can : op.canTake req = true) (dimension : Dimension) :
    op.inFlight.amounts dimension + req.amounts dimension < 2 ^ 32 := by
  have covered : req.amounts dimension ≤
      op.total.amounts dimension - op.inFlight.amounts dimension :=
    ((canTake_iff op req).mp can).1 dimension
  have totalFits := op.total.amounts_lt dimension
  have inFlightFits := op.inFlight.amounts_lt dimension
  omega

theorem commit_amounts (can : op.canTake req = true) :
    (op.commit req).inFlight.amounts = req.amounts + op.inFlight.amounts := by
  have exact_ : forall (left right : UInt32), left.toNat + right.toNat < 2 ^ 32 ->
      (left + right).toNat = right.toNat + left.toNat := by
    intro left right fits
    rw [UInt32.toNat_add, Nat.mod_eq_of_lt fits, Nat.add_comm]
  funext dimension
  have fits := fits_of_canTake can dimension
  cases dimension <;> exact exact_ _ _ fits

end Operator

/-! ## Effects of the registry operations -/

namespace OperatorRegistry

variable {registry : OperatorRegistry} {id : OperatorId} {req : ResourceRequirements}

theorem reserve_of_canTake {op : Operator} (found : registry.inner[id]? = some op)
    (can : op.canTake req = true) :
    registry.reserve id req = (.ok (), ⟨registry.inner.insert id (op.commit req)⟩) := by
  unfold reserve
  rw [found]
  simp only [can, Bool.not_true, Bool.false_eq_true, if_false]

theorem reserve_eq_ok_iff :
    (registry.reserve id req).1 = .ok () ↔
      ∃ op, registry.inner[id]? = some op ∧ op.canTake req = true := by
  constructor
  · intro succeeded
    cases found : registry.inner[id]? with
    | none =>
        rw [reserve, found] at succeeded
        cases succeeded
    | some op =>
        refine ⟨op, rfl, ?_⟩
        by_contra cannot
        rw [Bool.not_eq_true] at cannot
        simp only [reserve, found, cannot, Bool.not_false, if_true] at succeeded
        cases succeeded
  · rintro ⟨op, found, can⟩
    rw [reserve_of_canTake found can]

/-- The two outcomes of a reservation, with the registry they leave. -/
theorem reserve_cases (registry : OperatorRegistry) (id : OperatorId)
    (req : ResourceRequirements) :
    (∃ op, registry.inner[id]? = some op ∧ op.canTake req = true ∧
        registry.reserve id req = (.ok (), ⟨registry.inner.insert id (op.commit req)⟩)) ∨
      ∃ error, registry.reserve id req = (.error error, registry) := by
  cases found : registry.inner[id]? with
  | none =>
      refine Or.inr ⟨.nodeNotFound id, ?_⟩
      rw [reserve, found]
  | some op =>
      cases can : op.canTake req with
      | true => exact Or.inl ⟨op, rfl, can, reserve_of_canTake found can⟩
      | false =>
          refine Or.inr ⟨.rateLimited, ?_⟩
          simp only [reserve, found, can, Bool.not_false, if_true]

theorem release_of_found {op : Operator} (found : registry.inner[id]? = some op) :
    registry.release id req = ⟨registry.inner.insert id (op.giveBack req)⟩ := by
  rw [release, found]

theorem release_of_absent (absent : registry.inner[id]? = none) :
    registry.release id req = registry := by
  rw [release, absent]

theorem recordOutcome_of_found {op : Operator} {outcome : DelegationOutcome}
    (found : registry.inner[id]? = some op) :
    registry.recordOutcome id outcome = ⟨registry.inner.insert id (op.rate outcome)⟩ := by
  rw [recordOutcome, found]

theorem recordOutcome_of_absent {outcome : DelegationOutcome}
    (absent : registry.inner[id]? = none) : registry.recordOutcome id outcome = registry := by
  rw [recordOutcome, absent]

/-! ## What an operation changes -/

/-- The registry after an operation that changes at most the entry of one listed
operator, and not its id. -/
inductive Updated (registry : OperatorRegistry) (id : OperatorId) : OperatorRegistry -> Prop
  | unchanged : Updated registry id registry
  | changed (op next : Operator) (found : registry.inner[id]? = some op) (kept : next.id = op.id) :
      Updated registry id ⟨registry.inner.insert id next⟩

theorem updated_reserve (registry : OperatorRegistry) (id : OperatorId)
    (req : ResourceRequirements) : registry.Updated id (registry.reserve id req).2 := by
  rcases registry.reserve_cases id req with ⟨op, found, _can, reserved⟩ | ⟨error, refused⟩
  · rw [reserved]
    exact .changed op _ found rfl
  · rw [refused]
    exact .unchanged

theorem updated_release (registry : OperatorRegistry) (id : OperatorId)
    (req : ResourceRequirements) : registry.Updated id (registry.release id req) := by
  cases found : registry.inner[id]? with
  | none =>
      rw [release_of_absent found]
      exact .unchanged
  | some op =>
      rw [release_of_found found]
      exact .changed op _ found rfl

theorem updated_recordOutcome (registry : OperatorRegistry) (id : OperatorId)
    (outcome : DelegationOutcome) : registry.Updated id (registry.recordOutcome id outcome) := by
  cases found : registry.inner[id]? with
  | none =>
      rw [recordOutcome_of_absent found]
      exact .unchanged
  | some op =>
      rw [recordOutcome_of_found found]
      exact .changed op _ found rfl

section Frames

variable {after : OperatorRegistry} {other : OperatorId}

/-- The other operators stay as they are. -/
theorem Updated.frame (updated : registry.Updated id after) (differs : id ≠ other) :
    after.inner[other]? = registry.inner[other]? := by
  cases updated with
  | unchanged => rfl
  | changed op next found kept => rw [OrderedMap.getElem?_insert_eq, if_neg differs]

/-- The same operators are listed. -/
theorem Updated.absent_iff (updated : registry.Updated id after) :
    after.inner[other]? = none ↔ registry.inner[other]? = none := by
  cases updated with
  | unchanged => rfl
  | changed op next found kept =>
      rw [OrderedMap.getElem?_insert_eq]
      split_ifs with same
      · subst same
        simp [found]
      · rfl

theorem register_frame (registry : OperatorRegistry) {op : Operator} (differs : op.id ≠ other) :
    (registry.register op).inner[other]? = registry.inner[other]? := by
  rw [register, OrderedMap.getElem?_insert_eq, if_neg differs]

theorem deregister_frame (registry : OperatorRegistry) (differs : id ≠ other) :
    (registry.deregister id).2.inner[other]? = registry.inner[other]? := by
  change (registry.inner.erase id)[other]? = _
  rw [OrderedMap.getElem?_erase_eq, if_neg differs]

end Frames

/-! ## Keys -/

/-- Every operator is registered under its own id. -/
def Keyed (registry : OperatorRegistry) : Prop :=
  forall (id : OperatorId) (op : Operator), registry.inner[id]? = some op -> op.id = id

theorem Keyed.new : new.Keyed := by
  intro id op found
  rw [OperatorRegistry.new, Std.ExtTreeMap.getElem?_empty] at found
  cases found

private theorem Keyed.insert (keyed : registry.Keyed) {op : Operator} (same : op.id = id) :
    Keyed ⟨registry.inner.insert id op⟩ := by
  intro other found present
  rw [OrderedMap.getElem?_insert_eq] at present
  split_ifs at present with here
  · rw [← here, ← same, Option.some.inj present]
  · exact keyed other found present

theorem Keyed.register (keyed : registry.Keyed) (op : Operator) : (registry.register op).Keyed :=
  keyed.insert rfl

theorem Keyed.deregister (keyed : registry.Keyed) (id : OperatorId) :
    (registry.deregister id).2.Keyed := by
  intro other op present
  change (registry.inner.erase id)[other]? = some op at present
  rw [OrderedMap.getElem?_erase_eq] at present
  split_ifs at present
  exact keyed other op present

theorem Updated.keyed {after : OperatorRegistry} (updated : registry.Updated id after)
    (keyed : registry.Keyed) : after.Keyed := by
  cases updated with
  | unchanged => exact keyed
  | changed op next found kept => exact keyed.insert (kept.trans (keyed id op found))

end OperatorRegistry

end Matchmaker
end KernelFlow
