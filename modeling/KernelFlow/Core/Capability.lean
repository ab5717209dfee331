import Mathlib

namespace KernelFlow

/-!
# Capabilities and resources

What a workflow asks of an operator and what an operator offers.  The three
counted resources are also read as one vector of natural numbers, so that a
request fits exactly when its vector lies below the vector of the capacity.
-/

inductive Capability
  | genericCpu
  | wasmHost
  | httpEgress
  | onchainRpc
  | gpuProver (vramMb : UInt32)
  | custom (tag : String)
  deriving DecidableEq

structure ResourceRequirements where
  cpuCores : UInt32
  ramMb : UInt32
  gpuVramMb : UInt32
  capabilities : List Capability
  deriving DecidableEq

structure ResourceCapacity where
  cpuCores : UInt32
  ramMb : UInt32
  gpuVramMb : UInt32
  capabilities : List Capability
  deriving DecidableEq

/-- Does this capacity satisfy the requested requirements? -/
def ResourceCapacity.satisfies (capacity : ResourceCapacity) (req : ResourceRequirements) : Bool :=
  if capacity.cpuCores < req.cpuCores then false
  else if capacity.ramMb < req.ramMb then false
  else if capacity.gpuVramMb < req.gpuVramMb then false
  else req.capabilities.all fun capability => capacity.capabilities.contains capability

/-- A reservation of a client: the operator and what has been reserved there. -/
structure Reservation where
  opId : String
  req : ResourceRequirements
  deriving DecidableEq

/-! ## Amounts -/

/-- The counted resources. -/
inductive Dimension
  | cpuCores
  | ramMb
  | gpuVramMb
  deriving DecidableEq

/-- A quantity of every counted resource, ordered and added pointwise. -/
abbrev Amounts := Dimension -> Nat

def ResourceRequirements.amounts (req : ResourceRequirements) : Amounts
  | .cpuCores => req.cpuCores.toNat
  | .ramMb => req.ramMb.toNat
  | .gpuVramMb => req.gpuVramMb.toNat

def ResourceCapacity.amounts (capacity : ResourceCapacity) : Amounts
  | .cpuCores => capacity.cpuCores.toNat
  | .ramMb => capacity.ramMb.toNat
  | .gpuVramMb => capacity.gpuVramMb.toNat

theorem ResourceCapacity.amounts_lt (capacity : ResourceCapacity) (dimension : Dimension) :
    capacity.amounts dimension < 2 ^ 32 := by
  cases dimension
  · exact capacity.cpuCores.toNat_lt
  · exact capacity.ramMb.toNat_lt
  · exact capacity.gpuVramMb.toNat_lt

/-- The checks of `satisfies`, in any order: the amounts are covered and every
requested capability is declared. -/
theorem ResourceCapacity.satisfies_iff (capacity : ResourceCapacity) (req : ResourceRequirements) :
    capacity.satisfies req = true ↔
      req.amounts ≤ capacity.amounts ∧
        forall capability, capability ∈ req.capabilities -> capability ∈ capacity.capabilities := by
  have covered : req.amounts ≤ capacity.amounts ↔
      ¬ capacity.cpuCores < req.cpuCores ∧ ¬ capacity.ramMb < req.ramMb ∧
        ¬ capacity.gpuVramMb < req.gpuVramMb := by
    simp only [UInt32.not_lt, UInt32.le_iff_toNat_le]
    constructor
    · exact fun below => ⟨below .cpuCores, below .ramMb, below .gpuVramMb⟩
    · rintro ⟨cpuCores, ramMb, gpuVramMb⟩ dimension
      cases dimension
      · exact cpuCores
      · exact ramMb
      · exact gpuVramMb
  rw [covered]
  unfold satisfies
  split_ifs with cpuCores ramMb gpuVramMb
  · simp [cpuCores]
  · simp [ramMb]
  · simp [gpuVramMb]
  · simp [cpuCores, ramMb, gpuVramMb, List.all_eq_true]

end KernelFlow
