import Mathlib
import KernelFlow.Core.Capability
import KernelFlow.Core.Event

namespace KernelFlow
namespace Nodes

/-!
# Node kinds and their wiring

Every kind of the node library has a descriptor with the shape of what it
consumes and of what it produces.  `validateEdge` compares the output shape of
a producer with the input shape of a consumer before anything is executed.
`Json` is compatible with every shape in both directions, so that the check is
gradual.
-/

/-- Shapes of values. -/
inductive TypeSig
  | number
  | string
  | bytes
  | boolean
  | json
  | array (item : TypeSig)
  | object
  deriving DecidableEq

/-- The derived `Debug` text. -/
def TypeSig.debug : TypeSig -> String
  | .number => "Number"
  | .string => "String"
  | .bytes => "Bytes"
  | .boolean => "Boolean"
  | .json => "Json"
  | .array item => "Array(" ++ item.debug ++ ")"
  | .object => "Object"

/-- The documents of a shape.  Bytes travel as arrays of small integers. -/
def TypeSig.Admits : TypeSig -> Json -> Prop
  | .number, document => ∃ value, document = .number value
  | .string, document => ∃ value, document = .string value
  | .bytes, document => ∃ items, document = .array items ∧
      forall item, item ∈ items -> ∃ value : UInt64, item = .number (.posInt value) ∧ value < 256
  | .boolean, document => ∃ value, document = .bool value
  | .json, _ => True
  | .array shape, document => ∃ items, document = .array items ∧
      forall item, item ∈ items -> shape.Admits item
  | .object, document => ∃ members, document = .object members

structure NodeDescriptor where
  kind : String
  input : TypeSig
  output : TypeSig
  requirements : ResourceRequirements

/-- The descriptors by kind. -/
structure NodeRegistry where
  descriptors : BTreeMap String NodeDescriptor

/-- `Json` is the universal "any". -/
def assignable («from» «to» : TypeSig) : Bool :=
  match «from», «to» with
  | .json, _ => true
  | _, .json => true
  | _, _ => «from» == «to»

namespace NodeRegistry

def new : NodeRegistry where
  descriptors := ∅

def register (registry : NodeRegistry) (desc : NodeDescriptor) : NodeRegistry where
  descriptors := registry.descriptors.insert desc.kind desc

def describe (registry : NodeRegistry) (kind : String) : Option NodeDescriptor :=
  registry.descriptors[kind]?

def validateEdge (registry : NodeRegistry) (producerKind consumerKind : String) :
    KernelResult Unit :=
  match registry.describe producerKind with
  | none => .error (.nodeNotFound producerKind)
  | some p =>
      match registry.describe consumerKind with
      | none => .error (.nodeNotFound consumerKind)
      | some c =>
          if !assignable p.output c.input then
            .error (.invalidInput ("type mismatch: " ++ producerKind ++ ": " ++ p.output.debug ++
              " → " ++ consumerKind ++ ": " ++ c.input.debug))
          else .ok ()

/-- An edge passes exactly when both kinds are known and the shapes fit. -/
theorem validateEdge_ok_iff (registry : NodeRegistry) (producerKind consumerKind : String) :
    registry.validateEdge producerKind consumerKind = .ok () ↔
      ∃ p c, registry.describe producerKind = some p ∧ registry.describe consumerKind = some c ∧
        assignable p.output c.input = true := by
  unfold validateEdge
  cases registry.describe producerKind with
  | none => simp
  | some p =>
      cases registry.describe consumerKind with
      | none => simp
      | some c => cases fits : assignable p.output c.input <;> simp [fits]

end NodeRegistry

/-- No resources and no capabilities. -/
def noRequirements : ResourceRequirements where
  cpuCores := 0
  ramMb := 0
  gpuVramMb := 0
  capabilities := []

/-! ## The standard library -/

def constantDescriptor : NodeDescriptor where
  kind := "constant"
  input := .json
  output := .json
  requirements := noRequirements

def sha256Descriptor : NodeDescriptor where
  kind := "sha256"
  input := .json
  output := .string
  requirements := noRequirements

def httpFetchDescriptor : NodeDescriptor where
  kind := "http_fetch"
  input := .json
  output := .json
  requirements := { noRequirements with capabilities := [.httpEgress] }

def medianDescriptor : NodeDescriptor where
  kind := "median"
  input := .number
  output := .number
  requirements := noRequirements

def thresholdDescriptor : NodeDescriptor where
  kind := "threshold"
  input := .number
  output := .object
  requirements := noRequirements

/-- Pre-loaded with the standard library. -/
def NodeRegistry.withStdlib : NodeRegistry :=
  ((((new.register constantDescriptor).register sha256Descriptor).register
    httpFetchDescriptor).register medianDescriptor).register thresholdDescriptor

end Nodes
end KernelFlow
