import Mathlib
import KernelFlow.Core.Canonical

namespace KernelFlow

/-!
# Errors, events and node calls

The vocabulary shared by every crate: the error type with its display texts,
the domain events that a scheduler emits, and the input and output of one node
call.  Durations are counted in nanoseconds.
-/

abbrev NodeId := String
abbrev WorkflowId := BitVec 128

/-- A span of time in nanoseconds. -/
abbrev Duration := Nat

/-- A reading of the monotonic clock in nanoseconds. -/
abbrev Instant := Nat

/-- `Debug` for a duration: the largest unit that leaves a nonzero integer
part, with the decimals of that unit and no trailing zeros. -/
def Duration.debug (duration : Duration) : String :=
  let render (unit width : Nat) (suffix : String) : String :=
    let decimals := (Nat.toDigits 10 (unit + duration % unit)).drop 1
    let fraction := (decimals.take width).reverse.dropWhile (· == '0') |>.reverse
    toString (duration / unit) ++
      (if fraction.isEmpty then "" else "." ++ String.ofList fraction) ++ suffix
  if 1000000000 ≤ duration then render 1000000000 9 "s"
  else if 1000000 ≤ duration then render 1000000 6 "ms"
  else if 1000 ≤ duration then render 1000 3 "µs"
  else render 1 0 "ns"

/-- The canonical error type. -/
inductive KernelError
  | workflowNotFound (id : String)
  | nodeNotFound (id : String)
  | cycleDetected
  | timeout (after : Duration)
  | sandbox (message : String)
  | storage (message : String)
  | network (message : String)
  | rateLimited
  | circuitOpen
  | attestation (message : String)
  | invalidInput (message : String)
  | serde (message : String)
  | other (message : String)
  deriving DecidableEq

/-- The display text of an error. -/
def KernelError.display : KernelError -> String
  | .workflowNotFound id => "workflow `" ++ id ++ "` not found"
  | .nodeNotFound id => "node `" ++ id ++ "` not found"
  | .cycleDetected => "cycle detected in workflow DAG"
  | .timeout after => "node execution timed out after " ++ after.debug
  | .sandbox message => "sandbox error: " ++ message
  | .storage message => "storage error: " ++ message
  | .network message => "network error: " ++ message
  | .rateLimited => "rate limited"
  | .circuitOpen => "circuit open"
  | .attestation message => "attestation error: " ++ message
  | .invalidInput message => "invalid input: " ++ message
  | .serde message => "serialization error: " ++ message
  | .other message => message

/-- The result of a fallible operation. -/
abbrev KernelResult (α : Type) := Except KernelError α

/-- How a node call ended. -/
inductive NodeOutcome
  | success (outputHash : String) (gasUsed : UInt64)
  | failure (error : String)
  | skipped (reason : String)
  deriving DecidableEq

/-- Domain events. -/
inductive KernelEvent
  | workflowStarted (workflowId : WorkflowId) (name : String)
  | nodeStarted (workflowId : WorkflowId) (nodeId : NodeId) (attempt : UInt32)
  | nodeCompleted (workflowId : WorkflowId) (nodeId : NodeId) (outcome : NodeOutcome)
  | workflowCompleted (workflowId : WorkflowId) (attestationHash : String)
  | workflowFailed (workflowId : WorkflowId) (reason : String)
  deriving DecidableEq

/-- The workflow that an event belongs to. -/
def KernelEvent.workflowId : KernelEvent -> WorkflowId
  | .workflowStarted workflowId _ => workflowId
  | .nodeStarted workflowId _ _ => workflowId
  | .nodeCompleted workflowId _ _ => workflowId
  | .workflowCompleted workflowId _ => workflowId
  | .workflowFailed workflowId _ => workflowId

/-- What a node receives.  `parents` holds the parent outputs by parent id. -/
structure NodeInput where
  workflowId : WorkflowId
  nodeId : NodeId
  payload : Value
  parents : BTreeMap NodeId Value

/-- What a node returns on success. -/
structure NodeOutput where
  value : Value
  gasUsed : UInt64

end KernelFlow
