import Mathlib
import KernelFlow.Nodes.Oracle

namespace KernelFlow

/-!
# Sandboxed nodes and gas

A WASM node runs a module with a limited amount of fuel and reports the fuel that
was used as gas.  The runtime is a parameter: it may trap at every step and use
any amount of fuel.

The scheduler passes a null payload, and a WASM node looks at nothing else.  What
it computes in a workflow is therefore settled by its module and its fuel.
-/

/-! ## Integers in documents -/

/-- `Number::as_i64`: floats are no integers. -/
def Number.asI64 : Number -> Option Int64
  | .posInt value => if value ≤ 9223372036854775807 then some value.toInt64 else none
  | .negInt value => some value.val
  | .float _ => none
  | .negZero => none

def Json.asI64 : Json -> Option Int64
  | .number value => value.asI64
  | _ => none

/-- A number from an `i32`. -/
def Number.ofI32 (value : Int32) : Number :=
  if negative : value.toInt64 < 0 then .negInt ⟨value.toInt64, negative⟩
  else .posInt value.toInt64.toUInt64

namespace Nodes

open Transition Scheduler Resilience

/-! ## The runtime -/

/-- The runtime as a WASM node uses it.  A store holds the fuel that is left. -/
structure WasmRuntime (M : Type) where
  Store : Type
  /-- a new store with an amount of fuel -/
  setFuel : UInt64 -> Except String Store
  /-- instantiating a module, which may run its start function -/
  instantiate : M -> Store -> Except String Store
  /-- whether the instance has a function `add` from two integers to one -/
  exportsAdd : Store -> Bool
  callAdd : Int32 -> Int32 -> Store -> Except String (Int32 × Store)
  getFuel : Store -> Except String UInt64

/-- `u64::saturating_sub`. -/
def saturatingSub (left right : UInt64) : UInt64 :=
  if right ≤ left then left - right else 0

theorem saturatingSub_le (left right : UInt64) : saturatingSub left right ≤ left := by
  unfold saturatingSub
  split
  · next below =>
      rw [UInt64.le_iff_toNat_le, UInt64.toNat_sub_of_le _ _ below]
      exact Nat.sub_le _ _
  · exact UInt64.zero_le

/-! ## WASM nodes -/

structure WasmNode (M : Type) where
  module : M
  fuel : UInt64

namespace WasmNode

/-- An argument of `add`: a member of the payload, cut off to 32 bits. -/
def argument (payload : Value) (name : String) : Int32 :=
  (((payload.json.child (.member name)).bind Json.asI64).getD 0).toInt32

/-- The object with the member `result`. -/
def report (result : Int32) : Value :=
  ⟨.object [("result", .number (Number.ofI32 result))], by
    simp [Json.Distinct, Json.DistinctMembers]⟩

/-- Calls `add` if the module has it and echoes the payload otherwise. -/
def execute {M : Type} (runtime : WasmRuntime M) (node : WasmNode M) (input : NodeInput) :
    KernelResult NodeOutput :=
  match runtime.setFuel node.fuel with
  | .error message => .error (.sandbox message)
  | .ok store =>
      match runtime.instantiate node.module store with
      | .error message => .error (.sandbox message)
      | .ok store =>
          if runtime.exportsAdd store then
            match runtime.callAdd (argument input.payload "a") (argument input.payload "b") store with
            | .error message => .error (.sandbox message)
            | .ok (result, store) =>
                .ok ⟨report result,
                  saturatingSub node.fuel ((runtime.getFuel store).toOption.getD 0)⟩
          else
            .ok ⟨input.payload,
              saturatingSub node.fuel ((runtime.getFuel store).toOption.getD node.fuel)⟩

variable {M : Type} {runtime : WasmRuntime M} {node : WasmNode M} {input : NodeInput}

theorem gas_le_fuel {output : NodeOutput} (executed : node.execute runtime input = .ok output) :
    output.gasUsed ≤ node.fuel := by
  unfold execute at executed
  split at executed
  · cases executed
  · split at executed
    · cases executed
    · split at executed
      · split at executed
        · cases executed
        · cases executed
          exact saturatingSub_le _ _
      · cases executed
        exact saturatingSub_le _ _

/-- Only the payload matters. -/
theorem execute_congr {other : NodeInput} (payload : input.payload = other.payload) :
    node.execute runtime input = node.execute runtime other := by
  unfold execute
  rw [payload]

end WasmNode

/-! ## Gas of the library -/

namespace StdNode

/-- The gas of a successful execution. -/
def gas : StdNode -> UInt64
  | .constant _ => 1
  | .sha256 => 5
  | .httpFetch _ => 50
  | .median => 3
  | .threshold _ => 1

theorem gas_of_execute {ops : FloatOps} {backend : HashBackend} {client : HttpClient}
    {node : StdNode} {input : NodeInput} {output : NodeOutput}
    (executed : node.executeWith ops backend client input = .ok output) :
    output.gasUsed = node.gas := by
  cases node with
  | constant node =>
      cases executed
      rfl
  | sha256 =>
      cases executed
      rfl
  | httpFetch node =>
      change (node.execute client input).2 = .ok output at executed
      unfold HttpFetchNode.execute at executed
      split at executed
      · cases executed
      · split at executed
        · cases executed
        · dsimp only at executed
          split at executed
          · cases executed
          · cases executed
            rfl
  | median =>
      change MedianNode.executeWith ops input = .ok output at executed
      rw [MedianNode.executeWith_eq] at executed
      split at executed
      · cases executed
      · cases executed
        rfl
  | threshold node =>
      change node.executeWith ops input = .ok output at executed
      unfold ThresholdNode.executeWith at executed
      split at executed
      · cases executed
      · cases executed
        rfl

end StdNode

/-! ## Workflows with both kinds of nodes -/

inductive HostNode (M : Type)
  | library (node : StdNode)
  | wasm (node : WasmNode M)

namespace HostNode

variable {M : Type}

def execute (ops : FloatOps) (backend : HashBackend) (client : HttpClient)
    (runtime : WasmRuntime M) (node : HostNode M) (input : NodeInput) : KernelResult NodeOutput :=
  match node with
  | .library node => node.executeWith ops backend client input
  | .wasm node => node.execute runtime input

/-- What a success may cost. -/
def budget : HostNode M -> UInt64
  | .library node => node.gas
  | .wasm node => node.fuel

theorem gas_le_budget {ops : FloatOps} {backend : HashBackend} {client : HttpClient}
    {runtime : WasmRuntime M} {node : HostNode M} {input : NodeInput} {output : NodeOutput}
    (executed : node.execute ops backend client runtime input = .ok output) :
    output.gasUsed ≤ node.budget := by
  cases node with
  | library node => exact UInt64.le_of_eq (StdNode.gas_of_execute executed)
  | wasm node => exact WasmNode.gas_le_fuel executed

/-- No node looks at the workflow id. -/
theorem execute_workflowId {ops : FloatOps} {backend : HashBackend} {client : HttpClient}
    {runtime : WasmRuntime M} (node : HostNode M) (first second : WorkflowId) (id : NodeId)
    (payload : Value) (parents : BTreeMap NodeId Value) :
    node.execute ops backend client runtime ⟨first, id, payload, parents⟩ =
      node.execute ops backend client runtime ⟨second, id, payload, parents⟩ := by
  cases node with
  | library node =>
      cases node with
      | constant node => rfl
      | sha256 => rfl
      | httpFetch node => rfl
      | median => rfl
      | threshold node => rfl
  | wasm node => rfl

end HostNode

variable {M : Type} {dag : Dag (HostNode M)} {ops : FloatOps} {backend : HashBackend}
  {runtime : WasmRuntime M}

/-- A successful attempt of a call without payload is an execution of its node.
The network may answer every attempt differently, and attempts may fail at any
time. -/
def HostAttempts (dag : Dag (HostNode M)) (ops : FloatOps) (backend : HashBackend)
    (runtime : WasmRuntime M) (attempts : NodeInput -> UInt32 -> KernelResult NodeOutput -> Prop) :
    Prop :=
  forall input count output, input.payload = Value.null -> attempts input count (.ok output) ->
    ∃ node client, dag.nodes[input.nodeId]? = some node ∧
      node.execute ops backend client runtime input = .ok output

/-- The nodes of a graph with a network that always answers alike. -/
def hostSemantics (dag : Dag (HostNode M)) (ops : FloatOps) (backend : HashBackend)
    (client : HttpClient) (runtime : WasmRuntime M) : NodeSemantics :=
  fun id parents => match dag.nodes[id]? with
    | none => .error (.nodeNotFound id)
    | some node => node.execute ops backend client runtime ⟨dag.id, id, Value.null, parents⟩

theorem hostAttempts_attemptsOf (client : HttpClient) :
    HostAttempts dag ops backend runtime
      (attemptsOf (hostSemantics dag ops backend client runtime)) := by
  rintro ⟨workflowId, id, payload, parents⟩ count output isNull attempted
  change Except.ok output = hostSemantics dag ops backend client runtime id parents at attempted
  dsimp only at isNull
  subst isNull
  unfold hostSemantics at attempted
  split at attempted
  · cases attempted
  · next node found =>
      refine ⟨node, client, found, ?_⟩
      rw [node.execute_workflowId workflowId dag.id]
      exact attempted.symm

/-! ## Gas of a run -/

def outcomeGas : NodeOutcome -> Nat
  | .success _ gas => gas.toNat
  | .failure _ => 0
  | .skipped _ => 0

/-- The sum of the gas in the completions of a log. -/
def announcedGas (events : List KernelEvent) : Nat :=
  ((completions events).map fun entry => outcomeGas entry.2).sum

def budgetAt (dag : Dag (HostNode M)) (id : NodeId) : Nat :=
  (dag.nodes[id]?.map fun node => node.budget.toNat).getD 0

def totalBudget (dag : Dag (HostNode M)) : Nat :=
  (dag.nodes.keys.map (budgetAt dag)).sum

/-- Announcements of different declared nodes that stay within their budgets stay
within the total one. -/
theorem announcedGas_le {events : List KernelEvent}
    (nodup : ((completions events).map Prod.fst).Nodup)
    (declared : forall entry, entry ∈ completions events -> entry.1 ∈ dag.nodes)
    (within : forall entry, entry ∈ completions events ->
      outcomeGas entry.2 ≤ budgetAt dag entry.1) : announcedGas events ≤ totalBudget dag := by
  have each : announcedGas events ≤
      (((completions events).map Prod.fst).map (budgetAt dag)).sum := by
    rw [announcedGas, List.map_map]
    exact List.sum_le_sum within
  have listed : (completions events).map Prod.fst ⊆ dag.nodes.keys := by
    intro id member
    rcases List.mem_map.mp member with ⟨entry, inside, rfl⟩
    exact Std.ExtTreeMap.mem_keys.mpr (declared entry inside)
  rcases nodup.subperm listed with ⟨ids, permuted, sublist⟩
  have sums := (permuted.map (budgetAt dag)).sum_eq
  have bounded := (sublist.map (budgetAt dag)).sum_le_sum fun budget _member => Nat.zero_le budget
  exact each.trans (sums ▸ bounded)

/-- Gas is metered in every run of the stack, whatever the network, the failures
and the retries.  A completed node has announced at most its budget: the fixed
price of a library node or the fuel of a WASM node.  Retries announce nothing
twice, so the log as a whole never announces more than the budgets of all nodes.
The outcome of a WASM node is that of its module on a null payload, the same
whatever its parents deliver. -/
theorem announced_gas_metered (accepted : dag.Accepted) (ops : FloatOps) (backend : HashBackend)
    (runtime : WasmRuntime M) (config : ResilienceConfig) (governor : Governor)
    (timer : Timer) (now : Instant)
    (attempts : NodeInput -> UInt32 -> KernelResult NodeOutput -> Prop)
    (hosts : HostAttempts dag ops backend runtime attempts) (state : TimedState governor)
    (run : Reaches (TimedStep dag backend config governor timer attempts)
      (.start dag config governor now) state) :
    (forall id outcome, (id, outcome) ∈ completions state.run.events ->
      ∃ node, dag.nodes[id]? = some node ∧ outcomeGas outcome ≤ node.budget.toNat) ∧
    announcedGas state.run.events ≤ totalBudget dag ∧
    forall (id : NodeId) (node : WasmNode M) outcome, dag.nodes[id]? = some (.wasm node) ->
      (id, outcome) ∈ completions state.run.events ->
      ∃ output, outcome = .success (hashJson backend output.value) output.gasUsed ∧
        forall input : NodeInput, input.payload = Value.null ->
          node.execute runtime input = .ok output := by
  have wellFormed := accepted.wellFormed
  have log := Log.reachable wellFormed (reaches_of_stack wellFormed run)
  have executed : forall id outcome, (id, outcome) ∈ completions state.run.events ->
      ∃ (node : HostNode M) (client : HttpClient) (output : NodeOutput),
        dag.nodes[id]? = some node ∧
          node.execute ops backend client runtime (nodeInput dag state.run.outputs id) =
            .ok output ∧
          outcome = .success (hashJson backend output.value) output.gasUsed := by
    intro id outcome member
    rcases log.answered id outcome member with ⟨output, _stored, reply, described⟩
    rcases reply.attempt_of_ok with ⟨count, attempted⟩
    rcases hosts _ count output rfl attempted with ⟨node, client, found, ran⟩
    exact ⟨node, client, output, found, ran, described⟩
  have bounded : forall id outcome, (id, outcome) ∈ completions state.run.events ->
      ∃ node, dag.nodes[id]? = some node ∧ outcomeGas outcome ≤ node.budget.toNat := by
    intro id outcome member
    rcases executed id outcome member with ⟨node, client, output, found, ran, rfl⟩
    exact ⟨node, found, UInt64.le_iff_toNat_le.mp (HostNode.gas_le_budget ran)⟩
  refine ⟨bounded, ?_, ?_⟩
  · apply announcedGas_le log.completions_nodup
    · rintro ⟨id, outcome⟩ member
      rcases bounded id outcome member with ⟨node, found, _within⟩
      exact OrderedMap.mem_of_getElem?_eq_some found
    · rintro ⟨id, outcome⟩ member
      rcases bounded id outcome member with ⟨node, found, within⟩
      rw [budgetAt, found]
      exact within
  · intro id node outcome declared member
    rcases executed id outcome member with ⟨other, client, output, found, ran, described⟩
    rw [declared] at found
    cases found
    refine ⟨output, described, ?_⟩
    intro input payload
    exact (WasmNode.execute_congr payload).trans ran

/-- The engine on the empty module.  Nothing runs at its instantiation and it
exports nothing, so no fuel is used.  Calls are interrupted at once, since the
engine counts epochs and no deadline is set. -/
def emptyModule : WasmRuntime Unit where
  Store := UInt64
  setFuel := .ok
  instantiate := fun _module fuel => .ok fuel
  exportsAdd := fun _fuel => false
  callAdd := fun _left _right _fuel => .error "wasm trap: interrupt"
  getFuel := .ok

/-- A digest behind a WASM node. -/
def meteredDag : Dag (HostNode Unit) :=
  Dag.link (.wasm ⟨(), 100⟩) (.library .sha256) .always

theorem announced_gas_metered_link :
    let semantics := hostSemantics meteredDag .f64 .sample .offline emptyModule
    let state := (TimedState.start meteredDag .default .gcra 0).drive meteredDag .sample .default
      .linux semantics 30
    (forall id outcome, (id, outcome) ∈ completions state.run.events ->
      ∃ node, meteredDag.nodes[id]? = some node ∧ outcomeGas outcome ≤ node.budget.toNat) ∧
    announcedGas state.run.events ≤ totalBudget meteredDag ∧
    forall (id : NodeId) (node : WasmNode Unit) outcome,
      meteredDag.nodes[id]? = some (.wasm node) ->
      (id, outcome) ∈ completions state.run.events ->
      ∃ output, outcome = .success (hashJson .sample output.value) output.gasUsed ∧
        forall input : NodeInput, input.payload = Value.null ->
          node.execute emptyModule input = .ok output := by
  intro semantics state
  exact announced_gas_metered (Dag.link_accepted _ _ _) .f64 .sample emptyModule .default .gcra
    .linux 0 (attemptsOf semantics) (hostAttempts_attemptsOf .offline) state
    (TimedState.drive_reaches 30 _)

end Nodes
end KernelFlow
