import Mathlib
import KernelFlow.Core.Hex
import KernelFlow.Core.Dag
import KernelFlow.Core.Tagged

namespace KernelFlow

/-!
# The types of the core as JSON

Formats of ids, outcomes, events, edge conditions, edges and graphs.  Events carry the
name of their variant as the member `type`; outcomes and conditions are tagged from
outside.  What is proved about events and graphs that are sent holds for any derived
reader; these formats are examples of one.
-/

namespace Wire

open Serde

/-- An id is its hyphenated text; any form that can be parsed is read. -/
def workflowId : Format WorkflowId :=
  .text WorkflowId.display WorkflowId.parse WorkflowId.parse_display

/-! ## Outcomes -/

def successFields : Fields (String × UInt64 × Unit) :=
  .cons "output_hash" .string (.cons "gas_used" .u64 .nil (by decide)) (by decide)

def failureFields : Fields (String × Unit) :=
  .cons "error" .string .nil (by decide)

def skippedFields : Fields (String × Unit) :=
  .cons "reason" .string .nil (by decide)

/-- The fields of the variants of an outcome. -/
def nodeOutcomeCases :
    (String × UInt64 × Unit) ⊕ (String × Unit) ⊕ (String × Unit) ≃ NodeOutcome where
  toFun := fun fields => match fields with
    | .inl (outputHash, gasUsed, ()) => .success outputHash gasUsed
    | .inr (.inl (error, ())) => .failure error
    | .inr (.inr (reason, ())) => .skipped reason
  invFun := fun outcome => match outcome with
    | .success outputHash gasUsed => .inl (outputHash, gasUsed, ())
    | .failure error => .inr (.inl (error, ()))
    | .skipped reason => .inr (.inr (reason, ()))
  left_inv := by
    intro fields
    rcases fields with value | value | value <;> rfl
  right_inv := by
    intro outcome
    cases outcome <;> rfl

def nodeOutcomeVariants : Variants NodeOutcome :=
  (Variants.or (.record "success" successFields)
    (.or (.record "failure" failureFields) (.record "skipped" skippedFields) (by decide))
    (by decide)).via nodeOutcomeCases

def nodeOutcome : Format NodeOutcome :=
  nodeOutcomeVariants.external

theorem string_exact : Format.string.Exact :=
  fun _left _right same => same

theorem nodeOutcome_exact : nodeOutcome.Exact := by
  have number : Format.u64.Exact := fun _left _right same => same
  apply Variants.exact_external
  apply Variants.exact_via
  apply Variants.exact_or
  · apply Variants.exact_record
    exact Fields.exact_cons string_exact (Fields.exact_cons number Fields.exact_nil)
  · apply Variants.exact_or
    · apply Variants.exact_record
      exact Fields.exact_cons string_exact Fields.exact_nil
    · apply Variants.exact_record
      exact Fields.exact_cons string_exact Fields.exact_nil

/-! ## Events -/

def workflowStartedFields : Fields (WorkflowId × String × Unit) :=
  .cons "workflow_id" workflowId (.cons "name" .string .nil (by decide)) (by decide)

def nodeStartedFields : Fields (WorkflowId × String × UInt32 × Unit) :=
  .cons "workflow_id" workflowId (.cons "node_id" .string (.cons "attempt" .u32 .nil (by decide))
    (by decide)) (by decide)

def nodeCompletedFields : Fields (WorkflowId × String × NodeOutcome × Unit) :=
  .cons "workflow_id" workflowId (.cons "node_id" .string
    (.cons "outcome" nodeOutcome .nil (by decide)) (by decide)) (by decide)

def workflowCompletedFields : Fields (WorkflowId × String × Unit) :=
  .cons "workflow_id" workflowId (.cons "attestation_hash" .string .nil (by decide)) (by decide)

def workflowFailedFields : Fields (WorkflowId × String × Unit) :=
  .cons "workflow_id" workflowId (.cons "reason" .string .nil (by decide)) (by decide)

/-- The fields of the variants of an event. -/
def kernelEventCases :
    (WorkflowId × String × Unit) ⊕ (WorkflowId × String × UInt32 × Unit) ⊕
      (WorkflowId × String × NodeOutcome × Unit) ⊕ (WorkflowId × String × Unit) ⊕
      (WorkflowId × String × Unit) ≃ KernelEvent where
  toFun := fun fields => match fields with
    | .inl (workflowId, name, ()) => .workflowStarted workflowId name
    | .inr (.inl (workflowId, nodeId, attempt, ())) => .nodeStarted workflowId nodeId attempt
    | .inr (.inr (.inl (workflowId, nodeId, outcome, ()))) =>
        .nodeCompleted workflowId nodeId outcome
    | .inr (.inr (.inr (.inl (workflowId, hash, ())))) => .workflowCompleted workflowId hash
    | .inr (.inr (.inr (.inr (workflowId, reason, ())))) => .workflowFailed workflowId reason
  invFun := fun event => match event with
    | .workflowStarted workflowId name => .inl (workflowId, name, ())
    | .nodeStarted workflowId nodeId attempt => .inr (.inl (workflowId, nodeId, attempt, ()))
    | .nodeCompleted workflowId nodeId outcome =>
        .inr (.inr (.inl (workflowId, nodeId, outcome, ())))
    | .workflowCompleted workflowId hash => .inr (.inr (.inr (.inl (workflowId, hash, ()))))
    | .workflowFailed workflowId reason => .inr (.inr (.inr (.inr (workflowId, reason, ()))))
  left_inv := by
    intro fields
    rcases fields with value | value | value | value | value <;> rfl
  right_inv := by
    intro event
    cases event <;> rfl

def kernelEventVariants : Variants KernelEvent :=
  (Variants.or (.record "workflow_started" workflowStartedFields)
    (.or (.record "node_started" nodeStartedFields)
      (.or (.record "node_completed" nodeCompletedFields)
        (.or (.record "workflow_completed" workflowCompletedFields)
          (.record "workflow_failed" workflowFailedFields) (by decide)) (by decide)) (by decide))
    (by decide)).via kernelEventCases

theorem kernelEventVariants_records (event : KernelEvent) :
    ∃ members, kernelEventVariants.content event = some members := by
  cases event <;> exact ⟨_, rfl⟩

/-- No event has a field of the name of the tag. -/
theorem kernelEventVariants_fresh (name : String) (known : name ∈ kernelEventVariants.names) :
    "type" ∉ kernelEventVariants.keys name := by
  have all : forall name, name ∈ kernelEventVariants.names ->
      "type" ∉ kernelEventVariants.keys name := by decide
  exact all name known

def kernelEvent : Format KernelEvent :=
  kernelEventVariants.internal "type" kernelEventVariants_records kernelEventVariants_fresh

example : kernelEvent.write (.nodeCompleted 1 "b" (.failure "rate limited")) =
    .object [("type", .string "node_completed"),
      ("workflow_id", .string "00000000-0000-0000-0000-000000000001"), ("node_id", .string "b"),
      ("outcome", .object [("failure", .object [("error", .string "rate limited")])])] := by
  rfl

theorem kernelEvent_exact : kernelEvent.Exact := by
  have id : workflowId.Exact := fun _left _right same => same
  have count : Format.u32.Exact := fun _left _right same => same
  apply Variants.exact_internal
  apply Variants.exact_via
  apply Variants.exact_or
  · apply Variants.exact_record
    exact Fields.exact_cons id (Fields.exact_cons string_exact Fields.exact_nil)
  · apply Variants.exact_or
    · apply Variants.exact_record
      exact Fields.exact_cons id
        (Fields.exact_cons string_exact (Fields.exact_cons count Fields.exact_nil))
    · apply Variants.exact_or
      · apply Variants.exact_record
        exact Fields.exact_cons id
          (Fields.exact_cons string_exact (Fields.exact_cons nodeOutcome_exact Fields.exact_nil))
      · apply Variants.exact_or
        · apply Variants.exact_record
          exact Fields.exact_cons id (Fields.exact_cons string_exact Fields.exact_nil)
        · apply Variants.exact_record
          exact Fields.exact_cons id (Fields.exact_cons string_exact Fields.exact_nil)

/-! ## Graphs -/

def jsonEqFields : Fields (String × Value × Unit) :=
  .cons "pointer" .string (.cons "value" .value .nil (by decide)) (by decide)

def edgeConditionCases : Unit ⊕ (String × Value × Unit) ≃ EdgeCondition where
  toFun := fun fields => match fields with
    | .inl () => .always
    | .inr (pointer, value, ()) => .jsonEq pointer value
  invFun := fun condition => match condition with
    | .always => .inl ()
    | .jsonEq pointer value => .inr (pointer, value, ())
  left_inv := by
    intro fields
    rcases fields with value | value <;> rfl
  right_inv := by
    intro condition
    cases condition <;> rfl

def edgeConditionVariants : Variants EdgeCondition :=
  (Variants.or (.unit "Always") (.record "JsonEq" jsonEqFields) (by decide)).via edgeConditionCases

def edgeCondition : Format EdgeCondition :=
  edgeConditionVariants.external

def edgeFields : Fields (NodeId × NodeId × EdgeCondition × Unit) :=
  .cons "from" .string (.cons "to" .string (.cons "condition" edgeCondition .nil (by decide))
    (by decide)) (by decide)

def edge : Format Edge :=
  edgeFields.record.via {
    toFun := fun (source, target, condition, ()) => ⟨source, target, condition⟩
    invFun := fun edge => (edge.from, edge.to, edge.condition, ())
    left_inv := fun _fields => rfl
    right_inv := fun _edge => rfl }

variable {N : Type}

def dagFields (payload : Format N) :
    Fields (WorkflowId × String × BTreeMap NodeId N × List Edge × Unit) :=
  .cons "id" workflowId (.cons "name" .string (.cons "nodes" payload.map
    (.cons "edges" edge.list .nil (by decide)) (by simp [Fields.cons, Fields.nil]))
    (by simp [Fields.cons, Fields.nil])) (by simp [Fields.cons, Fields.nil])

def dag (payload : Format N) : Format (Dag N) :=
  (dagFields payload).record.via {
    toFun := fun (id, name, nodes, edges, ()) => ⟨id, name, nodes, edges⟩
    invFun := fun dag => (dag.id, dag.name, dag.nodes, dag.edges, ())
    left_inv := fun _fields => rfl
    right_inv := fun _dag => rfl }

end Wire

/-! ## Graphs up to member order -/

/-- Conditions whose values are equal up to member order. -/
inductive EdgeCondition.SameUpToOrder : EdgeCondition -> EdgeCondition -> Prop
  | always : SameUpToOrder .always .always
  | jsonEq {pointer : String} {left right : Value} (same : left.SameUpToOrder right) :
      SameUpToOrder (.jsonEq pointer left) (.jsonEq pointer right)

structure Edge.SameUpToOrder (left right : Edge) : Prop where
  «from» : left.from = right.from
  «to» : left.to = right.to
  condition : left.condition.SameUpToOrder right.condition

/-- Graphs that differ in the member order of condition values, and in payloads
as the given relation allows. -/
structure Dag.SameUpToOrder {N : Type} (payload : N -> N -> Prop) (left right : Dag N) : Prop where
  id : left.id = right.id
  name : left.name = right.name
  nodes : forall key : NodeId, Option.Rel payload left.nodes[key]? right.nodes[key]?
  edges : List.Forall₂ Edge.SameUpToOrder left.edges right.edges

namespace Wire

theorem edgeCondition_same {left right : EdgeCondition} (same : edgeCondition.Same left right) :
    left.SameUpToOrder right := by
  cases left with
  | always =>
      cases right with
      | always => exact .always
      | jsonEq pointer value => cases same
  | jsonEq pointer value =>
      cases right with
      | always => cases same
      | jsonEq other received =>
          cases same with
          | inr fields =>
              rcases fields with ⟨rfl, values, _rest⟩
              exact .jsonEq values

theorem dag_same {N : Type} {payload : Serde.Format N} {left right : Dag N}
    (same : (dag payload).Same left right) : left.SameUpToOrder payload.Same right where
  id := same.1
  name := same.2.1
  nodes := same.2.2.1
  edges := same.2.2.2.1.imp fun _one _other fields =>
    ⟨fields.1, fields.2.1, edgeCondition_same fields.2.2.1⟩

def dagCodec {N : Type} (payload : Serde.Format N) :
    JsonCodec (Dag N) (Dag.SameUpToOrder payload.Same) :=
  (dag payload).codec.imp fun _left _right => dag_same

end Wire
end KernelFlow
