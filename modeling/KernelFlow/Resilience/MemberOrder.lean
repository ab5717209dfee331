import Mathlib
import KernelFlow.Core.Pointer
import KernelFlow.Resilience.Faults

namespace KernelFlow
namespace Resilience

open Transition Scheduler

/-!
# Member order is invisible

A JSON object may list its members in any order.  If the nodes of two runs give
outputs that are equal up to that order, then no condition, no announced hash
and no attestation shows a difference.  The runs may be on stacks with different
configurations and faults.
-/

variable {P : Type} {dag : Dag P} {backend : HashBackend} {sem sem' : NodeSemantics}

/-- Results of one node that show no difference but the order of members. -/
inductive SameResult : KernelResult NodeOutput -> KernelResult NodeOutput -> Prop
  | ok (left right : NodeOutput) (value : left.value.SameUpToOrder right.value)
      (gas : left.gasUsed = right.gasUsed) : SameResult (.ok left) (.ok right)
  | error (error : KernelError) : SameResult (.error error) (.error error)

/-- From parents that are equal up to member order the nodes compute results
that are. -/
def Respects (sem sem' : NodeSemantics) : Prop :=
  forall node parents parents', (Value.ofMap parents).SameUpToOrder (Value.ofMap parents') ->
    SameResult (sem node parents) (sem' node parents')

theorem SameResult.exists_ok {output : NodeOutput} {result : KernelResult NodeOutput}
    (same : SameResult (.ok output) result) : ∃ other : NodeOutput, result = .ok other ∧
      output.value.SameUpToOrder other.value ∧ output.gasUsed = other.gasUsed := by
  cases same with
  | ok _ other value gas => exact ⟨other, rfl, value, gas⟩

/-- Values that are equal up to member order have one hash. -/
theorem hashJson_congr (backend : HashBackend) {left right : Value}
    (same : left.SameUpToOrder right) : hashJson backend left = hashJson backend right := by
  rw [hashJson, hashJson, (Value.canonicalize_eq_iff left right).mpr same]

/-- The parent maps of a node under related outputs. -/
theorem sourceOutputs_related {node : NodeId} {first second : NodeId -> NodeOutput}
    (related : forall edge, edge ∈ dag.edges -> edge.to = node ->
      (first edge.from).value.SameUpToOrder (second edge.from).value) :
    (Value.ofMap (sourceOutputs dag first node)).SameUpToOrder
      (Value.ofMap (sourceOutputs dag second node)) := by
  rw [Value.sameUpToOrder_ofMap_iff]
  constructor
  · intro key
    simp only [OrderedMap.mem_iff_exists, getElem?_sourceOutputs]
    split_ifs <;> simp
  · intro key left right leftFound rightFound
    rw [getElem?_sourceOutputs] at leftFound rightFound
    split_ifs at leftFound with source
    rw [if_pos source] at rightFound
    cases leftFound
    cases rightFound
    rcases source with ⟨edge, member, target, rfl⟩
    exact related edge member target

/-- The reference evaluations of both semantics reach the same nodes, with
results that differ at most in member order. -/
theorem exists_related (respects : Respects sem sem') {node : NodeId}
    {result : KernelResult NodeOutput} (evaluates : Evaluates dag sem node result) :
    ∃ other, Evaluates dag sem' node other ∧ SameResult result other := by
  induction evaluates with
  | intro node output declared sources conditions inductionHypothesis =>
      have partner : forall parent, ∃ other : NodeOutput, forall edge, edge ∈ dag.edges ->
          edge.to = node -> edge.from = parent -> Evaluates dag sem' parent (.ok other) ∧
            (output parent).value.SameUpToOrder other.value := by
        intro parent
        by_cases source : ∃ edge ∈ dag.edges, edge.to = node ∧ edge.from = parent
        · rcases source with ⟨edge, member, target, rfl⟩
          rcases inductionHypothesis edge member target with ⟨result, evaluates, same⟩
          rcases same.exists_ok with ⟨other, rfl, value, _gas⟩
          exact ⟨other, fun _edge _member _target _source => ⟨evaluates, value⟩⟩
        · refine ⟨output parent, ?_⟩
          intro edge member target from_parent
          exact absurd ⟨edge, member, target, from_parent⟩ source
      choose other partner using partner
      refine ⟨_, .intro node other declared ?_ ?_, ?_⟩
      · exact fun edge member target => (partner edge.from edge member target rfl).1
      · intro edge member target
        rw [← edge.condition.evaluate_congr (partner edge.from edge member target rfl).2]
        exact conditions edge member target
      · apply respects
        apply sourceOutputs_related
        exact fun edge member target => (partner edge.from edge member target rfl).2

/-- Two grounded states of one graph, up to the order of its edges, agree up to
member order. -/
theorem agree_up_to_order (wellFormed : dag.WellFormed) (respects : Respects sem sem')
    {edges : List Edge} (permuted : edges.Perm dag.edges) {first second : RunState}
    (left : Grounded dag backend sem first)
    (right : Grounded { dag with edges := edges } backend sem' second) :
    (forall (node : NodeId) (value other : Value), first.outputs[node]? = some value ->
      second.outputs[node]? = some other -> value.SameUpToOrder other) ∧
    (forall node outcome other, (node, outcome) ∈ completions first.events ->
      (node, other) ∈ completions second.events -> outcome = other) ∧
    forall hash other, first.control = .returned (.ok hash) ->
      second.control = .returned (.ok other) -> hash = other := by
  have reordered := wellFormed_perm wellFormed permuted
  have compare : forall {node : NodeId} {output other : NodeOutput},
      Evaluates dag sem node (.ok output) ->
      Evaluates { dag with edges := edges } sem' node (.ok other) ->
      output.value.SameUpToOrder other.value ∧ output.gasUsed = other.gasUsed := by
    intro node output other evaluates otherEvaluates
    rcases exists_related respects evaluates with ⟨result, related, same⟩
    rcases same.exists_ok with ⟨partner, rfl, value, gas⟩
    have unique := related.unique ((evaluates_perm_iff permuted _ _).mp otherEvaluates)
    cases unique
    exact ⟨value, gas⟩
  have outputs : forall (node : NodeId) (value other : Value), first.outputs[node]? = some value ->
      second.outputs[node]? = some other -> value.SameUpToOrder other := by
    intro node value other found foundOther
    rcases left.evaluates wellFormed found with ⟨output, evaluates, rfl⟩
    rcases right.evaluates reordered foundOther with ⟨otherOutput, otherEvaluates, rfl⟩
    exact (compare evaluates otherEvaluates).1
  refine ⟨outputs, ?_, ?_⟩
  · intro node outcome other member otherMember
    rcases left.completion wellFormed member with ⟨output, evaluates, rfl⟩
    rcases right.completion reordered otherMember with ⟨otherOutput, otherEvaluates, rfl⟩
    rcases compare evaluates otherEvaluates with ⟨value, gas⟩
    rw [hashJson_congr backend value, gas]
  · intro hash other returned otherReturned
    rcases left.returned_ok wellFormed returned with ⟨rfl, covered⟩
    rcases right.returned_ok reordered otherReturned with ⟨rfl, otherCovered⟩
    apply hashJson_congr
    rw [Value.sameUpToOrder_ofMap_iff]
    exact ⟨fun key => (covered key).trans (otherCovered key).symm, outputs⟩

/-- Two runs of one workflow whose nodes give outputs that are equal up to
member order, on stacks with different configurations, limiters, timings and
faults and with the edges in any order: their outputs are equal up to member
order, no edge condition tells them apart, and the outcomes they announce and the
hashes they attest are equal. -/
theorem member_order_invisible (accepted : dag.Accepted) (backend : HashBackend)
    (sem sem' : NodeSemantics) (respects : Respects sem sem') (edges : List Edge)
    (permuted : edges.Perm dag.edges) (config config' : ResilienceConfig)
    (governor governor' : Governor) (timer timer' : Timer) (now now' : Instant)
    (attempts attempts' : NodeInput -> UInt32 -> KernelResult NodeOutput -> Prop)
    (faithful : Faithful sem attempts) (faithful' : Faithful sem' attempts')
    (state : TimedState governor) (state' : TimedState governor')
    (run : Reaches (TimedStep dag backend config governor timer attempts)
      (.start dag config governor now) state)
    (run' : Reaches (TimedStep { dag with edges := edges } backend config' governor' timer'
      attempts') (.start { dag with edges := edges } config' governor' now') state') :
    (forall (node : NodeId) (value other : Value), state.run.outputs[node]? = some value ->
      state'.run.outputs[node]? = some other -> value.SameUpToOrder other ∧
        forall condition : EdgeCondition, condition.evaluate value = condition.evaluate other) ∧
    (forall node outcome other, (node, outcome) ∈ completions state.run.events ->
      (node, other) ∈ completions state'.run.events -> outcome = other) ∧
    forall hash other, state.run.control = .returned (.ok hash) ->
      state'.run.control = .returned (.ok other) -> hash = other := by
  rcases agree_up_to_order accepted.wellFormed respects permuted
    (.of_stack accepted.wellFormed faithful run)
    (.of_stack (wellFormed_perm accepted.wellFormed permuted) faithful' run') with
    ⟨outputs, outcomes, hashes⟩
  refine ⟨?_, outcomes, hashes⟩
  intro node value other found foundOther
  have same := outputs node value other found foundOther
  exact ⟨same, fun condition => condition.evaluate_congr same⟩

/-- Two members, one way round and the other. -/
def okFirst : Value :=
  ⟨.object [("ok", .bool true), ("n", .null)], by simp [Json.Distinct, Json.DistinctMembers]⟩

def okLast : Value :=
  ⟨.object [("n", .null), ("ok", .bool true)], by simp [Json.Distinct, Json.DistinctMembers]⟩

theorem okFirst_same_okLast : okFirst.SameUpToOrder okLast := by
  refine ⟨_, [("ok", .bool true), ("n", .null)], rfl, .swap _ _ _, ?_⟩
  rw [Json.sameMembers_iff]
  exact .cons ⟨rfl, rfl⟩ (.cons ⟨rfl, rfl⟩ .nil)

/-- The second node is reached if the first one is `ok`. -/
def onlyIfOk : EdgeCondition :=
  .jsonEq "/ok" (.bool true)

theorem member_order_invisible_pair :
    let first := (TimedState.start (Dag.pair onlyIfOk) .default .gcra 0).drive (Dag.pair onlyIfOk)
      .sample .default .linux (.constant okFirst) 30
    let last := (TimedState.start (Dag.pair onlyIfOk) .default .gcra 7).drive (Dag.pair onlyIfOk)
      .sample .default .linux (.constant okLast) 30
    (forall (node : NodeId) (value other : Value), first.run.outputs[node]? = some value ->
      last.run.outputs[node]? = some other -> value.SameUpToOrder other ∧
        forall condition : EdgeCondition, condition.evaluate value = condition.evaluate other) ∧
    (forall node outcome other, (node, outcome) ∈ completions first.run.events ->
      (node, other) ∈ completions last.run.events -> outcome = other) ∧
    forall hash other, first.run.control = .returned (.ok hash) ->
      last.run.control = .returned (.ok other) -> hash = other := by
  intro first last
  have respects : Respects (.constant okFirst) (.constant okLast) :=
    fun _node _parents _parents' _same => .ok _ _ okFirst_same_okLast rfl
  have faithful : forall value, Faithful (.constant value) (attemptsOf (.constant value)) :=
    fun _value _input _count _output attempted => attempted.symm
  exact member_order_invisible (Dag.pair_accepted onlyIfOk) .sample (.constant okFirst)
    (.constant okLast) respects _ (.refl _) .default .default .gcra .gcra .linux .linux 0 7 _ _
    (faithful okFirst) (faithful okLast) first last (TimedState.drive_reaches 30 _)
    (TimedState.drive_reaches 30 _)

end Resilience
end KernelFlow
