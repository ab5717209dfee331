import Mathlib
import KernelFlow.Nodes.Oracle
import KernelFlow.Resilience.MemberOrder

namespace KernelFlow
namespace Nodes

open Transition Scheduler Resilience

/-!
# The node library and member order

No node of the library depends on the order of the members of what it reads.
Numbers are read off leaves and off members by name, and the parents are read in
the order of their ids.  Constants that list their members differently, and
servers that do, therefore lead to one attestation.
-/

/-! ## Reading values -/

theorem asF64_canonicalize (document : Json) : document.canonicalize.asF64 = document.asF64 := by
  cases document <;> rfl

theorem reading_canonicalize {document : Json} (distinct : document.Distinct) :
    MedianNode.reading document.canonicalize = MedianNode.reading document := by
  unfold MedianNode.reading
  rw [asF64_canonicalize, Json.child_canonicalize distinct]
  cases document.child (.member "value") with
  | none => rfl
  | some inner => exact congrArg _ (asF64_canonicalize inner)

/-- Maps that are equal up to member order have the same sorted values. -/
theorem values_canonicalize {left right : BTreeMap NodeId Value}
    (same : (Value.ofMap left).SameUpToOrder (Value.ofMap right)) :
    left.values.map Value.canonicalize = right.values.map Value.canonicalize := by
  rcases (Value.sameUpToOrder_ofMap_iff left right).mp same with ⟨keys, values⟩
  have sorted : left.map (fun _key value => value.canonicalize) =
      right.map fun _key value => value.canonicalize := by
    apply Std.ExtTreeMap.ext_getElem?
    intro key
    rw [Std.ExtTreeMap.getElem?_map, Std.ExtTreeMap.getElem?_map]
    have both := keys key
    rw [OrderedMap.mem_iff_exists, OrderedMap.mem_iff_exists] at both
    cases leftFound : left[key]? with
    | none =>
        cases rightFound : right[key]? with
        | none => rfl
        | some second =>
            rcases both.mpr ⟨second, rightFound⟩ with ⟨first, impossible⟩
            rw [leftFound] at impossible
            cases impossible
    | some first =>
        rcases both.mp ⟨first, leftFound⟩ with ⟨second, rightFound⟩
        rw [rightFound, Option.map_some, Option.map_some]
        have related := values key first second leftFound rightFound
        rw [Value.ext ((Value.canonicalize_eq_iff first second).mpr related)]
  have entries := congrArg (fun map : BTreeMap NodeId Value => map.toList.map Prod.snd) sorted
  rw [Std.ExtTreeMap.toList_map, Std.ExtTreeMap.toList_map, List.map_map, List.map_map] at entries
  rw [OrderedMap.values_eq, OrderedMap.values_eq, List.map_map, List.map_map]
  exact entries

theorem readings_congr {left right : NodeInput}
    (same : (Value.ofMap left.parents).SameUpToOrder (Value.ofMap right.parents)) :
    MedianNode.readings left = MedianNode.readings right := by
  have sorted : forall values : List Value, values.filterMap (fun v => MedianNode.reading v.json) =
      (values.map Value.canonicalize).filterMap fun v => MedianNode.reading v.json := by
    intro values
    rw [List.filterMap_map]
    apply List.filterMap_congr
    intro value _member
    exact (reading_canonicalize value.distinct).symm
  rw [MedianNode.readings, MedianNode.readings, sorted, sorted right.parents.values,
    values_canonicalize same]

theorem first_number_congr {left right : BTreeMap NodeId Value}
    (same : (Value.ofMap left).SameUpToOrder (Value.ofMap right)) :
    (left.values.head?.bind fun v => v.json.asF64) =
      right.values.head?.bind fun v => v.json.asF64 := by
  have sorted : forall values : List Value, (values.head?.bind fun v => v.json.asF64) =
      (values.map Value.canonicalize).head?.bind fun v => v.json.asF64 := by
    intro values
    cases values with
    | nil => rfl
    | cons value _rest => exact (asF64_canonicalize value.json).symm
  rw [sorted, sorted right.values, values_canonicalize same]

/-! ## Executing nodes -/

/-- The two clients get the same answers, up to the order of members in the
bodies. -/
structure HttpClient.SameUpToOrder (left right : HttpClient) : Prop where
  builder : left.builder = right.builder
  refused : forall url message, left.get url = .error message ↔ right.get url = .error message
  bodies : forall url body body', left.get url = .ok body -> right.get url = .ok body' ->
    ((left.parse body).getD (Value.string body)).SameUpToOrder
      ((right.parse body').getD (Value.string body'))

/-- Nodes that differ at most in the order of the members of a constant. -/
def StdNode.SameUpToOrder : StdNode -> StdNode -> Prop
  | .constant left, .constant right => left.value.SameUpToOrder right.value
  | left, right => left = right

theorem sameResult_refl (result : KernelResult NodeOutput) : SameResult result result := by
  cases result with
  | ok output => exact .ok output output (Json.sameUpToOrder_refl _ output.value.distinct) rfl
  | error error => exact .error error

theorem HttpFetchNode.execute_respects (node : HttpFetchNode) {left right : HttpClient}
    (clients : left.SameUpToOrder right) (input other : NodeInput) :
    SameResult (node.execute left input).2 (node.execute right other).2 := by
  unfold HttpFetchNode.execute
  split
  · exact .error _
  · rw [clients.builder]
    cases right.builder node.timeout with
    | error message => exact .error _
    | ok built =>
        dsimp only
        cases leftGot : left.get node.url with
        | error message =>
            rw [(clients.refused node.url message).mp leftGot]
            exact .error _
        | ok body =>
            cases rightGot : right.get node.url with
            | error message =>
                have impossible := (clients.refused node.url message).mpr rightGot
                rw [leftGot] at impossible
                cases impossible
            | ok body' => exact .ok _ _ (clients.bodies node.url body body' leftGot rightGot) rfl

/-- The median depends on its readings. -/
theorem MedianNode.executeWith_congr (ops : FloatOps) {left right : NodeInput}
    (same : readings left = readings right) : executeWith ops left = executeWith ops right := by
  simp only [executeWith_eq, same]

theorem StdNode.executeWith_respects (ops : FloatOps) (backend : HashBackend)
    {client client' : HttpClient} (clients : client.SameUpToOrder client') {node node' : StdNode}
    (nodes : node.SameUpToOrder node') {input input' : NodeInput}
    (payload : input.payload = input'.payload)
    (parents : (Value.ofMap input.parents).SameUpToOrder (Value.ofMap input'.parents)) :
    SameResult (node.executeWith ops backend client input)
      (node'.executeWith ops backend client' input') := by
  cases node with
  | constant node =>
      cases node' with
      | constant node' => exact .ok _ _ nodes rfl
      | _ => cases nodes
  | sha256 =>
      cases nodes
      change SameResult (.ok ⟨Value.string (hashJson backend input.payload), 5⟩)
        (.ok ⟨Value.string (hashJson backend input'.payload), 5⟩)
      rw [payload]
      exact sameResult_refl _
  | httpFetch node =>
      cases nodes
      exact node.execute_respects clients input input'
  | median =>
      cases nodes
      change SameResult (MedianNode.executeWith ops input) (MedianNode.executeWith ops input')
      rw [MedianNode.executeWith_congr ops (readings_congr parents)]
      exact sameResult_refl _
  | threshold node =>
      cases nodes
      change SameResult (node.executeWith ops input) (node.executeWith ops input')
      unfold ThresholdNode.executeWith
      rw [first_number_congr parents, payload]
      exact sameResult_refl _

/-! ## Workflows over the library -/

/-- The nodes of a workflow as its semantics. -/
def librarySemantics (ops : FloatOps) (backend : HashBackend) (client : HttpClient)
    (workflowId : WorkflowId) (nodes : NodeId -> StdNode) : NodeSemantics :=
  fun id parents => (nodes id).executeWith ops backend client ⟨workflowId, id, Value.null, parents⟩

/-- For every workflow over the library: constants with their members in another
order, and servers that order members differently, lead to outputs that are equal
up to member order, to equal announced outcomes and to an equal attestation, on
stacks with different configurations, limiters, timings and faults. -/
theorem library_ignores_member_order {P : Type} {dag : Dag P} (accepted : dag.Accepted)
    (backend : HashBackend) (ops : FloatOps) (client client' : HttpClient)
    (clients : client.SameUpToOrder client') (nodes nodes' : NodeId -> StdNode)
    (related : forall id, (nodes id).SameUpToOrder (nodes' id)) (edges : List Edge)
    (permuted : edges.Perm dag.edges) (config config' : ResilienceConfig)
    (governor governor' : Governor) (timer timer' : Timer) (now now' : Instant)
    (attempts attempts' : NodeInput -> UInt32 -> KernelResult NodeOutput -> Prop)
    (faithful : Faithful (librarySemantics ops backend client dag.id nodes) attempts)
    (faithful' : Faithful (librarySemantics ops backend client' dag.id nodes') attempts')
    (state : TimedState governor) (state' : TimedState governor')
    (run : Reaches (TimedStep dag backend config governor timer attempts)
      (.start dag config governor now) state)
    (run' : Reaches (TimedStep { dag with edges := edges } backend config' governor' timer'
      attempts') (.start { dag with edges := edges } config' governor' now') state') :
    (forall (node : NodeId) (value other : Value), state.run.outputs[node]? = some value ->
      state'.run.outputs[node]? = some other -> value.SameUpToOrder other) ∧
    (forall node outcome other, (node, outcome) ∈ completions state.run.events ->
      (node, other) ∈ completions state'.run.events -> outcome = other) ∧
    forall hash other, state.run.control = .returned (.ok hash) ->
      state'.run.control = .returned (.ok other) -> hash = other := by
  have respects : Respects (librarySemantics ops backend client dag.id nodes)
      (librarySemantics ops backend client' dag.id nodes') := by
    intro id parents parents' same
    exact StdNode.executeWith_respects ops backend clients (related id) rfl same
  exact agree_up_to_order accepted.wellFormed respects permuted
    (.of_stack accepted.wellFormed faithful run)
    (.of_stack (wellFormed_perm accepted.wellFormed permuted) faithful' run')

theorem HttpClient.offline_same : HttpClient.offline.SameUpToOrder .offline where
  builder := rfl
  refused := fun _url _message => Iff.rfl
  bodies := fun _url _body _body' impossible => nomatch impossible

/-- A constant in front of a digest. -/
def digestOf (value : Value) (id : NodeId) : StdNode :=
  if id = "a" then .constant ⟨value⟩ else .sha256

theorem library_ignores_member_order_pair :
    let semantics := fun value => librarySemantics .f64 .sample .offline 0 (digestOf value)
    let first := (TimedState.start (Dag.pair onlyIfOk) .default .gcra 0).drive (Dag.pair onlyIfOk)
      .sample .default .linux (semantics okFirst) 30
    let last := (TimedState.start (Dag.pair onlyIfOk) .default .gcra 7).drive (Dag.pair onlyIfOk)
      .sample .default .linux (semantics okLast) 30
    (forall (node : NodeId) (value other : Value), first.run.outputs[node]? = some value ->
      last.run.outputs[node]? = some other -> value.SameUpToOrder other) ∧
    (forall node outcome other, (node, outcome) ∈ completions first.run.events ->
      (node, other) ∈ completions last.run.events -> outcome = other) ∧
    forall hash other, first.run.control = .returned (.ok hash) ->
      last.run.control = .returned (.ok other) -> hash = other := by
  intro semantics first last
  have related : forall id, (digestOf okFirst id).SameUpToOrder (digestOf okLast id) := by
    intro id
    unfold digestOf
    split
    · exact okFirst_same_okLast
    · rfl
  have faithful : forall value, Faithful (semantics value) (attemptsOf (semantics value)) :=
    fun _value _input _count _output attempted => attempted.symm
  exact library_ignores_member_order (Dag.pair_accepted onlyIfOk) .sample .f64 .offline .offline
    HttpClient.offline_same (digestOf okFirst) (digestOf okLast) related _ (.refl _) .default
    .default .gcra .gcra .linux .linux 0 7 _ _ (faithful okFirst) (faithful okLast) first last
    (TimedState.drive_reaches 30 _) (TimedState.drive_reaches 30 _)

end Nodes
end KernelFlow
