import Mathlib
import KernelFlow.Nodes.MedianFloat
import KernelFlow.Resilience.FullStack

namespace KernelFlow
namespace Nodes

open Transition Scheduler Resilience OrderStatistic

/-!
# Price oracles

The canonical workflow of the node library: sources feed a median, and a
threshold compares the median with a bound.  It runs on the whole stack, with
retries and faults.  If more sources are honest than are not, then no verdict
ever rests on a number outside the range of the honest ones, whatever the other
sources deliver and however their answers change from attempt to attempt.

The nodes compute with floats here.  Every number is converted before it is used,
which rounds large integers, and sums, halves and differences round as well.  A sum
that overflows gives `null`, on which the threshold fails, so an overflow costs the
verdict and not its soundness.
-/

variable {dag : Dag StdNode} {backend : HashBackend} {ops : FloatOps}

/-! ## The nodes with their arithmetic -/

/-- The comparisons are exact and the difference is not. -/
def Op.holdsWith (ops : FloatOps) (op : Op) (n threshold : ℚ) : Bool :=
  match op with
  | .gt => decide (threshold < n)
  | .gte => decide (threshold ≤ n)
  | .lt => decide (n < threshold)
  | .lte => decide (n ≤ threshold)
  | .eq => decide (|ops.sub n threshold| < epsilon)

def MedianNode.executeWith (ops : FloatOps) (input : NodeInput) : KernelResult NodeOutput :=
  let nums := input.parents.values.filterMap fun v => (reading v.json).map ops.cast
  if empty : nums = [] then .error (.invalidInput "no numeric parents for median")
  else .ok ⟨Value.ofFloat (middle ops nums empty), 3⟩

def ThresholdNode.executeWith (ops : FloatOps) (node : ThresholdNode) (input : NodeInput) :
    KernelResult NodeOutput :=
  match ((input.parents.values.head?.bind fun v => v.json.asF64).or
      input.payload.json.asF64).map ops.cast with
  | none => .error (.invalidInput "threshold needs numeric input")
  | some n => .ok ⟨report (node.op.holdsWith ops n node.threshold) n, 1⟩

def StdNode.executeWith (ops : FloatOps) (backend : HashBackend) (client : HttpClient)
    (node : StdNode) (input : NodeInput) : KernelResult NodeOutput :=
  match node with
  | .median => MedianNode.executeWith ops input
  | .threshold node => node.executeWith ops input
  | other => other.execute backend client input

/-- With exact arithmetic these are the nodes of the library. -/
theorem StdNode.executeWith_exact (node : StdNode) (client : HttpClient) (input : NodeInput) :
    node.executeWith .exact backend client input = node.execute backend client input := by
  cases node with
  | median =>
      change MedianNode.executeWith .exact input = MedianNode.execute .exact input
      simp only [MedianNode.executeWith, MedianNode.execute, FloatOps.exact, Option.map_id, id]
  | threshold node =>
      change node.executeWith .exact input = node.execute input
      have holds : forall n, node.op.holdsWith .exact n node.threshold =
          node.op.holds n node.threshold := by
        intro n
        cases node.op <;> rfl
      simp only [ThresholdNode.executeWith, ThresholdNode.execute, holds]
      have same : forall read : Option ℚ, read.map FloatOps.exact.cast = read :=
        fun _read => Option.map_id'
      rewrite [same]
      cases (input.parents.values.head?.bind fun v => v.json.asF64).or input.payload.json.asF64 with
      | none => rfl
      | some n => rfl
  | _ => rfl

namespace MedianNode

/-- The numbers that the median sorts. -/
theorem executeWith_eq (ops : FloatOps) (input : NodeInput) :
    executeWith ops input =
      if empty : (readings input).map ops.cast = [] then
        .error (.invalidInput "no numeric parents for median")
      else .ok ⟨Value.ofFloat (middle ops ((readings input).map ops.cast) empty), 3⟩ := by
  simp only [executeWith, readings, List.map_filterMap]

/-- The middle of floats is a float and a median of them, if it is a number. -/
theorem isMedian_of_rounded {rounding : Rounding} {largest : ℚ} {nums : List ℚ}
    (representable : forall number, number ∈ nums -> rounding.Representable number)
    {nonempty : nums ≠ []} {m : ℚ}
    (answer : middle (.rounded rounding largest) nums nonempty = some m) :
    rounding.Representable m ∧ IsMedian nums m := by
  have inside : forall {position : Nat} {entry : ℚ},
      (ascending nums)[position]? = some entry -> rounding.Representable entry := by
    intro position entry found
    exact representable entry (mem_ascending.mp (List.mem_of_getElem? found))
  rcases middle_cases (.rounded rounding largest) nonempty with ⟨half, entry, odd, found, same⟩ |
    ⟨half, low, high, even, lowEntry, highEntry, same⟩
  · cases answer.symm.trans same
    exact ⟨inside found, isMedian_of_between found found le_rfl le_rfl (by omega) (by omega)⟩
  · have ordered : low ≤ high := by
      rcases List.getElem?_eq_some_iff.mp lowEntry with ⟨_, rfl⟩
      rcases List.getElem?_eq_some_iff.mp highEntry with ⟨within, rfl⟩
      exact getElem_ascending_le (Nat.le_succ half) within
    rw [answer] at same
    rcases Option.map_eq_some_iff.mp same.symm with ⟨sum, added, rfl⟩
    have rounded : sum = rounding.round (low + high) := by
      change (if _ then _ else _) = some sum at added
      split_ifs at added
      exact (Option.some.inj added).symm
    subst rounded
    have above := rounding.le_mean (inside lowEntry) ordered
    have below := rounding.mean_le (inside highEntry) ordered
    exact ⟨rounding.representable_round _,
      isMedian_of_between lowEntry highEntry above below (by omega) (by omega)⟩

theorem asF64_ofFloat (answer : Option ℚ) : (Value.ofFloat answer).json.asF64 = answer := by
  cases answer with
  | none => rfl
  | some number => rfl

/-- The number in the output of a median node is a float and a median of the floats
that it read. -/
theorem isMedian_of_execute {rounding : Rounding} {largest : ℚ} {input : NodeInput}
    {output : NodeOutput} {n : ℚ}
    (executed : executeWith (.rounded rounding largest) input = .ok output)
    (number : output.value.json.asF64 = some n) :
    rounding.Representable n ∧ IsMedian ((readings input).map rounding.round) n := by
  rw [executeWith_eq] at executed
  split at executed
  · cases executed
  · next nonempty =>
      cases executed
      have floats : forall float, float ∈ (readings input).map rounding.round ->
          rounding.Representable float := by
        intro float member
        rcases List.mem_map.mp member with ⟨value, _, rfl⟩
        exact rounding.representable_round value
      have answered : middle (.rounded rounding largest) ((readings input).map rounding.round)
          nonempty = some n :=
        (asF64_ofFloat _).symm.trans number
      exact isMedian_of_rounded floats answered

/-- A median of floats lies between the bounds of a majority of the parents. -/
theorem between_of_majority {round : ℚ -> ℚ} {input : NodeInput} {m low high : ℚ}
    (median : IsMedian ((readings input).map round) m) {chosen : Finset NodeId}
    (numeric : forall parent, parent ∈ chosen -> parent ∈ numericParents input)
    (majority : (otherParents input chosen).length < chosen.card)
    (bounded : forall (parent : NodeId) (value : Value) (number : ℚ), parent ∈ chosen ->
      input.parents[parent]? = some value -> reading value.json = some number ->
      low ≤ round number ∧ round number ≤ high) : low ≤ m ∧ m ≤ high := by
  have more : ((readingsWhere input fun parent => !decide (parent ∈ chosen)).map round).length <
      ((readingsWhere input fun parent => decide (parent ∈ chosen)).map round).length := by
    rw [List.length_map, List.length_map, length_chosen numeric]
    exact Nat.lt_of_le_of_lt (length_others_le input chosen) majority
  have split := (readings_perm input fun parent => decide (parent ∈ chosen)).map round
  rw [List.map_append] at split
  have inside : forall float,
      float ∈ (readingsWhere input fun parent => decide (parent ∈ chosen)).map round ->
      low ≤ float ∧ float ≤ high := by
    intro float member
    rcases List.mem_map.mp member with ⟨number, read, rfl⟩
    rcases mem_readingsWhere.mp read with ⟨parent, value, isChosen, found, isNumber⟩
    exact bounded parent value number (of_decide_eq_true isChosen) found isNumber
  rcases median.exists_le split more with ⟨small, smallMember, above⟩
  rcases median.exists_ge split more with ⟨large, largeMember, below⟩
  exact ⟨(inside small smallMember).1.trans above, below.trans (inside large largeMember).2⟩

end MedianNode

/-- Without a numeric payload the threshold judges the number of a parent. -/
theorem ThresholdNode.parent_of_execute {node : ThresholdNode} {input : NodeInput}
    {output : NodeOutput} (payload : input.payload = Value.null)
    (executed : node.executeWith ops input = .ok output) :
    ∃ (parent : NodeId) (value : Value) (n : ℚ), input.parents[parent]? = some value ∧
      value.json.asF64 = some n ∧ output =
        ⟨ThresholdNode.report (node.op.holdsWith ops (ops.cast n) node.threshold) (ops.cast n), 1⟩ := by
  unfold ThresholdNode.executeWith at executed
  have noNumber : Value.null.json.asF64 = none := rfl
  rw [payload, noNumber, Option.or_none] at executed
  cases first : input.parents.values.head?.bind fun v => v.json.asF64 with
  | none =>
      rw [first] at executed
      cases executed
  | some n =>
      rw [first] at executed
      rcases Option.bind_eq_some_iff.mp first with ⟨value, head, number⟩
      rcases (OrderedMap.mem_values_iff _ _).mp (List.mem_of_head? head) with ⟨parent, found⟩
      exact ⟨parent, value, n, found, number, (Except.ok.inj executed).symm⟩

/-! ## Runs of the library on the whole stack -/

/-- A successful attempt is an execution of its node.  The network may answer
every attempt differently, and attempts may fail at any time. -/
def LibraryAttempts (dag : Dag StdNode) (ops : FloatOps) (backend : HashBackend)
    (attempts : NodeInput -> UInt32 -> KernelResult NodeOutput -> Prop) : Prop :=
  forall input count output, attempts input count (.ok output) ->
    ∃ node client, dag.nodes[input.nodeId]? = some node ∧
      node.executeWith ops backend client input = .ok output

/-- The direct parents of a node. -/
def sources (dag : Dag StdNode) (node : NodeId) : Finset NodeId :=
  ((dag.parents node).map Edge.from).toFinset

theorem mem_sources {node source : NodeId} :
    source ∈ sources dag node ↔ ∃ edge ∈ dag.edges, edge.to = node ∧ edge.from = source := by
  unfold sources
  simp only [List.mem_toFinset, List.mem_map, Dag.mem_parents, and_assoc]

/-- A median and a threshold that reads nothing but this median. -/
structure Oracle (dag : Dag StdNode) (median verdict : NodeId) (threshold : ThresholdNode) :
    Prop where
  isMedian : dag.nodes[median]? = some .median
  isThreshold : dag.nodes[verdict]? = some (.threshold threshold)
  only : forall edge, edge ∈ dag.edges -> edge.to = verdict -> edge.from = median

/-- What an honest source delivers, whenever it delivers something, is read as a
float between the bounds. -/
def Truthful (attempts : NodeInput -> UInt32 -> KernelResult NodeOutput -> Prop)
    (rounding : Rounding) (source : NodeId) (low high : ℚ) : Prop :=
  forall input count output, input.nodeId = source -> attempts input count (.ok output) ->
    ∃ number, MedianNode.reading output.value.json = some number ∧
      low ≤ rounding.round number ∧ rounding.round number ≤ high

section Runs

variable {config : ResilienceConfig} {governor : Governor} {timer : Timer} {now : Instant}
  {attempts : NodeInput -> UInt32 -> KernelResult NodeOutput -> Prop} {state : TimedState governor}

/-- The run of the scheduler in a run of the stack. -/
theorem reaches_of_stack {P : Type} {dag : Dag P} (wellFormed : dag.WellFormed)
    (run : Reaches (TimedStep dag backend config governor timer attempts)
      (.start dag config governor now) state) :
    Reaches (Step dag backend (Reply config attempts)) (Scheduler.start dag) state.run := by
  rcases exists_traced_run run with ⟨history, traced⟩
  exact (Accounted.reachable wellFormed traced).run

/-- An output is the result of an attempt on the final input of its node. -/
theorem attempted_of_output (log : Log dag backend (Reply config attempts) state.run)
    {node : NodeId} {value : Value} (found : state.run.outputs[node]? = some value) :
    ∃ (output : NodeOutput) (count : UInt32), output.value = value ∧
      attempts (nodeInput dag state.run.outputs node) count (.ok output) := by
  rcases log.called_of_output found with ⟨output, same, reply, _listed⟩
  rcases reply.attempt_of_ok with ⟨count, attempted⟩
  exact ⟨output, count, same, attempted⟩

theorem executed_of_attempt (library : LibraryAttempts dag ops backend attempts) {id : NodeId}
    {node : StdNode} (declared : dag.nodes[id]? = some node)
    {outputs : BTreeMap NodeId Value} {count : UInt32} {output : NodeOutput}
    (attempted : attempts (nodeInput dag outputs id) count (.ok output)) :
    ∃ client, node.executeWith ops backend client (nodeInput dag outputs id) = .ok output := by
  rcases library _ _ _ attempted with ⟨other, client, same, executed⟩
  change dag.nodes[id]? = some other at same
  rw [declared] at same
  cases same
  exact ⟨client, executed⟩

/-- Every direct parent of a node with an output has an output, and it is in the
input of the node. -/
theorem parent_of_source (invariant : Invariant dag state.run) {node source : NodeId}
    (present : node ∈ state.run.outputs) (member : source ∈ sources dag node) :
    ∃ value : Value, state.run.outputs[source]? = some value ∧
      (nodeInput dag state.run.outputs node).parents[source]? = some value := by
  have wired := mem_sources.mp member
  rcases wired with ⟨edge, inEdges, target, rfl⟩
  rcases enabled_iff.mp (invariant.enabled_of_seen (invariant.seen_of_output present) inEdges
    target) with ⟨value, found, _condition⟩
  refine ⟨value, found, ?_⟩
  change (parentOutputs dag state.run.outputs node)[edge.from]? = some value
  rw [getElem?_parentOutputs, if_pos ⟨edge, inEdges, target, rfl⟩, found]

theorem source_of_parent {outputs : BTreeMap NodeId Value} {node parent : NodeId} {value : Value}
    (found : (nodeInput dag outputs node).parents[parent]? = some value) :
    parent ∈ sources dag node ∧ outputs[parent]? = some value := by
  change (parentOutputs dag outputs node)[parent]? = some value at found
  rw [getElem?_parentOutputs] at found
  split_ifs at found with wired
  exact ⟨mem_sources.mpr wired, found⟩

/-- The parents of an input that are not among the honest ones are sources. -/
theorem length_otherParents_le (outputs : BTreeMap NodeId Value) (node : NodeId)
    (honest : Finset NodeId) :
    (MedianNode.otherParents (nodeInput dag outputs node) honest).length ≤
      (sources dag node \ honest).card := by
  have distinct : (MedianNode.otherParents (nodeInput dag outputs node) honest).Nodup :=
    List.Nodup.filter _ Std.ExtTreeMap.nodup_keys
  rw [← List.toFinset_card_of_nodup distinct]
  apply Finset.card_le_card
  intro parent member
  rcases List.mem_filter.mp (List.mem_toFinset.mp member) with ⟨inside, other⟩
  rcases (OrderedMap.mem_iff_exists _ _).mp (Std.ExtTreeMap.mem_keys.mp inside) with
    ⟨value, found⟩
  exact Finset.mem_sdiff.mpr ⟨(source_of_parent found).1, of_decide_eq_true other⟩

/-- A number that a median node has delivered is a float in the range of its honest
sources. -/
theorem median_within {rounding : Rounding} {largest : ℚ} (wellFormed : dag.WellFormed)
    (library : LibraryAttempts dag (.rounded rounding largest) backend attempts)
    (run : Reaches (TimedStep dag backend config governor timer attempts)
      (.start dag config governor now) state)
    {median : NodeId} (declared : dag.nodes[median]? = some .median)
    {honest : Finset NodeId} (inside : honest ⊆ sources dag median)
    (majority : (sources dag median \ honest).card < honest.card) {low high : ℚ}
    (truthful : forall source, source ∈ honest -> Truthful attempts rounding source low high)
    {value : Value} (found : state.run.outputs[median]? = some value) {n : ℚ}
    (number : value.json.asF64 = some n) :
    rounding.Representable n ∧ low ≤ n ∧ n ≤ high := by
  have base := reaches_of_stack wellFormed run
  have log := Log.reachable wellFormed base
  have invariant := Invariant.reachable wellFormed base
  have present := OrderedMap.mem_of_getElem?_eq_some found
  rcases attempted_of_output log found with ⟨output, count, rfl, attempted⟩
  rcases executed_of_attempt library declared attempted with ⟨client, executed⟩
  rcases MedianNode.isMedian_of_execute executed number with ⟨representable, isMedian⟩
  have honestReading : forall source, source ∈ honest -> ∃ (delivered : Value) (reading : ℚ),
      (nodeInput dag state.run.outputs median).parents[source]? = some delivered ∧
      MedianNode.reading delivered.json = some reading ∧
      low ≤ rounding.round reading ∧ rounding.round reading ≤ high := by
    intro source member
    rcases parent_of_source invariant present (inside member) with ⟨delivered, stored, inParents⟩
    rcases attempted_of_output log stored with ⟨output, times, rfl, tried⟩
    rcases truthful source member _ times output rfl tried with ⟨reading, read, above, below⟩
    exact ⟨output.value, reading, inParents, read, above, below⟩
  have numeric : forall source, source ∈ honest ->
      source ∈ MedianNode.numericParents (nodeInput dag state.run.outputs median) := by
    intro source member
    rcases honestReading source member with ⟨delivered, reading, inParents, read, _bounds⟩
    apply MedianNode.mem_numericParents.mpr
    refine ⟨delivered, inParents, MedianNode.isSome_reading_iff.mp ?_⟩
    rw [read]
    rfl
  have fewer := (length_otherParents_le state.run.outputs median honest).trans_lt majority
  refine ⟨representable, MedianNode.between_of_majority isMedian numeric fewer ?_⟩
  intro source delivered reading member inParents read
  rcases honestReading source member with ⟨other, same, otherParents, otherRead, bounds⟩
  rw [inParents] at otherParents
  cases otherParents
  rw [read] at otherRead
  cases otherRead
  exact bounds

end Runs

/-- Every verdict rests on a number in the range of the honest sources, in every
reachable state of the whole stack, and so does every verdict that is announced.
Nothing is asked of the other sources. -/
theorem verdict_within (accepted : dag.Accepted) (backend : HashBackend) (rounding : Rounding)
    (largest : ℚ) (median verdict : NodeId) (threshold : ThresholdNode)
    (oracle : Oracle dag median verdict threshold) (config : ResilienceConfig)
    (governor : Governor) (timer : Timer) (now : Instant)
    (attempts : NodeInput -> UInt32 -> KernelResult NodeOutput -> Prop)
    (library : LibraryAttempts dag (.rounded rounding largest) backend attempts)
    (honest : Finset NodeId) (inside : honest ⊆ sources dag median)
    (majority : (sources dag median \ honest).card < honest.card) (low high : ℚ)
    (truthful : forall source, source ∈ honest -> Truthful attempts rounding source low high)
    (state : TimedState governor)
    (run : Reaches (TimedStep dag backend config governor timer attempts)
      (.start dag config governor now) state) :
    (forall value : Value, state.run.outputs[verdict]? = some value ->
      ∃ n, low ≤ n ∧ n ≤ high ∧ value = ThresholdNode.report
        (threshold.op.holdsWith (.rounded rounding largest) n threshold.threshold) n) ∧
    forall outcome, (verdict, outcome) ∈ completions state.run.events ->
      ∃ n, low ≤ n ∧ n ≤ high ∧ outcome = .success (hashJson backend (ThresholdNode.report
        (threshold.op.holdsWith (.rounded rounding largest) n threshold.threshold) n)) 1 := by
  have wellFormed := accepted.wellFormed
  have log := Log.reachable wellFormed (reaches_of_stack wellFormed run)
  have judged : forall (output : NodeOutput) (count : UInt32),
      attempts (nodeInput dag state.run.outputs verdict) count (.ok output) ->
      ∃ n, low ≤ n ∧ n ≤ high ∧ output = ⟨ThresholdNode.report
        (threshold.op.holdsWith (.rounded rounding largest) n threshold.threshold) n, 1⟩ := by
    intro output count attempted
    rcases executed_of_attempt library oracle.isThreshold attempted with ⟨client, executed⟩
    rcases ThresholdNode.parent_of_execute rfl executed with
      ⟨parent, value, n, inParents, number, same⟩
    rcases source_of_parent inParents with ⟨isSource, stored⟩
    rcases mem_sources.mp isSource with ⟨edge, member, target, rfl⟩
    rw [oracle.only edge member target] at stored
    rcases median_within wellFormed library run oracle.isMedian inside majority truthful stored
      number with ⟨representable, above, below⟩
    -- the median is a float already, so reading it does not round again
    have float : (FloatOps.rounded rounding largest).cast n = n := rounding.round_eq n representable
    rw [float] at same
    exact ⟨n, above, below, same⟩
  constructor
  · intro value found
    rcases attempted_of_output log found with ⟨output, count, rfl, attempted⟩
    rcases judged output count attempted with ⟨n, above, below, same⟩
    exact ⟨n, above, below, by rw [same]⟩
  · intro outcome listed
    rcases log.answered verdict outcome listed with ⟨output, _stored, reply, described⟩
    rcases reply.attempt_of_ok with ⟨count, attempted⟩
    rcases judged output count attempted with ⟨n, above, below, same⟩
    exact ⟨n, above, below, by rw [described, same]⟩

/-- The middle with a sort that evaluates. -/
def MedianNode.insertionMiddle (ops : FloatOps) (nums : List ℚ) : Option ℚ :=
  let sorted := nums.insertionSort (· ≤ ·)
  if nums.length % 2 = 1 then sorted[nums.length / 2]?
  else sorted[nums.length / 2 - 1]?.bind fun low =>
    sorted[nums.length / 2]?.bind fun high => (ops.add low high).map ops.half

theorem MedianNode.middle_eq_insertionMiddle (ops : FloatOps) {nums : List ℚ}
    (nonempty : nums ≠ []) : middle ops nums nonempty = insertionMiddle ops nums := by
  have same : ascending nums = nums.insertionSort (· ≤ ·) :=
    ascending_eq (List.pairwise_insertionSort _ nums) (List.perm_insertionSort _ nums)
  unfold insertionMiddle
  rcases middle_cases ops nonempty with ⟨half, entry, odd, found, answer⟩ |
    ⟨half, low, high, even, lowEntry, highEntry, answer⟩
  · have position : nums.length / 2 = half := by omega
    rw [if_pos (by omega), answer, position, ← same, found]
  · have first : nums.length / 2 - 1 = half := by omega
    have second : nums.length / 2 = half + 1 := by omega
    rw [if_neg (by omega), answer, first, second, ← same, lowEntry, highEntry]
    rfl

/-- The example workflow: the median of three prices against 3000. -/
def ethThreshold : Dag StdNode where
  id := 0
  name := "eth-threshold-3000"
  nodes := (((((∅ : BTreeMap NodeId StdNode).insert "p1" (.constant ⟨.ofFloat (some 2980)⟩)).insert
    "p2" (.constant ⟨.ofFloat (some 3050.5)⟩)).insert "p3"
    (.constant ⟨.ofFloat (some 3100)⟩)).insert "median" .median).insert "threshold"
    (.threshold (.gt 3000))
  edges := [⟨"p1", "median", .always⟩, ⟨"p2", "median", .always⟩, ⟨"p3", "median", .always⟩,
    ⟨"median", "threshold", .always⟩]

/-- The nodes of the example in floating point. -/
def ethSemantics : NodeSemantics := fun node parents =>
  let input : NodeInput :=
    { workflowId := 0, nodeId := node, payload := Value.null, parents := parents }
  match ethThreshold.nodes[node]? with
  | some (.constant node) => node.execute input
  | some .median =>
      let nums := (MedianNode.readings input).map FloatOps.f64.cast
      if nums = [] then .error (.invalidInput "no numeric parents for median")
      else .ok ⟨Value.ofFloat (MedianNode.insertionMiddle .f64 nums), 3⟩
  | some (.threshold node) => node.executeWith .f64 input
  | _ => .error (.nodeNotFound node)

def ethState : TimedState Governor.gcra :=
  (TimedState.start ethThreshold .default .gcra 0).drive ethThreshold .sample .default .linux
    ethSemantics 60

theorem ethThreshold_accepted : ethThreshold.Accepted := by
  refine ⟨"eth-threshold-3000", [.node "p1" (.constant ⟨.ofFloat (some 2980)⟩),
    .node "p2" (.constant ⟨.ofFloat (some 3050.5)⟩), .node "p3" (.constant ⟨.ofFloat (some 3100)⟩),
    .node "median" .median, .node "threshold" (.threshold (.gt 3000)),
    .edge "p1" "median" .always, .edge "p2" "median" .always, .edge "p3" "median" .always,
    .edge "median" "threshold" .always], 0, ?_⟩
  apply DagBuilder.build_ok
  · intro edge member
    change edge ∈ ethThreshold.edges at member
    simp only [ethThreshold, List.mem_cons, List.not_mem_nil, or_false] at member
    rw [DagBuilder.mem_ofCalls_nodes, DagBuilder.mem_ofCalls_nodes]
    rcases member with rfl | rfl | rfl | rfl <;> simp [DagBuilder.declaredIds]
  · have ranked : ethThreshold.graph.Ranked
        fun node => if node = "threshold" then 2 else if node = "median" then 1 else 0 := by
      rintro first second ⟨edge, member, rfl, rfl⟩
      have listed : edge ∈ ethThreshold.edges := member
      simp only [ethThreshold, List.mem_cons, List.not_mem_nil, or_false] at listed
      rcases listed with rfl | rfl | rfl | rfl <;> decide
    exact ranked.acyclic

/-- A threshold that succeeds without a payload does not look at the payload. -/
theorem ThresholdNode.executeWith_of_parents {node : ThresholdNode} {input : NodeInput}
    {output : NodeOutput} (workflowId : WorkflowId)
    (executed : node.executeWith ops ⟨workflowId, input.nodeId, Value.null, input.parents⟩ =
      .ok output) : node.executeWith ops input = .ok output := by
  unfold ThresholdNode.executeWith at executed ⊢
  cases first : input.parents.values.head?.bind fun v => v.json.asF64 with
  | none =>
      rw [first] at executed
      cases executed
  | some n =>
      rw [first] at executed
      exact executed

theorem ethSemantics_library :
    LibraryAttempts ethThreshold .f64 .sample (attemptsOf ethSemantics) := by
  intro input count output attempted
  change .ok output = ethSemantics input.nodeId input.parents at attempted
  unfold ethSemantics at attempted
  dsimp only at attempted
  cases declared : ethThreshold.nodes[input.nodeId]? with
  | none =>
      rw [declared] at attempted
      cases attempted
  | some node =>
      rw [declared] at attempted
      refine ⟨node, .offline, rfl, ?_⟩
      cases node with
      | constant node => exact attempted.symm
      | sha256 => cases attempted
      | httpFetch node => cases attempted
      | threshold node =>
          exact ThresholdNode.executeWith_of_parents 0 attempted.symm
      | median =>
          change MedianNode.executeWith .f64 input = .ok output
          change Except.ok output =
            (if (MedianNode.readings input).map FloatOps.f64.cast = [] then _ else _) at attempted
          split_ifs at attempted with empty
          rw [attempted, MedianNode.executeWith_eq, dif_neg empty,
            MedianNode.middle_eq_insertionMiddle .f64 empty]
          rfl

/-- A price of the example is what its source delivers. -/
theorem ethSemantics_price {source : NodeId} {node : ConstantNode}
    (declared : ethThreshold.nodes[source]? = some (.constant node)) {input : NodeInput}
    {count : UInt32} {output : NodeOutput} (named : input.nodeId = source)
    (attempted : attemptsOf ethSemantics input count (.ok output)) : output.value = node.value := by
  change .ok output = ethSemantics input.nodeId input.parents at attempted
  unfold ethSemantics at attempted
  dsimp only at attempted
  rw [named, declared] at attempted
  cases attempted
  rfl

theorem isF64_half (value : Nat) (small : value < 2 ^ 53) : IsF64 (value / 2) where
  representable := by
    refine ⟨value, -1, ?_, by norm_num, ?_⟩
    · rw [abs_of_nonneg (Int.natCast_nonneg value)]
      exact_mod_cast small
    · norm_num
      ring
  finite := by
    have whole := (isF64_natCast small).finite
    rw [abs_div, abs_two]
    have nonnegative : (0 : ℚ) ≤ |(value : ℚ)| := abs_nonneg _
    linarith

/-- The prices of the example and their sources. -/
def ethPrices : List (NodeId × ℚ) :=
  [("p1", 2980), ("p2", 3050.5), ("p3", 3100)]

theorem ethPrices_declared {entry : NodeId × ℚ} (member : entry ∈ ethPrices) :
    ethThreshold.nodes[entry.1]? = some (.constant ⟨.ofFloat (some entry.2)⟩) ∧ IsF64 entry.2 := by
  simp only [ethPrices, List.mem_cons, List.not_mem_nil, or_false] at member
  rcases member with rfl | rfl | rfl
  · have whole : IsF64 (2980 : ℕ) := isF64_natCast (by norm_num)
    exact ⟨by rfl, by exact_mod_cast whole⟩
  · have halved : IsF64 ((6101 : ℕ) / 2) := isF64_half 6101 (by norm_num)
    have same : ((6101 : ℕ) : ℚ) / 2 = 3050.5 := by norm_num
    rw [same] at halved
    exact ⟨by rfl, halved⟩
  · have whole : IsF64 (3100 : ℕ) := isF64_natCast (by norm_num)
    exact ⟨by rfl, by exact_mod_cast whole⟩

/-- Every attempt of a source of the example delivers its price. -/
theorem ethPrices_reading {entry : NodeId × ℚ} (member : entry ∈ ethPrices) {input : NodeInput}
    {count : UInt32} {output : NodeOutput} (named : input.nodeId = entry.1)
    (attempted : attemptsOf ethSemantics input count (.ok output)) :
    MedianNode.reading output.value.json = some entry.2 := by
  rw [ethSemantics_price (ethPrices_declared member).1 named attempted]
  rfl

/-- The two higher prices are honest: the bound is crossed, whatever the third
source says. -/
theorem verdict_within_ethThreshold :
    ∃ n : ℚ, 3050.5 ≤ n ∧ n ≤ 3100 ∧
      ethState.run.outputs["threshold"]? = some (ThresholdNode.report true n) := by
  have oracle : Oracle ethThreshold "median" "threshold" (.gt 3000) := {
    isMedian := by rfl
    isThreshold := by rfl
    only := by
      intro edge member target
      simp only [ethThreshold, List.mem_cons, List.not_mem_nil, or_false] at member
      rcases member with rfl | rfl | rfl | rfl
      · exact absurd target (by decide)
      · exact absurd target (by decide)
      · exact absurd target (by decide)
      · rfl }
  have truthful : forall source, source ∈ ({"p2", "p3"} : Finset NodeId) ->
      Truthful (attemptsOf ethSemantics) binary64 source 3050.5 3100 := by
    intro source member input count output named attempted
    rw [Finset.mem_insert, Finset.mem_singleton] at member
    rcases member with rfl | rfl
    · have listed : ("p2", 3050.5) ∈ ethPrices := by simp [ethPrices]
      refine ⟨3050.5, ethPrices_reading listed named attempted, ?_⟩
      rw [binary64.round_eq _ (ethPrices_declared listed).2.representable]
      norm_num
    · have listed : ("p3", 3100) ∈ ethPrices := by simp [ethPrices]
      refine ⟨3100, ethPrices_reading listed named attempted, ?_⟩
      rw [binary64.round_eq _ (ethPrices_declared listed).2.representable]
      norm_num
  have run : Reaches (TimedStep ethThreshold .sample .default .gcra .linux (attemptsOf ethSemantics))
      (.start ethThreshold .default .gcra 0) ethState := TimedState.drive_reaches 60 _
  have judged : (ethState.run.outputs["threshold"]?).isSome = true := by decide +kernel
  rcases Option.isSome_iff_exists.mp judged with ⟨value, found⟩
  rcases (verdict_within ethThreshold_accepted .sample binary64 f64Max "median" "threshold"
    (.gt 3000) oracle .default .gcra .linux 0 (attemptsOf ethSemantics) ethSemantics_library
    {"p2", "p3"} (by decide) (by decide) 3050.5 3100 truthful ethState run).1 value found with ⟨n, above, below, rfl⟩
  have crossed : Op.gt.holdsWith .f64 n 3000 = true := by
    apply decide_eq_true
    norm_num at above
    linarith only [above]
  refine ⟨n, above, below, ?_⟩
  rw [found]
  exact congrArg (fun ok => some (ThresholdNode.report ok n)) crossed

end Nodes
end KernelFlow
