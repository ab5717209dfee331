import Mathlib
import KernelFlow.Core.TopoSort

namespace KernelFlow
namespace Dag

/-!
# What the topological sort lists

A key of the sort is a declared node or the target of some edge.  A key gets
sorted exactly when everything that reaches it is a key and lies on no cycle:
an edge from an undeclared source never fires, and neither does an edge out of
a cycle.  This holds of every graph value, since the sort itself looks at no
declaration.

The length test that decides between success and `CycleDetected` compares the
number of sorted keys with the number of declared nodes.  With declared
endpoints the two agree exactly on the acyclic graphs.  With an undeclared
endpoint a sorted key outside the map can stand in for a declared node that
was not sorted, and an acyclic graph can fall short.
-/

variable {N : Type}

/-- The entries of the in-degree map. -/
def SortKey (dag : Dag N) (node : NodeId) : Prop :=
  node ∈ dag.nodes ∨ ∃ edge ∈ dag.edges, edge.to = node

/-- All that reaches the node, itself included, is a key and on no cycle. -/
def Sortable (dag : Dag N) (node : NodeId) : Prop :=
  forall earlier, Relation.ReflTransGen dag.graph.Adjacent earlier node ->
    dag.SortKey earlier ∧ ¬ Relation.TransGen dag.graph.Adjacent earlier earlier

/-- A list that contains the source of every edge into it contains all that
reaches its members. -/
private theorem mem_of_reaches {dag : Dag N} {out : List NodeId}
    (ordered : forall edge, edge ∈ dag.edges -> edge.to ∈ out -> [edge.from, edge.to].Sublist out)
    {earlier node : NodeId} (connected : Relation.ReflTransGen dag.graph.Adjacent earlier node)
    (member : node ∈ out) : earlier ∈ out := by
  induction connected with
  | refl => exact member
  | tail _path adjacent inductionHypothesis =>
      rcases adjacent with ⟨edge, inEdges, rfl, rfl⟩
      exact inductionHypothesis ((ordered edge inEdges member).subset List.mem_cons_self)

/-- Positions in the list increase along every path to a member. -/
private theorem idxOf_lt_of_path {dag : Dag N} {out : List NodeId} (nodup : out.Nodup)
    (ordered : forall edge, edge ∈ dag.edges -> edge.to ∈ out -> [edge.from, edge.to].Sublist out)
    {first last : NodeId} (path : Relation.TransGen dag.graph.Adjacent first last)
    (listed : last ∈ out) : out.idxOf first < out.idxOf last := by
  induction path with
  | single adjacent =>
      rcases adjacent with ⟨edge, inEdges, rfl, rfl⟩
      exact Multigraph.idxOf_lt_of_sublist nodup (ordered edge inEdges listed)
  | tail _path adjacent inductionHypothesis =>
      rcases adjacent with ⟨edge, inEdges, rfl, rfl⟩
      have before := ordered edge inEdges listed
      exact Nat.lt_trans (inductionHypothesis (before.subset List.mem_cons_self))
        (Multigraph.idxOf_lt_of_sublist nodup before)

private theorem sortable_of_mem {dag : Dag N} {out : List NodeId} (nodup : out.Nodup)
    (keys : forall node, node ∈ out -> node ∈ dag.inDegrees)
    (ordered : forall edge, edge ∈ dag.edges -> edge.to ∈ out -> [edge.from, edge.to].Sublist out)
    {node : NodeId} (member : node ∈ out) : dag.Sortable node := by
  intro earlier connected
  have inside := mem_of_reaches ordered connected member
  refine ⟨(mem_inDegrees dag earlier).mp (keys earlier inside), ?_⟩
  intro cycle
  exact Nat.lt_irrefl _ (idxOf_lt_of_path nodup ordered cycle inside)

/-- The unlisted keys that reach an unlisted sortable node would have
predecessors among themselves, and so a cycle. -/
private theorem mem_of_sortable {dag : Dag N} {out : List NodeId}
    (closed : forall node, node ∈ dag.inDegrees ->
      (forall edge, edge ∈ dag.edges -> edge.to = node -> edge.from ∈ out) -> node ∈ out)
    {node : NodeId} (sortable : dag.Sortable node) : node ∈ out := by
  by_contra absent
  have finite : {key | key ∈ dag.inDegrees ∧ key ∉ out ∧
      Relation.ReflTransGen dag.graph.Adjacent key node}.Finite :=
    (List.finite_toSet dag.inDegrees.keys).subset
      fun key member => Std.ExtTreeMap.mem_keys.mpr member.1
  have inKeys : forall key, Relation.ReflTransGen dag.graph.Adjacent key node ->
      key ∈ dag.inDegrees :=
    fun key connected => (mem_inDegrees dag key).mpr (sortable key connected).1
  have listed : forall {key}, key ∈ finite.toFinset.toList ↔ key ∈ dag.inDegrees ∧ key ∉ out ∧
      Relation.ReflTransGen dag.graph.Adjacent key node :=
    Finset.mem_toList.trans finite.mem_toFinset
  have preceded : forall vertex, vertex ∈ finite.toFinset.toList ->
      ∃ earlier ∈ finite.toFinset.toList, dag.graph.Adjacent earlier vertex := by
    intro vertex member
    rcases listed.mp member with ⟨isKey, unlisted, connected⟩
    by_contra alone
    apply unlisted
    apply closed vertex isKey
    rintro edge inEdges rfl
    by_contra sourceUnlisted
    have adjacent := dag.graph.adjacent_of_mem inEdges
    have reaches := Relation.ReflTransGen.head adjacent connected
    exact alone ⟨edge.from, listed.mpr ⟨inKeys _ reaches, sourceUnlisted, reaches⟩, adjacent⟩
  rcases Multigraph.exists_cycle_of_predecessors _
    (List.ne_nil_of_mem (listed.mpr ⟨inKeys node .refl, absent, .refl⟩)) preceded with
    ⟨vertex, member, cycle⟩
  exact (sortable vertex (listed.mp member).2.2).2 cycle

/-- The sort of an arbitrary graph value never fails an unwrap or a
subtraction, and before the length test it has listed the sortable keys. -/
theorem topoSort_lists_sortable (dag : Dag N) :
    ∃ out : List NodeId,
      dag.topoSort = some (if out.length ≠ dag.nodes.size then .error .cycleDetected else .ok out) ∧
      out.Nodup ∧ (forall node, node ∈ out ↔ dag.Sortable node) ∧
      (forall edge, edge ∈ dag.edges -> edge.to ∈ out -> [edge.from, edge.to].Sublist out) := by
  rcases topoSort_output dag with ⟨out, result, nodup, keys, closed, ordered⟩
  refine ⟨out, result, nodup, fun node => ⟨?_, ?_⟩, ordered⟩
  · exact sortable_of_mem nodup keys ordered
  · exact mem_of_sortable closed

/-- Where every endpoint is declared, the keys are the nodes, and a node is
sortable as soon as the graph has no cycle. -/
theorem sortable_iff (dag : Dag N)
    (fromDeclared : forall edge, edge ∈ dag.edges -> edge.from ∈ dag.nodes)
    (toDeclared : forall edge, edge ∈ dag.edges -> edge.to ∈ dag.nodes)
    (acyclic : dag.graph.Acyclic) (node : NodeId) : dag.Sortable node ↔ node ∈ dag.nodes := by
  have declared : forall key, dag.SortKey key -> key ∈ dag.nodes := by
    rintro key (inside | ⟨edge, inEdges, rfl⟩)
    · exact inside
    · exact toDeclared edge inEdges
  constructor
  · exact fun sortable => declared node (sortable node .refl).1
  · intro inside earlier connected
    refine ⟨Or.inl ?_, acyclic earlier⟩
    rcases connected.cases_head with rfl | ⟨_, ⟨edge, inEdges, rfl, _⟩, _⟩
    · exact inside
    · exact fromDeclared edge inEdges

/-! ## Graphs with declared endpoints -/

/-- On a graph with declared endpoints a successful sort is a topological
order, so the graph has no cycle. -/
theorem topoSort_ok (dag : Dag N)
    (fromDeclared : forall edge, edge ∈ dag.edges -> edge.from ∈ dag.nodes)
    (toDeclared : forall edge, edge ∈ dag.edges -> edge.to ∈ dag.nodes)
    (acyclic : dag.graph.Acyclic) :
    ∃ order, dag.topoSort = some (.ok order) ∧
      dag.graph.IsTopologicalOrder (fun node => node ∈ dag.nodes) order := by
  rcases topoSort_lists_sortable dag with ⟨out, result, nodup, sortable, ordered⟩
  have listed : forall node, node ∈ out ↔ node ∈ dag.nodes :=
    fun node => (sortable node).trans (sortable_iff dag fromDeclared toDeclared acyclic node)
  have permuted : out.Perm dag.nodes.keys := by
    rw [List.perm_ext_iff_of_nodup nodup Std.ExtTreeMap.nodup_keys]
    exact fun node => (listed node).trans Std.ExtTreeMap.mem_keys.symm
  have sameLength : out.length = dag.nodes.size := by
    rw [permuted.length_eq, Std.ExtTreeMap.length_keys]
  refine ⟨out, by rw [result, if_neg (not_not.mpr sameLength)], nodup, listed, ?_⟩
  exact fun edge member => ordered edge member ((listed _).mpr (toDeclared edge member))

/-- A cyclic graph with declared endpoints is refused. -/
theorem topoSort_cycle (dag : Dag N)
    (toDeclared : forall edge, edge ∈ dag.edges -> edge.to ∈ dag.nodes)
    (cyclic : ¬ dag.graph.Acyclic) : dag.topoSort = some (.error .cycleDetected) := by
  rcases topoSort_lists_sortable dag with ⟨out, result, nodup, sortable, _ordered⟩
  rw [result, if_pos]
  intro sameLength
  apply cyclic
  have inNodes : forall node, node ∈ out -> node ∈ dag.nodes := by
    intro node member
    rcases ((sortable node).mp member node .refl).1 with here | ⟨edge, inEdges, rfl⟩
    · exact here
    · exact toDeclared edge inEdges
  have permuted : out.Perm dag.nodes.keys := by
    apply (nodup.subperm fun node member =>
      Std.ExtTreeMap.mem_keys.mpr (inNodes node member)).perm_of_length_le
    rw [Std.ExtTreeMap.length_keys, sameLength]
  intro vertex cycle
  rcases Relation.TransGen.tail'_iff.mp cycle with ⟨_, _, edge, inEdges, _, target⟩
  have declared : vertex ∈ dag.nodes := target ▸ toDeclared edge inEdges
  have listed := permuted.mem_iff.mpr (Std.ExtTreeMap.mem_keys.mpr declared)
  exact ((sortable vertex).mp listed vertex .refl).2 cycle

/-! ## Any graph value -/

/-- What the documentation of the sort promises: an order of exactly the
declared nodes, and a cycle behind every refusal. -/
def SortSound (dag : Dag N) : Prop :=
  ∃ result, dag.topoSort = some result ∧
    (forall order, result = .ok order ->
      dag.graph.IsTopologicalOrder (fun node => node ∈ dag.nodes) order ∧ dag.graph.Acyclic) ∧
    forall error, result = .error error ->
      error = .cycleDetected ∧ ∃ vertex, Relation.TransGen dag.graph.Adjacent vertex vertex

private theorem exists_cycle {dag : Dag N} (cyclic : ¬ dag.graph.Acyclic) :
    ∃ vertex, Relation.TransGen dag.graph.Adjacent vertex vertex := by
  by_contra none
  exact cyclic fun vertex cycle => none ⟨vertex, cycle⟩

/-- The sort never panics.  It keeps its promise exactly on the graphs whose
endpoints are all declared and on those that have a cycle and do not have as
many sortable keys as declared nodes. -/
theorem sortSound_iff (dag : Dag N) :
    dag.topoSort.isSome = true ∧
      (dag.SortSound ↔
        (forall edge, edge ∈ dag.edges -> edge.from ∈ dag.nodes ∧ edge.to ∈ dag.nodes) ∨
        ((∃ vertex, Relation.TransGen dag.graph.Adjacent vertex vertex) ∧
          {node | dag.Sortable node}.ncard ≠ dag.nodes.size)) := by
  rcases topoSort_lists_sortable dag with ⟨out, result, nodup, sortable, ordered⟩
  have counted : {node | dag.Sortable node}.ncard = out.length := by
    have same : {node | dag.Sortable node} = (out.toFinset : Set NodeId) := by
      ext node
      simp [sortable node]
    rw [same, Set.ncard_coe_finset, List.toFinset_card_of_nodup nodup]
  refine ⟨by rw [result]; rfl, ?_, ?_⟩
  · rintro ⟨_, computed, sound, refused⟩
    rw [result, Option.some.injEq] at computed
    subst computed
    by_cases sameLength : out.length = dag.nodes.size
    · rw [if_neg (not_not.mpr sameLength)] at sound
      have topological := (sound out rfl).1
      refine Or.inl fun edge member => ?_
      have members := (topological.precedes edge member).subset
      exact ⟨(topological.mem_iff _).mp (members List.mem_cons_self),
        (topological.mem_iff _).mp (members (List.mem_cons_of_mem _ List.mem_cons_self))⟩
    · rw [if_pos sameLength] at refused
      exact Or.inr ⟨(refused _ rfl).2, counted ▸ sameLength⟩
  · rintro (declared | ⟨cyclic, different⟩)
    · by_cases acyclic : dag.graph.Acyclic
      · rcases topoSort_ok dag (fun edge member => (declared edge member).1)
          (fun edge member => (declared edge member).2) acyclic with ⟨order, sorted, topological⟩
        refine ⟨_, sorted, ?_, by rintro error ⟨⟩⟩
        rintro _ ⟨⟩
        exact ⟨topological, acyclic⟩
      · refine ⟨_, topoSort_cycle dag (fun edge member => (declared edge member).2) acyclic,
          by rintro order ⟨⟩, ?_⟩
        rintro _ ⟨⟩
        exact ⟨rfl, exists_cycle acyclic⟩
    · rw [counted] at different
      refine ⟨_, result, ?_, ?_⟩
      · rw [if_pos different]
        rintro order ⟨⟩
      · rw [if_pos different]
        rintro _ ⟨⟩
        exact ⟨rfl, cyclic⟩

/-- Two declared nodes, a self-loop on the second and an edge from the first
to a node that is not declared. -/
def crossed : Dag Unit where
  id := 0
  name := "crossed"
  nodes := ((∅ : BTreeMap NodeId Unit).insert "a" ()).insert "b" ()
  edges := [⟨"b", "b", .always⟩, ⟨"a", "x", .always⟩]

/-- The undeclared target stands in for the node on the cycle: the sort
succeeds on a cyclic graph and lists a node that does not exist. -/
theorem crossed_sorted : crossed.topoSort = some (.ok ["a", "x"]) ∧ ¬ crossed.SortSound := by
  have sorted : crossed.topoSort = some (.ok ["a", "x"]) := by decide
  refine ⟨sorted, ?_⟩
  rintro ⟨result, computed, sound, _refused⟩
  rw [sorted, Option.some.injEq] at computed
  have cycle : crossed.graph.Adjacent "b" "b" := ⟨_, List.mem_cons_self, rfl, rfl⟩
  exact (sound _ computed.symm).2 "b" (.single cycle)

end Dag
end KernelFlow
