import Mathlib
import KernelFlow.Core.Builder

namespace KernelFlow

/-!
# The sort proceeds level by level

The level of a node is the number of edges on the longest path that ends
there.  The queue of the sort holds nodes of at most two consecutive levels,
the lower one first, and none of them lies below a node already output.  A
node enters the queue when its last source is output, so one level above that
source.  Hence the output is sorted by level, and its level classes are
consecutive segments.
-/

/-! ## Lists sorted by a numbering -/

private theorem filter_lt_succ {α : Type} (rank : α -> Nat) (bound : Nat) {list : List α}
    (sorted : list.Pairwise fun first second => rank first ≤ rank second) :
    (list.filter fun entry => decide (rank entry < bound + 1)) =
      (list.filter fun entry => decide (rank entry < bound)) ++
        list.filter fun entry => decide (rank entry = bound) := by
  induction list with
  | nil => rfl
  | cons head tail inductionHypothesis =>
      have parts := List.pairwise_cons.mp sorted
      have split := inductionHypothesis parts.2
      rcases Nat.lt_trichotomy (rank head) bound with below | equal | above
      · rw [List.filter_cons_of_pos (by simp; omega), List.filter_cons_of_pos (by simpa using below),
          List.filter_cons_of_neg (by simp; omega), split]
        rfl
      · have empty : (tail.filter fun entry => decide (rank entry < bound)) = [] := by
          rw [List.filter_eq_nil_iff]
          intro entry member small
          have lower := parts.1 entry member
          rw [decide_eq_true_eq] at small
          omega
        rw [empty, List.nil_append] at split
        rw [List.filter_cons_of_pos (by simp; omega), List.filter_cons_of_neg (by simp; omega),
          List.filter_cons_of_pos (by simpa using equal), split, empty]
        rfl
      · rw [List.filter_cons_of_neg (by simp; omega), List.filter_cons_of_neg (by simp; omega),
          List.filter_cons_of_neg (by simp; omega), split]

/-- A sorted list is the concatenation of its classes of equal rank. -/
theorem flatten_classes {α : Type} (rank : α -> Nat) (bound : Nat) {list : List α}
    (sorted : list.Pairwise fun first second => rank first ≤ rank second)
    (bounded : forall entry, entry ∈ list -> rank entry < bound) :
    ((List.range bound).map fun index =>
      list.filter fun entry => decide (rank entry = index)).flatten = list := by
  have prefixes : forall count, ((List.range count).map fun index =>
      list.filter fun entry => decide (rank entry = index)).flatten =
        list.filter fun entry => decide (rank entry < count) := by
    intro count
    induction count with
    | zero => simp
    | succ count inductionHypothesis =>
        rw [List.range_succ, List.map_append, List.flatten_append, inductionHypothesis,
          filter_lt_succ rank count sorted]
        simp
  rw [prefixes bound, List.filter_eq_self]
  exact fun entry member => decide_eq_true (bounded entry member)

namespace Dag

variable {N : Type}

/-! ## The queue -/

/-- The loop over the edges of a node appends targets of these edges. -/
theorem releaseTargets_queue (rest : List Edge) {indeg lowered : Counters NodeId}
    {queue extended : List NodeId}
    (released : releaseTargets rest indeg queue = some (lowered, extended)) :
    ∃ added, extended = queue ++ added ∧
      forall node, node ∈ added -> ∃ edge ∈ rest, edge.to = node := by
  induction rest generalizing indeg queue with
  | nil =>
      rw [releaseTargets, Option.some.injEq, Prod.mk.injEq] at released
      exact ⟨[], by rw [List.append_nil, released.2], fun _node absent => by cases absent⟩
  | cons edge rest inductionHypothesis =>
      rw [releaseTargets] at released
      cases first : indeg.release queue edge.to with
      | none =>
          rw [first] at released
          cases released
      | some pair =>
          rw [first] at released
          rcases inductionHypothesis released with ⟨added, same, targets⟩
          have later : forall node, node ∈ added -> ∃ other ∈ edge :: rest, other.to = node := by
            intro node member
            rcases targets node member with ⟨other, inRest, target⟩
            exact ⟨other, List.mem_cons_of_mem _ inRest, target⟩
          rcases Counters.release_queue first with unchanged | appended
          · exact ⟨added, by rw [same, unchanged], later⟩
          · refine ⟨edge.to :: added, by rw [same, appended, List.append_assoc]; rfl, ?_⟩
            intro node member
            rcases List.mem_cons.mp member with rfl | inAdded
            · exact ⟨edge, List.mem_cons_self, rfl⟩
            · exact later node inAdded

/-- The levels of the nodes in output and queue increase, and those in the
queue differ by at most one. -/
structure LevelSorted (dag : Dag N) (queue out : List NodeId) : Prop where
  increasing : (out ++ queue).Pairwise fun first second =>
    dag.graph.level first ≤ dag.graph.level second
  narrow : queue.Pairwise fun first second =>
    dag.graph.level second ≤ dag.graph.level first + 1

namespace LevelSorted

variable {dag : Dag N} {keys : NodeId -> Prop} {indeg lowered : Counters NodeId}
  {queue extended out : List NodeId} {node : NodeId} {rank : NodeId -> Nat}

/-- Nodes without in-edges have level zero. -/
theorem initial (ranked : dag.graph.Ranked rank) : LevelSorted dag dag.inDegrees.zeros [] := by
  have zero : forall node, node ∈ dag.inDegrees.zeros -> dag.graph.level node = 0 := by
    intro node member
    have invariant := TopoInvariant.initial dag
    have consistent := invariant.consistent
    have due := (consistent.seen_iff_due (consistent.mem_counters member)).mp member
    refine Nat.le_zero.mp (ranked.level_le ?_)
    rintro earlier ⟨edge, inEdges, rfl, target⟩
    have notCounted := List.countP_eq_zero.mp due edge inEdges
    exact absurd (show edge.to = node from target) (by simpa using notCounted)
  constructor
  · refine List.pairwise_of_forall_mem_list fun first firstMember second secondMember => ?_
    rw [zero first firstMember]
    exact Nat.zero_le _
  · refine List.pairwise_of_forall_mem_list fun first _firstMember second secondMember => ?_
    rw [zero second secondMember]
    exact Nat.zero_le _

/-- A node that enters the queue in the turn of another one lies one level
above it. -/
theorem level_added (ranked : dag.graph.Ranked rank)
    (sorted : LevelSorted dag (node :: queue) out)
    (kept : TopoInvariant dag.edges keys lowered extended (out ++ [node]))
    {later : NodeId} (listed : later ∈ extended)
    (target : ∃ edge ∈ dag.edges, edge.from = node ∧ edge.to = later) :
    dag.graph.level later = dag.graph.level node + 1 := by
  apply Nat.le_antisymm
  · apply ranked.level_le
    rintro earlier ⟨edge, inEdges, rfl, same⟩
    -- All sources of the new node are in the output by now.
    have seen : later ∈ (out ++ [node]) ++ extended := List.mem_append_right _ listed
    have due := (kept.consistent.seen_iff_due (kept.consistent.mem_counters seen)).mp seen
    have notCounted := List.countP_eq_zero.mp due edge inEdges
    have source : edge.from ∈ out ++ [node] := by
      by_contra absent
      exact notCounted (by simpa [show edge.to = later from same] using absent)
    have below : dag.graph.level edge.from ≤ dag.graph.level node := by
      rcases List.mem_append.mp source with earlier | now
      · exact (List.pairwise_append.mp sorted.increasing).2.2 _ earlier node List.mem_cons_self
      · rw [List.mem_singleton.mp now]
    exact Nat.lt_succ_of_le below
  · rcases target with ⟨edge, inEdges, rfl, rfl⟩
    exact ranked.level_lt (dag.graph.adjacent_of_mem inEdges)

/-- One turn of the loop keeps the order. -/
theorem turn (ranked : dag.graph.Ranked rank) (sorted : LevelSorted dag (node :: queue) out)
    (kept : TopoInvariant dag.edges keys lowered extended (out ++ [node]))
    (released : releaseTargets (dag.edges.filter fun edge => edge.from == node) indeg queue =
      some (lowered, extended)) : LevelSorted dag extended (out ++ [node]) := by
  rcases releaseTargets_queue _ released with ⟨added, rfl, targets⟩
  have level : forall later, later ∈ added ->
      dag.graph.level later = dag.graph.level node + 1 := by
    intro later member
    rcases targets later member with ⟨edge, inFilter, target⟩
    have parts := List.mem_filter.mp inFilter
    exact sorted.level_added ranked kept (List.mem_append_right _ member)
      ⟨edge, parts.1, by simpa using parts.2, target⟩
  have old : ((out ++ [node]) ++ queue).Pairwise fun first second =>
      dag.graph.level first ≤ dag.graph.level second := by
    rw [← List.append_cons]
    exact sorted.increasing
  have head := List.pairwise_cons.mp sorted.narrow
  have first := List.pairwise_cons.mp (List.pairwise_append.mp sorted.increasing).2.1
  constructor
  · rw [← List.append_assoc]
    refine List.pairwise_append.mpr ⟨old, ?_, ?_⟩
    · refine List.pairwise_of_forall_mem_list fun one oneMember other otherMember => ?_
      rw [level one oneMember, level other otherMember]
    · intro one oneMember other otherMember
      rw [level other otherMember]
      rcases List.mem_append.mp oneMember with inOut | inQueue
      · have below : dag.graph.level one ≤ dag.graph.level node := by
          rcases List.mem_append.mp inOut with earlier | now
          · exact (List.pairwise_append.mp sorted.increasing).2.2 _ earlier node List.mem_cons_self
          · rw [List.mem_singleton.mp now]
        exact Nat.le_succ_of_le below
      · exact head.1 one inQueue
  · refine List.pairwise_append.mpr ⟨head.2, ?_, ?_⟩
    · refine List.pairwise_of_forall_mem_list fun one oneMember other otherMember => ?_
      rw [level one oneMember, level other otherMember]
      exact Nat.le_succ _
    · intro one oneMember other otherMember
      rw [level other otherMember]
      exact Nat.succ_le_succ (first.1 one oneMember)

end LevelSorted

theorem topoLoop_levelSorted {dag : Dag N} {keys : NodeId -> Prop} {rank : NodeId -> Nat}
    (ranked : dag.graph.Ranked rank) (targets : forall edge, edge ∈ dag.edges -> keys edge.to)
    (turns : Nat) {indeg : Counters NodeId} {queue out final : List NodeId}
    (invariant : TopoInvariant dag.edges keys indeg queue out)
    (sorted : LevelSorted dag queue out)
    (finished : topoLoop dag.edges turns indeg queue out = some final) :
    final.Pairwise fun first second => dag.graph.level first ≤ dag.graph.level second := by
  induction turns generalizing indeg queue out with
  | zero => cases finished
  | succ turns inductionHypothesis =>
      cases queue with
      | nil =>
          rw [topoLoop, Option.some.injEq] at finished
          rw [← finished, ← List.append_nil out]
          exact sorted.increasing
      | cons node queue =>
          rcases invariant.turn targets with ⟨lowered, extended, released, kept⟩
          rw [topoLoop, released] at finished
          exact inductionHypothesis kept (sorted.turn ranked kept released) finished

/-- The sort of an acyclic graph lists the nodes by level. -/
theorem topoSort_levelSorted {dag : Dag N} (acyclic : ∃ rank, dag.graph.Ranked rank)
    {order : List NodeId} (sorted : dag.topoSort = some (.ok order)) :
    order.Pairwise fun first second => dag.graph.level first ≤ dag.graph.level second := by
  rcases acyclic with ⟨rank, ranked⟩
  rw [topoSort] at sorted
  cases looped : topoLoop dag.edges (dag.inDegrees.size + 1) dag.inDegrees dag.inDegrees.zeros [] with
  | none =>
      rw [looped] at sorted
      cases sorted
  | some out =>
      rw [looped, Option.some.injEq] at sorted
      split at sorted
      · cases sorted
      · rw [Except.ok.injEq] at sorted
        exact sorted ▸ topoLoop_levelSorted ranked
          (fun edge member => (mem_inDegrees dag edge.to).mpr (Or.inr ⟨edge, member, rfl⟩))
          _ (TopoInvariant.initial dag) (.initial ranked) looped

end Dag
end KernelFlow
