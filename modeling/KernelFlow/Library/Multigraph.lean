import Mathlib

universe u v

/-!
# Finite directed multigraphs given by an edge list

Edges are kept as a list of records with a source and a target, so that two
parallel edges remain two entries.  Cycles, topological orders and longest
paths only see the induced adjacency relation and therefore ignore both the
order and the multiplicity of the list.

Two facts carry the algorithms that are verified against this module.  A
nonempty finite set in which everybody has a predecessor contains a cycle;
and the length of the longest path into a vertex is determined by its direct
predecessors as soon as some numbering increases along every edge.
-/

/-- A multigraph on `ν` whose edge records have type `ε`. -/
structure Multigraph (ν : Type u) (ε : Type v) where
  edges : List ε
  source : ε -> ν
  target : ε -> ν

namespace Multigraph

variable {ν : Type u} {ε : Type v} (graph : Multigraph ν ε)

/-- Some edge leads from the first vertex to the second. -/
def Adjacent (first second : ν) : Prop :=
  ∃ edge ∈ graph.edges, graph.source edge = first ∧ graph.target edge = second

theorem adjacent_of_mem {edge : ε} (member : edge ∈ graph.edges) :
    graph.Adjacent (graph.source edge) (graph.target edge) :=
  ⟨edge, member, rfl, rfl⟩

/-- No vertex reaches itself along one or more edges.  A self-loop is a
cycle of length one; parallel edges are not a cycle. -/
def Acyclic : Prop :=
  forall vertex, ¬ Relation.TransGen graph.Adjacent vertex vertex

/-- The numbering strictly increases along every edge. -/
def Ranked (rank : ν -> Nat) : Prop :=
  forall first second, graph.Adjacent first second -> rank first < rank second

variable {graph}

theorem Ranked.lt_of_transGen {rank : ν -> Nat} (ranked : graph.Ranked rank)
    {first second : ν} (connected : Relation.TransGen graph.Adjacent first second) :
    rank first < rank second := by
  induction connected with
  | single edge => exact ranked _ _ edge
  | tail _earlier edge inductionHypothesis =>
      exact Nat.lt_trans inductionHypothesis (ranked _ _ edge)

theorem Ranked.acyclic {rank : ν -> Nat} (ranked : graph.Ranked rank) : graph.Acyclic :=
  fun _vertex cycle => Nat.lt_irrefl _ (ranked.lt_of_transGen cycle)

/-- Walking backwards inside a finite set in which nobody lacks a predecessor
must close a cycle. -/
theorem exists_cycle_of_predecessors (remaining : List ν) (nonempty : remaining ≠ [])
    (predecessor : forall vertex, vertex ∈ remaining ->
      ∃ earlier ∈ remaining, graph.Adjacent earlier vertex) :
    ∃ vertex ∈ remaining, Relation.TransGen graph.Adjacent vertex vertex := by
  by_contra none
  have acyclic : forall vertex, vertex ∈ remaining ->
      ¬ Relation.TransGen graph.Adjacent vertex vertex :=
    fun vertex member cycle => none ⟨vertex, member, cycle⟩
  let below : {vertex // vertex ∈ remaining} -> {vertex // vertex ∈ remaining} -> Prop :=
    fun first second => Relation.TransGen graph.Adjacent first.val second.val
  have : Finite {vertex // vertex ∈ remaining} := List.finite_toSet remaining
  have : IsTrans _ below := ⟨fun _ _ _ left right => left.trans right⟩
  have : Std.Irrefl below := ⟨fun vertex => acyclic vertex.val vertex.property⟩
  rcases List.exists_mem_of_ne_nil remaining nonempty with ⟨start, member⟩
  rcases (Finite.wellFounded_of_trans_of_irrefl below).has_min Set.univ
    ⟨⟨start, member⟩, trivial⟩ with ⟨least, _, minimal⟩
  rcases predecessor least.val least.property with ⟨earlier, inside, edge⟩
  exact minimal ⟨earlier, inside⟩ trivial (Relation.TransGen.single edge)

/-! ## Topological orders -/

/-- A duplicate-free enumeration of the vertices in which the source of every
edge stands before its target. -/
structure IsTopologicalOrder (graph : Multigraph ν ε) (vertices : ν -> Prop)
    (order : List ν) : Prop where
  nodup : order.Nodup
  mem_iff : forall vertex, vertex ∈ order ↔ vertices vertex
  precedes : forall edge, edge ∈ graph.edges ->
    [graph.source edge, graph.target edge].Sublist order

/-- In a duplicate-free list, standing before means having a smaller index. -/
theorem idxOf_lt_of_sublist [DecidableEq ν] {order : List ν} (nodup : order.Nodup)
    {first second : ν} (before : [first, second].Sublist order) :
    order.idxOf first < order.idxOf second := by
  induction order with
  | nil => cases before
  | cons head tail inductionHypothesis =>
      have parts := List.nodup_cons.mp nodup
      cases before with
      | cons _ later =>
          have members := later.subset
          have firstNe : head ≠ first := fun same =>
            parts.1 (same ▸ members List.mem_cons_self)
          have secondNe : head ≠ second := fun same =>
            parts.1 (same ▸ members (List.mem_cons_of_mem _ List.mem_cons_self))
          rw [List.idxOf_cons_ne _ firstNe, List.idxOf_cons_ne _ secondNe]
          exact Nat.succ_lt_succ (inductionHypothesis parts.2 later)
      | cons_cons _ rest =>
          have member : second ∈ tail := rest.subset List.mem_cons_self
          have different : first ≠ second := fun same => parts.1 (same ▸ member)
          rw [List.idxOf_cons_self, List.idxOf_cons_ne _ different]
          exact Nat.succ_pos _

/-- Positions in a topological order are a ranking. -/
theorem IsTopologicalOrder.ranked [DecidableEq ν] {vertices : ν -> Prop} {order : List ν}
    (topological : graph.IsTopologicalOrder vertices order) :
    graph.Ranked (fun vertex => order.idxOf vertex) := by
  rintro first second ⟨edge, member, rfl, rfl⟩
  exact idxOf_lt_of_sublist topological.nodup (topological.precedes edge member)

/-! ## Longest paths -/

/-- A path with the given number of edges ends at the vertex. -/
inductive PathTo (graph : Multigraph ν ε) : ν -> Nat -> Prop
  | here (vertex : ν) : PathTo graph vertex 0
  | step {first second : ν} {length : Nat} (path : PathTo graph first length)
      (edge : graph.Adjacent first second) : PathTo graph second (length + 1)

/-- The number of edges on the longest path ending at the vertex. -/
noncomputable def level (graph : Multigraph ν ε) (vertex : ν) : Nat :=
  sSup {length | graph.PathTo vertex length}

theorem Ranked.length_le {rank : ν -> Nat} (ranked : graph.Ranked rank) {vertex : ν}
    {length : Nat} (path : graph.PathTo vertex length) : length ≤ rank vertex := by
  induction path with
  | here => exact Nat.zero_le _
  | step _path edge inductionHypothesis =>
      exact Nat.succ_le_of_lt (Nat.lt_of_le_of_lt inductionHypothesis (ranked _ _ edge))

/-- Under a ranking the supremum is a maximum: the longest path exists. -/
theorem Ranked.level_isGreatest {rank : ν -> Nat} (ranked : graph.Ranked rank) (vertex : ν) :
    IsGreatest {length | graph.PathTo vertex length} (graph.level vertex) := by
  have bounded : BddAbove {length | graph.PathTo vertex length} :=
    ⟨rank vertex, fun _length path => ranked.length_le path⟩
  exact ⟨Nat.sSup_mem ⟨0, PathTo.here vertex⟩ bounded, fun _length path => le_csSup bounded path⟩

theorem Ranked.level_lt {rank : ν -> Nat} (ranked : graph.Ranked rank) {first second : ν}
    (edge : graph.Adjacent first second) : graph.level first < graph.level second :=
  (ranked.level_isGreatest second).2 (PathTo.step (ranked.level_isGreatest first).1 edge)

/-- A bound on the levels of all direct predecessors bounds the level. -/
theorem Ranked.level_le {rank : ν -> Nat} (ranked : graph.Ranked rank) {vertex : ν} {bound : Nat}
    (predecessors : forall earlier, graph.Adjacent earlier vertex -> graph.level earlier < bound) :
    graph.level vertex ≤ bound := by
  have longest := (ranked.level_isGreatest vertex).1
  revert longest
  generalize graph.level vertex = length
  intro longest
  cases longest with
  | here => exact Nat.zero_le _
  | step path edge =>
      exact Nat.succ_le_of_lt (Nat.lt_of_le_of_lt
        ((ranked.level_isGreatest _).2 path) (predecessors _ edge))

/-- Only the adjacency relation matters: reordering or duplicating edges
leaves every level unchanged. -/
theorem level_congr {other : Multigraph ν ε}
    (same : forall first second, graph.Adjacent first second ↔ other.Adjacent first second)
    (vertex : ν) : graph.level vertex = other.level vertex := by
  have transport : forall {left right : Multigraph ν ε},
      (forall first second, left.Adjacent first second -> right.Adjacent first second) ->
      forall {vertex length}, left.PathTo vertex length -> right.PathTo vertex length := by
    intro left right included vertex length path
    induction path with
    | here => exact PathTo.here _
    | step _path edge inductionHypothesis => exact inductionHypothesis.step (included _ _ edge)
  unfold level
  congr 1
  ext length
  exact ⟨transport fun first second => (same first second).mp,
    transport fun first second => (same first second).mpr⟩

end Multigraph
