import Mathlib
import KernelFlow.Core.Sortable

namespace KernelFlow

/-!
# What the builder accepts

`build` succeeds exactly on the well-formed acyclic graphs.  Soundness reads a
ranking off the sorted order; completeness turns a leftover node of the sort
into a directed cycle.  The specification speaks about the sequence of builder
calls: the ids that were declared, the edges that were inserted, and the list
of endpoints in insertion order.
-/

namespace DagBuilder

variable {N : Type}

/-! ## Sequences of calls -/

/-- The ids declared by a sequence of calls, repetitions included. -/
def declaredIds (calls : List (Call N)) : List NodeId :=
  calls.filterMap fun call => match call with
    | .node id _ => some id
    | .edge _ _ _ => none

/-- The edges inserted by a sequence of calls, in insertion order. -/
def insertedEdges (calls : List (Call N)) : List Edge :=
  calls.filterMap fun call => match call with
    | .node _ _ => none
    | .edge source target condition => some ⟨source, target, condition⟩

/-- The graph spelled out by a sequence of calls. -/
def callGraph (calls : List (Call N)) : Multigraph NodeId Edge where
  edges := insertedEdges calls
  source := Edge.from
  target := Edge.to

/-- The endpoints of the inserted edges: insertion order, source first. -/
def endpoints (calls : List (Call N)) : List NodeId :=
  (insertedEdges calls).flatMap fun edge => [edge.from, edge.to]

private theorem foldl_apply (calls : List (Call N)) (builder : DagBuilder N) :
    (calls.foldl apply builder).edges = builder.edges ++ insertedEdges calls ∧
    forall id, id ∈ (calls.foldl apply builder).nodes ↔
      id ∈ builder.nodes ∨ id ∈ declaredIds calls := by
  induction calls generalizing builder with
  | nil => simp [insertedEdges, declaredIds]
  | cons call calls inductionHypothesis =>
      rw [List.foldl_cons]
      have rest := inductionHypothesis (builder.apply call)
      cases call with
      | node key payload =>
          refine ⟨rest.1, fun id => ?_⟩
          rw [rest.2 id]
          change id ∈ builder.nodes.insert key payload ∨ _ ↔ _ ∨ id ∈ key :: declaredIds calls
          rw [OrderedMap.mem_insert_eq, List.mem_cons, eq_comm (a := key)]
          tauto
      | edge source target condition =>
          refine ⟨?_, fun id => rest.2 id⟩
          rw [rest.1]
          change (builder.edges ++ [_]) ++ _ = builder.edges ++ (_ :: insertedEdges calls)
          rw [List.append_assoc]
          rfl

@[simp] theorem ofCalls_edges (name : String) (calls : List (Call N)) :
    (ofCalls name calls).edges = insertedEdges calls := by
  have edges := (foldl_apply calls (new name)).1
  exact edges

@[simp] theorem mem_ofCalls_nodes (name : String) (calls : List (Call N)) (id : NodeId) :
    id ∈ (ofCalls name calls).nodes ↔ id ∈ declaredIds calls := by
  have nodes := (foldl_apply calls (new name)).2 id
  simpa [new, ofCalls] using nodes

/-! ## The reference check -/

/-- The check passes exactly when every endpoint is declared. -/
theorem checkReferences_ok_iff (nodes : BTreeMap NodeId N) (edges : List Edge) :
    checkReferences nodes edges = .ok () ↔
      forall edge, edge ∈ edges -> edge.from ∈ nodes ∧ edge.to ∈ nodes := by
  induction edges with
  | nil => simp [checkReferences]
  | cons edge rest inductionHypothesis =>
      rw [checkReferences, List.forall_mem_cons]
      by_cases source : edge.from ∈ nodes
      · by_cases target : edge.to ∈ nodes
        · simp [source, target, inductionHypothesis]
        · simp [source, target]
      · simp [source]

/-- A failing check reports the first undeclared endpoint. -/
theorem checkReferences_error (nodes : BTreeMap NodeId N) (edges : List Edge)
    (undeclared : ∃ id ∈ edges.flatMap fun edge => [edge.from, edge.to], id ∉ nodes) :
    ∃ before id after, (edges.flatMap fun edge => [edge.from, edge.to]) = before ++ id :: after ∧
      (forall earlier, earlier ∈ before -> earlier ∈ nodes) ∧ id ∉ nodes ∧
      checkReferences nodes edges = .error (.nodeNotFound id) := by
  induction edges with
  | nil => simp at undeclared
  | cons edge rest inductionHypothesis =>
      rw [checkReferences, List.flatMap_cons]
      by_cases source : edge.from ∈ nodes
      · by_cases target : edge.to ∈ nodes
        · have later : ∃ id ∈ rest.flatMap fun edge => [edge.from, edge.to], id ∉ nodes := by
            rcases undeclared with ⟨id, member, absent⟩
            rw [List.flatMap_cons, List.mem_append] at member
            rcases member with here | member
            · rcases List.mem_cons.mp here with same | here
              · exact absurd (same ▸ source) absent
              · exact absurd (List.mem_singleton.mp here ▸ target) absent
            · exact ⟨id, member, absent⟩
          rcases inductionHypothesis later with ⟨before, id, after, split, earlier, absent, result⟩
          refine ⟨edge.from :: edge.to :: before, id, after, ?_, ?_, absent, ?_⟩
          · rw [split]
            rfl
          · intro node member
            rcases List.mem_cons.mp member with same | member
            · exact same ▸ source
            · rcases List.mem_cons.mp member with same | member
              · exact same ▸ target
              · exact earlier node member
          · rw [if_neg (not_not.mpr source), if_neg (not_not.mpr target), result]
        · refine ⟨[edge.from], edge.to, _, rfl, ?_, target, ?_⟩
          · intro node member
            exact List.mem_singleton.mp member ▸ source
          · rw [if_neg (not_not.mpr source), if_pos target]
      · refine ⟨[], edge.from, _, rfl, ?_, source, ?_⟩
        · intro node member
          cases member
        · rw [if_pos source]

/-! ## The result of a build -/

/-- A build whose references are declared accepts the acyclic graphs. -/
theorem build_ok (builder : DagBuilder N) (id : WorkflowId)
    (declared : forall edge, edge ∈ builder.edges ->
      edge.from ∈ builder.nodes ∧ edge.to ∈ builder.nodes)
    (acyclic : (Dag.mk id builder.name builder.nodes builder.edges).graph.Acyclic) :
    builder.build id = some (.ok ⟨id, builder.name, builder.nodes, builder.edges⟩) := by
  rcases Dag.topoSort_ok ⟨id, builder.name, builder.nodes, builder.edges⟩
    (fun edge member => (declared edge member).1) (fun edge member => (declared edge member).2)
    acyclic with ⟨order, sorted, _topological⟩
  rw [build, (checkReferences_ok_iff _ _).mpr declared]
  simp only [sorted]

/-- A cycle among declared nodes is reported as such. -/
theorem build_cycle (builder : DagBuilder N) (id : WorkflowId)
    (declared : forall edge, edge ∈ builder.edges ->
      edge.from ∈ builder.nodes ∧ edge.to ∈ builder.nodes)
    (cyclic : ¬ (Dag.mk id builder.name builder.nodes builder.edges).graph.Acyclic) :
    builder.build id = some (.error .cycleDetected) := by
  have refused := Dag.topoSort_cycle ⟨id, builder.name, builder.nodes, builder.edges⟩
    (fun edge member => (declared edge member).2) cyclic
  rw [build, (checkReferences_ok_iff _ _).mpr declared]
  simp only [refused]

/-! ## Builds from calls -/

section Calls

variable {name : String} {calls : List (Call N)} {id : WorkflowId}

/-- The references of the builder are the endpoints of the calls. -/
theorem references_of_declared (name : String)
    (declared : forall endpoint, endpoint ∈ endpoints calls -> endpoint ∈ declaredIds calls) :
    forall edge, edge ∈ (ofCalls name calls).edges ->
      edge.from ∈ (ofCalls name calls).nodes ∧ edge.to ∈ (ofCalls name calls).nodes := by
  intro edge member
  rw [ofCalls_edges] at member
  rw [mem_ofCalls_nodes, mem_ofCalls_nodes]
  constructor
  · exact declared _ (List.mem_flatMap.mpr ⟨edge, member, List.mem_cons_self⟩)
  · exact declared _ (List.mem_flatMap.mpr ⟨edge, member, by simp⟩)

theorem graph_ofCalls (name : String) (calls : List (Call N)) (id : WorkflowId) :
    (Dag.mk id (ofCalls name calls).name (ofCalls name calls).nodes
      (ofCalls name calls).edges).graph = callGraph calls := by
  simp only [Dag.graph, ofCalls_edges]
  rfl

/-- Declared and acyclic: the graph that is built has a topological order. -/
theorem build_ofCalls_ok
    (declared : forall endpoint, endpoint ∈ endpoints calls -> endpoint ∈ declaredIds calls)
    (acyclic : (callGraph calls).Acyclic) :
    ∃ dag, (ofCalls name calls).build id = some (.ok dag) ∧ dag.edges = insertedEdges calls ∧
      ∃ order, dag.topoSort = some (.ok order) ∧
        (callGraph calls).IsTopologicalOrder (fun node => node ∈ declaredIds calls) order := by
  have references := references_of_declared name declared
  have acyclicDag := (graph_ofCalls name calls id).symm ▸ acyclic
  rcases Dag.topoSort_ok _ (fun edge member => (references edge member).1)
    (fun edge member => (references edge member).2) acyclicDag with ⟨order, sorted, topological⟩
  rw [graph_ofCalls] at topological
  refine ⟨_, build_ok _ id references acyclicDag, ofCalls_edges name calls, order, sorted,
    topological.nodup, ?_, topological.precedes⟩
  intro node
  exact (topological.mem_iff node).trans (mem_ofCalls_nodes name calls node)

/-- Declared and cyclic. -/
theorem build_ofCalls_cycle
    (declared : forall endpoint, endpoint ∈ endpoints calls -> endpoint ∈ declaredIds calls)
    (cyclic : ¬ (callGraph calls).Acyclic) :
    (ofCalls name calls).build id = some (.error .cycleDetected) := by
  apply build_cycle _ id (references_of_declared name declared)
  rw [graph_ofCalls]
  exact cyclic

/-- Not declared: the first endpoint that is missing is reported. -/
theorem build_ofCalls_missing
    (missing : ∃ endpoint ∈ endpoints calls, endpoint ∉ declaredIds calls) :
    ∃ before first after, endpoints calls = before ++ first :: after ∧
      (forall earlier, earlier ∈ before -> earlier ∈ declaredIds calls) ∧
      first ∉ declaredIds calls ∧
      (ofCalls name calls).build id = some (.error (.nodeNotFound first)) := by
  have keys := mem_ofCalls_nodes name calls
  have undeclared : ∃ endpoint ∈ (ofCalls name calls).edges.flatMap
      (fun edge => [edge.from, edge.to]), endpoint ∉ (ofCalls name calls).nodes := by
    rcases missing with ⟨endpoint, member, absent⟩
    rw [ofCalls_edges]
    exact ⟨endpoint, member, fun inside => absent ((keys endpoint).mp inside)⟩
  rcases checkReferences_error _ _ undeclared with
    ⟨before, first, after, split, earlier, absent, result⟩
  rw [ofCalls_edges] at split
  refine ⟨before, first, after, split, ?_, ?_, ?_⟩
  · intro node member
    exact (keys node).mp (earlier node member)
  · intro inside
    exact absent ((keys first).mpr inside)
  · rw [build, result]

end Calls

/-- The builder accepts exactly the well-formed acyclic graphs, and says what
is wrong with any other one. -/
theorem build_characterized (name : String) (calls : List (Call N)) (id : WorkflowId) :
    ∃ result, (ofCalls name calls).build id = some result ∧
      ((∃ dag, result = .ok dag) ↔
        (forall endpoint, endpoint ∈ endpoints calls -> endpoint ∈ declaredIds calls) ∧
          (callGraph calls).Acyclic) ∧
      (forall dag, result = .ok dag -> dag.edges = insertedEdges calls ∧
        ∃ order, dag.topoSort = some (.ok order) ∧
          (callGraph calls).IsTopologicalOrder (fun node => node ∈ declaredIds calls) order) ∧
      ((∃ endpoint ∈ endpoints calls, endpoint ∉ declaredIds calls) ->
        ∃ before first after, endpoints calls = before ++ first :: after ∧
          (forall earlier, earlier ∈ before -> earlier ∈ declaredIds calls) ∧
          first ∉ declaredIds calls ∧ result = .error (.nodeNotFound first)) ∧
      ((forall endpoint, endpoint ∈ endpoints calls -> endpoint ∈ declaredIds calls) ->
        ¬ (callGraph calls).Acyclic -> result = .error .cycleDetected) := by
  by_cases declared : forall endpoint, endpoint ∈ endpoints calls -> endpoint ∈ declaredIds calls
  · have noneMissing : ¬ ∃ endpoint ∈ endpoints calls, endpoint ∉ declaredIds calls :=
      fun ⟨endpoint, member, absent⟩ => absent (declared endpoint member)
    by_cases acyclic : (callGraph calls).Acyclic
    · rcases build_ofCalls_ok declared acyclic with ⟨dag, built, edges, sorted⟩
      refine ⟨_, built, ?_, ?_, ?_, ?_⟩
      · exact ⟨fun _ => ⟨declared, acyclic⟩, fun _ => ⟨_, rfl⟩⟩
      · intro other same
        cases same
        exact ⟨edges, sorted⟩
      · exact fun missing => absurd missing noneMissing
      · exact fun _ cyclic => absurd acyclic cyclic
    · refine ⟨_, build_ofCalls_cycle declared acyclic, ?_, ?_, ?_, ?_⟩
      · exact ⟨fun ⟨_dag, impossible⟩ => (nomatch impossible), fun both => absurd both.2 acyclic⟩
      · exact fun _dag impossible => nomatch impossible
      · exact fun missing => absurd missing noneMissing
      · exact fun _ _ => rfl
  · have missing : ∃ endpoint ∈ endpoints calls, endpoint ∉ declaredIds calls := by
      by_contra none
      exact declared fun endpoint member => by
        by_contra absent
        exact none ⟨endpoint, member, absent⟩
    rcases build_ofCalls_missing missing with
      ⟨before, first, after, split, earlier, absent, built⟩
    refine ⟨_, built, ?_, ?_, ?_, ?_⟩
    · exact ⟨fun ⟨_dag, impossible⟩ => (nomatch impossible), fun both => absurd both.1 declared⟩
    · exact fun _dag impossible => nomatch impossible
    · exact fun _missing => ⟨before, first, after, split, earlier, absent, rfl⟩
    · exact fun all _ => absurd all declared

end DagBuilder

/-- A graph that reached a scheduler is well formed. -/
theorem Dag.Accepted.wellFormed {N : Type} {dag : Dag N} (accepted : dag.Accepted) :
    dag.WellFormed := by
  rcases accepted with ⟨name, calls, id, built⟩
  have passed : DagBuilder.checkReferences (DagBuilder.ofCalls name calls).nodes
      (DagBuilder.ofCalls name calls).edges = .ok () := by
    rw [DagBuilder.build] at built
    cases references : DagBuilder.checkReferences (DagBuilder.ofCalls name calls).nodes
        (DagBuilder.ofCalls name calls).edges with
    | error error =>
        rw [references] at built
        cases built
    | ok _ => rfl
  have references := (DagBuilder.checkReferences_ok_iff _ _).mp passed
  by_cases acyclic : (Dag.mk id (DagBuilder.ofCalls name calls).name
      (DagBuilder.ofCalls name calls).nodes (DagBuilder.ofCalls name calls).edges).graph.Acyclic
  · rw [DagBuilder.build_ok _ id references acyclic] at built
    cases built
    exact ⟨fun edge member => (references edge member).1,
      fun edge member => (references edge member).2, acyclic⟩
  · rw [DagBuilder.build_cycle _ id references acyclic] at built
    cases built

/-- Two nodes with payloads, joined by one edge. -/
def Dag.link {N : Type} (source target : N) (condition : EdgeCondition) : Dag N where
  id := 0
  name := "pair"
  nodes := ((∅ : BTreeMap NodeId N).insert "a" source).insert "b" target
  edges := [⟨"a", "b", condition⟩]

theorem Dag.link_accepted {N : Type} (source target : N) (condition : EdgeCondition) :
    (Dag.link source target condition).Accepted := by
  refine ⟨"pair", [.node "a" source, .node "b" target, .edge "a" "b" condition], 0, ?_⟩
  apply DagBuilder.build_ok
  · intro edge member
    cases List.mem_singleton.mp member
    rw [DagBuilder.mem_ofCalls_nodes, DagBuilder.mem_ofCalls_nodes]
    exact ⟨List.mem_cons_self, List.mem_cons_of_mem _ List.mem_cons_self⟩
  · have ranked : (Dag.link source target condition).graph.Ranked
        fun node => if node = "a" then 0 else 1 := by
      rintro first second ⟨edge, member, rfl, rfl⟩
      cases List.mem_singleton.mp member
      change (if "a" = "a" then 0 else 1) < if "b" = "a" then 0 else 1
      decide
    exact ranked.acyclic

/-- Two nodes joined by one edge. -/
def Dag.pair (condition : EdgeCondition) : Dag Unit where
  id := 0
  name := "pair"
  nodes := ((∅ : BTreeMap NodeId Unit).insert "a" ()).insert "b" ()
  edges := [⟨"a", "b", condition⟩]

theorem Dag.pair_accepted (condition : EdgeCondition) : (Dag.pair condition).Accepted :=
  Dag.link_accepted () () condition

end KernelFlow
