import Mathlib
import KernelFlow.Scheduler.Log

namespace KernelFlow
namespace Scheduler

open Transition

/-!
# The attestation hash

A completed run returns the content hash of its output map.  Two runs, of the
same graph or of two graphs, therefore return one hash exactly when they have
the same nodes and their outputs agree up to the order of object members.  What
is assumed of the writer and of the digest is only that they do not collide on
the two documents at hand.
-/

/-- `hash_json` identifies values up to member order and nothing more, and so
does the hash of a completed run. -/
theorem hashJson_identifies :
    (forall left right : Value,
      left.canonicalize.json = right.canonicalize.json ↔ left.SameUpToOrder right) ∧
    (forall value : Value, value.canonicalize.canonicalize = value.canonicalize) ∧
    (forall (value : Value) (path : List Json.Step) (leaf : Json), leaf.IsLeaf ->
      (value.canonicalize.json.descend path = some leaf ↔ value.json.descend path = some leaf)) ∧
    forall (P Q : Type) (left : Dag P) (right : Dag Q) (backend : HashBackend)
      (first second : RunState) (firstHash secondHash : String),
      left.Accepted -> right.Accepted ->
      Reaches (Step left backend anyResult) (start left) first ->
      Reaches (Step right backend anyResult) (start right) second ->
      first.control = .returned (.ok firstHash) -> second.control = .returned (.ok secondHash) ->
      backend.Separates (Value.ofMap first.outputs) (Value.ofMap second.outputs) ->
      (firstHash = secondHash ↔
        (forall node, node ∈ left.nodes ↔ node ∈ right.nodes) ∧
        forall (node : NodeId) (one other : Value), first.outputs[node]? = some one ->
          second.outputs[node]? = some other -> one.SameUpToOrder other) := by
  refine ⟨Value.canonicalize_eq_iff, ?_, ?_, ?_⟩
  · exact fun value => Value.ext (Json.canonicalize_canonicalize value.json value.distinct)
  · exact fun value path _leaf isLeaf =>
      Json.descend_canonicalize_leaf value.json value.distinct path isLeaf
  · intro P Q left right backend first second firstHash secondHash leftAccepted rightAccepted
      firstRun secondRun firstControl secondControl separates
    rcases completed_of_returned leftAccepted.wellFormed firstRun firstControl with
      ⟨rfl, firstNodes⟩
    rcases completed_of_returned rightAccepted.wellFormed secondRun secondControl with
      ⟨rfl, secondNodes⟩
    rw [hashJson_eq_iff backend separates, Value.sameUpToOrder_ofMap_iff]
    simp only [firstNodes, secondNodes]

/-- The state after a run over two nodes, of which the second returns the value. -/
def pairRun (value : Value) : RunState :=
  (start (Dag.pair .always)).drive (Dag.pair .always) .sample
    (fun node _parents => .ok ⟨if node = "b" then value else .null, 0⟩) 20

theorem pairRun_reaches (value : Value) :
    Reaches (Step (Dag.pair .always) .sample anyResult) (start (Dag.pair .always))
      (pairRun value) :=
  (RunState.drive_reaches (Dag.pair .always) .sample _ 20 _).weaken fun _before _after => Step.any

/-- Of two runs over the same graph, one returns `null` at its second node and
the other one `true`: their attestations differ. -/
theorem hashJson_identifies_pair :
    hashJson .sample (Value.ofMap (pairRun .null).outputs) ≠
      hashJson .sample (Value.ofMap (pairRun (.bool true)).outputs) := by
  have separates : HashBackend.Separates .sample (Value.ofMap (pairRun .null).outputs)
      (Value.ofMap (pairRun (.bool true)).outputs) :=
    ⟨fun same => absurd same (by decide), fun same => absurd same (by decide)⟩
  have firstControl : (pairRun .null).control =
      .returned (.ok (hashJson .sample (Value.ofMap (pairRun .null).outputs))) := by rfl
  have secondControl : (pairRun (.bool true)).control =
      .returned (.ok (hashJson .sample (Value.ofMap (pairRun (.bool true)).outputs))) := by rfl
  have identified := hashJson_identifies.2.2.2 Unit Unit (Dag.pair .always) (Dag.pair .always)
    .sample _ _ _ _ (Dag.pair_accepted .always) (Dag.pair_accepted .always)
    (pairRun_reaches .null) (pairRun_reaches (.bool true)) firstControl secondControl separates
  intro same
  have agree := (identified.mp same).2 "b" .null (.bool true) (by rfl) (by rfl)
  cases agree

end Scheduler
end KernelFlow
