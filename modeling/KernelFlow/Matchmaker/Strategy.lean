import Mathlib
import KernelFlow.Matchmaker.Operator

namespace KernelFlow
namespace Matchmaker

/-!
# Selection by reputation

The choice that `ReputationMatchmaker` makes on a snapshot of the registry.
The random generator is a number `draw`, of which the remainder by the size of
the top group is the index that has been drawn.
-/

namespace ReputationMatchmaker

/-- The better operator first. -/
def ranks (left right : Operator) : Bool :=
  decide (right.reputation ≤ left.reputation)

/-- The operators that can take the request, best first. -/
def candidates (ops : List Operator) (req : ResourceRequirements) : List Operator :=
  (ops.filter fun op => op.canTake req).mergeSort ranks

/-- The operators that tie with the best one. -/
def top (ranked : List Operator) (topScore : ℚ) : List Operator :=
  ranked.filter fun op => decide (|op.reputation - topScore| < 1 / 10 ^ 9)

/-- Sorting keeps an empty list empty, so the check that the source makes before
it sorts is the first branch here. -/
def select (ops : List Operator) (req : ResourceRequirements) (draw : Nat) :
    KernelResult OperatorId :=
  match candidates ops req with
  | [] => .error (.network "no operator can satisfy requirements")
  | best :: rest =>
      let tied := top (best :: rest) best.reputation
      match tied[draw % tied.length]? with
      | none => .error (.network "empty top set")
      | some chosen => .ok chosen.id

/-! ## The possible answers -/

variable {ops : List Operator} {req : ResourceRequirements} {op : Operator}

theorem mem_candidates_iff :
    op ∈ candidates ops req ↔ op ∈ ops ∧ op.canTake req = true := by
  rw [candidates, List.mem_mergeSort, List.mem_filter]

/-- The head of the sorted candidates has the best reputation. -/
theorem le_best {best : Operator} {rest : List Operator}
    (ranked : candidates ops req = best :: rest) (inside : op ∈ ops)
    (can : op.canTake req = true) : op.reputation ≤ best.reputation := by
  have sorted : (candidates ops req).Pairwise fun left right => ranks left right = true := by
    apply List.pairwise_mergeSort
    · intro first second third early late
      rw [ranks, decide_eq_true_eq] at early late ⊢
      exact le_trans late early
    · intro first second
      rw [ranks, ranks, Bool.or_eq_true, decide_eq_true_eq, decide_eq_true_eq]
      exact le_total second.reputation first.reputation
  have member : op ∈ candidates ops req := mem_candidates_iff.mpr ⟨inside, can⟩
  rw [ranked] at sorted member
  rcases List.mem_cons.mp member with rfl | later
  · exact le_refl _
  · exact of_decide_eq_true ((List.pairwise_cons.mp sorted).1 op later)

theorem isGreatest_best {best : Operator} {rest : List Operator}
    (ranked : candidates ops req = best :: rest) :
    IsGreatest {score | ∃ other ∈ ops, other.canTake req = true ∧ other.reputation = score}
      best.reputation := by
  have member : best ∈ candidates ops req := by
    rw [ranked]
    exact List.mem_cons_self
  constructor
  · rcases mem_candidates_iff.mp member with ⟨inside, can⟩
    exact ⟨best, inside, can, rfl⟩
  · rintro score ⟨other, inside, can, rfl⟩
    exact le_best ranked inside can

/-- The selection fails exactly on an empty list of candidates. -/
theorem select_fails_iff (draw : Nat) :
    (∃ error, select ops req draw = .error error) ↔ candidates ops req = [] := by
  unfold select
  cases ranked : candidates ops req with
  | nil => simp
  | cons best rest =>
      have tied : best ∈ top (best :: rest) best.reputation := by
        refine List.mem_filter.mpr ⟨List.mem_cons_self, ?_⟩
        rw [decide_eq_true_eq, sub_self, abs_zero]
        norm_num
      have drawn := List.getElem?_eq_getElem (Nat.mod_lt draw (List.length_pos_of_mem tied))
      simp [drawn]

/-- The answers over all draws are the ids of the candidates that tie with the
best reputation among the candidates. -/
theorem select_ok_iff (id : OperatorId) :
    (∃ draw, select ops req draw = .ok id) ↔
      ∃ op, op ∈ ops ∧ op.canTake req = true ∧ op.id = id ∧
        ∃ best, IsGreatest {score | ∃ other ∈ ops, other.canTake req = true ∧
          other.reputation = score} best ∧ best - op.reputation < 1 / 10 ^ 9 := by
  unfold select
  cases ranked : candidates ops req with
  | nil =>
      constructor
      · rintro ⟨draw, selected⟩
        cases selected
      · rintro ⟨op, inside, can, _⟩
        have member := mem_candidates_iff.mpr ⟨inside, can⟩
        rw [ranked] at member
        cases member
  | cons first rest =>
      have greatest := isGreatest_best ranked
      constructor
      · rintro ⟨draw, selected⟩
        dsimp only at selected
        split at selected
        · cases selected
        · rename_i chosen drawn
          rcases List.mem_filter.mp (List.mem_of_getElem? drawn) with ⟨member, close⟩
          rw [← ranked] at member
          rcases mem_candidates_iff.mp member with ⟨inside, can⟩
          rw [decide_eq_true_eq, abs_lt] at close
          exact ⟨chosen, inside, can, Except.ok.inj selected, _, greatest, by linarith only [close.1]⟩
      · rintro ⟨op, inside, can, rfl, best, isBest, close⟩
        rw [isBest.unique greatest] at close
        have below := le_best ranked inside can
        have tied : op ∈ top (first :: rest) first.reputation := by
          refine List.mem_filter.mpr ⟨?_, ?_⟩
          · rw [← ranked]
            exact mem_candidates_iff.mpr ⟨inside, can⟩
          · rw [decide_eq_true_eq, abs_lt]
            constructor <;> linarith only [below, close]
        rcases List.mem_iff_getElem?.mp tied with ⟨draw, drawn⟩
        have bound := (List.getElem?_eq_some_iff.mp drawn).1
        refine ⟨draw, ?_⟩
        dsimp only
        rw [Nat.mod_eq_of_lt bound, drawn]

/-- A registered operator that can take the request and whose reputation is
less than the tolerance below the best one among those that can. -/
structure Choosable (registry : OperatorRegistry) (req : ResourceRequirements) (op : Operator) :
    Prop where
  registered : ∃ key : OperatorId, registry.inner[key]? = some op
  declares : forall capability, capability ∈ req.capabilities ->
    capability ∈ op.total.capabilities
  covered : req.amounts ≤ op.free.amounts
  nearBest : ∃ best, IsGreatest {score | ∃ (key : OperatorId) (other : Operator), registry.inner[key]? = some other ∧
    other.canTake req = true ∧ other.reputation = score} best ∧ best - op.reputation < 1 / 10 ^ 9

private theorem mem_of_perm_snapshot {registry : OperatorRegistry}
    (snapshot : ops.Perm registry.snapshot) :
    op ∈ ops ↔ ∃ key : OperatorId, registry.inner[key]? = some op :=
  snapshot.mem_iff.trans (OrderedMap.mem_values_iff registry.inner op)

/-- The scores of a snapshot are those of the registry. -/
private theorem scores_of_perm_snapshot {registry : OperatorRegistry}
    (snapshot : ops.Perm registry.snapshot) :
    {score | ∃ other ∈ ops, other.canTake req = true ∧ other.reputation = score} =
      {score | ∃ (key : OperatorId) (other : Operator), registry.inner[key]? = some other ∧
        other.canTake req = true ∧ other.reputation = score} := by
  ext score
  constructor
  · rintro ⟨other, inside, can, same⟩
    rcases (mem_of_perm_snapshot snapshot).mp inside with ⟨key, found⟩
    exact ⟨key, other, found, can, same⟩
  · rintro ⟨key, other, found, can, same⟩
    exact ⟨other, (mem_of_perm_snapshot snapshot).mpr ⟨key, found⟩, can, same⟩

/-- The possible answers do not depend on the order of the snapshot. -/
theorem select_ok_iff_choosable {registry : OperatorRegistry}
    (snapshot : ops.Perm registry.snapshot) (id : OperatorId) :
    (∃ draw, select ops req draw = .ok id) ↔ ∃ op, Choosable registry req op ∧ op.id = id := by
  rw [select_ok_iff, scores_of_perm_snapshot snapshot]
  constructor
  · rintro ⟨op, inside, can, same, nearBest⟩
    rcases (ResourceCapacity.satisfies_iff _ _).mp can with ⟨covered, declares⟩
    exact ⟨op, ⟨(mem_of_perm_snapshot snapshot).mp inside, declares, covered, nearBest⟩, same⟩
  · rintro ⟨op, choosable, same⟩
    exact ⟨op, (mem_of_perm_snapshot snapshot).mpr choosable.registered,
      (ResourceCapacity.satisfies_iff _ _).mpr ⟨choosable.covered, choosable.declares⟩, same,
      choosable.nearBest⟩

/-- The selection fails when no registered operator can take the request. -/
theorem select_fails_iff_registry {registry : OperatorRegistry}
    (snapshot : ops.Perm registry.snapshot) (draw : Nat) :
    (∃ error, select ops req draw = .error error) ↔
      forall (key : OperatorId) (op : Operator), registry.inner[key]? = some op ->
        op.canTake req = false := by
  rw [select_fails_iff, List.eq_nil_iff_forall_not_mem]
  constructor
  · intro none key op found
    rw [← Bool.not_eq_true]
    intro can
    exact none op (mem_candidates_iff.mpr ⟨(mem_of_perm_snapshot snapshot).mpr ⟨key, found⟩, can⟩)
  · intro none op member
    rcases mem_candidates_iff.mp member with ⟨inside, can⟩
    rcases (mem_of_perm_snapshot snapshot).mp inside with ⟨key, found⟩
    rw [none key op found] at can
    cases can

/-- For every registry and every order in which the snapshot lists it: the
selection fails exactly when no registered operator can take the request, and
over all draws it answers exactly the ids of the choosable operators.  The
methods of the registry keep every operator under its own id. -/
theorem select_characterized (registry : OperatorRegistry) (req : ResourceRequirements)
    (ops : List Operator) (snapshot : ops.Perm registry.snapshot) :
    (forall draw, (∃ error, select ops req draw = .error error) ↔
      forall (key : OperatorId) (op : Operator), registry.inner[key]? = some op ->
        op.canTake req = false) ∧
    (forall draw id, select ops req draw = .ok id ->
      ∃ op, Choosable registry req op ∧ op.id = id ∧
        (registry.Keyed -> registry.inner[id]? = some op)) ∧
    (forall op, Choosable registry req op -> ∃ draw, select ops req draw = .ok op.id) ∧
    forall others : List Operator, others.Perm registry.snapshot -> forall id,
      (∃ draw, select ops req draw = .ok id) ↔ ∃ draw, select others req draw = .ok id := by
  refine ⟨fun draw => select_fails_iff_registry snapshot draw, ?_, ?_, ?_⟩
  · intro draw id selected
    rcases (select_ok_iff_choosable snapshot id).mp ⟨draw, selected⟩ with ⟨op, choosable, rfl⟩
    refine ⟨op, choosable, rfl, fun keyed => ?_⟩
    rcases choosable.registered with ⟨key, found⟩
    rw [keyed key op found, found]
  · intro op choosable
    exact (select_ok_iff_choosable snapshot op.id).mpr ⟨op, choosable, rfl⟩
  · intro others listed id
    exact (select_ok_iff_choosable snapshot id).trans (select_ok_iff_choosable listed id).symm

/-- An operator with eight cores and this reputation. -/
def rated (id : OperatorId) (reputation : ℚ) : Operator :=
  { Operator.new id
      { cpuCores := 8, ramMb := 32000, gpuVramMb := 0, capabilities := [.genericCpu] } with
    reputation := reputation }

/-- The best operator of the crew has no core left. -/
def busy : Operator :=
  (rated "busy" 1).commit { cpuCores := 8, ramMb := 0, gpuVramMb := 0, capabilities := [] }

/-- Two of the others tie, and one is below them by exactly the tolerance. -/
def crew : OperatorRegistry :=
  (((OperatorRegistry.new.register (rated "fast" (9 / 10))).register busy).register
    (rated "slow" (9 / 10 - 1 / 10 ^ 9))).register (rated "twin" (9 / 10 - 1 / 10 ^ 10))

/-- The snapshot in another order than that of the keys. -/
def listed : List Operator :=
  [rated "slow" (9 / 10 - 1 / 10 ^ 9), rated "twin" (9 / 10 - 1 / 10 ^ 10), busy,
    rated "fast" (9 / 10)]

def fourCores : ResourceRequirements where
  cpuCores := 4
  ramMb := 0
  gpuVramMb := 0
  capabilities := [.genericCpu]

theorem crew_snapshot : crew.snapshot =
    [busy, rated "fast" (9 / 10), rated "slow" (9 / 10 - 1 / 10 ^ 9),
      rated "twin" (9 / 10 - 1 / 10 ^ 10)] := by
  rfl

theorem listed_perm : listed.Perm crew.snapshot := by
  rw [crew_snapshot]
  have rotated : ([rated "slow" (9 / 10 - 1 / 10 ^ 9), rated "twin" (9 / 10 - 1 / 10 ^ 10)] ++
      [busy, rated "fast" (9 / 10)]).Perm _ := List.perm_append_comm
  exact rotated

theorem mem_crew_iff (op : Operator) :
    (∃ key : OperatorId, crew.inner[key]? = some op) ↔
      op = busy ∨ op = rated "fast" (9 / 10) ∨ op = rated "slow" (9 / 10 - 1 / 10 ^ 9) ∨
        op = rated "twin" (9 / 10 - 1 / 10 ^ 10) := by
  rw [← OrderedMap.mem_values_iff]
  change op ∈ crew.snapshot ↔ _
  rw [crew_snapshot]
  simp

theorem busy_canTake : busy.canTake fourCores = false := by
  decide

theorem rated_canTake (id : OperatorId) (reputation : ℚ) :
    (rated id reputation).canTake fourCores = true := by
  change (rated "fast" 0).canTake fourCores = true
  decide

/-- The best reputation among those that have cores left. -/
theorem crew_isGreatest : IsGreatest {score | ∃ (key : OperatorId) (other : Operator),
    crew.inner[key]? = some other ∧ other.canTake fourCores = true ∧ other.reputation = score}
    (9 / 10) := by
  constructor
  · rcases (mem_crew_iff (rated "fast" (9 / 10))).mpr (Or.inr (Or.inl rfl)) with ⟨key, found⟩
    exact ⟨key, _, found, rated_canTake _ _, rfl⟩
  · rintro score ⟨key, other, found, can, rfl⟩
    rcases (mem_crew_iff other).mp ⟨key, found⟩ with rfl | rfl | rfl | rfl
    · rw [busy_canTake] at can
      cases can
    · exact le_refl _
    · exact sub_le_self _ (by positivity)
    · exact sub_le_self _ (by positivity)

/-- The answers for four cores are the two that tie, in either order of the
snapshot, and there is one for every draw. -/
theorem select_characterized_crew :
    (forall id, (∃ draw, select listed fourCores draw = .ok id) ↔ id = "fast" ∨ id = "twin") ∧
    (forall draw, ¬ ∃ error, select listed fourCores draw = .error error) ∧
    forall id, (∃ draw, select crew.snapshot fourCores draw = .ok id) ↔
      ∃ draw, select listed fourCores draw = .ok id := by
  rcases select_characterized crew fourCores listed listed_perm with ⟨fails, sound, complete, same⟩
  have tied : forall op, op = rated "fast" (9 / 10) ∨ op = rated "twin" (9 / 10 - 1 / 10 ^ 10) ->
      Choosable crew fourCores op := by
    rintro op (rfl | rfl)
    all_goals
      refine ⟨(mem_crew_iff _).mpr (by simp), fun capability member => member, ?_,
        9 / 10, crew_isGreatest, ?_⟩
    · exact ((ResourceCapacity.satisfies_iff _ _).mp (rated_canTake _ _)).1
    · change (9 / 10 : ℚ) - 9 / 10 < _
      norm_num
    · exact ((ResourceCapacity.satisfies_iff _ _).mp (rated_canTake _ _)).1
    · change (9 / 10 : ℚ) - (9 / 10 - 1 / 10 ^ 10) < _
      norm_num
  refine ⟨?_, ?_, fun id => (same _ (.refl _) id).symm⟩
  · intro id
    constructor
    · rintro ⟨draw, selected⟩
      rcases sound draw id selected with ⟨op, choosable, rfl, _⟩
      rcases (mem_crew_iff op).mp choosable.registered with rfl | rfl | rfl | rfl
      · have can : busy.canTake fourCores = true :=
          (ResourceCapacity.satisfies_iff _ _).mpr ⟨choosable.covered, choosable.declares⟩
        rw [busy_canTake] at can
        cases can
      · exact Or.inl rfl
      · rcases choosable.nearBest with ⟨best, greatest, close⟩
        rw [greatest.unique crew_isGreatest] at close
        change (9 / 10 : ℚ) - (9 / 10 - 1 / 10 ^ 9) < _ at close
        norm_num at close
      · exact Or.inr rfl
    · rintro (rfl | rfl)
      · exact complete _ (tied _ (Or.inl rfl))
      · exact complete _ (tied _ (Or.inr rfl))
  · intro draw failed
    rcases (mem_crew_iff (rated "fast" (9 / 10))).mpr (Or.inr (Or.inl rfl)) with ⟨key, found⟩
    have unfit := (fails draw).mp failed key _ found
    rw [rated_canTake] at unfit
    cases unfit

end ReputationMatchmaker

end Matchmaker
end KernelFlow
