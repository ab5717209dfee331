import Mathlib
import KernelFlow.Library.OrderStatistic
import KernelFlow.Nodes.Soundness

namespace KernelFlow
namespace Nodes

open OrderStatistic

/-!
# The median node as an order statistic

The node sorts the numbers that it reads off its parents and answers the entry
in the middle, or the mean of the two entries there.  The first answer is an
entry of the ascending order and the second lies between two of them, so on
exact numbers the node returns a median.  A majority of honest parents thereby
confines it, whatever the other parents deliver.
-/

namespace MedianNode

/-- The numbers read off the parents. -/
def readings (input : NodeInput) : List ℚ :=
  input.parents.values.filterMap fun v => reading v.json

/-- The parents off which a number can be read. -/
def numericParents (input : NodeInput) : List NodeId :=
  (input.parents.toList.filter fun entry => (reading entry.2.json).isSome).map Prod.fst

/-- The numbers read off these parents. -/
def valuesOf (input : NodeInput) (chosen : Finset NodeId) : Set ℚ :=
  {number | ∃ parent ∈ chosen, ∃ value : Value,
    input.parents[parent]? = some value ∧ reading value.json = some number}

/-- The parents that are not among these. -/
def otherParents (input : NodeInput) (chosen : Finset NodeId) : List NodeId :=
  input.parents.keys.filter fun parent => decide (parent ∉ chosen)

variable {input : NodeInput}

theorem readings_eq (input : NodeInput) :
    readings input = input.parents.toList.filterMap fun entry => reading entry.2.json := by
  rw [readings, OrderedMap.values_eq, List.filterMap_map]
  rfl

theorem length_readings (input : NodeInput) :
    (readings input).length = (numericParents input).length := by
  rw [readings_eq, numericParents, List.length_map, List.length_filterMap_eq_countP,
    List.countP_eq_length_filter]

theorem readings_eq_nil_iff : readings input = [] ↔ numericParents input = [] := by
  rw [← List.length_eq_zero_iff, length_readings, List.length_eq_zero_iff]

/-- A number can be read off a number and off an object with a number as its
member `value`. -/
theorem isSome_reading_iff {json : Json} :
    (reading json).isSome = true ↔ ((∃ number, json = .number number) ∨
      ∃ members number, json = .object members ∧
        members.lookup "value" = some (.number number)) := by
  rw [Option.isSome_iff_ne_none, Ne, reading_eq_none_iff, not_and_or]
  push Not
  rfl

/-- A numeric parent has delivered a number, or an object with a number as its
member `value`. -/
theorem mem_numericParents {parent : NodeId} :
    parent ∈ numericParents input ↔ ∃ value : Value, input.parents[parent]? = some value ∧
      ((∃ number, value.json = .number number) ∨
        ∃ members number, value.json = .object members ∧
          members.lookup "value" = some (.number number)) := by
  unfold numericParents
  rw [List.mem_map]
  constructor
  · rintro ⟨⟨other, value⟩, member, rfl⟩
    rcases List.mem_filter.mp member with ⟨inside, numeric⟩
    exact ⟨value, Std.ExtTreeMap.mem_toList_iff_getElem?_eq_some.mp inside,
      isSome_reading_iff.mp numeric⟩
  · rintro ⟨value, found, numeric⟩
    refine ⟨(parent, value), List.mem_filter.mpr ⟨?_, isSome_reading_iff.mpr numeric⟩, rfl⟩
    exact Std.ExtTreeMap.mem_toList_iff_getElem?_eq_some.mpr found

/-! ## The middle of a list -/

/-- The middle entry of an odd number of values, or the halved sum of the two
middle entries of an even number. -/
theorem middle_cases (ops : FloatOps) {nums : List ℚ} (nonempty : nums ≠ []) :
    (∃ half entry, nums.length = 2 * half + 1 ∧ (ascending nums)[half]? = some entry ∧
      middle ops nums nonempty = some entry) ∨
    ∃ half low high, nums.length = 2 * (half + 1) ∧ (ascending nums)[half]? = some low ∧
      (ascending nums)[half + 1]? = some high ∧
      middle ops nums nonempty = (ops.add low high).map ops.half := by
  have positive : 0 < nums.length := List.length_pos_of_ne_nil nonempty
  have length : (ascending nums).length = nums.length := length_ascending nums
  have inside : nums.length / 2 < (ascending nums).length := by
    rw [length]
    exact Nat.div_lt_self positive (by decide)
  rcases Nat.mod_two_eq_zero_or_one nums.length with even | odd
  · have before : nums.length / 2 - 1 < (ascending nums).length :=
      Nat.lt_of_le_of_lt (Nat.sub_le _ _) inside
    have next : nums.length / 2 - 1 + 1 = nums.length / 2 := by omega
    refine Or.inr ⟨nums.length / 2 - 1, (ascending nums)[nums.length / 2 - 1],
      (ascending nums)[nums.length / 2], by omega, List.getElem?_eq_getElem before, ?_, ?_⟩
    · rw [next]
      exact List.getElem?_eq_getElem inside
    · have notOdd : (ascending nums).length % 2 ≠ 1 := by omega
      refine (if_neg notOdd).trans ?_
      simp only [List.length_mergeSort]
      rfl
  · refine Or.inl ⟨nums.length / 2, (ascending nums)[nums.length / 2], by omega,
      List.getElem?_eq_getElem inside, ?_⟩
    have isOdd : (ascending nums).length % 2 = 1 := by omega
    refine (if_pos isOdd).trans ?_
    simp only [List.length_mergeSort]
    rfl

/-- On exact numbers the middle is a median. -/
theorem exists_middle_exact {nums : List ℚ} (nonempty : nums ≠ []) :
    ∃ m, middle .exact nums nonempty = some m ∧ IsMedian nums m := by
  rcases middle_cases .exact nonempty with ⟨half, entry, odd, found, answer⟩ |
    ⟨half, low, high, even, lowEntry, highEntry, answer⟩
  · exact ⟨entry, answer, isMedian_of_between found found le_rfl le_rfl (by omega) (by omega)⟩
  · have ordered : low ≤ high := by
      rcases List.getElem?_eq_some_iff.mp lowEntry with ⟨_, rfl⟩
      rcases List.getElem?_eq_some_iff.mp highEntry with ⟨inside, rfl⟩
      exact getElem_ascending_le (Nat.le_succ half) inside
    refine ⟨(low + high) / 2, answer, isMedian_of_between lowEntry highEntry ?_ ?_ (by omega)
      (by omega)⟩
    · linarith only [ordered]
    · linarith only [ordered]

/-- The middle does not depend on the order of the numbers. -/
theorem middle_congr (ops : FloatOps) {left right : List ℚ} (permuted : left.Perm right)
    (leftNonempty : left ≠ []) (rightNonempty : right ≠ []) :
    middle ops left leftNonempty = middle ops right rightNonempty := by
  have same : (left.mergeSort fun first second => decide (first ≤ second)) =
      right.mergeSort fun first second => decide (first ≤ second) := ascending_congr permuted
  unfold middle
  simp only [same]

/-! ## The answer of the node -/

theorem execute_of_nonempty (ops : FloatOps) (nonempty : readings input ≠ []) :
    execute ops input = .ok ⟨Value.ofFloat (middle ops (readings input) nonempty), 3⟩ :=
  dif_neg nonempty

theorem execute_of_empty (ops : FloatOps) (empty : readings input = []) :
    execute ops input = .error (.invalidInput "no numeric parents for median") :=
  dif_pos empty

/-- Other names for the parents lead to the same answer. -/
theorem execute_renamed (ops : FloatOps) {other : NodeInput} {rename : NodeId -> NodeId}
    (renamed : OrderedMap.Renamed rename input.parents other.parents) :
    execute ops other = execute ops input := by
  have permuted : (readings input).Perm (readings other) :=
    renamed.values_perm.filterMap fun v : Value => reading v.json
  by_cases empty : readings input = []
  · have otherEmpty : readings other = [] := (empty ▸ permuted).nil_eq.symm
    rw [execute_of_empty ops empty, execute_of_empty ops otherEmpty]
  · have otherNonempty : readings other ≠ [] := by
      intro otherEmpty
      exact empty (otherEmpty ▸ permuted).eq_nil
    rw [execute_of_nonempty ops empty, execute_of_nonempty ops otherNonempty,
      middle_congr ops permuted empty otherNonempty]

/-! ## Honest majorities -/

/-- The readings of the parents that meet a test. -/
def readingsWhere (input : NodeInput) (test : NodeId -> Bool) : List ℚ :=
  (input.parents.toList.filter fun entry => test entry.1).filterMap
    fun entry => reading entry.2.json

/-- The readings of the chosen parents and of the others. -/
theorem readings_perm (input : NodeInput) (test : NodeId -> Bool) :
    (readings input).Perm
      (readingsWhere input test ++ readingsWhere input fun parent => !test parent) := by
  rw [readings_eq, readingsWhere, readingsWhere, ← List.filterMap_append]
  exact (List.filter_append_perm _ _).symm.filterMap _

theorem mem_readingsWhere {test : NodeId -> Bool} {number : ℚ} :
    number ∈ readingsWhere input test ↔ ∃ (parent : NodeId) (value : Value),
      test parent = true ∧ input.parents[parent]? = some value ∧
        reading value.json = some number := by
  rw [readingsWhere, List.mem_filterMap]
  constructor
  · rintro ⟨⟨parent, value⟩, member, read⟩
    rcases List.mem_filter.mp member with ⟨inside, chosen⟩
    exact ⟨parent, value, chosen, Std.ExtTreeMap.mem_toList_iff_getElem?_eq_some.mp inside, read⟩
  · rintro ⟨parent, value, chosen, found, read⟩
    have inside := Std.ExtTreeMap.mem_toList_iff_getElem?_eq_some.mpr found
    exact ⟨(parent, value), List.mem_filter.mpr ⟨inside, chosen⟩, read⟩

/-- The readings of these parents as a set. -/
theorem valuesOf_eq (input : NodeInput) (chosen : Finset NodeId) :
    valuesOf input chosen =
      {number | number ∈ readingsWhere input fun parent => decide (parent ∈ chosen)} := by
  ext number
  rw [Set.mem_ofPred_eq, mem_readingsWhere]
  constructor
  · rintro ⟨parent, member, value, found, read⟩
    exact ⟨parent, value, decide_eq_true member, found, read⟩
  · rintro ⟨parent, value, member, found, read⟩
    exact ⟨parent, of_decide_eq_true member, value, found, read⟩

/-- The entries of chosen parents, if all of them are among the parents. -/
private theorem length_entries_chosen {chosen : Finset NodeId}
    (present : forall parent, parent ∈ chosen -> ∃ value : Value,
      input.parents[parent]? = some value) :
    (input.parents.toList.filter fun entry => decide (entry.1 ∈ chosen)).length = chosen.card := by
  have distinct : (input.parents.toList.map Prod.fst).Nodup :=
    OrderedMap.toList_keys_nodup input.parents
  have all : ((input.parents.toList.filter fun entry => decide (entry.1 ∈ chosen)).map
      Prod.fst).toFinset = chosen := by
    ext parent
    rw [List.mem_toFinset, List.mem_map]
    constructor
    · rintro ⟨entry, member, rfl⟩
      exact of_decide_eq_true (List.mem_filter.mp member).2
    · intro member
      rcases present parent member with ⟨value, found⟩
      have inside := Std.ExtTreeMap.mem_toList_iff_getElem?_eq_some.mpr found
      exact ⟨(parent, value), List.mem_filter.mpr ⟨inside, decide_eq_true member⟩, rfl⟩
  rw [← List.length_map Prod.fst,
    ← List.toFinset_card_of_nodup ((List.filter_sublist.map Prod.fst).nodup distinct), all]

/-- Each chosen parent contributes one reading, if a number can be read off all
of them. -/
theorem length_chosen {chosen : Finset NodeId}
    (numeric : forall parent, parent ∈ chosen -> parent ∈ numericParents input) :
    (readingsWhere input fun parent => decide (parent ∈ chosen)).length = chosen.card := by
  have readable : forall entry,
      entry ∈ (input.parents.toList.filter fun entry => decide (entry.1 ∈ chosen)) ->
      (reading entry.2.json).isSome = true := by
    intro entry member
    rcases List.mem_filter.mp member with ⟨inside, isChosen⟩
    rcases mem_numericParents.mp (numeric entry.1 (of_decide_eq_true isChosen)) with
      ⟨value, found, isNumeric⟩
    rw [Std.ExtTreeMap.mem_toList_iff_getElem?_eq_some, found] at inside
    cases inside
    exact isSome_reading_iff.mpr isNumeric
  rw [readingsWhere, List.length_filterMap_eq_countP, List.countP_eq_length.mpr readable]
  apply length_entries_chosen
  intro parent member
  rcases mem_numericParents.mp (numeric parent member) with ⟨value, found, _⟩
  exact ⟨value, found⟩

/-- The others contribute at most one reading each. -/
theorem length_others_le (input : NodeInput) (chosen : Finset NodeId) :
    (readingsWhere input fun parent => !decide (parent ∈ chosen)).length ≤
      (otherParents input chosen).length := by
  apply Nat.le_trans (List.length_filterMap_le _ _)
  rw [otherParents, ← Std.ExtTreeMap.map_fst_toList_eq_keys, List.filter_map, List.length_map]
  apply Nat.le_of_eq
  congr 2
  funext entry
  simp

/-- What makes the answer robust. -/
structure Robust (input : NodeInput) (m : ℚ) : Prop where
  below : (numericParents input).length ≤
    2 * (readings input).countP fun number => decide (number ≤ m)
  above : (numericParents input).length ≤
    2 * (readings input).countP fun number => decide (m ≤ number)
  renamed : forall (other : NodeInput) (rename : NodeId -> NodeId),
    OrderedMap.Renamed rename input.parents other.parents ->
      execute .exact other = .ok ⟨Value.ofFloat (some m), 3⟩
  honest : forall chosen : Finset NodeId,
    (forall parent, parent ∈ chosen -> parent ∈ numericParents input) ->
    (otherParents input chosen).length < chosen.card ->
    ∃ smallest greatest, IsLeast (valuesOf input chosen) smallest ∧
      IsGreatest (valuesOf input chosen) greatest ∧ smallest ≤ m ∧ m ≤ greatest

/-- A median of the readings lies between the honest ones of a majority. -/
theorem between_of_isMedian {m : ℚ} (median : IsMedian (readings input) m)
    {chosen : Finset NodeId}
    (numeric : forall parent, parent ∈ chosen -> parent ∈ numericParents input)
    (majority : (otherParents input chosen).length < chosen.card) :
    ∃ smallest greatest, IsLeast (valuesOf input chosen) smallest ∧
      IsGreatest (valuesOf input chosen) greatest ∧ smallest ≤ m ∧ m ≤ greatest := by
  have more : (readingsWhere input fun parent => !decide (parent ∈ chosen)).length <
      (readingsWhere input fun parent => decide (parent ∈ chosen)).length := by
    rw [length_chosen numeric]
    exact Nat.lt_of_le_of_lt (length_others_le input chosen) majority
  have split := readings_perm input fun parent => decide (parent ∈ chosen)
  rcases median.exists_le split more with ⟨low, lowMember, small⟩
  rcases median.exists_ge split more with ⟨high, highMember, large⟩
  rcases exists_isLeast_isGreatest (List.ne_nil_of_mem lowMember) with
    ⟨smallest, greatest, least, most⟩
  rw [valuesOf_eq]
  exact ⟨smallest, greatest, least, most, (least.2 lowMember).trans small,
    large.trans (most.2 highMember)⟩

/-- The node fails exactly if no parent is numeric.  Otherwise its answer is a
median of the readings, independent of the names of the parents, and a strict
majority of honest parents confines it to the range of their readings. -/
theorem execute_robust (input : NodeInput) :
    ((∃ error, execute .exact input = .error error) ↔ (numericParents input).length = 0) ∧
    ((numericParents input).length ≠ 0 -> ∃ m : ℚ,
      execute .exact input = .ok ⟨Value.ofFloat (some m), 3⟩ ∧ Robust input m) := by
  by_cases empty : readings input = []
  · have noneNumeric : (numericParents input).length = 0 := by
      rw [← length_readings, empty, List.length_nil]
    exact ⟨iff_of_true ⟨_, execute_of_empty .exact empty⟩ noneNumeric,
      fun someNumeric => absurd noneNumeric someNumeric⟩
  · have someNumeric : (numericParents input).length ≠ 0 := by
      rw [← length_readings]
      exact mt List.length_eq_zero_iff.mp empty
    rcases exists_middle_exact empty with ⟨m, answer, median⟩
    have executed : execute .exact input = .ok ⟨Value.ofFloat (some m), 3⟩ := by
      rw [execute_of_nonempty .exact empty, answer]
    refine ⟨iff_of_false ?_ someNumeric, fun _someNumeric => ⟨m, executed, ?_⟩⟩
    · rintro ⟨error, failed⟩
      rw [executed] at failed
      cases failed
    · exact {
        below := by
          rw [← length_readings]
          exact median.below
        above := by
          rw [← length_readings]
          exact median.above
        renamed := fun other rename renamed => (execute_renamed .exact renamed).trans executed
        honest := fun chosen numeric majority => between_of_isMedian median numeric majority }

/-- Three prices. -/
def prices : NodeInput where
  workflowId := 0
  nodeId := "m"
  payload := Value.null
  parents := (((∅ : BTreeMap NodeId Value).insert "a" (Value.number (.posInt 1))).insert "b"
    (Value.number (.posInt 5))).insert "c" (Value.number (.posInt 3))

theorem execute_robust_prices : ∃ m : ℚ,
    execute .exact prices = .ok ⟨Value.ofFloat (some m), 3⟩ ∧ Robust prices m :=
  (execute_robust prices).2 (by decide +kernel)

end MedianNode

end Nodes
end KernelFlow
