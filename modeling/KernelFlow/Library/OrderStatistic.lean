import Mathlib

universe u

/-!
# Order statistics and medians

The entries of a list in ascending order.  An entry has as many values below it
as its position says, which bounds two counts over the list itself.  A median is
characterized by such counts, so it does not depend on the order of the list,
and a majority of the values has members on both sides of it.

The two entries in the middle of an even number of values are described without
sorting, by the values that are put before and after them.
-/

namespace OrderStatistic

variable {α : Type u} [LinearOrder α] {values : List α}

/-- The values in ascending order. -/
def ascending (values : List α) : List α :=
  values.mergeSort fun left right => decide (left ≤ right)

theorem ascending_perm (values : List α) : (ascending values).Perm values :=
  List.mergeSort_perm _ _

theorem ascending_pairwise (values : List α) : (ascending values).Pairwise (· ≤ ·) :=
  List.pairwise_mergeSort' (· ≤ ·) values

theorem length_ascending (values : List α) : (ascending values).length = values.length :=
  List.length_mergeSort values

theorem mem_ascending {value : α} : value ∈ ascending values ↔ value ∈ values :=
  (ascending_perm values).mem_iff

/-- A rearrangement in ascending order is the ascending order. -/
theorem ascending_eq {sorted : List α} (ordered : sorted.Pairwise (· ≤ ·))
    (permuted : sorted.Perm values) : ascending values = sorted :=
  ((ascending_perm values).trans permuted.symm).eq_of_pairwise' (ascending_pairwise values) ordered

/-- The order in which the values are listed does not matter. -/
theorem ascending_congr {other : List α} (permuted : values.Perm other) :
    ascending values = ascending other :=
  ascending_eq (ascending_pairwise other) ((ascending_perm other).trans permuted.symm)

theorem getElem_ascending_le {first second : Nat} (before : first ≤ second)
    (inside : second < (ascending values).length) :
    (ascending values)[first] ≤ (ascending values)[second] := by
  rcases Nat.eq_or_lt_of_le before with rfl | earlier
  · exact le_refl _
  · exact List.pairwise_iff_getElem.mp (ascending_pairwise values) first second _ inside earlier

/-- An entry and those before it are at most the entry. -/
theorem lt_countP_le {position : Nat} {entry : α}
    (found : (ascending values)[position]? = some entry) :
    position < values.countP fun value => decide (value ≤ entry) := by
  rcases List.getElem?_eq_some_iff.mp found with ⟨inside, rfl⟩
  have early : ((ascending values).take (position + 1)).countP
      (fun value => decide (value ≤ (ascending values)[position])) = position + 1 := by
    have length : ((ascending values).take (position + 1)).length = position + 1 :=
      List.length_take_of_le inside
    refine (List.countP_eq_length.mpr ?_).trans length
    intro value member
    rcases List.mem_take_iff_getElem.mp member with ⟨index, bound, rfl⟩
    have before : index ≤ position :=
      Nat.le_of_lt_succ (Nat.lt_of_lt_of_le bound (Nat.min_le_left _ _))
    exact decide_eq_true (getElem_ascending_le before inside)
  rw [← (ascending_perm values).countP_eq]
  exact Nat.lt_of_succ_le (Nat.le_trans (Nat.le_of_eq early.symm) (List.take_sublist _ _).countP_le)

/-- An entry and those after it are at least the entry. -/
theorem length_le_add_countP_ge {position : Nat} {entry : α}
    (found : (ascending values)[position]? = some entry) :
    values.length ≤ position + values.countP fun value => decide (entry ≤ value) := by
  rcases List.getElem?_eq_some_iff.mp found with ⟨inside, rfl⟩
  have late : ((ascending values).drop position).countP
      (fun value => decide ((ascending values)[position] ≤ value)) =
        (ascending values).length - position := by
    refine (List.countP_eq_length.mpr ?_).trans List.length_drop
    intro value member
    rcases List.mem_drop_iff_getElem.mp member with ⟨index, bound, rfl⟩
    rw [Nat.add_comm] at bound
    exact decide_eq_true (getElem_ascending_le (Nat.le_add_right _ _) bound)
  have some_late := (List.drop_sublist position (ascending values)).countP_le
    (p := fun value => decide ((ascending values)[position] ≤ value))
  rw [late, (ascending_perm values).countP_eq, length_ascending] at some_late
  exact Nat.sub_le_iff_le_add'.mp some_late

/-! ## Medians -/

/-- At least half of the values lie on either side. -/
structure IsMedian (values : List α) (middle : α) : Prop where
  below : values.length ≤ 2 * values.countP fun value => decide (value ≤ middle)
  above : values.length ≤ 2 * values.countP fun value => decide (middle ≤ value)

/-- Whatever lies between the two entries next to the middle is a median. -/
theorem isMedian_of_between {lower upper : Nat} {low middle high : α}
    (lowEntry : (ascending values)[lower]? = some low)
    (highEntry : (ascending values)[upper]? = some high) (above : low ≤ middle)
    (below : middle ≤ high) (lowRank : values.length ≤ 2 * (lower + 1))
    (highRank : 2 * upper ≤ values.length) : IsMedian values middle where
  below := by
    have early := lt_countP_le lowEntry
    have wider : (values.countP fun value => decide (value ≤ low)) ≤
        values.countP fun value => decide (value ≤ middle) := by
      apply List.countP_mono_left
      intro value _member small
      exact decide_eq_true ((of_decide_eq_true small).trans above)
    omega
  above := by
    have late := length_le_add_countP_ge highEntry
    have wider : (values.countP fun value => decide (high ≤ value)) ≤
        values.countP fun value => decide (middle ≤ value) := by
      apply List.countP_mono_left
      intro value _member large
      exact decide_eq_true (below.trans (of_decide_eq_true large))
    omega

omit [LinearOrder α] in
/-- A majority meets every test that half of the values meet. -/
private theorem exists_of_majority {part rest : List α} (test : α -> Bool)
    (split : values.Perm (part ++ rest)) (majority : rest.length < part.length)
    (frequent : values.length ≤ 2 * values.countP test) : ∃ value ∈ part, test value = true := by
  by_contra absent
  have none : part.countP test = 0 := by
    apply List.countP_eq_zero.mpr
    intro value member holds
    exact absent ⟨value, member, holds⟩
  have few : rest.countP test ≤ rest.length := List.countP_le_length
  rw [split.countP_eq, split.length_eq, List.countP_append, List.length_append, none] at frequent
  omega

/-- A median is at least some value of a majority. -/
theorem IsMedian.exists_le {middle : α} {part rest : List α} (median : IsMedian values middle)
    (split : values.Perm (part ++ rest)) (majority : rest.length < part.length) :
    ∃ value ∈ part, value ≤ middle := by
  rcases exists_of_majority _ split majority median.below with ⟨value, member, small⟩
  exact ⟨value, member, of_decide_eq_true small⟩

/-- A median is at most some value of a majority. -/
theorem IsMedian.exists_ge {middle : α} {part rest : List α} (median : IsMedian values middle)
    (split : values.Perm (part ++ rest)) (majority : rest.length < part.length) :
    ∃ value ∈ part, middle ≤ value := by
  rcases exists_of_majority _ split majority median.above with ⟨value, member, large⟩
  exact ⟨value, member, of_decide_eq_true large⟩

/-! ## The pair in the middle -/

/-- The values can be listed with the two next to each other in the middle, as
many before as after, no greater value before and no smaller value after. -/
def MiddlePair (values : List α) (low high : α) : Prop :=
  ∃ before after : List α, values.Perm (before ++ low :: high :: after) ∧
    before.length = after.length ∧ (forall value, value ∈ before -> value ≤ low) ∧ low ≤ high ∧
    forall value, value ∈ after -> high ≤ value

/-- Around a middle pair the ascending orders of the two sides make the
ascending order. -/
private theorem ascending_around {low high : α} {before after : List α}
    (permuted : values.Perm (before ++ low :: high :: after))
    (small : forall value, value ∈ before -> value ≤ low) (ordered : low ≤ high)
    (large : forall value, value ∈ after -> high ≤ value) :
    ascending values = ascending before ++ low :: high :: ascending after := by
  have beyond : forall value, value ∈ high :: ascending after -> low ≤ value := by
    intro value member
    rcases List.mem_cons.mp member with rfl | late
    · exact ordered
    · exact ordered.trans (large value (mem_ascending.mp late))
  have sorted : (ascending before ++ low :: high :: ascending after).Pairwise (· ≤ ·) := by
    rw [List.pairwise_append, List.pairwise_cons, List.pairwise_cons]
    refine ⟨ascending_pairwise before, ⟨beyond, ?_, ascending_pairwise after⟩, ?_⟩
    · intro value member
      exact large value (mem_ascending.mp member)
    · intro first early second late
      have bounded := small first (mem_ascending.mp early)
      rcases List.mem_cons.mp late with rfl | later
      · exact bounded
      · exact bounded.trans (beyond second later)
  apply ascending_eq sorted
  exact ((ascending_perm before).append (((ascending_perm after).cons high).cons low)).trans
    permuted.symm

/-- A middle pair stands in the middle of the ascending order. -/
theorem MiddlePair.entries {low high : α} (pair : MiddlePair values low high) :
    ∃ half, values.length = 2 * (half + 1) ∧ (ascending values)[half]? = some low ∧
      (ascending values)[half + 1]? = some high := by
  rcases pair with ⟨before, after, permuted, balanced, small, ordered, large⟩
  have position : (ascending before).length = before.length := length_ascending before
  rw [ascending_around permuted small ordered large]
  refine ⟨(ascending before).length, ?_, ?_, ?_⟩
  · rw [permuted.length_eq, List.length_append, List.length_cons, List.length_cons, position,
      balanced]
    omega
  · rw [List.getElem?_append_right (Nat.le_refl _), Nat.sub_self, List.getElem?_cons_zero]
  · rw [List.getElem?_append_right (Nat.le_succ _), Nat.succ_sub (Nat.le_refl _), Nat.sub_self,
      List.getElem?_cons_succ, List.getElem?_cons_zero]

/-- The two entries in the middle of the ascending order are a middle pair. -/
theorem middlePair_of_entries {low high : α} {half : Nat} (even : values.length = 2 * (half + 1))
    (lowEntry : (ascending values)[half]? = some low)
    (highEntry : (ascending values)[half + 1]? = some high) : MiddlePair values low high := by
  rcases List.getElem?_eq_some_iff.mp lowEntry with ⟨lowInside, rfl⟩
  rcases List.getElem?_eq_some_iff.mp highEntry with ⟨highInside, rfl⟩
  have parts : ascending values = (ascending values).take half ++
      (ascending values)[half] :: (ascending values)[half + 1] ::
        (ascending values).drop (half + 2) := by
    rw [← List.drop_eq_getElem_cons highInside, ← List.drop_eq_getElem_cons lowInside,
      List.take_append_drop]
  refine ⟨(ascending values).take half, (ascending values).drop (half + 2), ?_, ?_, ?_,
    getElem_ascending_le (Nat.le_succ half) highInside, ?_⟩
  · rw [← parts]
    exact (ascending_perm values).symm
  · rw [List.length_take_of_le lowInside.le, List.length_drop, length_ascending, even]
    omega
  · intro value member
    rcases List.mem_take_iff_getElem.mp member with ⟨index, bound, rfl⟩
    exact getElem_ascending_le (Nat.le_of_lt (Nat.lt_of_lt_of_le bound (Nat.min_le_left _ _)))
      lowInside
  · intro value member
    rcases List.mem_drop_iff_getElem.mp member with ⟨index, bound, rfl⟩
    rw [Nat.add_comm] at bound
    exact getElem_ascending_le (Nat.le_trans (Nat.le_succ _) (Nat.le_add_right _ _)) bound

/-- An odd number of values has no middle pair. -/
theorem not_middlePair_of_odd {half : Nat} (odd : values.length = 2 * half + 1) {low high : α} :
    ¬ MiddlePair values low high := by
  intro pair
  rcases pair.entries with ⟨other, even, _⟩
  omega

/-- There is at most one middle pair. -/
theorem MiddlePair.unique {low high otherLow otherHigh : α} (pair : MiddlePair values low high)
    (other : MiddlePair values otherLow otherHigh) : otherLow = low ∧ otherHigh = high := by
  rcases pair.entries with ⟨half, even, lowEntry, highEntry⟩
  rcases other.entries with ⟨otherHalf, otherEven, otherLowEntry, otherHighEntry⟩
  have same : otherHalf = half := by omega
  rw [same] at otherLowEntry otherHighEntry
  constructor
  · exact Option.some.inj (otherLowEntry.symm.trans lowEntry)
  · exact Option.some.inj (otherHighEntry.symm.trans highEntry)

theorem MiddlePair.le {low high : α} (pair : MiddlePair values low high) : low ≤ high := by
  rcases pair with ⟨before, after, _, _, _, ordered, _⟩
  exact ordered

/-- The smallest and the greatest value of a nonempty list. -/
theorem exists_isLeast_isGreatest (nonempty : values ≠ []) :
    ∃ smallest greatest, IsLeast {value | value ∈ values} smallest ∧
      IsGreatest {value | value ∈ values} greatest := by
  have inhabited : {value | value ∈ values}.Nonempty := List.exists_mem_of_ne_nil values nonempty
  rcases Set.exists_min_image _ id values.finite_toSet inhabited with ⟨smallest, member, least⟩
  rcases Set.exists_max_image _ id values.finite_toSet inhabited with ⟨greatest, inside, most⟩
  exact ⟨smallest, greatest, ⟨member, least⟩, ⟨inside, most⟩⟩

end OrderStatistic
