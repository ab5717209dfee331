import Mathlib
import KernelFlow.Library.OrderedMap

universe u

/-!
# Countdown maps

Kahn-style traversals keep one counter for every vertex, lower it once for
each prerequisite that has been met and put the vertex on a work list at the
moment the counter reaches zero.  The structure `Consistent` states what such
a map must satisfy against a specification `due` of the true number of unmet
prerequisites: the counters are exact, and the vertices that have ever been
put on the list are precisely those with a zero counter, each of them once.

`release` is the partial operation that performs one decrement.  It fails on
an absent key and on a counter that is already zero.  The main rule shows that
neither can happen while a prerequisite is still due, and that consistency is
kept for the specification lowered at that one vertex.
-/

/-- Counters in an ordered map. -/
abbrev Counters (ν : Type u) [Ord ν] : Type u :=
  BTreeMap ν Nat

namespace Counters

variable {ν : Type u} [Ord ν] [Std.TransOrd ν] [Std.LawfulEqOrd ν]

/-- The keys whose counter is zero, in key order. -/
def zeros (counters : Counters ν) : List ν :=
  (counters.toList.filter fun entry => entry.2 == 0).map Prod.fst

/-- Lower one counter and append its key to the work list when it reaches
zero.  The result is `none` for an absent key and for a counter at zero. -/
def release (counters : Counters ν) (queue : List ν) (vertex : ν) :
    Option (Counters ν × List ν) :=
  match counters[vertex]? with
  | none => none
  | some 0 => none
  | some (remaining + 1) =>
      some (counters.insert vertex remaining,
        if remaining = 0 then queue ++ [vertex] else queue)

omit [Std.LawfulEqOrd ν] in
/-- A decrement appends at most its own key to the work list. -/
theorem release_queue {counters lowered : Counters ν} {queue extended : List ν} {vertex : ν}
    (released : counters.release queue vertex = some (lowered, extended)) :
    extended = queue ∨ extended = queue ++ [vertex] := by
  unfold release at released
  split at released
  · cases released
  · cases released
  · rw [Option.some.injEq, Prod.mk.injEq] at released
    rw [← released.2]
    split
    · exact Or.inr rfl
    · exact Or.inl rfl

/-- The counters are exact for `due`, and `seen` lists every vertex that has
reached zero exactly once. -/
structure Consistent (counters : Counters ν) (due : ν -> Nat) (seen : List ν) : Prop where
  exact_count : forall vertex, vertex ∈ counters -> counters[vertex]? = some (due vertex)
  nodup : seen.Nodup
  seen_iff : forall vertex, vertex ∈ seen ↔ counters[vertex]? = some 0

theorem mem_zeros (counters : Counters ν) (vertex : ν) :
    vertex ∈ counters.zeros ↔ counters[vertex]? = some 0 := by
  unfold zeros
  rw [List.mem_map]
  constructor
  · rintro ⟨⟨key, count⟩, member, rfl⟩
    have parts := List.mem_filter.mp member
    have zero : count = 0 := by simpa using parts.2
    rw [← zero]
    exact Std.ExtTreeMap.mem_toList_iff_getElem?_eq_some.mp parts.1
  · intro found
    exact ⟨(vertex, 0), List.mem_filter.mpr
      ⟨Std.ExtTreeMap.mem_toList_iff_getElem?_eq_some.mpr found, by simp⟩, rfl⟩

omit [Std.LawfulEqOrd ν] in
theorem zeros_nodup (counters : Counters ν) : counters.zeros.Nodup :=
  (OrderedMap.toList_keys_nodup counters).sublist (List.filter_sublist.map _)

namespace Consistent

variable {counters : Counters ν} {due : ν -> Nat} {seen : List ν}

/-- Exact counters are consistent with their own zero entries. -/
theorem initial (exact_count : forall vertex, vertex ∈ counters ->
    counters[vertex]? = some (due vertex)) : Consistent counters due counters.zeros where
  exact_count := exact_count
  nodup := counters.zeros_nodup
  seen_iff := counters.mem_zeros

omit [Std.LawfulEqOrd ν] in
theorem mem_counters (consistent : Consistent counters due seen) {vertex : ν}
    (member : vertex ∈ seen) : vertex ∈ counters := by
  have zero := (consistent.seen_iff vertex).mp member
  exact Std.ExtTreeMap.mem_iff_isSome_getElem?.mpr (by rw [zero]; rfl)

omit [Std.LawfulEqOrd ν] in
/-- A vertex has been seen exactly when nothing is due there any more. -/
theorem seen_iff_due (consistent : Consistent counters due seen) {vertex : ν}
    (declared : vertex ∈ counters) : vertex ∈ seen ↔ due vertex = 0 := by
  rw [consistent.seen_iff, consistent.exact_count vertex declared, Option.some.injEq]

omit [Std.LawfulEqOrd ν] in
/-- The specification may be replaced by one that agrees on the keys. -/
theorem congr_due {other : ν -> Nat} (consistent : Consistent counters due seen)
    (same : forall vertex, vertex ∈ counters -> due vertex = other vertex) :
    Consistent counters other seen where
  exact_count := fun vertex declared => by
    rw [← same vertex declared]
    exact consistent.exact_count vertex declared
  nodup := consistent.nodup
  seen_iff := consistent.seen_iff

/-- One decrement.  While something is due at a declared vertex the operation
succeeds, keeps the key set and lowers the specification at that vertex alone. -/
theorem release [DecidableEq ν] {handled queue : List ν} {vertex : ν}
    (consistent : Consistent counters due (handled ++ queue))
    (declared : vertex ∈ counters) (positive : 0 < due vertex) :
    ∃ lowered extended, counters.release queue vertex = some (lowered, extended) ∧
      Consistent lowered (Function.update due vertex (due vertex - 1)) (handled ++ extended) ∧
      forall other, other ∈ lowered ↔ other ∈ counters := by
  have count := consistent.exact_count vertex declared
  rcases Nat.exists_eq_succ_of_ne_zero (Nat.ne_of_gt positive) with ⟨remaining, dueEq⟩
  have notSeen : vertex ∉ handled ++ queue := fun member => by
    have zero := (consistent.seen_iff_due declared).mp member
    omega
  have computed : counters.release queue vertex = some (counters.insert vertex remaining,
      if remaining = 0 then queue ++ [vertex] else queue) := by
    simp only [Counters.release, count, dueEq]
  have sameKeys := OrderedMap.mem_insert_of_mem declared remaining
  refine ⟨_, _, computed, ?_, sameKeys⟩
  constructor
  · intro other member
    rw [OrderedMap.getElem?_insert_eq]
    by_cases same : vertex = other
    · subst other
      rw [if_pos rfl, Function.update_self, dueEq, Nat.succ_sub_one]
    · rw [if_neg same, Function.update_of_ne (Ne.symm same)]
      exact consistent.exact_count other ((sameKeys other).mp member)
  · by_cases last : remaining = 0
    · rw [if_pos last, ← List.append_assoc, List.nodup_append]
      refine ⟨consistent.nodup, List.nodup_singleton _, ?_⟩
      intro first inside second only same
      rw [List.mem_singleton.mp only] at same
      exact notSeen (same ▸ inside)
    · rw [if_neg last]
      exact consistent.nodup
  · intro other
    rw [OrderedMap.getElem?_insert_eq]
    by_cases same : vertex = other
    · subst other
      rw [if_pos rfl, Option.some.injEq]
      by_cases last : remaining = 0
      · rw [if_pos last]
        simp [last]
      · rw [if_neg last]
        exact ⟨fun member => absurd member notSeen, fun zero => absurd zero last⟩
    · rw [if_neg same, ← consistent.seen_iff other]
      by_cases last : remaining = 0
      · rw [if_pos last, ← List.append_assoc, List.mem_append, List.mem_singleton]
        exact ⟨fun either => either.elim id (fun equal => absurd equal.symm same), Or.inl⟩
      · rw [if_neg last]

end Consistent

end Counters
