import Mathlib
import KernelFlow.Core.Canonical

namespace KernelFlow

/-!
# Documents that differ in member order

The relation between documents of which one is the other with the members of
its objects listed differently, and what it says about their components.
-/

namespace Json

/-! ## Distinct keys as a test -/

mutual

/-- Whether all objects of a document have distinct keys. -/
def isDistinct : Json -> Bool
  | .array items => isDistinctItems items
  | .object members => decide (members.map Prod.fst).Nodup && isDistinctMembers members
  | _ => true

def isDistinctItems : List Json -> Bool
  | [] => true
  | item :: items => item.isDistinct && isDistinctItems items

def isDistinctMembers : List (String × Json) -> Bool
  | [] => true
  | (_, value) :: members => value.isDistinct && isDistinctMembers members

end

theorem isDistinctItems_eq_all (items : List Json) :
    isDistinctItems items = items.all isDistinct := by
  induction items with
  | nil => rfl
  | cons item items inductionHypothesis =>
      rw [isDistinctItems, inductionHypothesis, List.all_cons]

theorem isDistinctMembers_eq_all (members : List (String × Json)) :
    isDistinctMembers members = members.all fun member => member.2.isDistinct := by
  induction members with
  | nil => rfl
  | cons member members inductionHypothesis =>
      rw [isDistinctMembers, inductionHypothesis, List.all_cons]

theorem isDistinct_iff (document : Json) : document.isDistinct = true ↔ document.Distinct := by
  induction document using Json.induction with
  | array items inductionHypothesis =>
      rw [isDistinct, isDistinctItems_eq_all, List.all_eq_true, Distinct, distinctItems_iff]
      exact forall₂_congr inductionHypothesis
  | object members inductionHypothesis =>
      rw [isDistinct, isDistinctMembers_eq_all, Bool.and_eq_true, decide_eq_true_eq,
        List.all_eq_true, Distinct, distinctMembers_iff]
      exact and_congr_right fun _keys => forall₂_congr inductionHypothesis
  | _ => simp [isDistinct, Distinct]

instance (document : Json) : Decidable document.Distinct :=
  decidable_of_iff _ document.isDistinct_iff

/-! ## Components of reordered documents -/

/-- Documents with distinct keys that are equal up to the order of members. -/
structure Reordered (left right : Json) : Prop where
  leftDistinct : left.Distinct
  rightDistinct : right.Distinct
  same : left.SameUpToOrder right

theorem Reordered.refl {document : Json} (distinct : document.Distinct) :
    document.Reordered document :=
  ⟨distinct, distinct, sameUpToOrder_refl document distinct⟩

/-- The same members in another order. -/
theorem Reordered.of_perm {members others : List (String × Json)}
    (distinct : (Json.object members).Distinct) (permuted : members.Perm others) :
    (Json.object members).Reordered (.object others) := by
  have each := (distinctMembers_iff members).mp distinct.2
  refine ⟨distinct, ⟨(permuted.map Prod.fst).nodup_iff.mp distinct.1, ?_⟩, others, members, rfl,
    permuted, ?_⟩
  · rw [distinctMembers_iff]
    exact fun member inside => each member (permuted.mem_iff.mpr inside)
  · rw [sameMembers_iff, List.forall₂_same]
    exact fun member inside => ⟨rfl, sameUpToOrder_refl _ (each member inside)⟩

theorem Reordered.eq_of_leaf {left right : Json} (reordered : left.Reordered right)
    (leaf : left.IsLeaf) : right = left := by
  have same := reordered.same
  cases left with
  | array items => exact leaf.elim
  | object members => exact leaf.elim
  | _ => exact same

theorem Reordered.items {items : List Json} {right : Json}
    (reordered : (Json.array items).Reordered right) :
    ∃ others, right = .array others ∧ List.Forall₂ Reordered items others := by
  rcases reordered.same with ⟨others, rfl, same⟩
  refine ⟨others, rfl, ?_⟩
  have leftItems := (distinctItems_iff items).mp reordered.leftDistinct
  have rightItems := (distinctItems_iff others).mp reordered.rightDistinct
  rw [sameItems_iff, List.forall₂_iff_get] at same
  refine List.forall₂_iff_get.mpr ⟨same.1, ?_⟩
  intro position leftBound rightBound
  exact ⟨leftItems _ (List.get_mem _ _), rightItems _ (List.get_mem _ _),
    same.2 position leftBound rightBound⟩

theorem Reordered.array {items others : List Json} (same : List.Forall₂ Reordered items others) :
    (Json.array items).Reordered (.array others) := by
  have distinct : DistinctItems items ∧ DistinctItems others ∧ SameItems items others := by
    induction same with
    | nil => exact ⟨trivial, trivial, trivial⟩
    | cons head _tail inductionHypothesis =>
        exact ⟨⟨head.leftDistinct, inductionHypothesis.1⟩,
          ⟨head.rightDistinct, inductionHypothesis.2.1⟩, head.same, inductionHypothesis.2.2⟩
  exact ⟨distinct.1, distinct.2.1, others, rfl, distinct.2.2⟩

/-- The values of all members of one name. -/
def valuesOf (name : String) (members : List (String × Json)) : List Json :=
  (members.filter fun member => member.1 == name).map Prod.snd

/-- With distinct keys there is at most one. -/
theorem valuesOf_eq_lookup {members : List (String × Json)}
    (distinct : (members.map Prod.fst).Nodup) (name : String) :
    valuesOf name members = (members.lookup name).toList := by
  induction members with
  | nil => rfl
  | cons member rest inductionHypothesis =>
      rcases member with ⟨key, value⟩
      rw [List.map_cons, List.nodup_cons] at distinct
      have others := inductionHypothesis distinct.2
      rw [List.lookup_cons]
      by_cases same : key = name
      · subst same
        have absent : rest.lookup key = none := by
          rw [List.lookup_eq_none_iff]
          intro entry member
          have differs : key ≠ entry.1 := fun equal =>
            distinct.1 (List.mem_map.mpr ⟨entry, member, equal.symm⟩)
          simpa using differs
        rw [absent, Option.toList_none] at others
        have alone : rest.filter (fun member => member.1 == key) = [] := List.map_eq_nil_iff.mp others
        simp [valuesOf, alone]
      · have backwards : (name == key) = false := beq_eq_false_iff_ne.mpr (Ne.symm same)
        rw [backwards, ← others]
        simp [valuesOf, same]

theorem Reordered.lookup {members : List (String × Json)} {right : Json}
    (reordered : (Json.object members).Reordered right) :
    ∃ others, right = .object others ∧
      forall name, Option.Rel Reordered (members.lookup name) (others.lookup name) := by
  rcases reordered.same with ⟨others, listed, rfl, permuted, same⟩
  refine ⟨others, rfl, ?_⟩
  intro name
  have leftKeys := reordered.leftDistinct.1
  have listedKeys := (permuted.map Prod.fst).nodup_iff.mpr reordered.rightDistinct.1
  rw [← OrderedMap.lookup_perm permuted listedKeys]
  rcases lookup_sameMembers same name with
    ⟨leftAbsent, rightAbsent⟩ | ⟨first, second, leftFound, rightFound, related⟩
  · rw [leftAbsent, rightAbsent]
    exact .none
  · rw [leftFound, rightFound]
    have leftMember := (OrderedMap.lookup_eq_some_iff_mem leftKeys _ _).mp leftFound
    have rightMember := permuted.mem_iff.mp
      ((OrderedMap.lookup_eq_some_iff_mem listedKeys _ _).mp rightFound)
    exact .some ⟨(distinctMembers_iff members).mp reordered.leftDistinct.2 _ leftMember,
      (distinctMembers_iff others).mp reordered.rightDistinct.2 _ rightMember, related⟩

theorem Reordered.members {members : List (String × Json)} {right : Json}
    (reordered : (Json.object members).Reordered right) :
    ∃ others, right = .object others ∧
      forall name, List.Forall₂ Reordered (valuesOf name members) (valuesOf name others) := by
  rcases reordered.lookup with ⟨others, rfl, found⟩
  refine ⟨others, rfl, ?_⟩
  intro name
  rw [valuesOf_eq_lookup reordered.leftDistinct.1, valuesOf_eq_lookup reordered.rightDistinct.1]
  have related := found name
  generalize members.lookup name = first, others.lookup name = second at related
  cases related with
  | none => exact .nil
  | some same => exact .cons same .nil

theorem Reordered.length_eq {members others : List (String × Json)}
    (reordered : (Json.object members).Reordered (.object others)) :
    members.length = others.length := by
  rcases reordered.same with ⟨_others, listed, same, permuted, paired⟩
  cases same
  rw [sameMembers_iff] at paired
  exact paired.length_eq.trans permuted.length_eq

theorem Reordered.single {name : String} {content right : Json}
    (reordered : (Json.object [(name, content)]).Reordered right) :
    ∃ other, right = .object [(name, other)] ∧ content.Reordered other := by
  rcases reordered.members with ⟨others, rfl, values⟩
  rcases List.length_eq_one_iff.mp reordered.length_eq.symm with ⟨⟨key, other⟩, rfl⟩
  have related := values name
  by_cases same : key = name
  · subst same
    simp only [valuesOf, List.filter_cons, List.filter_nil, beq_self_eq_true, if_true, List.map_cons,
      List.map_nil, List.forall₂_cons] at related
    exact ⟨other, rfl, related.1⟩
  · simp [valuesOf, same] at related

theorem Reordered.filter {members : List (String × Json)} {right : Json}
    (reordered : (Json.object members).Reordered right) (keep : String -> Bool) :
    ∃ others, right = .object others ∧
      (Json.object (members.filter fun member => keep member.1)).Reordered
        (.object (others.filter fun member => keep member.1)) := by
  rcases reordered with ⟨leftDistinct, rightDistinct, others, listed, rfl, permuted, same⟩
  have kept (members : List (String × Json)) (distinct : (Json.object members).Distinct) :
      (Json.object (members.filter fun member => keep member.1)).Distinct := by
    refine ⟨distinct.1.sublist (List.filter_sublist.map _), (distinctMembers_iff _).mpr ?_⟩
    intro member inside
    exact (distinctMembers_iff members).mp distinct.2 member (List.mem_of_mem_filter inside)
  refine ⟨others, rfl, kept members leftDistinct, kept others rightDistinct, _,
    listed.filter fun member => keep member.1, rfl, permuted.filter _, ?_⟩
  rw [sameMembers_iff] at same ⊢
  apply List.rel_filter _ same
  intro first second pair
  change keep first.1 = true ↔ keep second.1 = true
  rw [pair.1]

end Json

end KernelFlow
