import Mathlib
import KernelFlow.Core.Pointer

namespace KernelFlow

/-!
# What the comparison in an edge condition sees

A condition compares a component of the output with its value.  The comparison sees
neither the order of members nor the sign of a float zero.
-/

/-- A number without the sign of its zero. -/
def Number.unsignZero : Number -> Number
  | .negZero => .float 0
  | .posInt value => .posInt value
  | .negInt value => .negInt value
  | .float value => .float value

theorem Number.beq_iff (left right : Number) :
    left.beq right = true ↔ left.unsignZero = right.unsignZero := by
  unfold beq unsignZero
  cases left with
  | posInt value => cases right <;> simp
  | negInt value => cases right <;> simp [Subtype.ext_iff]
  | float value => cases right <;> simp
  | negZero =>
      cases right with
      | float value =>
          rw [beq_iff_eq, float.injEq]
          exact eq_comm
      | _ => simp

namespace Json

mutual

/-- The document without the signs of float zeros. -/
def unsignZeros : Json -> Json
  | .number value => .number value.unsignZero
  | .array items => .array (unsignZerosItems items)
  | .object members => .object (unsignZerosMembers members)
  | other => other

def unsignZerosItems : List Json -> List Json
  | [] => []
  | item :: items => item.unsignZeros :: unsignZerosItems items

def unsignZerosMembers : List (String × Json) -> List (String × Json)
  | [] => []
  | (key, value) :: members => (key, value.unsignZeros) :: unsignZerosMembers members

end

theorem unsignZerosItems_eq_map (items : List Json) :
    unsignZerosItems items = items.map unsignZeros := by
  induction items with
  | nil => rfl
  | cons head tail inductionHypothesis =>
      rw [unsignZerosItems, inductionHypothesis, List.map_cons]

theorem lookup_unsignZerosMembers (members : List (String × Json)) (key : String) :
    (unsignZerosMembers members).lookup key = (members.lookup key).map unsignZeros := by
  induction members with
  | nil => rfl
  | cons head tail inductionHypothesis =>
      rcases head with ⟨headKey, headValue⟩
      rw [unsignZerosMembers, List.lookup_cons, List.lookup_cons, inductionHypothesis]
      cases key == headKey <;> rfl

theorem keys_unsignZerosMembers (members : List (String × Json)) :
    (unsignZerosMembers members).map Prod.fst = members.map Prod.fst := by
  induction members with
  | nil => rfl
  | cons head tail inductionHypothesis =>
      rw [unsignZerosMembers, List.map_cons, List.map_cons, inductionHypothesis]

/-- As many keys on both sides: if every key on the left is on the right, then
the other way around, too. -/
theorem mem_keys_of_subset {left right : List (String × Json)}
    (leftDistinct : (left.map Prod.fst).Nodup) (sameLength : left.length = right.length)
    (subset : forall key, key ∈ left.map Prod.fst -> key ∈ right.map Prod.fst) {key : String}
    (member : key ∈ right.map Prod.fst) : key ∈ left.map Prod.fst := by
  have permuted : (left.map Prod.fst).Perm (right.map Prod.fst) := by
    apply (leftDistinct.subperm subset).perm_of_length_le
    rw [List.length_map, List.length_map, sameLength]
  exact permuted.mem_iff.mpr member

theorem isSome_lookup_iff {members : List (String × Json)} {key : String} :
    (members.lookup key).isSome = true ↔ key ∈ members.map Prod.fst := by
  rw [List.lookup_isSome_iff, List.mem_map]
  simp only [beq_iff_eq]
  exact exists_congr fun _member => and_congr_right fun _inside => eq_comm

theorem beqItems_iff (left right : List Json) :
    beqItems left right = true ↔
      List.Forall₂ (fun first second => first.beq second = true) left right := by
  induction left generalizing right with
  | nil => cases right <;> simp [beqItems]
  | cons head tail inductionHypothesis =>
      cases right with
      | nil => simp [beqItems]
      | cons other rest => simp [beqItems, inductionHypothesis]

theorem matchesMember_iff (others : List (String × Json)) (member : String × Json) :
    matchesMember others member = true ↔
      ∃ other, others.lookup member.1 = some other ∧ member.2.beq other = true := by
  unfold matchesMember
  cases others.lookup member.1 <;> simp

/-- The comparison of documents is equality up to the order of members and the
signs of zeros. -/
theorem beq_iff {left right : Json} (leftDistinct : left.Distinct)
    (rightDistinct : right.Distinct) :
    left.beq right = true ↔ left.unsignZeros.canonicalize = right.unsignZeros.canonicalize := by
  induction left using Json.induction generalizing right with
  | null => cases right <;> simp [beq, unsignZeros, canonicalize]
  | bool => cases right <;> simp [beq, unsignZeros, canonicalize]
  | number => cases right <;> simp [beq, unsignZeros, canonicalize, Number.beq_iff]
  | string => cases right <;> simp [beq, unsignZeros, canonicalize]
  | array lefts inductionHypothesis =>
      cases right with
      | array rights =>
          have leftItems := (distinctItems_iff lefts).mp leftDistinct
          have rightItems := (distinctItems_iff rights).mp rightDistinct
          rw [beq, beqItems_iff, unsignZeros, unsignZeros, canonicalize, canonicalize,
            Json.array.injEq, canonicalizeItems_eq_map, canonicalizeItems_eq_map,
            unsignZerosItems_eq_map, unsignZerosItems_eq_map, List.map_map, List.map_map,
            ← List.forall₂_eq_eq_eq, List.forall₂_map_left_iff, List.forall₂_map_right_iff,
            List.forall₂_iff_get, List.forall₂_iff_get]
          apply and_congr_right
          intro _length
          apply forall₃_congr
          intro position leftBound rightBound
          exact inductionHypothesis _ (List.get_mem _ _)
            (leftItems _ (List.get_mem _ _)) (rightItems _ (List.get_mem _ _))
      | _ => simp [beq, unsignZeros, canonicalize]
  | object lefts inductionHypothesis =>
      cases right with
      | object rights =>
          have leftKeys := (keys_unsignZerosMembers lefts).symm ▸ leftDistinct.1
          have rightKeys := (keys_unsignZerosMembers rights).symm ▸ rightDistinct.1
          have leftMembers := (distinctMembers_iff lefts).mp leftDistinct.2
          have rightMembers := (distinctMembers_iff rights).mp rightDistinct.2
          rw [beq, beqMembers_eq_all, unsignZeros, unsignZeros,
            canonicalize_object_eq_iff leftKeys rightKeys, Bool.and_eq_true, beq_iff_eq,
            List.all_eq_true]
          simp only [matchesMember_iff, lookup_unsignZerosMembers, Option.map_map]
          constructor
          · rintro ⟨sameLength, matched⟩ key
            cases listed : lefts.lookup key with
            | some value =>
                have inside :=
                  (OrderedMap.lookup_eq_some_iff_mem leftDistinct.1 key value).mp listed
                rcases matched _ inside with ⟨other, found, equal⟩
                have outside :=
                  (OrderedMap.lookup_eq_some_iff_mem rightDistinct.1 key other).mp found
                rw [found]
                exact congrArg some ((inductionHypothesis _ inside (leftMembers _ inside)
                  (rightMembers _ outside)).mp equal)
            | none =>
                have absent : key ∉ lefts.map Prod.fst := by
                  rw [← isSome_lookup_iff, listed]
                  exact Bool.false_ne_true
                have missing : rights.lookup key = none := by
                  rw [← Option.not_isSome_iff_eq_none, isSome_lookup_iff]
                  intro member
                  refine absent (mem_keys_of_subset leftDistinct.1 sameLength ?_ member)
                  intro other present
                  rcases List.mem_map.mp present with ⟨entry, inside, rfl⟩
                  rcases matched _ inside with ⟨value, found, _equal⟩
                  rw [← isSome_lookup_iff, found]
                  rfl
                rw [missing]
          · intro same
            have sameKeys (key : String) :
                key ∈ lefts.map Prod.fst ↔ key ∈ rights.map Prod.fst := by
              have present := congrArg Option.isSome (same key)
              rw [Option.isSome_map, Option.isSome_map] at present
              rw [← isSome_lookup_iff, ← isSome_lookup_iff, present]
            refine ⟨?_, ?_⟩
            · have permuted :=
                (List.perm_ext_iff_of_nodup leftDistinct.1 rightDistinct.1).mpr sameKeys
              simpa only [List.length_map] using permuted.length_eq
            · rintro ⟨key, value⟩ inside
              have listed := (OrderedMap.lookup_eq_some_iff_mem leftDistinct.1 key value).mpr inside
              have agree := same key
              rw [listed] at agree
              rcases Option.map_eq_some_iff.mp agree.symm with ⟨other, found, equal⟩
              have outside := (OrderedMap.lookup_eq_some_iff_mem rightDistinct.1 key other).mp found
              exact ⟨other, found, (inductionHypothesis _ inside (leftMembers _ inside)
                (rightMembers _ outside)).mpr equal.symm⟩
      | _ => simp [beq, unsignZeros, canonicalize]

end Json

end KernelFlow
