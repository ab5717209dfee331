import Mathlib
import KernelFlow.Library.OrderedMap
import KernelFlow.Core.Json

namespace KernelFlow

/-!
# Canonical documents and content hashes

`canonicalize` sorts the members of every object by inserting them into an
ordered map.  Two values have the same canonical document exactly when they
are equal up to reordering object members at every depth, so the canonical
document is a complete invariant of the value: nothing else is identified, and
no member order is visible.

The writer and the digest are outside the repository.  `HashBackend` takes
both as parameters, and `hashJson` is the composition the source makes of them.
-/

namespace Json

mutual

/-- Sort the members of every object by key.  Arrays keep their order. -/
def canonicalize : Json -> Json
  | .object members => .object (insertMembers members ∅).toList
  | .array items => .array (canonicalizeItems items)
  | other => other

def canonicalizeItems : List Json -> List Json
  | [] => []
  | item :: items => canonicalize item :: canonicalizeItems items

/-- The loop over the members of one object, filling the ordered map. -/
def insertMembers : List (String × Json) -> BTreeMap String Json -> BTreeMap String Json
  | [], sorted => sorted
  | (key, value) :: members, sorted =>
      insertMembers members (sorted.insert key (canonicalize value))

end

/-! ## Equality up to member order -/

mutual

/-- Equal up to reordering the members of objects at every depth. -/
def SameUpToOrder : Json -> Json -> Prop
  | .array left, other => ∃ right, other = .array right ∧ SameItems left right
  | .object left, other => ∃ right reordered, other = .object right ∧
      reordered.Perm right ∧ SameMembers left reordered
  | leaf, other => other = leaf

def SameItems : List Json -> List Json -> Prop
  | [], [] => True
  | left :: lefts, right :: rights => SameUpToOrder left right ∧ SameItems lefts rights
  | _, _ => False

def SameMembers : List (String × Json) -> List (String × Json) -> Prop
  | [], [] => True
  | (leftKey, left) :: lefts, (rightKey, right) :: rights =>
      leftKey = rightKey ∧ SameUpToOrder left right ∧ SameMembers lefts rights
  | _, _ => False

end

/-! ## The ordered map built from one object -/

theorem canonicalizeItems_eq_map (items : List Json) :
    canonicalizeItems items = items.map canonicalize := by
  induction items with
  | nil => rfl
  | cons head tail inductionHypothesis =>
      rw [canonicalizeItems, inductionHypothesis, List.map_cons]

/-- With distinct keys no insertion overwrites another one. -/
theorem getElem?_insertMembers {members : List (String × Json)}
    (distinct : (members.map Prod.fst).Nodup) (sorted : BTreeMap String Json) (key : String) :
    (insertMembers members sorted)[key]? =
      ((members.lookup key).map canonicalize).or sorted[key]? := by
  induction members generalizing sorted with
  | nil => simp [insertMembers]
  | cons head tail inductionHypothesis =>
      rcases head with ⟨headKey, headValue⟩
      rw [List.map_cons, List.nodup_cons] at distinct
      rw [insertMembers, inductionHypothesis distinct.2, OrderedMap.getElem?_insert_eq,
        List.lookup_cons]
      by_cases same : headKey = key
      · subst headKey
        have absent : tail.lookup key = none := by
          rw [List.lookup_eq_none_iff]
          intro entry member
          have differs : key ≠ entry.1 := fun equal =>
            distinct.1 (List.mem_map.mpr ⟨entry, member, equal.symm⟩)
          simpa using differs
        simp [absent]
      · have differs : (key == headKey) = false := beq_eq_false_iff_ne.mpr (Ne.symm same)
        rw [differs, if_neg same]

/-- The lookups of a canonical object are the canonical lookups. -/
theorem lookup_canonicalize {members : List (String × Json)}
    (distinct : (members.map Prod.fst).Nodup) (key : String) :
    (insertMembers members ∅).toList.lookup key = (members.lookup key).map canonicalize := by
  rw [OrderedMap.lookup_toList, getElem?_insertMembers distinct]
  simp

/-- Two objects have one canonical document exactly when their members agree
key by key. -/
theorem canonicalize_object_eq_iff {left right : List (String × Json)}
    (leftDistinct : (left.map Prod.fst).Nodup) (rightDistinct : (right.map Prod.fst).Nodup) :
    canonicalize (.object left) = canonicalize (.object right) ↔ forall key,
      (left.lookup key).map canonicalize = (right.lookup key).map canonicalize := by
  rw [canonicalize, canonicalize, Json.object.injEq]
  constructor
  · intro same key
    rw [← lookup_canonicalize leftDistinct, ← lookup_canonicalize rightDistinct, same]
  · intro same
    apply congrArg
    apply Std.ExtTreeMap.ext_getElem?
    intro key
    rw [← OrderedMap.lookup_toList, ← OrderedMap.lookup_toList,
      lookup_canonicalize leftDistinct, lookup_canonicalize rightDistinct, same]

/-- Canonical documents have distinct keys. -/
theorem distinct_canonicalize (document : Json) (distinct : document.Distinct) :
    document.canonicalize.Distinct := by
  induction document using Json.induction with
  | null => exact trivial
  | bool => exact trivial
  | number => exact trivial
  | string => exact trivial
  | array items inductionHypothesis =>
      rw [canonicalize, Distinct, canonicalizeItems_eq_map, distinctItems_iff]
      intro item member
      rcases List.mem_map.mp member with ⟨original, inside, rfl⟩
      exact inductionHypothesis original inside ((distinctItems_iff items).mp distinct original inside)
  | object members inductionHypothesis =>
      have keysNodup := OrderedMap.toList_keys_nodup (insertMembers members ∅)
      refine ⟨keysNodup, (distinctMembers_iff _).mpr ?_⟩
      rintro ⟨key, value⟩ member
      have found := (OrderedMap.lookup_eq_some_iff_mem keysNodup key value).mpr member
      rw [lookup_canonicalize distinct.1, Option.map_eq_some_iff] at found
      rcases found with ⟨original, listed, rfl⟩
      have inside := (OrderedMap.lookup_eq_some_iff_mem distinct.1 key original).mp listed
      exact inductionHypothesis _ inside ((distinctMembers_iff members).mp distinct.2 _ inside)

/-! ## The canonical document is a complete invariant -/

theorem sameItems_iff (left right : List Json) :
    SameItems left right ↔ List.Forall₂ SameUpToOrder left right := by
  induction left generalizing right with
  | nil => cases right <;> simp [SameItems]
  | cons head tail inductionHypothesis =>
      cases right with
      | nil => simp [SameItems]
      | cons other rest => simp [SameItems, inductionHypothesis]

theorem sameMembers_iff (left right : List (String × Json)) :
    SameMembers left right ↔
      List.Forall₂ (fun first second => first.1 = second.1 ∧ SameUpToOrder first.2 second.2)
        left right := by
  induction left generalizing right with
  | nil => cases right <;> simp [SameMembers]
  | cons head tail inductionHypothesis =>
      cases right with
      | nil => simp [SameMembers]
      | cons other rest =>
          rcases head with ⟨headKey, headValue⟩
          rcases other with ⟨otherKey, otherValue⟩
          simp [SameMembers, inductionHypothesis, and_assoc]

/-- Members paired one by one have lookups related one by one. -/
theorem lookup_sameMembers {left right : List (String × Json)} (same : SameMembers left right)
    (key : String) :
    (left.lookup key = none ∧ right.lookup key = none) ∨
      ∃ first second, left.lookup key = some first ∧ right.lookup key = some second ∧
        SameUpToOrder first second := by
  rw [sameMembers_iff] at same
  induction same with
  | nil => exact Or.inl ⟨rfl, rfl⟩
  | @cons first second lefts rights pair _rest inductionHypothesis =>
      rcases first with ⟨leftKey, leftValue⟩
      rcases second with ⟨rightKey, rightValue⟩
      rcases pair with ⟨rfl, values⟩
      by_cases atHead : key = leftKey
      · subst leftKey
        rw [List.lookup_cons_self, List.lookup_cons_self]
        exact Or.inr ⟨leftValue, rightValue, rfl, rfl, values⟩
      · have differs : (key == leftKey) = false := beq_eq_false_iff_ne.mpr atHead
        rw [List.lookup_cons, List.lookup_cons, differs]
        exact inductionHypothesis

/-- Pair the members on the left with the members of the same key on the
right.  Equal key sets make the result a reordering of the right-hand side. -/
theorem exists_reordered {left right : List (String × Json)}
    (leftDistinct : (left.map Prod.fst).Nodup) (rightDistinct : (right.map Prod.fst).Nodup)
    (sameKeys : forall key, (left.lookup key).isSome = (right.lookup key).isSome)
    (related : forall key first second, (key, first) ∈ left -> (key, second) ∈ right ->
      SameUpToOrder first second) :
    ∃ reordered, reordered.Perm right ∧ SameMembers left reordered := by
  let partner : String × Json -> String × Json :=
    fun member => (member.1, (right.lookup member.1).getD .null)
  have found : forall member, member ∈ left -> partner member ∈ right := by
    intro member inside
    have present := sameKeys member.1
    rw [(OrderedMap.lookup_eq_some_iff_mem leftDistinct member.1 member.2).mpr inside,
      Option.isSome_some] at present
    rcases Option.isSome_iff_exists.mp present.symm with ⟨value, listed⟩
    apply (OrderedMap.lookup_eq_some_iff_mem rightDistinct _ _).mp
    rw [listed, Option.getD_some]
  refine ⟨left.map partner, ?_, ?_⟩
  · have keys : (left.map partner).map Prod.fst = left.map Prod.fst := by
      rw [List.map_map]
      rfl
    have nodup : ((left.map partner).map Prod.fst).Nodup := keys ▸ leftDistinct
    rw [List.perm_ext_iff_of_nodup nodup.of_map rightDistinct.of_map]
    rintro ⟨key, value⟩
    constructor
    · intro member
      rcases List.mem_map.mp member with ⟨original, inside, same⟩
      exact same ▸ found original inside
    · intro member
      have listed := (OrderedMap.lookup_eq_some_iff_mem rightDistinct key value).mpr member
      have present := sameKeys key
      rw [listed, Option.isSome_some] at present
      rcases Option.isSome_iff_exists.mp present with ⟨first, inside⟩
      refine List.mem_map.mpr ⟨(key, first),
        (OrderedMap.lookup_eq_some_iff_mem leftDistinct key first).mp inside, ?_⟩
      simp only [partner, listed, Option.getD_some]
  · rw [sameMembers_iff, List.forall₂_map_right_iff, List.forall₂_same]
    intro member inside
    exact ⟨rfl, related member.1 member.2 _ inside (found member inside)⟩

theorem canonicalize_eq_iff_of_leaf {leaf other : Json} (isLeaf : leaf.IsLeaf) :
    leaf.canonicalize = other.canonicalize ↔ SameUpToOrder leaf other := by
  cases leaf <;> cases other <;>
    simp_all [canonicalize, SameUpToOrder, IsLeaf, eq_comm]

/-- Equality of canonical documents is equality up to member order. -/
theorem canonicalize_eq_iff (left right : Json) (leftDistinct : left.Distinct)
    (rightDistinct : right.Distinct) :
    left.canonicalize = right.canonicalize ↔ SameUpToOrder left right := by
  induction left using Json.induction generalizing right with
  | null => exact canonicalize_eq_iff_of_leaf trivial
  | bool => exact canonicalize_eq_iff_of_leaf trivial
  | number => exact canonicalize_eq_iff_of_leaf trivial
  | string => exact canonicalize_eq_iff_of_leaf trivial
  | array lefts inductionHypothesis =>
      cases right with
      | array rights =>
          have leftItems := (distinctItems_iff lefts).mp leftDistinct
          have rightItems := (distinctItems_iff rights).mp rightDistinct
          rw [canonicalize, canonicalize, Json.array.injEq, canonicalizeItems_eq_map,
            canonicalizeItems_eq_map]
          simp only [SameUpToOrder, Json.array.injEq, exists_eq_left', sameItems_iff]
          rw [← List.forall₂_eq_eq_eq, List.forall₂_map_left_iff, List.forall₂_map_right_iff,
            List.forall₂_iff_get, List.forall₂_iff_get]
          apply and_congr_right
          intro _length
          apply forall₃_congr
          intro position leftBound rightBound
          exact inductionHypothesis _ (List.get_mem _ _) _
            (leftItems _ (List.get_mem _ _)) (rightItems _ (List.get_mem _ _))
      | _ => simp [canonicalize, SameUpToOrder]
  | object lefts inductionHypothesis =>
      cases right with
      | object rights =>
          have leftMembers := (distinctMembers_iff lefts).mp leftDistinct.2
          have rightMembers := (distinctMembers_iff rights).mp rightDistinct.2
          rw [canonicalize_object_eq_iff leftDistinct.1 rightDistinct.1]
          simp only [SameUpToOrder, Json.object.injEq, exists_and_left, exists_eq_left']
          constructor
          · intro same
            apply exists_reordered leftDistinct.1 rightDistinct.1
            · intro key
              have agree := congrArg Option.isSome (same key)
              rwa [Option.isSome_map, Option.isSome_map] at agree
            · intro key first second leftMember rightMember
              have agree := same key
              rw [(OrderedMap.lookup_eq_some_iff_mem leftDistinct.1 _ _).mpr leftMember,
                (OrderedMap.lookup_eq_some_iff_mem rightDistinct.1 _ _).mpr rightMember,
                Option.map_some, Option.map_some, Option.some.injEq] at agree
              exact (inductionHypothesis _ leftMember second (leftMembers _ leftMember)
                (rightMembers _ rightMember)).mp agree
          · rintro ⟨reordered, permuted, same⟩ key
            have reorderedDistinct := (permuted.map Prod.fst).nodup_iff.mpr rightDistinct.1
            rw [← OrderedMap.lookup_perm permuted reorderedDistinct]
            rcases lookup_sameMembers same key with
              ⟨leftAbsent, rightAbsent⟩ | ⟨first, second, leftFound, rightFound, related⟩
            · rw [leftAbsent, rightAbsent]
            · have leftMember :=
                (OrderedMap.lookup_eq_some_iff_mem leftDistinct.1 _ _).mp leftFound
              have rightMember := permuted.mem_iff.mp
                ((OrderedMap.lookup_eq_some_iff_mem reorderedDistinct _ _).mp rightFound)
              rw [leftFound, rightFound, Option.map_some, Option.map_some, Option.some.injEq]
              exact (inductionHypothesis _ leftMember second (leftMembers _ leftMember)
                (rightMembers _ rightMember)).mpr related
      | _ => simp [canonicalize, SameUpToOrder]

/-! ## Idempotence and leaves -/

/-- Every component of the canonical document is the canonical form of the
component at the same path. -/
theorem descend_canonicalize (document : Json) (distinct : document.Distinct) (path : List Step) :
    document.canonicalize.descend path = (document.descend path).map canonicalize := by
  induction path generalizing document with
  | nil => rfl
  | cons step rest inductionHypothesis =>
      have direct : document.canonicalize.child step = (document.child step).map canonicalize := by
        cases document with
        | object members =>
            cases step with
            | member key =>
                rw [canonicalize, child, child, lookup_canonicalize distinct.1]
            | index position => rfl
        | array items =>
            cases step with
            | member key => rfl
            | index position =>
                rw [canonicalize, child, child, canonicalizeItems_eq_map, List.getElem?_map]
        | _ => cases step <;> rfl
      rw [descend, descend, List.foldlM_cons, List.foldlM_cons, direct]
      cases selected : document.child step with
      | none => rfl
      | some component =>
          have componentDistinct : component.Distinct := by
            cases document with
            | object members =>
                cases step with
                | member key =>
                    exact (distinctMembers_iff members).mp distinct.2 _
                      ((OrderedMap.lookup_eq_some_iff_mem distinct.1 _ _).mp selected)
                | index position => cases selected
            | array items =>
                cases step with
                | member key => cases selected
                | index position =>
                    exact (distinctItems_iff items).mp distinct _ (List.mem_of_getElem? selected)
            | _ => cases step <;> cases selected
          exact inductionHypothesis component componentDistinct

/-- The leaf at a path of the canonical document is the leaf at that path of
the original, and conversely. -/
theorem descend_canonicalize_leaf (document : Json) (distinct : document.Distinct)
    (path : List Step) {leaf : Json} (isLeaf : leaf.IsLeaf) :
    document.canonicalize.descend path = some leaf ↔ document.descend path = some leaf := by
  rw [descend_canonicalize document distinct, Option.map_eq_some_iff]
  constructor
  · rintro ⟨component, found, canonical⟩
    have same : component = leaf := by
      cases component <;> cases leaf <;> simp_all [canonicalize, IsLeaf]
    exact same ▸ found
  · intro found
    refine ⟨leaf, found, ?_⟩
    cases leaf <;> simp_all [canonicalize, IsLeaf]

theorem sameUpToOrder_refl (document : Json) (distinct : document.Distinct) :
    SameUpToOrder document document :=
  (canonicalize_eq_iff document document distinct distinct).mp rfl

/-- A document is equal up to member order to its canonical document. -/
theorem sameUpToOrder_canonicalize (document : Json) (distinct : document.Distinct) :
    SameUpToOrder document document.canonicalize := by
  induction document using Json.induction with
  | null => exact sameUpToOrder_refl _ distinct
  | bool => exact sameUpToOrder_refl _ distinct
  | number => exact sameUpToOrder_refl _ distinct
  | string => exact sameUpToOrder_refl _ distinct
  | array items inductionHypothesis =>
      simp only [canonicalize, SameUpToOrder, Json.array.injEq, exists_eq_left', sameItems_iff]
      rw [canonicalizeItems_eq_map, List.forall₂_map_right_iff, List.forall₂_same]
      intro item member
      exact inductionHypothesis item member ((distinctItems_iff items).mp distinct item member)
  | object members inductionHypothesis =>
      simp only [canonicalize, SameUpToOrder, Json.object.injEq, exists_and_left, exists_eq_left']
      have keysNodup := OrderedMap.toList_keys_nodup (insertMembers members ∅)
      apply exists_reordered distinct.1 keysNodup
      · intro key
        rw [lookup_canonicalize distinct.1, Option.isSome_map]
      · intro key first second firstMember secondMember
        have found := (OrderedMap.lookup_eq_some_iff_mem keysNodup _ _).mpr secondMember
        rw [lookup_canonicalize distinct.1,
          (OrderedMap.lookup_eq_some_iff_mem distinct.1 _ _).mpr firstMember,
          Option.map_some, Option.some.injEq] at found
        rw [← found]
        exact inductionHypothesis _ firstMember
          ((distinctMembers_iff members).mp distinct.2 _ firstMember)

theorem canonicalize_canonicalize (document : Json) (distinct : document.Distinct) :
    document.canonicalize.canonicalize = document.canonicalize :=
  ((canonicalize_eq_iff document document.canonicalize distinct
    (distinct_canonicalize document distinct)).mpr
    (sameUpToOrder_canonicalize document distinct)).symm

end Json

namespace Value

/-- The canonical form of a value is again a value. -/
def canonicalize (value : Value) : Value :=
  ⟨value.json.canonicalize, Json.distinct_canonicalize value.json value.distinct⟩

/-- Equal up to reordering object members at every depth. -/
def SameUpToOrder (left right : Value) : Prop :=
  left.json.SameUpToOrder right.json

theorem canonicalize_eq_iff (left right : Value) :
    left.canonicalize.json = right.canonicalize.json ↔ left.SameUpToOrder right :=
  Json.canonicalize_eq_iff left.json right.json left.distinct right.distinct

/-- The object whose members are the entries of a map, in key order. -/
def ofMap (entries : BTreeMap String Value) : Value where
  json := .object (entries.toList.map fun entry => (entry.1, entry.2.json))
  distinct := by
    refine ⟨?_, (Json.distinctMembers_iff _).mpr ?_⟩
    · rw [List.map_map]
      exact OrderedMap.toList_keys_nodup entries
    · intro member inside
      rcases List.mem_map.mp inside with ⟨entry, _listed, rfl⟩
      exact entry.2.distinct

theorem lookup_ofMap (entries : BTreeMap String Value) (key : String) :
    (entries.toList.map fun entry => (entry.1, entry.2.json)).lookup key =
      entries[key]?.map Value.json := by
  rw [← OrderedMap.lookup_toList]
  induction entries.toList with
  | nil => rfl
  | cons head tail inductionHypothesis =>
      rw [List.map_cons, List.lookup_cons, List.lookup_cons, inductionHypothesis]
      cases key == head.1 <;> rfl

/-- Two maps are the same object up to member order exactly when they have the
same keys with values equal up to member order. -/
theorem sameUpToOrder_ofMap_iff (left right : BTreeMap String Value) :
    (ofMap left).SameUpToOrder (ofMap right) ↔
      (forall key : String, key ∈ left ↔ key ∈ right) ∧
      forall (key : String) (first second : Value), left[key]? = some first ->
        right[key]? = some second -> first.SameUpToOrder second := by
  rw [← canonicalize_eq_iff]
  change Json.canonicalize (.object _) = Json.canonicalize (.object _) ↔ _
  rw [Json.canonicalize_object_eq_iff (ofMap left).distinct.1 (ofMap right).distinct.1]
  simp only [lookup_ofMap, Option.map_map, OrderedMap.mem_iff_exists]
  constructor
  · intro same
    refine ⟨fun key => ?_, fun key first second leftFound rightFound => ?_⟩
    · have agree := congrArg Option.isSome (same key)
      rw [Option.isSome_map, Option.isSome_map] at agree
      rw [← Option.isSome_iff_exists, ← Option.isSome_iff_exists, agree]
    · have agree := same key
      rw [leftFound, rightFound, Option.map_some, Option.map_some, Option.some.injEq] at agree
      exact (canonicalize_eq_iff first second).mp agree
  · rintro ⟨sameKeys, sameValues⟩ key
    have keys := sameKeys key
    cases leftFound : left[key]? with
    | none =>
        cases rightFound : right[key]? with
        | none => rfl
        | some second =>
            rw [leftFound, rightFound] at keys
            rcases keys.mpr ⟨second, rfl⟩ with ⟨first, impossible⟩
            cases impossible
    | some first =>
        cases rightFound : right[key]? with
        | none =>
            rw [leftFound, rightFound] at keys
            rcases keys.mp ⟨first, rfl⟩ with ⟨second, impossible⟩
            cases impossible
        | some second =>
            rw [Option.map_some, Option.map_some, Option.some.injEq]
            exact (canonicalize_eq_iff first second).mpr (sameValues key first second
              leftFound rightFound)

end Value

/-! ## Content hashes -/

/-- The two third-party functions behind a content hash: `serde_json::to_vec`
and `Sha256::digest`. -/
structure HashBackend where
  toVec : Json -> List UInt8
  digest : List UInt8 -> List UInt8

/-- `hex::encode`: two lowercase digits for each byte. -/
def hexEncode (bytes : List UInt8) : String :=
  String.ofList (bytes.flatMap fun byte =>
    [Nat.digitChar (byte.toNat / 16), Nat.digitChar (byte.toNat % 16)])

/-- The lowercase hex digest of the canonical serialization. -/
def hashJson (backend : HashBackend) (value : Value) : String :=
  hexEncode (backend.digest (backend.toVec value.canonicalize.json))

private theorem digitChar_injective_of_lt {first second : Nat} (firstLt : first < 16)
    (secondLt : second < 16) (same : first.digitChar = second.digitChar) : first = second := by
  have all : forall first, first < 16 -> forall second, second < 16 ->
      Nat.digitChar first = Nat.digitChar second -> first = second := by decide
  exact all first firstLt second secondLt same

/-- Distinct byte strings have distinct hex texts. -/
theorem hexEncode_injective : Function.Injective hexEncode := by
  intro left right same
  have texts := congrArg String.toList same
  rw [hexEncode, hexEncode, String.toList_ofList, String.toList_ofList] at texts
  clear same
  induction left generalizing right with
  | nil =>
      cases right with
      | nil => rfl
      | cons head tail => simp at texts
  | cons head tail inductionHypothesis =>
      cases right with
      | nil => simp at texts
      | cons other rest =>
          simp only [List.flatMap_cons, List.cons_append, List.nil_append, List.cons.injEq]
            at texts
          have headLt := head.toNat_lt
          have otherLt := other.toNat_lt
          have high := digitChar_injective_of_lt (by omega) (by omega) texts.1
          have low := digitChar_injective_of_lt (by omega) (by omega) texts.2.1
          have sameByte : head = other := UInt8.toNat_inj.mp (by omega)
          rw [sameByte, inductionHypothesis texts.2.2]

/-- The two canonical documents are told apart by the writer and the digest:
neither step maps them to one result unless they are the same document. -/
def HashBackend.Separates (backend : HashBackend) (left right : Value) : Prop :=
  (backend.toVec left.canonicalize.json = backend.toVec right.canonicalize.json ->
    left.canonicalize.json = right.canonicalize.json) ∧
  (backend.digest (backend.toVec left.canonicalize.json) =
      backend.digest (backend.toVec right.canonicalize.json) ->
    backend.toVec left.canonicalize.json = backend.toVec right.canonicalize.json)

/-- Without a collision, hashes agree exactly on values equal up to order. -/
theorem hashJson_eq_iff (backend : HashBackend) {left right : Value}
    (separates : backend.Separates left right) :
    hashJson backend left = hashJson backend right ↔ left.SameUpToOrder right := by
  rw [← Value.canonicalize_eq_iff]
  constructor
  · intro same
    exact separates.1 (separates.2 (hexEncode_injective same))
  · intro same
    rw [hashJson, hashJson, same]

/-- The bytes of an ASCII text. -/
def asciiBytes (text : String) : List UInt8 :=
  text.toList.map fun char => UInt8.ofNat char.toNat

/-- The writer and SHA-256, tabulated on the documents of the examples. -/
def HashBackend.sample : HashBackend where
  toVec := fun document => match document with
    | .object [("a", .null), ("b", .null)] => asciiBytes "\x7b\"a\":null,\"b\":null\x7d"
    | .object [("a", .null), ("b", .bool true)] => asciiBytes "\x7b\"a\":null,\"b\":true\x7d"
    | _ => []
  digest := fun bytes =>
    if bytes = asciiBytes "\x7b\"a\":null,\"b\":null\x7d" then
      [5, 44, 75, 213, 230, 222, 213, 59, 216, 132, 72, 90, 248, 177, 102, 122,
        123, 112, 186, 58, 133, 115, 181, 75, 216, 120, 246, 210, 199, 5, 194, 223]
    else if bytes = asciiBytes "\x7b\"a\":null,\"b\":true\x7d" then
      [119, 127, 215, 205, 116, 6, 201, 41, 44, 104, 179, 169, 102, 24, 192, 73,
        116, 201, 130, 55, 20, 181, 98, 95, 32, 14, 141, 195, 235, 93, 107, 240]
    else []

end KernelFlow
