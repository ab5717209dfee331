import Mathlib
import KernelFlow.Core.Dag

namespace KernelFlow

/-!
# Edge conditions and JSON pointers

What an edge condition can see of an output.  A pointer reaches exactly the
components that its reference tokens select, and the comparison ignores the
order of members, so a condition cannot tell values apart that are equal up to
member order.
-/

namespace Json

/-! ## Components -/

theorem Distinct.child {document : Json} (distinct : document.Distinct) {step : Step}
    {component : Json} (found : document.child step = some component) : component.Distinct := by
  cases document with
  | object members =>
      cases step with
      | member key =>
          exact (distinctMembers_iff members).mp distinct.2 _
            ((OrderedMap.lookup_eq_some_iff_mem distinct.1 _ _).mp found)
      | index position => cases found
  | array items =>
      cases step with
      | member key => cases found
      | index position =>
          exact (distinctItems_iff items).mp distinct _ (List.mem_of_getElem? found)
  | _ => cases step <;> cases found

theorem child_canonicalize {document : Json} (distinct : document.Distinct) (step : Step) :
    document.canonicalize.child step = (document.child step).map canonicalize := by
  have single := descend_canonicalize document distinct [step]
  simpa only [descend, List.foldlM_cons, List.foldlM_nil, bind_pure] using single

theorem Distinct.followToken {document : Json} (distinct : document.Distinct) {token : List Char}
    {component : Json} (found : document.followToken token = some component) :
    component.Distinct := by
  cases document with
  | object members =>
      have selected : (Json.object members).child (.member (String.ofList token)) = some component :=
        found
      exact distinct.child selected
  | array items =>
      rcases Option.bind_eq_some_iff.mp found with ⟨position, _parsed, selected⟩
      exact distinct.child selected
  | _ => cases found

theorem followToken_canonicalize {document : Json} (distinct : document.Distinct)
    (token : List Char) :
    document.canonicalize.followToken token = (document.followToken token).map canonicalize := by
  cases document with
  | object members => exact child_canonicalize distinct (.member (String.ofList token))
  | array items =>
      change (parseIndex token).bind _ = ((parseIndex token).bind _).map canonicalize
      cases parseIndex token with
      | none => rfl
      | some position => exact child_canonicalize distinct (.index position)
  | _ => rfl

theorem followTokens_canonicalize {document : Json} (distinct : document.Distinct)
    (tokens : List (List Char)) :
    tokens.foldlM followToken document.canonicalize =
      (tokens.foldlM followToken document).map canonicalize := by
  induction tokens generalizing document with
  | nil => rfl
  | cons token rest inductionHypothesis =>
      rw [List.foldlM_cons, List.foldlM_cons, followToken_canonicalize distinct]
      cases selected : document.followToken token with
      | none => rfl
      | some component => exact inductionHypothesis (distinct.followToken selected)

theorem Distinct.followTokens {document component : Json} (distinct : document.Distinct)
    {tokens : List (List Char)} (found : tokens.foldlM Json.followToken document = some component) :
    component.Distinct := by
  induction tokens generalizing document with
  | nil =>
      cases found
      exact distinct
  | cons token rest inductionHypothesis =>
      rw [List.foldlM_cons] at found
      rcases Option.bind_eq_some_iff.mp found with ⟨next, selected, rest⟩
      exact inductionHypothesis (distinct.followToken selected) rest

/-- A pointer commutes with sorting the members. -/
theorem pointer_canonicalize {document : Json} (distinct : document.Distinct)
    (reference : String) :
    document.canonicalize.pointer reference = (document.pointer reference).map canonicalize := by
  unfold pointer
  split
  · rfl
  · exact followTokens_canonicalize distinct _
  · rfl

theorem Distinct.pointer {document component : Json} (distinct : document.Distinct)
    {reference : String} (found : document.pointer reference = some component) :
    component.Distinct := by
  unfold Json.pointer at found
  split at found
  · cases found
    exact distinct
  · exact distinct.followTokens found
  · cases found

/-! ## Comparison -/

theorem beqItems_congr {left right : List Json}
    (same : List.Forall₂ (fun first second => forall other : Json, first.beq other = second.beq other)
      left right) (others : List Json) : beqItems left others = beqItems right others := by
  induction same generalizing others with
  | nil => rfl
  | cons equal _rest inductionHypothesis =>
      cases others with
      | nil => rfl
      | cons other others => rw [beqItems, beqItems, equal, inductionHypothesis]

/-- Whether a member has an equal one among the others. -/
def matchesMember (others : List (String × Json)) (member : String × Json) : Bool :=
  match others.lookup member.1 with
  | some other => member.2.beq other
  | none => false

theorem beqMembers_eq_all (members others : List (String × Json)) :
    beqMembers members others = members.all (matchesMember others) := by
  induction members with
  | nil => rfl
  | cons member rest inductionHypothesis =>
      rcases member with ⟨key, value⟩
      rw [beqMembers, inductionHypothesis, List.all_cons]
      rfl

theorem all_matchesMember_congr {left right : List (String × Json)}
    (same : List.Forall₂ (fun first second => first.1 = second.1 ∧
      forall other : Json, first.2.beq other = second.2.beq other) left right)
    (others : List (String × Json)) :
    left.all (matchesMember others) = right.all (matchesMember others) := by
  induction same with
  | nil => rfl
  | cons pair _rest inductionHypothesis =>
      rw [List.all_cons, List.all_cons, inductionHypothesis]
      congr 1
      unfold matchesMember
      rw [pair.1]
      split
      · exact pair.2 _
      · rfl

/-- The comparison does not see the order of the members on its left. -/
theorem beq_congr {left right : Json} (same : SameUpToOrder left right) (other : Json) :
    left.beq other = right.beq other := by
  induction left using Json.induction generalizing right other with
  | null => rw [same]
  | bool => rw [same]
  | number => rw [same]
  | string => rw [same]
  | array lefts inductionHypothesis =>
      rcases same with ⟨rights, rfl, items⟩
      rw [sameItems_iff] at items
      have equal : List.Forall₂ (fun first second => forall other : Json,
          first.beq other = second.beq other) lefts rights := by
        have both := (List.forall₂_and_left _ _).mpr ⟨inductionHypothesis, items⟩
        exact both.imp fun first second pair other => pair.1 pair.2 other
      cases other with
      | array others => exact beqItems_congr equal others
      | _ => rfl
  | object lefts inductionHypothesis =>
      rcases same with ⟨rights, reordered, rfl, permuted, members⟩
      rw [sameMembers_iff] at members
      cases other with
      | object others =>
          have both := (List.forall₂_and_left _ _).mpr ⟨inductionHypothesis, members⟩
          have all : lefts.all (matchesMember others) = rights.all (matchesMember others) := by
            rw [← permuted.all_eq]
            apply all_matchesMember_congr
            exact both.imp fun first second pair => ⟨pair.2.1, fun other => pair.1 pair.2.2 other⟩
          rw [beq, beq, beqMembers_eq_all, beqMembers_eq_all, all, members.length_eq,
            permuted.length_eq]
      | _ => rfl

end Json

/-- A condition sees an output as it sees the sorted output. -/
theorem EdgeCondition.evaluate_canonicalize (condition : EdgeCondition) (output : Value) :
    condition.evaluate output.canonicalize = condition.evaluate output := by
  cases condition with
  | always => rfl
  | jsonEq reference value =>
      change (((output.json.canonicalize.pointer reference).map _).getD false) = _
      rw [Json.pointer_canonicalize output.distinct, Option.map_map]
      change _ = ((output.json.pointer reference).map _).getD false
      cases found : output.json.pointer reference with
      | none => rfl
      | some component =>
          have same := Json.sameUpToOrder_canonicalize component (output.distinct.pointer found)
          exact (Json.beq_congr same value.json).symm

/-- A condition cannot tell outputs apart that differ in member order. -/
theorem EdgeCondition.evaluate_congr (condition : EdgeCondition) {left right : Value}
    (same : left.SameUpToOrder right) : condition.evaluate left = condition.evaluate right := by
  have canonical : left.canonicalize = right.canonicalize :=
    Value.ext ((Value.canonicalize_eq_iff left right).mpr same)
  rw [← condition.evaluate_canonicalize left, canonical, condition.evaluate_canonicalize]

end KernelFlow
