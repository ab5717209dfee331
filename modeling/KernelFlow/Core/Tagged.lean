import Mathlib
import KernelFlow.Core.Serde

namespace KernelFlow
namespace Serde

open Json

/-!
# Tagged enumerations

How values of enumeration types are written as JSON documents and read back.
The name of the variant is outside of the fields, as the only member of an
object, or it is one more member among them.
-/

/-- The variants of an enumeration.  A variant has a name and, unless it is a
unit variant, the fields of a record. -/
structure Variants (α : Type) where
  names : List String
  name : α -> String
  content : α -> Option (List (String × Json))
  /-- the field names of the variant of a name -/
  keys : String -> List String
  /-- from a name and what comes with it -/
  read : String -> Option Json -> Option α
  Same : α -> α -> Prop
  name_mem : forall value, name value ∈ names
  distinct_content : forall value members, content value = some members ->
    (Json.object members).Distinct
  keys_content : forall value members, content value = some members ->
    members.map Prod.fst = keys (name value)
  read_write : forall value, read (name value) ((content value).map Json.object) = some value
  read_members : forall name left right,
    (forall key, key ∈ keys name -> List.Forall₂ Reordered (valuesOf key left) (valuesOf key right)) ->
    Option.Rel Same (read name (some (.object left))) (read name (some (.object right)))
  read_reordered : forall name left right, Option.Rel Reordered left right ->
    Option.Rel Same (read name left) (read name right)

namespace Variants

variable {α β : Type}

/-- A variant without fields: its name, or its name with `null`. -/
def unit (tag : String) : Variants Unit where
  names := [tag]
  name := fun _value => tag
  content := fun _value => none
  keys := fun _name => []
  read := fun name content =>
    if name = tag then
      match content with
      | none => some ()
      | some .null => some ()
      | _ => none
    else none
  Same := fun _left _right => True
  name_mem := fun _value => List.mem_singleton.mpr rfl
  distinct_content := by
    intro value members impossible
    cases impossible
  keys_content := by
    intro value members impossible
    cases impossible
  read_write := fun _value => if_pos rfl
  read_members := by
    intro name left right _same
    by_cases named : name = tag
    · rw [if_pos named]
      exact .none
    · rw [if_neg named]
      exact .none
  read_reordered := by
    intro name left right reordered
    by_cases named : name = tag
    · rw [if_pos named, if_pos named]
      cases reordered with
      | none => exact .some trivial
      | @some first second same =>
          cases first with
          | array items =>
              rcases same.items with ⟨others, rfl, _same⟩
              exact .none
          | object members =>
              rcases same.members with ⟨others, rfl, _same⟩
              exact .none
          | null =>
              rw [same.eq_of_leaf trivial]
              exact .some trivial
          | _ =>
              rw [same.eq_of_leaf trivial]
              exact .none
    · rw [if_neg named, if_neg named]
      exact .none

/-- A variant with fields. -/
def record (tag : String) (fields : Fields α) : Variants α where
  names := [tag]
  name := fun _value => tag
  content := fun value => some (fields.write value)
  keys := fun _name => fields.names
  read := fun name content => if name = tag then content.bind fields.readContent else none
  Same := fields.Same
  name_mem := fun _value => List.mem_singleton.mpr rfl
  distinct_content := by
    intro value members written
    cases written
    exact fields.distinct_object value
  keys_content := by
    intro value members written
    cases written
    exact fields.keys_write value
  read_write := by
    intro value
    rw [if_pos rfl]
    exact fields.readContent_write value
  read_members := by
    intro name left right same
    by_cases named : name = tag
    · rw [if_pos named, if_pos named]
      exact fields.members_reordered left right same
    · rw [if_neg named, if_neg named]
      exact .none
  read_reordered := by
    intro name left right reordered
    by_cases named : name = tag
    · rw [if_pos named, if_pos named]
      cases reordered with
      | none => exact .none
      | some same => exact fields.readContent_reordered same
    · rw [if_neg named, if_neg named]
      exact .none

/-- The variants of one enumeration or another. -/
def or (first : Variants α) (second : Variants β)
    (disjoint : forall name, name ∈ first.names -> name ∉ second.names) : Variants (α ⊕ β) where
  names := first.names ++ second.names
  name := Sum.elim first.name second.name
  content := Sum.elim first.content second.content
  keys := fun name => if name ∈ first.names then first.keys name else second.keys name
  read := fun name content =>
    if name ∈ first.names then (first.read name content).map Sum.inl
    else (second.read name content).map Sum.inr
  Same := Sum.LiftRel first.Same second.Same
  name_mem := by
    rintro (value | value)
    · exact List.mem_append_left _ (first.name_mem value)
    · exact List.mem_append_right _ (second.name_mem value)
  distinct_content := by
    rintro (value | value) members written
    · exact first.distinct_content value members written
    · exact second.distinct_content value members written
  keys_content := by
    rintro (value | value) members written
    · change _ = if first.name value ∈ first.names then _ else _
      rw [if_pos (first.name_mem value)]
      exact first.keys_content value members written
    · change _ = if second.name value ∈ first.names then _ else _
      rw [if_neg fun member => disjoint _ member (second.name_mem value)]
      exact second.keys_content value members written
  read_write := by
    rintro (value | value)
    · change (if first.name value ∈ first.names then _ else _) = _
      rw [if_pos (first.name_mem value)]
      exact congrArg (Option.map Sum.inl) (first.read_write value)
    · change (if second.name value ∈ first.names then _ else _) = _
      rw [if_neg fun member => disjoint _ member (second.name_mem value)]
      exact congrArg (Option.map Sum.inr) (second.read_write value)
  read_members := by
    intro name left right same
    by_cases known : name ∈ first.names
    · rw [if_pos known] at same
      rw [if_pos known, if_pos known]
      exact rel_map (first.read_members name left right same) fun _one _other => .inl
    · rw [if_neg known] at same
      rw [if_neg known, if_neg known]
      exact rel_map (second.read_members name left right same) fun _one _other => .inr
  read_reordered := by
    intro name left right reordered
    by_cases known : name ∈ first.names
    · rw [if_pos known, if_pos known]
      exact rel_map (first.read_reordered name left right reordered) fun _one _other => .inl
    · rw [if_neg known, if_neg known]
      exact rel_map (second.read_reordered name left right reordered) fun _one _other => .inr

/-- The variants of a type that is written and read as another one. -/
def via (variants : Variants α) (equivalence : α ≃ β) : Variants β where
  names := variants.names
  name := fun value => variants.name (equivalence.symm value)
  content := fun value => variants.content (equivalence.symm value)
  keys := variants.keys
  read := fun name content => (variants.read name content).map equivalence
  Same := fun left right => variants.Same (equivalence.symm left) (equivalence.symm right)
  name_mem := fun _value => variants.name_mem _
  distinct_content := fun _value => variants.distinct_content _
  keys_content := fun _value => variants.keys_content _
  read_write := by
    intro value
    rw [variants.read_write, Option.map_some, equivalence.apply_symm_apply]
  read_members := by
    intro name left right same
    apply rel_map (variants.read_members name left right same)
    intro first second same
    rwa [equivalence.symm_apply_apply, equivalence.symm_apply_apply]
  read_reordered := by
    intro name left right reordered
    apply rel_map (variants.read_reordered name left right reordered)
    intro first second same
    rwa [equivalence.symm_apply_apply, equivalence.symm_apply_apply]

def Exact (variants : Variants α) : Prop :=
  forall left right, variants.Same left right -> left = right

theorem exact_record {fields : Fields α} (exact : fields.Exact) (tag : String) :
    (record tag fields).Exact :=
  exact

theorem exact_or {first : Variants α} {second : Variants β}
    {disjoint : forall name, name ∈ first.names -> name ∉ second.names} (one : first.Exact)
    (other : second.Exact) : (first.or second disjoint).Exact := by
  intro left right same
  cases same with
  | inl same => exact congrArg Sum.inl (one _ _ same)
  | inr same => exact congrArg Sum.inr (other _ _ same)

theorem exact_via {variants : Variants α} (exact : variants.Exact) (equivalence : α ≃ β) :
    (variants.via equivalence).Exact :=
  fun _left _right same => equivalence.symm.injective (exact _ _ same)

/-- Externally tagged: a unit variant is its name, any other variant an object
whose only member has the name of the variant and holds its fields. -/
def external (variants : Variants α) : Format α where
  write := fun value => match variants.content value with
    | none => .string (variants.name value)
    | some members => .object [(variants.name value, .object members)]
  read := fun document => match document with
    | .string name => variants.read name none
    | .object [(name, content)] => variants.read name (some content)
    | _ => none
  missing := none
  Same := variants.Same
  distinct_write := by
    intro value
    cases written : variants.content value with
    | none => exact trivial
    | some members =>
        refine ⟨List.nodup_singleton _, (distinctMembers_iff _).mpr ?_⟩
        intro member inside
        rw [List.mem_singleton.mp inside]
        exact variants.distinct_content value members written
  read_write := by
    intro value
    have read := variants.read_write value
    cases written : variants.content value with
    | none =>
        rw [written] at read
        exact read
    | some members =>
        rw [written] at read
        exact read
  read_reordered := by
    intro left right reordered
    cases left with
    | object members =>
        rcases members with _ | ⟨⟨name, content⟩, _ | ⟨next, rest⟩⟩
        · rcases reordered.members with ⟨others, rfl, _values⟩
          rw [List.length_eq_zero_iff.mp reordered.length_eq.symm]
          exact .none
        · rcases reordered.single with ⟨other, rfl, same⟩
          exact variants.read_reordered name _ _ (.some same)
        · rcases reordered.members with ⟨others, rfl, _values⟩
          have length := reordered.length_eq
          rcases others with _ | ⟨first, _ | ⟨second, others⟩⟩
          · cases length
          · cases length
          · exact .none
    | array items =>
        rcases reordered.items with ⟨others, rfl, _same⟩
        exact .none
    | string name =>
        rw [reordered.eq_of_leaf trivial]
        exact variants.read_reordered name none none .none
    | _ =>
        rw [reordered.eq_of_leaf trivial]
        exact .none

theorem exact_external {variants : Variants α} (exact : variants.Exact) : variants.external.Exact :=
  exact

/-- The name in a document and the document without it: the member `tag` of an
object, or the first item of an array. -/
def untag (tag : String) : Json -> Option (String × Json)
  | .object members =>
      (Fields.readField Format.string (valuesOf tag members)).map fun name =>
        (name, .object (members.filter fun member => member.1 != tag))
  | .array (value :: items) => (Format.string.read value).map fun name => (name, .array items)
  | _ => none

theorem untag_reordered (tag : String) {left right : Json} (reordered : left.Reordered right) :
    Option.Rel (fun first second => first.1 = second.1 ∧ first.2.Reordered second.2)
      (untag tag left) (untag tag right) := by
  cases left with
  | object members =>
      rcases reordered.members with ⟨others, rfl, values⟩
      rcases reordered.filter fun key => key != tag with ⟨_others, same, rest⟩
      cases same
      apply rel_map (Fields.readField_reordered Format.string (values tag))
      intro name other named
      exact ⟨named, rest⟩
  | array items =>
      rcases reordered.items with ⟨others, rfl, same⟩
      cases same with
      | nil => exact .none
      | @cons first second firsts seconds head tail =>
          apply rel_map (Format.string.read_reordered _ _ head)
          intro name other named
          exact ⟨named, .array tail⟩
  | _ =>
      rw [reordered.eq_of_leaf trivial]
      exact .none

/-- Without the tag the values of the other names remain. -/
theorem valuesOf_untagged {tag key : String} (other : key ≠ tag) (members : List (String × Json)) :
    valuesOf key (members.filter fun member => member.1 != tag) = valuesOf key members := by
  unfold valuesOf
  rw [List.filter_filter]
  apply congrArg (List.map Prod.snd)
  apply List.filter_congr
  intro member _inside
  by_cases same : member.1 = key
  · simp [same, other]
  · simp [same]

/-- Reading an object with a known tag. -/
theorem untag_object {tag name : String} {members : List (String × Json)}
    (tagged : valuesOf tag members = [.string name]) :
    untag tag (.object members) =
      some (name, .object (members.filter fun member => member.1 != tag)) := by
  rw [untag, tagged]
  rfl

theorem valuesOf_cons_self {tag : String} {value : Json} {members : List (String × Json)}
    (fresh : tag ∉ members.map Prod.fst) : valuesOf tag ((tag, value) :: members) = [value] := by
  have absent : members.filter (fun member => member.1 == tag) = [] := by
    rw [List.filter_eq_nil_iff]
    intro member inside same
    rw [beq_iff_eq] at same
    exact fresh (same ▸ List.mem_map_of_mem inside)
  simp [valuesOf, absent]

theorem filter_cons_tag {tag : String} {value : Json} {members : List (String × Json)}
    (fresh : tag ∉ members.map Prod.fst) :
    ((tag, value) :: members).filter (fun member => member.1 != tag) = members := by
  rw [List.filter_cons_of_neg (by simp), List.filter_eq_self]
  intro member inside
  rw [bne_iff_ne]
  rintro rfl
  exact fresh (List.mem_map_of_mem inside)

/-- Internally tagged: an object with the name of the variant as the member
`tag` before the fields. -/
def internal (variants : Variants α) (tag : String)
    (records : forall value, ∃ members, variants.content value = some members)
    (fresh : forall name, name ∈ variants.names -> tag ∉ variants.keys name) : Format α where
  write := fun value =>
    .object ((tag, .string (variants.name value)) :: (variants.content value).getD [])
  read := fun document => (untag tag document).bind fun (name, content) =>
    variants.read name (some content)
  missing := none
  Same := variants.Same
  distinct_write := by
    intro value
    rcases records value with ⟨members, written⟩
    have distinct := variants.distinct_content value members written
    have absent := variants.keys_content value members written ▸ fresh _ (variants.name_mem value)
    rw [written, Option.getD_some]
    exact ⟨List.nodup_cons.mpr ⟨absent, distinct.1⟩, trivial, distinct.2⟩
  read_write := by
    intro value
    rcases records value with ⟨members, written⟩
    have absent := variants.keys_content value members written ▸ fresh _ (variants.name_mem value)
    have read := variants.read_write value
    rw [written, Option.map_some] at read
    rw [written, Option.getD_some, untag_object (valuesOf_cons_self absent),
      filter_cons_tag absent]
    exact read
  read_reordered := by
    intro left right reordered
    apply rel_bind (untag_reordered tag reordered)
    rintro ⟨name, content⟩ ⟨other, received⟩ ⟨rfl, same⟩
    exact variants.read_reordered name _ _ (.some same)

theorem exact_internal {variants : Variants α} {tag : String}
    {records : forall value, ∃ members, variants.content value = some members}
    {fresh : forall name, name ∈ variants.names -> tag ∉ variants.keys name}
    (exact : variants.Exact) : (variants.internal tag records fresh).Exact :=
  exact

/-- The reader of an internally tagged type takes objects whose members with the
names of the tag and of the fields are as written, up to the order of members
within.  Members may stand in any order, and the reader skips the ones that it
does not know. -/
theorem internal_read_extended (variants : Variants α) {tag : String}
    (records : forall value, ∃ members, variants.content value = some members)
    (fresh : forall name, name ∈ variants.names -> tag ∉ variants.keys name) {value : α}
    {written members : List (String × Json)} (content : variants.content value = some written)
    (tagged : valuesOf tag members = [.string (variants.name value)])
    (fields : forall key, key ∈ variants.keys (variants.name value) ->
      List.Forall₂ Reordered (valuesOf key written) (valuesOf key members)) :
    ∃ received, (variants.internal tag records fresh).read (.object members) = some received ∧
      variants.Same value received := by
  have related : Option.Rel variants.Same (variants.read (variants.name value) (some (.object written)))
      (variants.read (variants.name value)
        (some (.object (members.filter fun member => member.1 != tag)))) := by
    apply variants.read_members
    intro key known
    have other : key ≠ tag := by
      rintro rfl
      exact fresh _ (variants.name_mem value) known
    rw [valuesOf_untagged other]
    exact fields key known
  have read := variants.read_write value
  rw [content, Option.map_some] at read
  rw [read] at related
  change ∃ received, (untag tag (.object members)).bind _ = some received ∧ _
  rw [untag_object tagged, Option.bind_some]
  generalize answer : variants.read (variants.name value)
    (some (.object (members.filter fun member => member.1 != tag))) = received at related
  cases related with
  | @some _ received same => exact ⟨received, answer, same⟩

end Variants

end Serde
end KernelFlow
