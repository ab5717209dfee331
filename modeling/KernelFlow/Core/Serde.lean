import Mathlib
import KernelFlow.Core.Reordered

namespace KernelFlow

/-!
# Derived readers and writers

What is assumed of a derived writer and reader is a `JsonCodec`: the reader undoes
the writing, and it takes the members of objects in any order.

A `Format` shows that this can be had.  It follows the derived code for records and
variants: a record is an object with one member for each field, and its reader skips
members it does not know and also takes the fields as an array.
-/

/-- A derived writer and reader for one type.  `Same` is what the order of members
leaves of a value. -/
structure JsonCodec (α : Type) (Same : α -> α -> Prop) where
  write : α -> Json
  read : Json -> Option α
  read_write : forall value, read (write value) = some value
  read_reordered : forall left right, left.Reordered right ->
    Option.Rel Same (read left) (read right)

namespace JsonCodec

variable {α : Type} {Same : α -> α -> Prop}

/-- Whatever reordering a written document went through, its reader returns the
value up to the order of members. -/
theorem read_of_reordered (codec : JsonCodec α Same) {value : α} {document : Json}
    (reordered : (codec.write value).Reordered document) :
    ∃ received, codec.read document = some received ∧ Same value received := by
  have related := codec.read_reordered _ _ reordered
  rw [codec.read_write] at related
  generalize answer : codec.read document = received at related
  cases related with
  | @some _ received same => exact ⟨received, rfl, same⟩

def imp (codec : JsonCodec α Same) {Weaker : α -> α -> Prop}
    (weaker : forall left right, Same left right -> Weaker left right) : JsonCodec α Weaker where
  write := codec.write
  read := codec.read
  read_write := codec.read_write
  read_reordered := by
    intro left right reordered
    have related := codec.read_reordered left right reordered
    generalize codec.read left = first, codec.read right = second at related
    cases related with
    | none => exact .none
    | some same => exact .some (weaker _ _ same)

end JsonCodec

namespace Serde

open Json

/-! ## Related answers -/

theorem rel_map {α β γ δ : Type} {first : α -> β -> Prop} {second : γ -> δ -> Prop} {left : Option α}
    {right : Option β} (related : Option.Rel first left right) {mapLeft : α -> γ} {mapRight : β -> δ}
    (each : forall one other, first one other -> second (mapLeft one) (mapRight other)) :
    Option.Rel second (left.map mapLeft) (right.map mapRight) := by
  cases related with
  | none => exact .none
  | some same => exact .some (each _ _ same)

theorem rel_bind {α β γ δ : Type} {first : α -> β -> Prop} {second : γ -> δ -> Prop} {left : Option α}
    {right : Option β} (related : Option.Rel first left right) {thenLeft : α -> Option γ}
    {thenRight : β -> Option δ}
    (each : forall one other, first one other -> Option.Rel second (thenLeft one) (thenRight other)) :
    Option.Rel second (left.bind thenLeft) (right.bind thenRight) := by
  cases related with
  | none => exact .none
  | some same => exact each _ _ same

/-! ## Formats -/

/-- A writer and a reader for one type. -/
structure Format (α : Type) where
  write : α -> Json
  read : Json -> Option α
  /-- what an absent member of a record means, if it may be absent -/
  missing : Option α
  /-- equal up to the order of members -/
  Same : α -> α -> Prop
  distinct_write : forall value, (write value).Distinct
  read_write : forall value, read (write value) = some value
  read_reordered : forall left right, left.Reordered right ->
    Option.Rel Same (read left) (read right)

namespace Format

variable {α β : Type}

theorem same_refl (format : Format α) (value : α) : format.Same value value := by
  have related := format.read_reordered _ _ (Reordered.refl (format.distinct_write value))
  rw [format.read_write] at related
  cases related with
  | some same => exact same

/-- No value of the type is told apart from another one by member order only. -/
def Exact (format : Format α) : Prop :=
  forall left right, format.Same left right -> left = right

/-- What the format comes to, without the way it is put together. -/
def codec (format : Format α) : JsonCodec α format.Same where
  write := format.write
  read := format.read
  read_write := format.read_write
  read_reordered := format.read_reordered

/-- The format of a type that is written and read as another one. -/
def via (format : Format α) (equivalence : α ≃ β) : Format β where
  write := fun value => format.write (equivalence.symm value)
  read := fun document => (format.read document).map equivalence
  missing := format.missing.map equivalence
  Same := fun left right => format.Same (equivalence.symm left) (equivalence.symm right)
  distinct_write := fun value => format.distinct_write _
  read_write := by
    intro value
    rw [format.read_write, Option.map_some, equivalence.apply_symm_apply]
  read_reordered := by
    intro left right reordered
    apply rel_map (format.read_reordered left right reordered)
    intro first second same
    rwa [equivalence.symm_apply_apply, equivalence.symm_apply_apply]

/-- A type whose documents have no components. -/
def leaf (write : α -> Json) (read : Json -> Option α) (leaves : forall value, (write value).IsLeaf)
    (readLeaves : forall document, ¬ document.IsLeaf -> read document = none)
    (readWrite : forall value, read (write value) = some value) : Format α where
  write := write
  read := read
  missing := none
  Same := Eq
  distinct_write := by
    intro value
    have isLeaf := leaves value
    cases written : write value with
    | array items => exact (written ▸ isLeaf).elim
    | object members => exact (written ▸ isLeaf).elim
    | _ => exact trivial
  read_write := readWrite
  read_reordered := by
    intro left right reordered
    by_cases isLeaf : left.IsLeaf
    · rw [reordered.eq_of_leaf isLeaf]
      cases read left with
      | none => exact .none
      | some value => exact .some rfl
    · have rightNot : ¬ right.IsLeaf := by
        cases left with
        | array items =>
            rcases reordered.items with ⟨others, rfl, _same⟩
            exact id
        | object members =>
            rcases reordered.members with ⟨others, rfl, _same⟩
            exact id
        | _ => exact absurd trivial isLeaf
      rw [readLeaves left isLeaf, readLeaves right rightNot]
      exact .none

def string : Format String :=
  leaf Json.string
    (fun document => match document with
      | .string value => some value
      | _ => none)
    (fun _value => trivial)
    (fun document inner => by cases document <;> first | rfl | exact absurd trivial inner)
    (fun _value => rfl)

def u64 : Format UInt64 :=
  leaf (fun value => .number (.posInt value))
    (fun document => match document with
      | .number (.posInt value) => some value
      | _ => none)
    (fun _value => trivial)
    (fun document inner => by cases document <;> first | rfl | exact absurd trivial inner)
    (fun _value => rfl)

/-- Numbers that are too large are refused. -/
def u32 : Format UInt32 :=
  leaf (fun value => .number (.posInt value.toUInt64))
    (fun document => match document with
      | .number (.posInt value) => if value < 4294967296 then some value.toUInt32 else none
      | _ => none)
    (fun _value => trivial)
    (fun document inner => by cases document <;> first | rfl | exact absurd trivial inner)
    (fun value => by
      have small : value.toUInt64 < 4294967296 := by
        rw [UInt64.lt_iff_toNat_lt, UInt32.toNat_toUInt64]
        exact value.toNat_lt
      change (if _ then some value.toUInt64.toUInt32 else none) = some value
      rw [if_pos small, UInt32.toUInt32_toUInt64])

/-- A JSON value stands for itself. -/
def value : Format Value where
  write := Value.json
  read := fun document => if distinct : document.Distinct then some ⟨document, distinct⟩ else none
  missing := none
  Same := Value.SameUpToOrder
  distinct_write := Value.distinct
  read_write := fun value => dif_pos value.distinct
  read_reordered := by
    intro left right reordered
    rw [dif_pos reordered.leftDistinct, dif_pos reordered.rightDistinct]
    exact .some reordered.same

/-- A text in which the values are written. -/
def text (display : α -> String) (parse : String -> Option α)
    (parseDisplay : forall value, parse (display value) = some value) : Format α :=
  leaf (fun value => .string (display value))
    (fun document => match document with
      | .string value => parse value
      | _ => none)
    (fun _value => trivial)
    (fun document inner => by cases document <;> first | rfl | exact absurd trivial inner)
    parseDisplay

/-- A value that may be absent: `null` or no member at all. -/
def option (format : Format α) (notNull : forall value, format.write value ≠ .null) :
    Format (Option α) where
  write := fun value => match value with
    | none => .null
    | some value => format.write value
  read := fun document => match document with
    | .null => some none
    | document => (format.read document).map some
  missing := some none
  Same := Option.Rel format.Same
  distinct_write := by
    intro value
    cases value with
    | none => exact trivial
    | some value => exact format.distinct_write value
  read_write := by
    intro value
    cases value with
    | none => rfl
    | some value =>
        have read := format.read_write value
        have present := notNull value
        change (match format.write value with
          | .null => some none
          | document => (format.read document).map some) = _
        split
        · next empty => exact absurd empty present
        · rw [read, Option.map_some]
  read_reordered := by
    intro left right reordered
    cases left with
    | null =>
        rw [reordered.eq_of_leaf trivial]
        exact .some .none
    | array items =>
        rcases reordered.items with ⟨others, rfl, _same⟩
        exact rel_map (format.read_reordered _ _ reordered) fun _one _other => .some
    | object members =>
        rcases reordered.members with ⟨others, rfl, _same⟩
        exact rel_map (format.read_reordered _ _ reordered) fun _one _other => .some
    | _ =>
        have same := reordered.eq_of_leaf trivial
        subst same
        exact rel_map (format.read_reordered _ _ reordered) fun _one _other => .some

/-! ### Sequences and maps -/

theorem mapM_read_reordered (format : Format α) {left right : List Json}
    (reordered : List.Forall₂ Reordered left right) :
    Option.Rel (List.Forall₂ format.Same) (left.mapM format.read) (right.mapM format.read) := by
  induction reordered with
  | nil => exact .some .nil
  | @cons first second lefts rights same _rest inductionHypothesis =>
      rw [List.mapM_cons, List.mapM_cons]
      apply rel_bind (format.read_reordered first second same)
      intro one other head
      apply rel_bind inductionHypothesis
      intro ones others tail
      exact .some (.cons head tail)

theorem mapM_read_write (format : Format α) (values : List α) :
    (values.map format.write).mapM format.read = some values := by
  induction values with
  | nil => rfl
  | cons value values inductionHypothesis =>
      rw [List.map_cons, List.mapM_cons, format.read_write, inductionHypothesis]
      rfl

def list (format : Format α) : Format (List α) where
  write := fun values => .array (values.map format.write)
  read := fun document => match document with
    | .array items => items.mapM format.read
    | _ => none
  missing := none
  Same := List.Forall₂ format.Same
  distinct_write := by
    intro values
    rw [Distinct, distinctItems_iff]
    intro item member
    rcases List.mem_map.mp member with ⟨value, _member, rfl⟩
    exact format.distinct_write value
  read_write := mapM_read_write format
  read_reordered := by
    intro left right reordered
    cases left with
    | array items =>
        rcases reordered.items with ⟨others, rfl, same⟩
        exact mapM_read_reordered format same
    | object members =>
        rcases reordered.members with ⟨others, rfl, _same⟩
        exact .none
    | _ =>
        rw [reordered.eq_of_leaf trivial]
        exact .none

/-- The entries of an object. -/
def readEntries (format : Format α) (members : List (String × Json)) : Option (List (String × α)) :=
  members.mapM fun member => (format.read member.2).map fun value => (member.1, value)

theorem readEntries_eq_some {format : Format α} {members : List (String × Json)}
    {entries : List (String × α)} (read : readEntries format members = some entries) :
    entries.map Prod.fst = members.map Prod.fst ∧
      forall key, entries.lookup key = (members.lookup key).bind format.read := by
  induction members generalizing entries with
  | nil =>
      cases read
      exact ⟨rfl, fun _key => rfl⟩
  | cons member members inductionHypothesis =>
      rcases member with ⟨name, document⟩
      rw [readEntries, List.mapM_cons] at read
      rcases Option.bind_eq_some_iff.mp read with ⟨entry, first, rest⟩
      rcases Option.map_eq_some_iff.mp first with ⟨value, found, rfl⟩
      rcases Option.bind_eq_some_iff.mp rest with ⟨others, later, same⟩
      cases same
      rcases inductionHypothesis later with ⟨keys, lookups⟩
      refine ⟨by rw [List.map_cons, List.map_cons, keys], ?_⟩
      intro key
      rw [List.lookup_cons, List.lookup_cons, lookups]
      cases key == name with
      | true => exact found.symm
      | false => rfl

theorem readEntries_isSome_iff {format : Format α} {members : List (String × Json)} :
    (readEntries format members).isSome = true ↔
      forall member, member ∈ members -> (format.read member.2).isSome = true := by
  induction members with
  | nil => simp [readEntries]
  | cons member members inductionHypothesis =>
      rw [List.forall_mem_cons, ← inductionHypothesis, readEntries, List.mapM_cons]
      change ((Option.map _ (format.read member.2)).bind fun _ =>
        (readEntries format members).bind _).isSome = true ↔ _
      cases format.read member.2 with
      | none => simp
      | some value => cases readEntries format members <;> simp

theorem readEntries_isSome_iff_lookup {format : Format α} {members : List (String × Json)}
    (distinct : (members.map Prod.fst).Nodup) :
    (readEntries format members).isSome = true ↔
      forall key document, members.lookup key = some document ->
        (format.read document).isSome = true := by
  rw [readEntries_isSome_iff, Prod.forall]
  exact forall₂_congr fun key document => by
    rw [OrderedMap.lookup_eq_some_iff_mem distinct]

/-- Reordered objects have readable entries on both sides or on none. -/
theorem readEntries_isSome_congr (format : Format α) {members others : List (String × Json)}
    (leftKeys : (members.map Prod.fst).Nodup) (rightKeys : (others.map Prod.fst).Nodup)
    (found : forall name, Option.Rel Reordered (members.lookup name) (others.lookup name)) :
    (readEntries format members).isSome = (readEntries format others).isSome := by
  have sameAnswer {one two : Json} (same : one.Reordered two) :
      (format.read one).isSome = (format.read two).isSome := by
    have related := format.read_reordered one two same
    generalize format.read one = first, format.read two = second at related
    cases related with
    | none => rfl
    | some _same => rfl
  rw [Bool.eq_iff_iff, readEntries_isSome_iff_lookup leftKeys,
    readEntries_isSome_iff_lookup rightKeys]
  apply forall_congr'
  intro key
  have related := found key
  generalize members.lookup key = first, others.lookup key = second at related
  cases related with
  | none => simp
  | some same => simp [sameAnswer same]

theorem readEntries_write (format : Format α) (entries : List (String × α)) :
    readEntries format (entries.map fun entry => (entry.1, format.write entry.2)) =
      some entries := by
  induction entries with
  | nil => rfl
  | cons entry entries inductionHypothesis =>
      rw [readEntries] at inductionHypothesis
      rw [List.map_cons, readEntries, List.mapM_cons, inductionHypothesis, format.read_write]
      rfl

/-- A map with texts for keys. -/
def map (format : Format α) : Format (BTreeMap String α) where
  write := fun values =>
    .object (values.toList.map fun entry => (entry.1, format.write entry.2))
  read := fun document => match document with
    | .object members =>
        (readEntries format members).map fun entries => Std.ExtTreeMap.ofList entries
    | _ => none
  missing := none
  Same := fun left right => forall key : String, Option.Rel format.Same left[key]? right[key]?
  distinct_write := by
    intro values
    refine ⟨?_, (distinctMembers_iff _).mpr ?_⟩
    · rw [List.map_map]
      exact OrderedMap.toList_keys_nodup values
    · intro member inside
      rcases List.mem_map.mp inside with ⟨entry, _listed, rfl⟩
      exact format.distinct_write entry.2
  read_write := by
    intro values
    change (readEntries format _).map _ = _
    rw [readEntries_write, Option.map_some, OrderedMap.ofList_toList]
  read_reordered := by
    intro left right reordered
    cases left with
    | object members =>
        rcases reordered.lookup with ⟨others, rfl, found⟩
        have leftKeys := reordered.leftDistinct.1
        have rightKeys := reordered.rightDistinct.1
        have answers (name : String) : Option.Rel format.Same
            ((members.lookup name).bind format.read) ((others.lookup name).bind format.read) :=
          rel_bind (found name) format.read_reordered
        have both := readEntries_isSome_congr format leftKeys rightKeys found
        change Option.Rel _ ((readEntries format members).map _)
          ((readEntries format others).map _)
        cases leftRead : readEntries format members with
        | none =>
            rw [leftRead] at both
            rw [Option.isNone_iff_eq_none.mp (Option.isSome_eq_false_iff.mp both.symm)]
            exact .none
        | some entries =>
            rw [leftRead] at both
            rcases Option.isSome_iff_exists.mp both.symm with ⟨received, rightRead⟩
            have sent := readEntries_eq_some leftRead
            have got := readEntries_eq_some rightRead
            rw [rightRead]
            apply Option.Rel.some
            intro key
            rw [OrderedMap.getElem?_ofList_eq_lookup (sent.1 ▸ leftKeys),
              OrderedMap.getElem?_ofList_eq_lookup (got.1 ▸ rightKeys), sent.2, got.2]
            exact answers key
    | array items =>
        rcases reordered.items with ⟨others, rfl, _same⟩
        exact .none
    | _ =>
        rw [reordered.eq_of_leaf trivial]
        exact .none

end Format

/-! ## Records -/

/-- The fields of a record in their order. -/
structure Fields (α : Type) where
  names : List String
  write : α -> List (String × Json)
  /-- from the members of an object -/
  readMembers : List (String × Json) -> Option α
  /-- from the start of an array -/
  readItems : List Json -> Option (α × List Json)
  Same : α -> α -> Prop
  distinct_names : names.Nodup
  keys_write : forall value, (write value).map Prod.fst = names
  distinct_write : forall value member, member ∈ write value -> member.2.Distinct
  read_write : forall value members,
    (forall name, name ∈ names -> valuesOf name members = valuesOf name (write value)) ->
    readMembers members = some value
  members_reordered : forall left right,
    (forall name, name ∈ names -> List.Forall₂ Reordered (valuesOf name left) (valuesOf name right)) ->
    Option.Rel Same (readMembers left) (readMembers right)
  items_reordered : forall left right, List.Forall₂ Reordered left right ->
    Option.Rel (fun first second => Same first.1 second.1 ∧ List.Forall₂ Reordered first.2 second.2)
      (readItems left) (readItems right)

namespace Fields

variable {α β : Type}

def nil : Fields Unit where
  names := []
  write := fun _value => []
  readMembers := fun _members => some ()
  readItems := fun items => some ((), items)
  Same := fun _left _right => True
  distinct_names := List.nodup_nil
  keys_write := fun _value => rfl
  distinct_write := by
    intro value member absent
    cases absent
  read_write := fun _value _members _same => rfl
  members_reordered := fun _left _right _same => .some trivial
  items_reordered := fun _left _right same => .some ⟨trivial, same⟩

/-- One member of the given name; a second one is an error. -/
def readField (format : Format α) : List Json -> Option α
  | [] => format.missing
  | [value] => format.read value
  | _ => none

theorem readField_reordered (format : Format α) {left right : List Json}
    (reordered : List.Forall₂ Reordered left right) :
    Option.Rel format.Same (readField format left) (readField format right) := by
  cases reordered with
  | nil =>
      change Option.Rel format.Same format.missing format.missing
      cases format.missing with
      | none => exact .none
      | some value => exact .some (format.same_refl value)
  | cons same rest =>
      cases rest with
      | nil => exact format.read_reordered _ _ same
      | cons _same _rest => exact .none

/-- A field before others. -/
def cons (name : String) (format : Format α) (others : Fields β) (fresh : name ∉ others.names) :
    Fields (α × β) where
  names := name :: others.names
  write := fun value => (name, format.write value.1) :: others.write value.2
  readMembers := fun members =>
    (readField format (valuesOf name members)).bind fun first =>
      (others.readMembers members).map fun rest => (first, rest)
  readItems := fun items => match items with
    | [] => none
    | item :: items =>
        (format.read item).bind fun first =>
          (others.readItems items).map fun (rest, items) => ((first, rest), items)
  Same := fun left right => format.Same left.1 right.1 ∧ others.Same left.2 right.2
  distinct_names := List.nodup_cons.mpr ⟨fresh, others.distinct_names⟩
  keys_write := fun value => congrArg (name :: ·) (others.keys_write value.2)
  distinct_write := by
    intro value member inside
    rcases List.mem_cons.mp inside with rfl | later
    · exact format.distinct_write value.1
    · exact others.distinct_write value.2 member later
  read_write := by
    rintro ⟨first, rest⟩ members written
    have absent : (others.write rest).filter (fun member => member.1 == name) = [] := by
      rw [List.filter_eq_nil_iff]
      intro member inside
      have known : member.1 ∈ others.names := by
        rw [← others.keys_write rest]
        exact List.mem_map_of_mem inside
      intro same
      rw [beq_iff_eq] at same
      exact fresh (same ▸ known)
    have own : valuesOf name members = [format.write first] := by
      rw [written name List.mem_cons_self]
      simp [valuesOf, absent]
    have later : others.readMembers members = some rest := by
      apply others.read_write
      intro other known
      rw [written other (List.mem_cons_of_mem _ known)]
      have different : (name == other) = false := by
        rw [beq_eq_false_iff_ne]
        rintro rfl
        exact fresh known
      simp [valuesOf, different]
    rw [own, readField, format.read_write, Option.bind_some, later]
    rfl
  members_reordered := by
    intro left right reordered
    apply rel_bind (readField_reordered format (reordered name List.mem_cons_self))
    intro one other head
    apply rel_map (others.members_reordered left right fun other known =>
      reordered other (List.mem_cons_of_mem _ known))
    intro ones others tail
    exact ⟨head, tail⟩
  items_reordered := by
    intro left right reordered
    cases reordered with
    | nil => exact .none
    | @cons first second lefts rights same rest =>
        apply rel_bind (format.read_reordered _ _ same)
        intro one other head
        apply rel_map (others.items_reordered _ _ rest)
        intro ones twos tail
        exact ⟨⟨head, tail.1⟩, tail.2⟩

def Exact (fields : Fields α) : Prop :=
  forall left right, fields.Same left right -> left = right

theorem exact_nil : nil.Exact :=
  fun _left _right _same => rfl

theorem exact_cons {name : String} {format : Format α} {others : Fields β}
    {fresh : name ∉ others.names} (first : format.Exact) (rest : others.Exact) :
    (cons name format others fresh).Exact :=
  fun _left _right same => Prod.ext (first _ _ same.1) (rest _ _ same.2)

/-- The fields as documents: an object or an array. -/
def readContent (fields : Fields α) : Json -> Option α
  | .object members => fields.readMembers members
  | .array items =>
      match fields.readItems items with
      | some (value, []) => some value
      | _ => none
  | _ => none

theorem readContent_write (fields : Fields α) (value : α) :
    fields.readContent (.object (fields.write value)) = some value :=
  fields.read_write value _ fun _name _known => rfl

theorem readContent_reordered (fields : Fields α) {left right : Json}
    (reordered : left.Reordered right) :
    Option.Rel fields.Same (fields.readContent left) (fields.readContent right) := by
  cases left with
  | object members =>
      rcases reordered.members with ⟨others, rfl, same⟩
      exact fields.members_reordered members others fun name _known => same name
  | array items =>
      rcases reordered.items with ⟨others, rfl, same⟩
      have related := fields.items_reordered items others same
      rw [readContent, readContent]
      generalize fields.readItems items = first, fields.readItems others = second at related
      cases related with
      | none => exact .none
      | @some first second both =>
          rcases first with ⟨value, rest⟩
          rcases second with ⟨other, remaining⟩
          rcases both with ⟨same, tail⟩
          cases tail with
          | nil => exact .some same
          | cons _same _rest => exact .none
  | _ =>
      rw [reordered.eq_of_leaf trivial]
      exact .none

theorem distinct_object (fields : Fields α) (value : α) :
    (Json.object (fields.write value)).Distinct :=
  ⟨(fields.keys_write value).symm ▸ fields.distinct_names,
    (distinctMembers_iff _).mpr (fields.distinct_write value)⟩

/-- A record. -/
def record (fields : Fields α) : Format α where
  write := fun value => .object (fields.write value)
  read := fields.readContent
  missing := none
  Same := fields.Same
  distinct_write := fields.distinct_object
  read_write := fields.readContent_write
  read_reordered := fun _left _right reordered => fields.readContent_reordered reordered

end Fields

end Serde
end KernelFlow
