import Mathlib

universe u v w

/-!
# Ordered maps and association lists

`BTreeMap` is `Std.ExtTreeMap`: its iteration order is the key order, and two
maps with the same lookups are equal.  This module rephrases its lookup laws
with propositional equality of keys, which is the form the state invariants
use, compares maps through their key sets, and relates lookups in a map to
lookups in the list of its entries.
-/

/-- The ordered map of the Rust standard library, iterated in key order. -/
abbrev BTreeMap (κ : Type u) (α : Type v) [Ord κ] : Type (max u v) :=
  Std.ExtTreeMap κ α compare

namespace OrderedMap

variable {κ : Type u} {α : Type v} [Ord κ] [Std.TransOrd κ] [Std.LawfulEqOrd κ]

theorem getElem?_insert_eq [DecidableEq κ] (map : BTreeMap κ α) (key : κ)
    (value : α) (other : κ) :
    (map.insert key value)[other]? = if key = other then some value else map[other]? := by
  rw [Std.ExtTreeMap.getElem?_insert]
  simp only [Std.LawfulEqCmp.compare_eq_iff_eq]

theorem getElem?_erase_eq [DecidableEq κ] (map : BTreeMap κ α) (key other : κ) :
    (map.erase key)[other]? = if key = other then none else map[other]? := by
  rw [Std.ExtTreeMap.getElem?_erase]
  simp only [Std.LawfulEqCmp.compare_eq_iff_eq]

theorem mem_insert_eq (map : BTreeMap κ α) (key : κ) (value : α) (other : κ) :
    other ∈ map.insert key value ↔ key = other ∨ other ∈ map := by
  rw [Std.ExtTreeMap.mem_insert, Std.LawfulEqCmp.compare_eq_iff_eq]

/-- Overwriting a present key keeps the key set. -/
theorem mem_insert_of_mem {map : BTreeMap κ α} {key : κ} (present : key ∈ map)
    (value : α) (other : κ) : other ∈ map.insert key value ↔ other ∈ map := by
  rw [mem_insert_eq]
  exact ⟨fun either => either.elim (fun same => same ▸ present) id, Or.inr⟩

omit [Std.LawfulEqOrd κ] in
theorem mem_iff_exists (map : BTreeMap κ α) (key : κ) :
    key ∈ map ↔ ∃ value, map[key]? = some value := by
  rw [Std.ExtTreeMap.mem_iff_isSome_getElem?, Option.isSome_iff_exists]

omit [Std.LawfulEqOrd κ] in
theorem mem_of_getElem?_eq_some {map : BTreeMap κ α} {key : κ} {value : α}
    (found : map[key]? = some value) : key ∈ map :=
  (mem_iff_exists map key).mpr ⟨value, found⟩

/-- Collecting pairs whose optional values are a function of their key.  An
entry whose value is absent is left out. -/
theorem getElem?_ofList_filterMap [DecidableEq κ] {β : Type w} (list : List β) (key : β -> κ)
    (value : κ -> Option α) (sought : κ) :
    (Std.ExtTreeMap.ofList (list.filterMap fun entry =>
        (value (key entry)).map fun found => (key entry, found)) compare)[sought]? =
      if sought ∈ list.map key then value sought else none := by
  rw [Std.ExtTreeMap.ofList_eq_foldl]
  have general : forall (start : BTreeMap κ α),
      ((list.filterMap fun entry =>
          (value (key entry)).map fun found => (key entry, found)).foldl
        (fun map pair => map.insert pair.1 pair.2) start)[sought]? =
        if sought ∈ list.map key then (value sought).or start[sought]? else start[sought]? := by
    induction list with
    | nil => intro start; simp
    | cons head tail inductionHypothesis =>
        intro start
        rw [List.filterMap_cons]
        cases held : value (key head) with
        | none =>
            rw [Option.map_none, inductionHypothesis]
            by_cases same : key head = sought
            · subst same
              simp [held]
            · simp [Ne.symm same]
        | some found =>
            rw [Option.map_some, List.foldl_cons, inductionHypothesis, getElem?_insert_eq]
            by_cases same : key head = sought
            · subst same
              simp [held]
            · simp [same, Ne.symm same]
  rw [general]
  simp

/-- Collecting pairs whose values are a function of their key. -/
theorem getElem?_ofList_map [DecidableEq κ] (keys : List κ) (value : κ -> α) (key : κ) :
    (Std.ExtTreeMap.ofList (keys.map fun key => (key, value key)) compare)[key]? =
      if key ∈ keys then some (value key) else none := by
  have collected := getElem?_ofList_filterMap keys id (fun key => some (value key)) key
  simpa using collected

/-! ## Association lists -/

/-- With distinct keys, lookup finds exactly the listed entries. -/
theorem lookup_eq_some_iff_mem [DecidableEq κ] {entries : List (κ × α)}
    (distinct : (entries.map Prod.fst).Nodup) (key : κ) (value : α) :
    entries.lookup key = some value ↔ (key, value) ∈ entries := by
  induction entries with
  | nil => simp
  | cons head tail inductionHypothesis =>
      rcases head with ⟨headKey, headValue⟩
      rw [List.map_cons, List.nodup_cons] at distinct
      by_cases same : key = headKey
      · subst headKey
        have absent : (key, value) ∉ tail := fun member =>
          distinct.1 (List.mem_map.mpr ⟨_, member, rfl⟩)
        rw [List.lookup_cons_self, Option.some.injEq, List.mem_cons, Prod.mk.injEq]
        exact ⟨fun equal => Or.inl ⟨rfl, equal.symm⟩,
          fun either => either.elim (fun pair => pair.2.symm) fun member => absurd member absent⟩
      · have differs : (key == headKey) = false := beq_eq_false_iff_ne.mpr same
        rw [List.lookup_cons, differs, inductionHypothesis distinct.2, List.mem_cons, Prod.mk.injEq]
        exact ⟨Or.inr, fun either => either.elim (fun pair => absurd pair.1 same) id⟩

/-- Reordering entries with distinct keys does not change any lookup. -/
theorem lookup_perm [DecidableEq κ] {left right : List (κ × α)} (permuted : left.Perm right)
    (distinct : (left.map Prod.fst).Nodup) (key : κ) : left.lookup key = right.lookup key := by
  apply Option.ext
  intro value
  rw [lookup_eq_some_iff_mem distinct, lookup_eq_some_iff_mem
    ((permuted.map Prod.fst).nodup_iff.mp distinct), permuted.mem_iff]

omit [Std.LawfulEqOrd κ] in
theorem toList_keys_nodup (map : BTreeMap κ α) : (map.toList.map Prod.fst).Nodup := by
  rw [Std.ExtTreeMap.map_fst_toList_eq_keys]
  exact Std.ExtTreeMap.nodup_keys

/-- The entry list of a map has the lookups of the map. -/
theorem lookup_toList [DecidableEq κ] (map : BTreeMap κ α) (key : κ) :
    map.toList.lookup key = map[key]? := by
  apply Option.ext
  intro value
  rw [lookup_eq_some_iff_mem (toList_keys_nodup map),
    Std.ExtTreeMap.mem_toList_iff_getElem?_eq_some]

/-- A map collected from entries with distinct keys has their lookups. -/
theorem getElem?_ofList_eq_lookup [DecidableEq κ] {entries : List (κ × α)}
    (distinct : (entries.map Prod.fst).Nodup) (key : κ) :
    (Std.ExtTreeMap.ofList entries compare : BTreeMap κ α)[key]? = entries.lookup key := by
  have pairs : entries.Pairwise fun first second => ¬ compare first.1 second.1 = .eq := by
    rw [List.nodup_iff_pairwise_ne, List.pairwise_map] at distinct
    apply distinct.imp
    intro first second different same
    exact different (Std.LawfulEqCmp.compare_eq_iff_eq.mp same)
  cases found : entries.lookup key with
  | some value =>
      exact Std.ExtTreeMap.getElem?_ofList_of_mem Std.ReflCmp.compare_self pairs
        ((lookup_eq_some_iff_mem distinct key value).mp found)
  | none =>
      apply Std.ExtTreeMap.getElem?_ofList_of_contains_eq_false
      rw [List.lookup_eq_none_iff] at found
      rw [List.contains_eq_any_beq, List.any_eq_false]
      intro other member
      rcases List.mem_map.mp member with ⟨entry, listed, rfl⟩
      simpa using found entry listed

theorem ofList_toList [DecidableEq κ] (map : BTreeMap κ α) :
    (Std.ExtTreeMap.ofList map.toList compare : BTreeMap κ α) = map := by
  apply Std.ExtTreeMap.ext_getElem?
  intro key
  rw [getElem?_ofList_eq_lookup (toList_keys_nodup map), lookup_toList]

omit [Std.LawfulEqOrd κ] in
/-- The values are the second components of the entries, in key order. -/
theorem values_eq (map : BTreeMap κ α) : map.values = map.toList.map Prod.snd := by
  rcases map with ⟨inner⟩
  induction inner using Std.ExtDTreeMap.inductionOn with
  | mk inner =>
      change inner.inner.values = (Std.DTreeMap.Internal.Impl.Const.toList inner.inner).map Prod.snd
      rw [Std.DTreeMap.Internal.Impl.values_eq_map_snd,
        Std.DTreeMap.Internal.Impl.Const.toList_eq_toListModel_map, List.map_map]
      rfl

theorem mem_values_iff (map : BTreeMap κ α) (value : α) :
    value ∈ map.values ↔ ∃ key : κ, map[key]? = some value := by
  rw [values_eq, List.mem_map]
  constructor
  · rintro ⟨⟨key, found⟩, member, rfl⟩
    exact ⟨key, Std.ExtTreeMap.mem_toList_iff_getElem?_eq_some.mp member⟩
  · rintro ⟨key, found⟩
    exact ⟨(key, value), Std.ExtTreeMap.mem_toList_iff_getElem?_eq_some.mpr found, rfl⟩

/-! ## Key sets -/

/-- A map whose keys all occur in another map has as many entries as that map
exactly when it misses none of its keys. -/
theorem size_eq_iff_of_subset {β : Type v} {part : BTreeMap κ α}
    {whole : BTreeMap κ β} (subset : forall key, key ∈ part -> key ∈ whole) :
    part.size = whole.size ↔ forall key, key ∈ whole -> key ∈ part := by
  rw [← Std.ExtTreeMap.length_keys, ← Std.ExtTreeMap.length_keys]
  have partNodup := Std.ExtTreeMap.nodup_keys (t := part)
  have wholeNodup := Std.ExtTreeMap.nodup_keys (t := whole)
  have contained : part.keys.Subperm whole.keys := by
    apply partNodup.subperm
    intro key member
    exact Std.ExtTreeMap.mem_keys.mpr (subset key (Std.ExtTreeMap.mem_keys.mp member))
  constructor
  · intro same key member
    have permutation := contained.perm_of_length_le (Nat.le_of_eq same.symm)
    exact Std.ExtTreeMap.mem_keys.mp
      (permutation.mem_iff.mpr (Std.ExtTreeMap.mem_keys.mpr member))
  · intro covered
    apply Nat.le_antisymm contained.length_le
    apply (wholeNodup.subperm _).length_le
    intro key member
    exact Std.ExtTreeMap.mem_keys.mpr (covered key (Std.ExtTreeMap.mem_keys.mp member))

/-! ## Renaming keys -/

/-- The second map has the entries of the first one under new keys, which are
different for different entries. -/
structure Renamed (rename : κ -> κ) (before after : BTreeMap κ α) : Prop where
  injective : Set.InjOn rename {key | key ∈ before}
  entries : forall (key : κ) (value : α), after[key]? = some value ↔
    ∃ old : κ, before[old]? = some value ∧ rename old = key

/-- The values are the same up to their order. -/
theorem Renamed.values_perm {rename : κ -> κ} {before after : BTreeMap κ α}
    (renamed : Renamed rename before after) : before.values.Perm after.values := by
  have moved : (before.toList.map fun entry => (rename entry.1, entry.2)).Perm after.toList := by
    apply (List.perm_ext_iff_of_nodup _ _).mpr
    · rintro ⟨key, value⟩
      rw [Std.ExtTreeMap.mem_toList_iff_getElem?_eq_some, renamed.entries, List.mem_map]
      constructor
      · rintro ⟨⟨old, held⟩, member, same⟩
        cases same
        exact ⟨old, Std.ExtTreeMap.mem_toList_iff_getElem?_eq_some.mp member, rfl⟩
      · rintro ⟨old, found, rfl⟩
        exact ⟨(old, value), Std.ExtTreeMap.mem_toList_iff_getElem?_eq_some.mpr found, rfl⟩
    · apply List.Nodup.of_map Prod.fst
      rw [List.map_map]
      change (before.toList.map (rename ∘ Prod.fst)).Nodup
      rw [← List.map_map, Std.ExtTreeMap.map_fst_toList_eq_keys]
      apply Std.ExtTreeMap.nodup_keys.map_on
      intro first firstMember second secondMember same
      exact renamed.injective (Std.ExtTreeMap.mem_keys.mp firstMember)
        (Std.ExtTreeMap.mem_keys.mp secondMember) same
    · exact List.Nodup.of_map Prod.fst (toList_keys_nodup after)
  rw [values_eq, values_eq]
  refine List.Perm.trans ?_ (moved.map Prod.snd)
  rw [List.map_map]
  exact List.Perm.refl _

end OrderedMap
