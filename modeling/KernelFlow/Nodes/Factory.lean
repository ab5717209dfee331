import Mathlib
import KernelFlow.Core.Tagged
import KernelFlow.Nodes.MemberOrder

namespace KernelFlow
namespace Nodes

open Serde

/-!
# Factories of the node registry

Every kind is registered with a descriptor and with a factory that makes a node
from JSON arguments.  The derived readers of these arguments are a parameter; where it
matters, they are assumed to take members in any order.
-/

/-! ## The registry with its factories -/

/-- The registry with both of its maps. -/
structure FactoryRegistry (N : Type) where
  registry : NodeRegistry
  factories : BTreeMap String (Value -> KernelResult N)

namespace FactoryRegistry

variable {N : Type}

def new : FactoryRegistry N where
  registry := .new
  factories := ∅

def register (registry : FactoryRegistry N) (desc : NodeDescriptor)
    (factory : Value -> KernelResult N) : FactoryRegistry N where
  registry := registry.registry.register desc
  factories := registry.factories.insert desc.kind factory

def describe (registry : FactoryRegistry N) (kind : String) : Option NodeDescriptor :=
  registry.registry.describe kind

def instantiate (registry : FactoryRegistry N) (kind : String) (args : Value) : KernelResult N :=
  match registry.factories[kind]? with
  | none => .error (.nodeNotFound kind)
  | some factory => factory args

/-- The registry after a sequence of registrations. -/
def registerAll (registry : FactoryRegistry N)
    (entries : List (NodeDescriptor × (Value -> KernelResult N))) : FactoryRegistry N :=
  entries.foldl (fun registry entry => registry.register entry.1 entry.2) registry

/-- The last registration of a kind. -/
def lastOf (entries : List (NodeDescriptor × (Value -> KernelResult N))) (kind : String) :
    Option (NodeDescriptor × (Value -> KernelResult N)) :=
  entries.reverse.find? fun entry => entry.1.kind == kind

theorem register_maps (registry : FactoryRegistry N) (desc : NodeDescriptor)
    (factory : Value -> KernelResult N) (kind : String) :
    (registry.register desc factory).registry.descriptors[kind]? =
        (if desc.kind = kind then some desc else registry.registry.descriptors[kind]?) ∧
      (registry.register desc factory).factories[kind]? =
        if desc.kind = kind then some factory else registry.factories[kind]? :=
  ⟨OrderedMap.getElem?_insert_eq _ _ _ _, OrderedMap.getElem?_insert_eq _ _ _ _⟩

/-- Both maps hold the last registration. -/
theorem registerAll_maps (entries : List (NodeDescriptor × (Value -> KernelResult N)))
    (kind : String) :
    (registerAll new entries).registry.descriptors[kind]? = (lastOf entries kind).map Prod.fst ∧
      (registerAll new entries).factories[kind]? = (lastOf entries kind).map Prod.snd := by
  induction entries using List.reverseRecOn with
  | nil =>
      change (∅ : BTreeMap String NodeDescriptor)[kind]? = none ∧
        (∅ : BTreeMap String (Value -> KernelResult N))[kind]? = none
      simp
  | append_singleton entries last inductionHypothesis =>
      have maps := register_maps (registerAll new entries) last.1 last.2 kind
      rw [registerAll, List.foldl_append] at *
      rw [lastOf, List.reverse_append, List.reverse_singleton, List.singleton_append,
        List.find?_cons]
      by_cases same : last.1.kind = kind
      · rw [if_pos same, if_pos same] at maps
        rw [beq_iff_eq.mpr same]
        exact maps
      · rw [if_neg same, if_neg same] at maps
        rw [beq_eq_false_iff_ne.mpr same]
        exact ⟨maps.1.trans inductionHypothesis.1, maps.2.trans inductionHypothesis.2⟩

end FactoryRegistry

/-! ## The standard library -/

/-- The derived readers of arguments, which fail with a text. -/
structure ArgReaders where
  httpFetch : Value -> Except String (String × Option (List String))
  threshold : Value -> Except String (ℚ × Op)

def constantFactory (args : Value) : KernelResult StdNode :=
  .ok (.constant ⟨args⟩)

def sha256Factory (_args : Value) : KernelResult StdNode :=
  .ok .sha256

def httpFetchFactory (readers : ArgReaders) (args : Value) : KernelResult StdNode :=
  match readers.httpFetch args with
  | .error text => .error (.invalidInput text)
  | .ok (url, allowlist) => .ok (.httpFetch (.new url (allowlist.getD [])))

def medianFactory (_args : Value) : KernelResult StdNode :=
  .ok .median

def thresholdFactory (readers : ArgReaders) (args : Value) : KernelResult StdNode :=
  match readers.threshold args with
  | .error text => .error (.invalidInput text)
  | .ok (threshold, op) => .ok (.threshold ⟨threshold, op⟩)

/-- The registrations of the standard library. -/
def stdlib (readers : ArgReaders) : List (NodeDescriptor × (Value -> KernelResult StdNode)) :=
  [(constantDescriptor, constantFactory), (sha256Descriptor, sha256Factory),
    (httpFetchDescriptor, httpFetchFactory readers), (medianDescriptor, medianFactory),
    (thresholdDescriptor, thresholdFactory readers)]

def FactoryRegistry.withStdlib (readers : ArgReaders) : FactoryRegistry StdNode :=
  .registerAll .new (stdlib readers)

theorem FactoryRegistry.instantiate_registerAll {N : Type}
    (entries : List (NodeDescriptor × (Value -> KernelResult N))) (kind : String) (args : Value) :
    (registerAll new entries).instantiate kind args =
      ((lastOf entries kind).map fun entry => entry.2 args).getD (.error (.nodeNotFound kind)) := by
  unfold instantiate
  rw [(registerAll_maps entries kind).2]
  cases lastOf entries kind <;> rfl

theorem lastOf_stdlib (readers : ArgReaders) {kind : String} (constant : ¬ kind = "constant")
    (sha256 : ¬ kind = "sha256") (http : ¬ kind = "http_fetch") (median : ¬ kind = "median")
    (threshold : ¬ kind = "threshold") : FactoryRegistry.lastOf (stdlib readers) kind = none := by
  rw [FactoryRegistry.lastOf, List.find?_eq_none]
  intro entry member
  rw [List.mem_reverse] at member
  simp only [stdlib, List.mem_cons, List.not_mem_nil, or_false] at member
  rcases member with rfl | rfl | rfl | rfl | rfl
  · exact fun same => constant (beq_iff_eq.mp same).symm
  · exact fun same => sha256 (beq_iff_eq.mp same).symm
  · exact fun same => http (beq_iff_eq.mp same).symm
  · exact fun same => median (beq_iff_eq.mp same).symm
  · exact fun same => threshold (beq_iff_eq.mp same).symm

/-- What the standard library makes of a kind and its arguments. -/
theorem instantiate_withStdlib (readers : ArgReaders) (kind : String) (args : Value) :
    (FactoryRegistry.withStdlib readers).instantiate kind args =
      if kind = "constant" then constantFactory args
      else if kind = "sha256" then sha256Factory args
      else if kind = "http_fetch" then httpFetchFactory readers args
      else if kind = "median" then medianFactory args
      else if kind = "threshold" then thresholdFactory readers args
      else .error (.nodeNotFound kind) := by
  rw [FactoryRegistry.withStdlib, FactoryRegistry.instantiate_registerAll]
  by_cases constant : kind = "constant"
  · subst constant
    rfl
  by_cases sha256 : kind = "sha256"
  · subst sha256
    rfl
  by_cases http : kind = "http_fetch"
  · subst http
    rfl
  by_cases median : kind = "median"
  · subst median
    rfl
  by_cases threshold : kind = "threshold"
  · subst threshold
    rfl
  have absent := lastOf_stdlib readers constant sha256 http median threshold
  rw [absent, if_neg constant, if_neg sha256, if_neg http, if_neg median, if_neg threshold]
  rfl

/-- What the kinds make of their arguments. -/
inductive Makes (readers : ArgReaders) : String -> Value -> StdNode -> Prop
  | constant (args : Value) : Makes readers "constant" args (.constant ⟨args⟩)
  | sha256 (args : Value) : Makes readers "sha256" args .sha256
  | httpFetch {args : Value} {url : String} {allowlist : Option (List String)}
      (read : readers.httpFetch args = .ok (url, allowlist)) :
      Makes readers "http_fetch" args (.httpFetch (.new url (allowlist.getD [])))
  | median (args : Value) : Makes readers "median" args .median
  | threshold {args : Value} {threshold : ℚ} {op : Op}
      (read : readers.threshold args = .ok (threshold, op)) :
      Makes readers "threshold" args (.threshold ⟨threshold, op⟩)

/-- Why nothing is made: an unknown kind, or arguments that its reader refuses. -/
inductive Refuses (readers : ArgReaders) : String -> Value -> KernelError -> Prop
  | unknown {kind : String} (args : Value)
      (absent : (FactoryRegistry.withStdlib readers).describe kind = none) :
      Refuses readers kind args (.nodeNotFound kind)
  | httpFetch {args : Value} {text : String} (unread : readers.httpFetch args = .error text) :
      Refuses readers "http_fetch" args (.invalidInput text)
  | threshold {args : Value} {text : String} (unread : readers.threshold args = .error text) :
      Refuses readers "threshold" args (.invalidInput text)

variable {readers : ArgReaders} {kind : String} {args : Value}

theorem instantiate_of_makes {node : StdNode} (makes : Makes readers kind args node) :
    (FactoryRegistry.withStdlib readers).instantiate kind args = .ok node := by
  rw [instantiate_withStdlib]
  cases makes with
  | constant => rfl
  | sha256 => rfl
  | httpFetch read =>
      change httpFetchFactory readers args = _
      rw [httpFetchFactory, read]
  | median => rfl
  | threshold read =>
      change thresholdFactory readers args = _
      rw [thresholdFactory, read]

theorem instantiate_of_refuses {error : KernelError} (refuses : Refuses readers kind args error) :
    (FactoryRegistry.withStdlib readers).instantiate kind args = .error error := by
  cases refuses with
  | unknown _args absent =>
      have maps := FactoryRegistry.registerAll_maps (stdlib readers) kind
      have unregistered : FactoryRegistry.lastOf (stdlib readers) kind = none :=
        Option.map_eq_none_iff.mp (maps.1.symm.trans absent)
      rw [FactoryRegistry.withStdlib, FactoryRegistry.instantiate_registerAll, unregistered]
      rfl
  | httpFetch unread =>
      rw [instantiate_withStdlib]
      change httpFetchFactory readers args = _
      rw [httpFetchFactory, unread]
  | threshold unread =>
      rw [instantiate_withStdlib]
      change thresholdFactory readers args = _
      rw [thresholdFactory, unread]

/-- Nothing else happens. -/
theorem makes_or_refuses (readers : ArgReaders) (kind : String) (args : Value) :
    (∃ node, Makes readers kind args node) ∨ ∃ error, Refuses readers kind args error := by
  by_cases constant : kind = "constant"
  · exact Or.inl ⟨.constant ⟨args⟩, constant ▸ .constant args⟩
  by_cases sha256 : kind = "sha256"
  · exact Or.inl ⟨.sha256, sha256 ▸ .sha256 args⟩
  by_cases http : kind = "http_fetch"
  · subst http
    cases read : readers.httpFetch args with
    | error text => exact Or.inr ⟨_, .httpFetch read⟩
    | ok pair => exact Or.inl ⟨_, .httpFetch read⟩
  by_cases median : kind = "median"
  · exact Or.inl ⟨.median, median ▸ .median args⟩
  by_cases threshold : kind = "threshold"
  · subst threshold
    cases read : readers.threshold args with
    | error text => exact Or.inr ⟨_, .threshold read⟩
    | ok pair => exact Or.inl ⟨_, .threshold read⟩
  refine Or.inr ⟨_, .unknown args ?_⟩
  have maps := (FactoryRegistry.registerAll_maps (stdlib readers) kind).1
  rw [lastOf_stdlib readers constant sha256 http median threshold] at maps
  exact maps

theorem instantiate_ok_iff {node : StdNode} :
    (FactoryRegistry.withStdlib readers).instantiate kind args = .ok node ↔
      Makes readers kind args node := by
  refine ⟨?_, instantiate_of_makes⟩
  intro made
  rcases makes_or_refuses readers kind args with ⟨other, makes⟩ | ⟨error, refuses⟩
  · rw [instantiate_of_makes makes] at made
    cases made
    exact makes
  · rw [instantiate_of_refuses refuses] at made
    cases made

/-- The readers take the members of arguments in any order; the texts of their errors may
differ. -/
structure ArgReaders.OrderBlind (readers : ArgReaders) : Prop where
  httpFetch {left right : Value} : left.SameUpToOrder right ->
    (readers.httpFetch left).toOption = (readers.httpFetch right).toOption
  threshold {left right : Value} : left.SameUpToOrder right ->
    (readers.threshold left).toOption = (readers.threshold right).toOption

theorem ok_of_toOption_eq {α ε : Type} {first second : Except ε α} {value : α}
    (same : first.toOption = second.toOption) (answered : first = .ok value) :
    second = .ok value := by
  subst answered
  cases second with
  | error error => cases same
  | ok other =>
      cases same
      rfl

/-- Arguments in another member order make the same node, and a constant with
its members in that order. -/
theorem instantiate_reordered (blind : readers.OrderBlind) {others : Value}
    (same : args.SameUpToOrder others) {node : StdNode}
    (made : (FactoryRegistry.withStdlib readers).instantiate kind args = .ok node) :
    ∃ other, (FactoryRegistry.withStdlib readers).instantiate kind others = .ok other ∧
      node.SameUpToOrder other := by
  have remade : ∃ other, Makes readers kind others other ∧ node.SameUpToOrder other := by
    cases instantiate_ok_iff.mp made with
    | constant => exact ⟨_, .constant others, same⟩
    | sha256 => exact ⟨_, .sha256 others, rfl⟩
    | httpFetch read => exact ⟨_, .httpFetch (ok_of_toOption_eq (blind.httpFetch same) read), rfl⟩
    | median => exact ⟨_, .median others, rfl⟩
    | threshold read => exact ⟨_, .threshold (ok_of_toOption_eq (blind.threshold same) read), rfl⟩
  rcases remade with ⟨other, makes, related⟩
  exact ⟨other, instantiate_ok_iff.mpr makes, related⟩

/-! ## Derived readers -/

/-- A float, also from an integer. -/
def f64 : Format ℚ :=
  .leaf (fun value => .number (.float value)) Json.asF64 (fun _value => trivial)
    (fun document inner => by cases document <;> first | rfl | exact absurd trivial inner)
    (fun _value => rfl)

def opVariants : Variants Op :=
  (Variants.or (.unit "gt") (.or (.unit "gte") (.or (.unit "lt") (.or (.unit "lte") (.unit "eq")
    (by decide)) (by decide)) (by decide)) (by decide)).via {
      toFun := fun variant => match variant with
        | .inl _ => .gt
        | .inr (.inl _) => .gte
        | .inr (.inr (.inl _)) => .lt
        | .inr (.inr (.inr (.inl _))) => .lte
        | .inr (.inr (.inr (.inr _))) => .eq
      invFun := fun op => match op with
        | .gt => .inl ()
        | .gte => .inr (.inl ())
        | .lt => .inr (.inr (.inl ()))
        | .lte => .inr (.inr (.inr (.inl ())))
        | .eq => .inr (.inr (.inr (.inr ())))
      left_inv := by
        intro variant
        rcases variant with _ | _ | _ | _ | _ <;> rfl
      right_inv := by
        intro op
        cases op <;> rfl }

/-- The arguments of a threshold. -/
def thresholdArgs : Fields (ℚ × Op × Unit) :=
  .cons "threshold" f64 (.cons "op" opVariants.external .nil (by decide)) (by decide)

/-- The arguments of a fetch. -/
def httpFetchArgs : Fields (String × Option (List String) × Unit) :=
  .cons "url" .string (.cons "allowlist" (.option (.list .string) (fun _values => nofun)) .nil
    (by decide)) (by decide)

theorem list_exact {α : Type} {format : Format α} (exact : format.Exact) : format.list.Exact := by
  intro left right same
  induction same with
  | nil => rfl
  | cons head _tail inductionHypothesis => rw [exact _ _ head, inductionHypothesis]

theorem option_exact {α : Type} {format : Format α} (exact : format.Exact)
    (notNull : forall value, format.write value ≠ .null) : (format.option notNull).Exact := by
  intro left right same
  cases same with
  | none => rfl
  | some same => rw [exact _ _ same]

theorem unit_exact (tag : String) : (Variants.unit tag).Exact :=
  fun _left _right _same => rfl

theorem thresholdArgs_exact : thresholdArgs.Exact := by
  have number : f64.Exact := fun _left _right same => same
  have op : opVariants.external.Exact := by
    apply Variants.exact_external
    apply Variants.exact_via
    apply Variants.exact_or (unit_exact _)
    apply Variants.exact_or (unit_exact _)
    apply Variants.exact_or (unit_exact _)
    exact Variants.exact_or (unit_exact _) (unit_exact _)
  exact Fields.exact_cons number (Fields.exact_cons op Fields.exact_nil)

theorem httpFetchArgs_exact : httpFetchArgs.Exact := by
  have text : Format.string.Exact := fun _left _right same => same
  exact Fields.exact_cons text
    (Fields.exact_cons (option_exact (list_exact text) _) Fields.exact_nil)

/-- Exact records are read alike from values that differ in member order. -/
theorem readContent_congr {α : Type} {fields : Fields α} (exact : fields.Exact) {left right : Value}
    (same : left.SameUpToOrder right) :
    fields.readContent left.json = fields.readContent right.json := by
  have related := fields.readContent_reordered ⟨left.distinct, right.distinct, same⟩
  generalize fields.readContent left.json = first, fields.readContent right.json = second at related
  cases related with
  | none => rfl
  | some same => rw [exact _ _ same]

/-- Readers over the formats of the two records.  `text` writes the errors. -/
def ArgReaders.derived (text : String -> Value -> String) : ArgReaders where
  httpFetch args :=
    match httpFetchArgs.readContent args.json with
    | none => .error (text "http_fetch" args)
    | some (url, allowlist, ()) => .ok (url, allowlist)
  threshold args :=
    match thresholdArgs.readContent args.json with
    | none => .error (text "threshold" args)
    | some (threshold, op, ()) => .ok (threshold, op)

theorem ArgReaders.derived_orderBlind (text : String -> Value -> String) :
    (derived text).OrderBlind where
  httpFetch {left right} same := by
    have read := readContent_congr httpFetchArgs_exact same
    unfold derived
    dsimp only
    rw [read]
    cases httpFetchArgs.readContent right.json <;> rfl
  threshold {left right} same := by
    have read := readContent_congr thresholdArgs_exact same
    unfold derived
    dsimp only
    rw [read]
    cases thresholdArgs.readContent right.json <;> rfl

end Nodes
end KernelFlow
