import Mathlib

namespace KernelFlow

/-!
# JSON values

The value type of `serde_json`, in the generality of its insertion-ordered map:
an object is the list of its members.  The sorted configuration is the special
case in which that list is in key order.  A map never holds one key twice, so
the documents that programs exchange are the subtype `Value` of documents
whose objects have distinct keys at every depth.

Number keeps the three representations of the source apart, since both the
comparison and the writer distinguish `1` from `1.0`.  A finite `f64` is the
rational it denotes, with negative zero as a case of its own.
-/

/-- A JSON number as stored by the parser. -/
inductive Number
  | posInt (value : UInt64)
  | negInt (value : { value : Int64 // value < 0 })
  | float (value : ℚ)
  | negZero
  deriving DecidableEq

/-- `==` on numbers: representations do not mix, and the two float zeros are
equal. -/
def Number.beq : Number -> Number -> Bool
  | .posInt left, .posInt right => left == right
  | .negInt left, .negInt right => left.val == right.val
  | .float left, .float right => left == right
  | .negZero, .negZero => true
  | .negZero, .float right => right == 0
  | .float left, .negZero => left == 0
  | _, _ => false

/-- A JSON document.  Objects list their members in insertion order. -/
inductive Json
  | null
  | bool (value : Bool)
  | number (value : Number)
  | string (value : String)
  | array (items : List Json)
  | object (members : List (String × Json))

namespace Json

/-- Induction over documents: a claim about an array or an object may use the
claim for every direct component. -/
@[elab_as_elim]
theorem induction {motive : Json -> Prop}
    (null : motive .null) (bool : forall value, motive (.bool value))
    (number : forall value, motive (.number value))
    (string : forall value, motive (.string value))
    (array : forall items, (forall item, item ∈ items -> motive item) -> motive (.array items))
    (object : forall members, (forall member, member ∈ members -> motive member.2) ->
      motive (.object members))
    (document : Json) : motive document :=
  Json.rec (motive_1 := motive)
    (motive_2 := fun items => forall item, item ∈ items -> motive item)
    (motive_3 := fun members => forall member, member ∈ members -> motive member.2)
    (motive_4 := fun member => motive member.2)
    null bool number string
    (fun items each => array items each)
    (fun members each => object members each)
    (fun _item absent => absurd absent List.not_mem_nil)
    (fun _head _tail first rest item member =>
      (List.mem_cons.mp member).elim (fun same => same ▸ first) (rest item))
    (fun _member absent => absurd absent List.not_mem_nil)
    (fun _head _tail first rest entry member =>
      (List.mem_cons.mp member).elim (fun same => same ▸ first) (rest entry))
    (fun _key _value holds => holds)
    document

/-! ## Distinct keys -/

mutual

/-- No object of the document holds one key twice. -/
def Distinct : Json -> Prop
  | .array items => DistinctItems items
  | .object members => (members.map Prod.fst).Nodup ∧ DistinctMembers members
  | _ => True

def DistinctItems : List Json -> Prop
  | [] => True
  | item :: items => item.Distinct ∧ DistinctItems items

def DistinctMembers : List (String × Json) -> Prop
  | [] => True
  | (_, value) :: members => value.Distinct ∧ DistinctMembers members

end

theorem distinctItems_iff (items : List Json) :
    DistinctItems items ↔ forall item, item ∈ items -> item.Distinct := by
  induction items with
  | nil => simp [DistinctItems]
  | cons head tail inductionHypothesis => simp [DistinctItems, inductionHypothesis]

theorem distinctMembers_iff (members : List (String × Json)) :
    DistinctMembers members ↔ forall member, member ∈ members -> member.2.Distinct := by
  induction members with
  | nil => simp [DistinctMembers]
  | cons head tail inductionHypothesis =>
      rcases head with ⟨key, value⟩
      simp [DistinctMembers, inductionHypothesis]

/-! ## Comparison -/

mutual

/-- `==` on documents.  Two objects are compared as maps. -/
def beq : Json -> Json -> Bool
  | .null, .null => true
  | .bool left, .bool right => left == right
  | .number left, .number right => left.beq right
  | .string left, .string right => left == right
  | .array left, .array right => beqItems left right
  | .object left, .object right => left.length == right.length && beqMembers left right
  | _, _ => false

def beqItems : List Json -> List Json -> Bool
  | [], [] => true
  | left :: lefts, right :: rights => left.beq right && beqItems lefts rights
  | _, _ => false

/-- Every member on the left has an equal member of the same key on the right. -/
def beqMembers : List (String × Json) -> List (String × Json) -> Bool
  | [], _ => true
  | (key, left) :: lefts, rights =>
      (match rights.lookup key with
        | some right => left.beq right
        | none => false) && beqMembers lefts rights

end

/-! ## Navigation -/

/-- One step from a document to a direct component. -/
inductive Step
  | member (key : String)
  | index (position : Nat)

/-- The component a step selects, if the document has it. -/
def child : Json -> Step -> Option Json
  | .object members, .member key => members.lookup key
  | .array items, .index position => items[position]?
  | _, _ => none

/-- The component at the end of a path of steps. -/
def descend (document : Json) (path : List Step) : Option Json :=
  path.foldlM child document

/-- A document that is neither an array nor an object. -/
def IsLeaf : Json -> Prop
  | .array _ => False
  | .object _ => False
  | _ => True

/-- Replace each occurrence of `~` followed by the given digit. -/
def replaceTilde (digit replacement : Char) : List Char -> List Char
  | '~' :: next :: rest =>
      if next = digit then replacement :: replaceTilde digit replacement rest
      else '~' :: replaceTilde digit replacement (next :: rest)
  | first :: rest => first :: replaceTilde digit replacement rest
  | [] => []

/-- Array positions in a pointer: decimal digits with neither a sign nor a
leading zero, inside the range of `usize`. -/
def parseIndex (token : List Char) : Option Nat :=
  if token.head? = some '+' ∨ (token.head? = some '0' ∧ token.length ≠ 1) then none
  else if token = [] ∨ ¬ token.all Char.isDigit then none
  else
    let value := token.foldl (fun value digit => 10 * value + (digit.toNat - '0'.toNat)) 0
    if value < 2 ^ 64 then some value else none

/-- Follow one unescaped reference token. -/
def followToken (target : Json) (token : List Char) : Option Json :=
  match target with
  | .object _ => target.child (.member (String.ofList token))
  | .array _ => (parseIndex token).bind fun position => target.child (.index position)
  | _ => none

/-- `Value::pointer`: the empty pointer is the whole document, any other one
must start with a slash and is followed token by token. -/
def pointer (document : Json) (reference : String) : Option Json :=
  match reference.toList with
  | [] => some document
  | '/' :: rest =>
      let tokens := (rest.splitOn '/').map fun token =>
        replaceTilde '0' '~' (replaceTilde '1' '/' token)
      tokens.foldlM followToken document
  | _ => none

end Json

/-- A JSON value: a document whose objects have distinct keys. -/
structure Value where
  json : Json
  distinct : json.Distinct

namespace Value

theorem ext {left right : Value} (same : left.json = right.json) : left = right := by
  cases left
  cases right
  simpa using same

/-- `serde_json::Value::Null`. -/
def null : Value := ⟨.null, trivial⟩

/-- A boolean value. -/
def bool (value : Bool) : Value := ⟨.bool value, trivial⟩

end Value

end KernelFlow
