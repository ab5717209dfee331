import Mathlib
import KernelFlow.Storage.Store

namespace KernelFlow
namespace Storage

open Bincode

/-!
# Stored events and snapshots

The event type is tagged internally: its derived reader asks for whatever comes
next, looks for the tag in it and only then knows the variant.  A JSON value is
read in the same way.  Neither request can be served by a format without type
descriptions, so what was written can never be read back.  The outcome of a
node, which is tagged by a variant index, has no such problem.
-/

/-! ## Writing -/

/-- A workflow id is the byte string of its sixteen bytes. -/
def workflowIdBytes (id : WorkflowId) : List UInt8 :=
  Format.bytes.write (littleEndian 16 id.toNat).reverse

/-- The fields of the variants of an outcome, by variant index. -/
abbrev OutcomeFields : Fin 3 -> Type
  | 0 => String × UInt64
  | 1 => String
  | 2 => String

def outcomeFields : forall index, Format (OutcomeFields index)
  | 0 => Format.pair Format.str Format.u64
  | 1 => Format.str
  | 2 => Format.str

/-- An outcome: the index of its variant and its fields. -/
def nodeOutcomeFormat : Format NodeOutcome :=
  (Format.enum outcomeFields).via
    (fun tagged => match tagged with
      | ⟨0, (outputHash, gasUsed)⟩ => .success outputHash gasUsed
      | ⟨1, error⟩ => .failure error
      | ⟨2, reason⟩ => .skipped reason)
    (fun outcome => match outcome with
      | .success outputHash gasUsed => ⟨0, (outputHash, gasUsed)⟩
      | .failure error => ⟨1, error⟩
      | .skipped reason => ⟨2, reason⟩)
    (fun outcome => by cases outcome <;> rfl)

/-- The derived writer of an event: the tag as a text, then the fields. -/
def writeEvent : KernelEvent -> List UInt8
  | .workflowStarted workflowId name =>
      Format.str.write "workflow_started" ++ workflowIdBytes workflowId ++ Format.str.write name
  | .nodeStarted workflowId nodeId attempt =>
      Format.str.write "node_started" ++ workflowIdBytes workflowId ++ Format.str.write nodeId ++
        Format.u32.write attempt
  | .nodeCompleted workflowId nodeId outcome =>
      Format.str.write "node_completed" ++ workflowIdBytes workflowId ++ Format.str.write nodeId ++
        nodeOutcomeFormat.write outcome
  | .workflowCompleted workflowId attestationHash =>
      Format.str.write "workflow_completed" ++ workflowIdBytes workflowId ++
        Format.str.write attestationHash
  | .workflowFailed workflowId reason =>
      Format.str.write "workflow_failed" ++ workflowIdBytes workflowId ++ Format.str.write reason

/-- The eight bytes of a number.  `floatBits` is the bit pattern of a float. -/
def writeNumber (floatBits : ℚ -> UInt64) : Number -> List UInt8
  | .posInt value => Format.u64.write value
  | .negInt value => Format.u64.write value.val.toUInt64
  | .float value => Format.u64.write (floatBits value)
  | .negZero => Format.u64.write 0x8000000000000000

mutual

/-- The writer of a JSON value: no tags, arrays and objects after their length. -/
def writeJson (floatBits : ℚ -> UInt64) : Json -> List UInt8
  | .null => []
  | .bool value => [if value then 1 else 0]
  | .number value => writeNumber floatBits value
  | .string value => Format.str.write value
  | .array items => (Format.word 8).write items.length ++ writeItems floatBits items
  | .object members => (Format.word 8).write members.length ++ writeMembers floatBits members

def writeItems (floatBits : ℚ -> UInt64) : List Json -> List UInt8
  | [] => []
  | item :: items => writeJson floatBits item ++ writeItems floatBits items

def writeMembers (floatBits : ℚ -> UInt64) : List (String × Json) -> List UInt8
  | [] => []
  | (key, value) :: members =>
      Format.str.write key ++ writeJson floatBits value ++ writeMembers floatBits members

end

/-- The derived reader of an internally tagged type asks for anything, to look
for the tag in it. -/
def eventCodec : Codec KernelEvent where
  serialize := fun event => .ok (writeEvent event)
  request := .any

/-- A JSON value takes anything. -/
def valueCodec (floatBits : ℚ -> UInt64) : Codec Value where
  serialize := fun value => .ok (writeJson floatBits value.json)
  request := .any

/-! ## Reading back -/

variable {α : Type} {display : ReadError -> String}

/-- A stored value of a type that asks for anything is there and cannot be
read. -/
theorem get_fails_of_any {codec : Codec α} (any : codec.request = .any) {failure : Option String}
    {store after : Store} {cf : Cf} {key : List UInt8} {val : α}
    (stored : store.put codec display failure cf key val = (.ok (), after))
    {later : List Store.Write} (untouched : forall one, one ∈ later -> one.cf = cf -> one.key ≠ key) :
    (after.writes later).get codec display none cf key =
      .error (.storage (display .anyNotSupported)) := by
  rcases Store.lookup_put stored with ⟨bytes, _serialized, found⟩
  rw [← Store.lookup_writes untouched] at found
  rw [Store.get_of_lookup found, any]
  rfl

/-- The text of an outcome is short enough for its length to fit a word. -/
def ShortText : NodeOutcome -> Prop
  | .success outputHash _ => Format.str.fits outputHash
  | .failure error => Format.str.fits error
  | .skipped reason => Format.str.fits reason

theorem nodeOutcomeFormat_fits {outcome : NodeOutcome} (short : ShortText outcome) :
    nodeOutcomeFormat.fits outcome := by
  have index : forall variant : Fin 3, (Format.word 4).fits variant :=
    fun variant => Nat.lt_trans variant.isLt (by decide)
  cases outcome with
  | success outputHash gasUsed => exact ⟨index 0, short, Format.u64_fits gasUsed⟩
  | failure error => exact ⟨index 1, short⟩
  | skipped reason => exact ⟨index 2, short⟩

/-- The outcome of a node on its own would be read back. -/
theorem outcome_read_back {display : ReadError -> String} {failure : Option String}
    {store after : Store} {cf : Cf} {key : List UInt8} {outcome : NodeOutcome}
    (short : ShortText outcome)
    (stored : store.put (.ofFormat nodeOutcomeFormat) display failure cf key outcome =
      (.ok (), after))
    {later : List Store.Write} (untouched : forall one, one ∈ later -> one.cf = cf -> one.key ≠ key) :
    (after.writes later).get (.ofFormat nodeOutcomeFormat) display none cf key =
      .ok (some outcome) :=
  Store.get_put_of_format (nodeOutcomeFormat_fits short) stored untouched

/-- No event and no snapshot that was stored can be read back: after a
successful `put`, and as long as its key is not written again, `get` answers
with a storage error. -/
theorem stored_values_unreadable (display : ReadError -> String) (failure : Option String)
    (store after : Store) (key : List UInt8) :
    (forall event, store.put eventCodec display failure .events key event = (.ok (), after) ->
      forall later : List Store.Write,
        (forall one, one ∈ later -> one.cf = .events -> one.key ≠ key) ->
        (after.writes later).get eventCodec display none .events key =
          .error (.storage (display .anyNotSupported))) ∧
    forall floatBits value,
      store.put (valueCodec floatBits) display failure .state key value = (.ok (), after) ->
      forall later : List Store.Write,
        (forall one, one ∈ later -> one.cf = .state -> one.key ≠ key) ->
        (after.writes later).get (valueCodec floatBits) display none .state key =
          .error (.storage (display .anyNotSupported)) :=
  ⟨fun _event stored _later untouched => get_fails_of_any rfl stored untouched,
    fun _floatBits _value stored _later untouched => get_fails_of_any rfl stored untouched⟩

/-- The first event of a workflow, in a new store. -/
def startedPut : KernelResult Unit × Store :=
  Store.fresh.put eventCodec (fun _error => "any is not supported") none .events [0]
    (.workflowStarted 0 "pricing")

theorem startedPut_ok : startedPut = (.ok (), startedPut.2) :=
  Prod.ext rfl rfl

theorem stored_values_unreadable_started :
    startedPut.2.get eventCodec (fun _error => "any is not supported") none .events [0] =
      .error (.storage "any is not supported") :=
  (stored_values_unreadable (fun _error => "any is not supported") none Store.fresh startedPut.2
    [0]).1 (.workflowStarted 0 "pricing") startedPut_ok [] fun _one absent => by cases absent

/-- The event is stored and cannot be read back. -/
theorem started_not_read_back :
    startedPut.1 = .ok () ∧
      startedPut.2.get eventCodec (fun _error => "any is not supported") none .events [0] ≠
        .ok (some (.workflowStarted 0 "pricing")) := by
  refine ⟨rfl, ?_⟩
  have unreadable := get_fails_of_any rfl startedPut_ok
    (fun one (absent : one ∈ ([] : List Store.Write)) => by cases absent)
  intro readable
  have different := unreadable.symm.trans readable
  cases different

end Storage
end KernelFlow
