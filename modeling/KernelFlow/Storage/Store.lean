import Mathlib
import KernelFlow.Library.OrderedMap
import KernelFlow.Library.Bincode
import KernelFlow.Core.Event

namespace KernelFlow
namespace Storage

open Bincode

/-!
# The embedded store

A store is a database with named column families, each of them a map from keys
to byte strings.  Values pass through the binary format on their way in and
out.  The database and the blocking task around a call may fail at any time;
that is the argument `failure` below, with the text of the error.  `display`
renders the errors of the binary format.
-/

inductive Cf
  | events
  | state
  | attestations
  deriving DecidableEq

def Cf.asStr : Cf -> String
  | .events => "events"
  | .state => "state"
  | .attestations => "attestations"

theorem Cf.asStr_injective : Function.Injective Cf.asStr := by
  intro first second same
  cases first <;> cases second <;> first | rfl | exact absurd same (by decide)

/-- The entries of a column family. -/
abbrev Family := List UInt8 -> Option (List UInt8)

structure Store where
  db : BTreeMap String Family

namespace Store

variable {α : Type}

/-- Open a database, with what its three column families hold on disk.  They
are created if they are missing. -/
def «open» (disk : Cf -> Family) : Store where
  db := (((∅ : BTreeMap String Family).insert "events" (disk .events)).insert "state"
    (disk .state)).insert "attestations" (disk .attestations)

/-- A new database. -/
def fresh : Store :=
  Store.open fun _cf _key => none

/-- `put_cf`. -/
def write (store : Store) (cf : Cf) (key bytes : List UInt8) : Store where
  db := match store.db[cf.asStr]? with
    | none => store.db
    | some family => store.db.insert cf.asStr (Function.update family key (some bytes))

def put (codec : Codec α) (display : ReadError -> String) (failure : Option String) (store : Store)
    (cf : Cf) (key : List UInt8) (val : α) : KernelResult Unit × Store :=
  match codec.serialize val with
  | .error error => (.error (.storage (display error)), store)
  | .ok bytes =>
      match store.db[cf.asStr]? with
      | none => (.error (.storage "cf missing"), store)
      | some _ =>
          match failure with
          | some message => (.error (.storage message), store)
          | none => (.ok (), store.write cf key bytes)

def get (codec : Codec α) (display : ReadError -> String) (failure : Option String) (store : Store)
    (cf : Cf) (key : List UInt8) : KernelResult (Option α) :=
  match store.db[cf.asStr]? with
  | none => .error (.storage "cf missing")
  | some family =>
      match failure with
      | some message => .error (.storage message)
      | none =>
          match family key with
          | none => .ok none
          | some bytes =>
              match deserialize codec.request bytes with
              | .error error => .error (.storage (display error))
              | .ok value => .ok (some value)

/-! ## What the database keeps -/

/-- The bytes under a key. -/
def lookup (store : Store) (cf : Cf) (key : List UInt8) : Option (List UInt8) :=
  store.db[cf.asStr]?.bind fun family => family key

/-- One write of some caller. -/
structure Write where
  cf : Cf
  key : List UInt8
  bytes : List UInt8

/-- The store after a sequence of writes. -/
def writes (store : Store) (later : List Write) : Store :=
  later.foldl (fun store one => store.write one.cf one.key one.bytes) store

theorem lookup_write_self {store : Store} {cf : Cf} (key bytes : List UInt8)
    (present : store.db[cf.asStr]?.isSome = true) :
    (store.write cf key bytes).lookup cf key = some bytes := by
  rcases Option.isSome_iff_exists.mp present with ⟨family, found⟩
  simp only [lookup, write, found]
  rw [OrderedMap.getElem?_insert_eq, if_pos rfl, Option.bind_some, Function.update_self]

/-- A write leaves every other key of every family alone. -/
theorem lookup_write_of_ne {store : Store} {one : Write} {cf : Cf} {key : List UInt8}
    (other : one.cf = cf -> one.key ≠ key) :
    (store.write one.cf one.key one.bytes).lookup cf key = store.lookup cf key := by
  unfold lookup write
  cases found : store.db[one.cf.asStr]? with
  | none => rfl
  | some family =>
      dsimp only
      rw [OrderedMap.getElem?_insert_eq]
      by_cases same : one.cf = cf
      · subst same
        rw [if_pos rfl, found, Option.bind_some, Option.bind_some,
          Function.update_of_ne (Ne.symm (other rfl))]
      · rw [if_neg fun names => same (Cf.asStr_injective names)]

theorem lookup_writes {store : Store} {later : List Write} {cf : Cf} {key : List UInt8}
    (untouched : forall one, one ∈ later -> one.cf = cf -> one.key ≠ key) :
    (store.writes later).lookup cf key = store.lookup cf key := by
  induction later generalizing store with
  | nil => rfl
  | cons one later inductionHypothesis =>
      rw [writes, List.foldl_cons]
      refine (inductionHypothesis fun other member =>
        untouched other (List.mem_cons_of_mem _ member)).trans ?_
      exact lookup_write_of_ne (untouched one List.mem_cons_self)

/-- A successful `put` has written the bytes of the value under its key. -/
theorem lookup_put {codec : Codec α} {display : ReadError -> String} {failure : Option String}
    {store after : Store} {cf : Cf} {key : List UInt8} {val : α}
    (stored : store.put codec display failure cf key val = (.ok (), after)) :
    ∃ bytes, codec.serialize val = .ok bytes ∧ after.lookup cf key = some bytes := by
  unfold put at stored
  cases serialized : codec.serialize val with
  | error error =>
      rw [serialized] at stored
      cases stored
  | ok bytes =>
      rw [serialized] at stored
      cases found : store.db[cf.asStr]? with
      | none =>
          rw [found] at stored
          cases stored
      | some family =>
          cases failure with
          | some message =>
              rw [found] at stored
              cases stored
          | none =>
              rw [found] at stored
              rw [← (Prod.mk.inj stored).2]
              exact ⟨bytes, rfl, lookup_write_self key bytes (by rw [found]; rfl)⟩

/-- What `get` makes of the bytes under a key, if the database answers. -/
theorem get_of_lookup {codec : Codec α} {display : ReadError -> String} {store : Store} {cf : Cf}
    {key bytes : List UInt8} (found : store.lookup cf key = some bytes) :
    store.get codec display none cf key =
      match deserialize codec.request bytes with
      | .error error => .error (.storage (display error))
      | .ok value => .ok (some value) := by
  rcases Option.bind_eq_some_iff.mp found with ⟨family, present, entry⟩
  simp only [get, present, entry]

/-- All column families exist. -/
def Complete (store : Store) : Prop :=
  forall cf : Cf, store.db[cf.asStr]?.isSome = true

theorem open_complete (disk : Cf -> Family) : (Store.open disk).Complete := by
  intro cf
  unfold Store.open
  cases cf <;> simp [Cf.asStr]

theorem Complete.write {store : Store} (complete : store.Complete) (cf : Cf)
    (key bytes : List UInt8) : (store.write cf key bytes).Complete := by
  intro other
  rcases Option.isSome_iff_exists.mp (complete cf) with ⟨family, found⟩
  simp only [Store.write, found]
  rw [OrderedMap.getElem?_insert_eq]
  split_ifs
  · rfl
  · exact complete other

/-- Whatever can be serialized is stored, unless the database fails. -/
theorem Complete.put {codec : Codec α} {store : Store} (complete : store.Complete)
    (display : ReadError -> String) (cf : Cf) (key : List UInt8) {val : α} {bytes : List UInt8}
    (serialized : codec.serialize val = .ok bytes) :
    store.put codec display none cf key val = (.ok (), store.write cf key bytes) := by
  rcases Option.isSome_iff_exists.mp (complete cf) with ⟨family, found⟩
  simp only [Store.put, serialized, found]

/-- What `get` returns depends on the bytes under the key alone. -/
theorem Complete.get_congr {codec : Codec α} {first second : Store}
    (firstComplete : first.Complete) (secondComplete : second.Complete)
    {display : ReadError -> String} {failure : Option String} {cf : Cf} {key : List UInt8}
    (same : first.lookup cf key = second.lookup cf key) :
    first.get codec display failure cf key = second.get codec display failure cf key := by
  rcases Option.isSome_iff_exists.mp (firstComplete cf) with ⟨family, found⟩
  rcases Option.isSome_iff_exists.mp (secondComplete cf) with ⟨other, otherFound⟩
  rw [lookup, lookup, found, otherFound, Option.bind_some, Option.bind_some] at same
  simp only [get, found, otherFound, same]

/-- Without bytes under the key there is no value. -/
theorem Complete.get_of_absent {codec : Codec α} {store : Store} (complete : store.Complete)
    (display : ReadError -> String) {cf : Cf} {key : List UInt8}
    (absent : store.lookup cf key = none) : store.get codec display none cf key = .ok none := by
  rcases Option.isSome_iff_exists.mp (complete cf) with ⟨family, found⟩
  rw [lookup, found, Option.bind_some] at absent
  simp only [get, found, absent]

theorem lookup_open (disk : Cf -> Family) (cf : Cf) (key : List UInt8) :
    (Store.open disk).lookup cf key = disk cf key := by
  unfold lookup Store.open
  rw [OrderedMap.getElem?_insert_eq, OrderedMap.getElem?_insert_eq, OrderedMap.getElem?_insert_eq]
  cases cf <;> simp [Cf.asStr]

/-- A value that fits its format can be read back until its key is written
again. -/
theorem get_put_of_format {format : Format α} {display : ReadError -> String}
    {failure : Option String} {store after : Store} {cf : Cf} {key : List UInt8} {val : α}
    (fits : format.fits val)
    (stored : store.put (.ofFormat format) display failure cf key val = (.ok (), after))
    {later : List Write} (untouched : forall one, one ∈ later -> one.cf = cf -> one.key ≠ key) :
    (after.writes later).get (.ofFormat format) display none cf key = .ok (some val) := by
  rcases lookup_put stored with ⟨bytes, serialized, found⟩
  cases serialized
  rw [← lookup_writes untouched] at found
  rw [get_of_lookup found, Codec.ofFormat, deserialize_expect format fits]

/-- Every number that was stored is read back. -/
theorem get_put_u32 {display : ReadError -> String} {failure : Option String}
    {store after : Store} {cf : Cf} {key : List UInt8} {val : UInt32}
    (stored : store.put (.ofFormat Format.u32) display failure cf key val = (.ok (), after))
    {later : List Write} (untouched : forall one, one ∈ later -> one.cf = cf -> one.key ≠ key) :
    (after.writes later).get (.ofFormat Format.u32) display none cf key = .ok (some val) :=
  get_put_of_format (Format.u32_fits val) stored untouched

example : (fresh.put (.ofFormat Format.u32) (fun _ => "") none .state [107] 42).2.get
    (.ofFormat Format.u32) (fun _ => "") none .state [107] = .ok (some 42) := by rfl

end Store

end Storage
end KernelFlow
