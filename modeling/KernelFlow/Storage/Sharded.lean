import Mathlib
import KernelFlow.Storage.Store

namespace KernelFlow
namespace Storage

open Bincode

/-!
# The sharded store

A sharded store routes every key to one of its databases by a hash of the key.
Since the route is a function of the key alone, all requests for a key meet the
same database, and the databases together are one map.  The simulation relates
each key's entry in its own shard to the entry in a single store.

The hash is a parameter, a fixed function of the key.  A remainder by zero
panics, so a store without shards serves nothing.
-/

structure ShardedStore where
  shards : List Store

namespace ShardedStore

/-- Open the database `shard-i`, which may fail with a message. -/
def openShard (failure : Nat -> Option String) (disk : Nat -> Cf -> Family) (index : Nat) :
    KernelResult Store :=
  match failure index with
  | some message => .error (.storage message)
  | none => .ok (Store.open (disk index))

/-- The loop of `open`.  The first failure ends it. -/
def openShards (failure : Nat -> Option String) (disk : Nat -> Cf -> Family) :
    List Nat -> KernelResult (List Store)
  | [] => .ok []
  | index :: rest =>
      match openShard failure disk index with
      | .error error => .error error
      | .ok shard =>
          match openShards failure disk rest with
          | .error error => .error error
          | .ok shards => .ok (shard :: shards)

def «open» (failure : Nat -> Option String) (disk : Nat -> Cf -> Family) (shards : USize) :
    KernelResult ShardedStore :=
  match openShards failure disk (List.range shards.toNat) with
  | .error error => .error error
  | .ok v => .ok ⟨v⟩

/-- The index in `shard_for`. -/
def position (hash : List UInt8 -> UInt64) (store : ShardedStore) (key : List UInt8) :
    Option Nat :=
  if store.shards.length = 0 then none
  else some ((hash key).toUSize.toNat % store.shards.length)

/-- `shard_for`.  It panics where there is no answer. -/
def shardFor (hash : List UInt8 -> UInt64) (store : ShardedStore) (key : List UInt8) :
    Option Store :=
  (store.position hash key).bind fun index => store.shards[index]?

end ShardedStore

/-! ## Requests -/

/-- The bytes of a vector, whose length is bounded by the address space. -/
structure ByteString where
  bytes : List UInt8
  short : bytes.length < 2 ^ 63

inductive StoreRequest
  | put (cf : Cf) (key : List UInt8) (value : ByteString)
  | get (cf : Cf) (key : List UInt8)

inductive StoreAnswer
  | stored (result : KernelResult Unit)
  | found (result : KernelResult (Option (List UInt8)))

namespace StoreRequest

def key : StoreRequest -> List UInt8
  | .put _ key _ => key
  | .get _ key => key

/-- The value under a key after the request. -/
def effect (cf : Cf) (key : List UInt8) (held : Option ByteString) :
    StoreRequest -> Option ByteString
  | .put written target value => if written = cf ∧ target = key then some value else held
  | .get _ _ => held

theorem effect_put (cf written : Cf) (key target : List UInt8) (held : Option ByteString)
    (value : ByteString) : (StoreRequest.put written target value).effect cf key held =
      if written = cf ∧ target = key then some value else held := rfl

end StoreRequest

/-- The value of the last put under the key. -/
def lastPut (cf : Cf) (key : List UInt8) (requests : List StoreRequest) : Option ByteString :=
  requests.foldl (StoreRequest.effect cf key) none

namespace Store

/-- Serve one request, with a database that does not fail. -/
def serve (display : ReadError -> String) (store : Store) :
    StoreRequest -> StoreAnswer × Store
  | .put cf key value =>
      let stored := store.put (.ofFormat Format.bytes) display none cf key value.bytes
      (.stored stored.1, stored.2)
  | .get cf key => (.found (store.get (.ofFormat Format.bytes) display none cf key), store)

def serveAll (display : ReadError -> String) (store : Store) :
    List StoreRequest -> List StoreAnswer
  | [] => []
  | request :: rest =>
      let served := store.serve display request
      served.1 :: served.2.serveAll display rest

/-- The store after the requests. -/
def after (display : ReadError -> String) (store : Store) (requests : List StoreRequest) : Store :=
  requests.foldl (fun store request => (store.serve display request).2) store

end Store

namespace ShardedStore

/-- Serve one request with the shard of its key. -/
def serve (hash : List UInt8 -> UInt64) (display : ReadError -> String) (store : ShardedStore)
    (request : StoreRequest) : Option (StoreAnswer × ShardedStore) :=
  (store.position hash request.key).bind fun index =>
    store.shards[index]?.map fun shard =>
      let served := shard.serve display request
      (served.1, ⟨store.shards.set index served.2⟩)

def serveAll (hash : List UInt8 -> UInt64) (display : ReadError -> String)
    (store : ShardedStore) : List StoreRequest -> Option (List StoreAnswer)
  | [] => some []
  | request :: rest =>
      (store.serve hash display request).bind fun served =>
        (served.2.serveAll hash display rest).map fun answers => served.1 :: answers

end ShardedStore

/-! ## A single store keeps the last put -/

namespace Store

variable {display : ReadError -> String} {store : Store}

/-- A put is a write of the encoded value. -/
theorem Complete.serve_put (complete : store.Complete) (cf : Cf) (key : List UInt8)
    (value : ByteString) :
    store.serve display (.put cf key value) =
      (.stored (.ok ()), store.write cf key (Format.bytes.write value.bytes)) := by
  have stored : store.put (.ofFormat Format.bytes) display none cf key value.bytes =
      (.ok (), store.write cf key (Format.bytes.write value.bytes)) :=
    complete.put display cf key rfl
  exact congrArg (fun stored => (StoreAnswer.stored stored.1, stored.2)) stored

theorem Complete.serve (complete : store.Complete) (request : StoreRequest) :
    (store.serve display request).2.Complete := by
  cases request with
  | put cf key value =>
      rw [complete.serve_put]
      exact complete.write cf key _
  | get cf key => exact complete

/-- The encoded value is what the store holds under the key. -/
def Holds (store : Store) (cf : Cf) (key : List UInt8) (held : Option ByteString) : Prop :=
  store.lookup cf key = held.map fun value => Format.bytes.write value.bytes

theorem Complete.lookup_write (complete : store.Complete) (written : Cf)
    (target bytes : List UInt8) (cf : Cf) (key : List UInt8) :
    (store.write written target bytes).lookup cf key =
      if written = cf ∧ target = key then some bytes else store.lookup cf key := by
  split_ifs with same
  · rw [← same.1, ← same.2]
    exact lookup_write_self _ _ (complete written)
  · exact @lookup_write_of_ne store ⟨written, target, bytes⟩ cf key
      fun sameFamily sameKey => same ⟨sameFamily, sameKey⟩

/-- Two stores with the same entry under the key of a request answer it alike. -/
theorem Complete.answer_congr {other : Store} (complete : store.Complete)
    (otherComplete : other.Complete) (request : StoreRequest)
    (entry : forall cf, store.lookup cf request.key = other.lookup cf request.key) :
    (store.serve display request).1 = (other.serve display request).1 := by
  cases request with
  | put cf key value => rw [complete.serve_put, otherComplete.serve_put]
  | get cf key =>
      exact congrArg StoreAnswer.found (complete.get_congr otherComplete (entry cf))

/-- A request leaves equal entries equal. -/
theorem Complete.lookup_serve_congr {other : Store} (complete : store.Complete)
    (otherComplete : other.Complete) (request : StoreRequest) {cf : Cf} {key : List UInt8}
    (entry : store.lookup cf key = other.lookup cf key) :
    (store.serve display request).2.lookup cf key =
      (other.serve display request).2.lookup cf key := by
  cases request with
  | put written target value =>
      rw [complete.serve_put, otherComplete.serve_put, complete.lookup_write,
        otherComplete.lookup_write, entry]
  | get _ _ => exact entry

/-- A request leaves the entries of other keys as they are. -/
theorem Complete.lookup_serve_of_ne (complete : store.Complete) {request : StoreRequest}
    {key : List UInt8} (different : request.key ≠ key) (cf : Cf) :
    (store.serve display request).2.lookup cf key = store.lookup cf key := by
  cases request with
  | put written target value =>
      rw [complete.serve_put, complete.lookup_write, if_neg]
      intro same
      exact different same.2
  | get _ _ => rfl

/-- The step lemma of a single store. -/
theorem Holds.serve (complete : store.Complete) {cf : Cf} {key : List UInt8}
    {held : Option ByteString} (holds : store.Holds cf key held) (request : StoreRequest) :
    (store.serve display request).2.Holds cf key (request.effect cf key held) := by
  cases request with
  | put written target value =>
      rw [complete.serve_put, StoreRequest.effect_put, Holds, complete.lookup_write]
      split_ifs
      · rfl
      · exact holds
  | get _ _ => exact holds

/-- The run lemma of a single store. -/
theorem Holds.after (complete : store.Complete) {cf : Cf} {key : List UInt8}
    {held : Option ByteString} (holds : store.Holds cf key held) (requests : List StoreRequest) :
    (store.after display requests).Complete ∧
      (store.after display requests).Holds cf key
        (requests.foldl (StoreRequest.effect cf key) held) := by
  induction requests generalizing store held with
  | nil => exact ⟨complete, holds⟩
  | cons request rest inductionHypothesis =>
      exact inductionHypothesis (complete.serve request) (holds.serve complete request)

/-- A held value is decoded. -/
theorem Holds.get (complete : store.Complete) {cf : Cf} {key : List UInt8}
    {held : Option ByteString} (holds : store.Holds cf key held) :
    store.get (.ofFormat Format.bytes) display none cf key =
      .ok (held.map ByteString.bytes) := by
  cases held with
  | none => exact complete.get_of_absent display holds
  | some value =>
      have fits : Format.bytes.fits value.bytes :=
        Nat.lt_trans value.short (by norm_num)
      rw [get_of_lookup holds, Codec.ofFormat, deserialize_expect Format.bytes fits]
      rfl

theorem serveAll_append (earlier later : List StoreRequest) :
    store.serveAll display (earlier ++ later) =
      store.serveAll display earlier ++ (store.after display earlier).serveAll display later := by
  induction earlier generalizing store with
  | nil => rfl
  | cons request rest inductionHypothesis =>
      exact congrArg (_ :: ·) inductionHypothesis

theorem length_serveAll (requests : List StoreRequest) :
    (store.serveAll display requests).length = requests.length := by
  induction requests generalizing store with
  | nil => rfl
  | cons request rest inductionHypothesis =>
      exact congrArg (· + 1) inductionHypothesis

/-- In every run on a new store a get answers with the last put. -/
theorem serveAll_fresh (earlier later : List StoreRequest) (cf : Cf) (key : List UInt8) :
    ∃ before after, before.length = earlier.length ∧
      fresh.serveAll display (earlier ++ .get cf key :: later) =
        before ++ .found (.ok ((lastPut cf key earlier).map ByteString.bytes)) :: after := by
  have empty : fresh.Holds cf key none := lookup_open _ cf key
  have kept : (fresh.after display earlier).Complete ∧
      (fresh.after display earlier).Holds cf key (lastPut cf key earlier) :=
    empty.after (open_complete _) earlier
  refine ⟨fresh.serveAll display earlier, (fresh.after display earlier).serveAll display later,
    length_serveAll earlier, ?_⟩
  rw [serveAll_append, ← kept.2.get kept.1]
  rfl

end Store

/-! ## The shards together are one store -/

namespace ShardedStore

variable {hash : List UInt8 -> UInt64} {display : ReadError -> String} {sharded : ShardedStore}
  {single : Store}

/-- Every key has in its shard the entry that it has in the single store. -/
structure Simulates (hash : List UInt8 -> UInt64) (sharded : ShardedStore) (single : Store) :
    Prop where
  sharded_nonempty : 0 < sharded.shards.length
  shards_complete : forall shard, shard ∈ sharded.shards -> shard.Complete
  single_complete : single.Complete
  entries : forall (cf : Cf) (key : List UInt8) (shard : Store),
    sharded.shardFor hash key = some shard -> shard.lookup cf key = single.lookup cf key

/-- With a shard at all, every key has its shard. -/
theorem exists_position (nonempty : 0 < sharded.shards.length) (key : List UInt8) :
    ∃ index shard, sharded.position hash key = some index ∧
      sharded.shards[index]? = some shard ∧ sharded.shardFor hash key = some shard := by
  have inside := Nat.mod_lt (hash key).toUSize.toNat nonempty
  have index : sharded.position hash key =
      some ((hash key).toUSize.toNat % sharded.shards.length) :=
    if_neg (Nat.ne_of_gt nonempty)
  have found := List.getElem?_eq_getElem inside
  refine ⟨_, _, index, found, ?_⟩
  rw [shardFor, index]
  exact found

theorem shardFor_set {index : Nat} {after shard : Store} {key : List UInt8}
    (found : (ShardedStore.mk (sharded.shards.set index after)).shardFor hash key = some shard) :
    (sharded.position hash key = some index ∧ shard = after) ∨
      (sharded.position hash key ≠ some index ∧ sharded.shardFor hash key = some shard) := by
  have same : (ShardedStore.mk (sharded.shards.set index after)).position hash key =
      sharded.position hash key := by
    unfold position
    rw [List.length_set]
  unfold shardFor at found ⊢
  rw [same] at found
  rcases Option.bind_eq_some_iff.mp found with ⟨place, positioned, entry⟩
  by_cases here : place = index
  · subst here
    rw [List.getElem?_set_self' ] at entry
    rcases Option.map_eq_some_iff.mp entry with ⟨_, _, rfl⟩
    exact Or.inl ⟨positioned, rfl⟩
  · rw [List.getElem?_set_ne (Ne.symm here)] at entry
    refine Or.inr ⟨?_, ?_⟩
    · rw [positioned]
      exact fun equal => here (Option.some.inj equal)
    · rw [positioned]
      exact entry

/-- The step lemma: a request is answered alike, and leaves the entries alike. -/
theorem Simulates.serve (simulates : sharded.Simulates hash single) (request : StoreRequest) :
    ∃ after, sharded.serve hash display request = some ((single.serve display request).1, after) ∧
      after.Simulates hash (single.serve display request).2 := by
  rcases exists_position simulates.sharded_nonempty request.key with
    ⟨index, shard, positioned, found, routed⟩
  have complete := simulates.shards_complete shard (List.mem_of_getElem? found)
  have served : sharded.serve hash display request = some ((shard.serve display request).1,
      ⟨sharded.shards.set index (shard.serve display request).2⟩) := by
    rw [ShardedStore.serve, positioned, Option.bind_some, found, Option.map_some]
  have answers : (shard.serve display request).1 = (single.serve display request).1 :=
    complete.answer_congr simulates.single_complete request fun cf =>
      simulates.entries cf request.key shard routed
  refine ⟨_, by rw [served, answers], ?_⟩
  constructor
  · rw [List.length_set]
    exact simulates.sharded_nonempty
  · intro other member
    rcases List.mem_or_eq_of_mem_set member with old | rfl
    · exact simulates.shards_complete other old
    · exact complete.serve request
  · exact simulates.single_complete.serve request
  · intro cf key other otherRouted
    rcases shardFor_set otherRouted with ⟨same, rfl⟩ | ⟨elsewhere, kept⟩
    · -- the shard of the request is also the shard of the key
      have routedHere : sharded.shardFor hash key = some shard := by
        rw [shardFor, same]
        exact found
      apply complete.lookup_serve_congr simulates.single_complete
      exact simulates.entries cf key shard routedHere
    · -- a key of another shard is not the key of the request
      have different : request.key ≠ key := by
        intro equal
        rw [equal] at positioned
        exact elsewhere positioned
      rw [simulates.single_complete.lookup_serve_of_ne different]
      exact simulates.entries cf key other kept

/-- The run lemma: all requests are answered alike. -/
theorem Simulates.serveAll (simulates : sharded.Simulates hash single)
    (requests : List StoreRequest) :
    sharded.serveAll hash display requests = some (single.serveAll display requests) := by
  induction requests generalizing sharded single with
  | nil => rfl
  | cons request rest inductionHypothesis =>
      have step : ∃ after : ShardedStore,
          sharded.serve hash display request = some ((single.serve display request).1, after) ∧
            after.Simulates hash (single.serve display request).2 := simulates.serve request
      rcases step with ⟨after, served, continued⟩
      rw [ShardedStore.serveAll, served, Option.bind_some, inductionHypothesis continued]
      rfl

/-! ## Opening -/

/-- The databases in the order in which they are opened. -/
theorem openShards_eq {failure : Nat -> Option String} {disk : Nat -> Cf -> Family}
    {indices : List Nat} {shards : List Store}
    (opened : openShards failure disk indices = .ok shards) :
    shards = indices.map fun index => Store.open (disk index) := by
  induction indices generalizing shards with
  | nil => exact (Except.ok.inj opened).symm
  | cons index rest inductionHypothesis =>
      rw [openShards] at opened
      cases first : openShard failure disk index with
      | error error =>
          rw [first] at opened
          cases opened
      | ok shard =>
          rw [first] at opened
          cases remaining : openShards failure disk rest with
          | error error =>
              rw [remaining] at opened
              cases opened
          | ok others =>
              rw [remaining] at opened
              have store : shard = Store.open (disk index) := by
                unfold openShard at first
                split at first
                · cases first
                · exact (Except.ok.inj first).symm
              rw [← Except.ok.inj opened, inductionHypothesis remaining, store]
              rfl

theorem shards_of_open {failure : Nat -> Option String} {disk : Nat -> Cf -> Family}
    {count : USize} (opened : ShardedStore.open failure disk count = .ok sharded) :
    sharded.shards = (List.range count.toNat).map fun index => Store.open (disk index) := by
  unfold ShardedStore.open at opened
  split at opened
  · cases opened
  · rename_i shards all
    rw [← Except.ok.inj opened]
    exact openShards_eq all

/-- Databases that can all be opened make a sharded store, of any count. -/
theorem open_of_no_failure (disk : Nat -> Cf -> Family) (count : USize) :
    ShardedStore.open (fun _index => none) disk count =
      .ok ⟨(List.range count.toNat).map fun index => Store.open (disk index)⟩ := by
  have all : forall indices : List Nat, openShards (fun _index => none) disk indices =
      .ok (indices.map fun index => Store.open (disk index)) := by
    intro indices
    induction indices with
    | nil => rfl
    | cons index rest inductionHypothesis =>
        rw [openShards, inductionHypothesis]
        rfl
  rw [ShardedStore.open, all]

/-- Without shards no key has one. -/
theorem shardFor_of_empty (empty : sharded.shards = []) (key : List UInt8) :
    sharded.shardFor hash key = none := by
  rw [shardFor, position, empty, if_pos List.length_nil]
  rfl

/-- A store that has been opened over these databases is the single store that
has each key's entry from the database of its shard. -/
theorem simulates_open {failure : Nat -> Option String} {disk : Nat -> Cf -> Family}
    {count : USize} (opened : ShardedStore.open failure disk count = .ok sharded)
    (positive : 0 < count.toNat) :
    sharded.Simulates hash
      (Store.open fun cf key => disk ((hash key).toUSize.toNat % count.toNat) cf key) := by
  have shards := shards_of_open opened
  have length : sharded.shards.length = count.toNat := by
    rw [shards, List.length_map, List.length_range]
  constructor
  · rw [length]
    exact positive
  · intro shard member
    rw [shards] at member
    rcases List.mem_map.mp member with ⟨index, _, rfl⟩
    exact Store.open_complete _
  · exact Store.open_complete _
  · intro cf key shard routed
    rcases Option.bind_eq_some_iff.mp routed with ⟨index, positioned, found⟩
    unfold position at positioned
    rw [length, if_neg (Nat.ne_of_gt positive)] at positioned
    cases positioned
    rw [shards, List.getElem?_map] at found
    rcases Option.map_eq_some_iff.mp found with ⟨place, listed, rfl⟩
    rcases List.getElem?_eq_some_iff.mp listed with ⟨inside, rfl⟩
    rw [List.getElem_range, Store.lookup_open, Store.lookup_open]

/-- What a sharded store promises: every key has a shard, every run of requests
is answered as by a single new store, and every get with the last put. -/
structure OneMap (hash : List UInt8 -> UInt64) (display : ReadError -> String)
    (sharded : ShardedStore) : Prop where
  routed : forall key, ∃ shard, sharded.shardFor hash key = some shard
  agrees : forall requests,
    sharded.serveAll hash display requests = some (Store.fresh.serveAll display requests)
  latest : forall (earlier later : List StoreRequest) (cf : Cf) (key : List UInt8),
    ∃ before after, before.length = earlier.length ∧
      sharded.serveAll hash display (earlier ++ .get cf key :: later) =
        some (before ++ .found (.ok ((lastPut cf key earlier).map ByteString.bytes)) :: after)

/-- An opened store without data is one map exactly if it has a shard. -/
theorem oneMap_iff (hash : List UInt8 -> UInt64) (display : ReadError -> String)
    {failure : Nat -> Option String} {count : USize}
    (opened : ShardedStore.open failure (fun _index _cf _key => none) count = .ok sharded) :
    sharded.OneMap hash display ↔ 0 < count.toNat := by
  constructor
  · intro oneMap
    rcases oneMap.routed [] with ⟨shard, routed⟩
    by_contra zero
    have empty : sharded.shards = [] := by
      rw [shards_of_open opened, Nat.eq_zero_of_not_pos zero]
      rfl
    rw [shardFor_of_empty empty] at routed
    cases routed
  · intro positive
    have simulates : sharded.Simulates hash Store.fresh := simulates_open opened positive
    constructor
    · intro key
      rcases exists_position simulates.sharded_nonempty key with ⟨_, shard, _, _, routed⟩
      exact ⟨shard, routed⟩
    · exact fun requests => simulates.serveAll requests
    · intro earlier later cf key
      rcases Store.serveAll_fresh earlier later cf key with ⟨before, after, length, answers⟩
      exact ⟨before, after, length, by rw [simulates.serveAll, answers]⟩

/-- Two shards are one map. -/
theorem oneMap_iff_two : ∃ sharded : ShardedStore,
    ShardedStore.open (fun _index => none) (fun _index _cf _key => none) 2 = .ok sharded ∧
      sharded.OneMap (fun key => UInt64.ofNat key.length) (fun _error => "") := by
  have opened := open_of_no_failure (fun _index _cf _key => none) 2
  refine ⟨_, opened, (oneMap_iff _ _ opened).mpr ?_⟩
  have two : (2 : USize).toNat = 2 := USize.toNat_ofNat_of_lt_32 (by norm_num)
  rw [two]
  exact Nat.two_pos

/-- No shards can be opened as well, and then the first key panics. -/
theorem zero_not_oneMap : ∃ sharded : ShardedStore,
    ShardedStore.open (fun _index => none) (fun _index _cf _key => none) 0 = .ok sharded ∧
      sharded.shardFor (fun key => UInt64.ofNat key.length) [107] = none ∧
      ¬ sharded.OneMap (fun key => UInt64.ofNat key.length) (fun _error => "") := by
  have opened := open_of_no_failure (fun _index _cf _key => none) 0
  have zero : (0 : USize).toNat = 0 := USize.toNat_ofNat_of_lt_32 (by norm_num)
  have empty : (List.range (0 : USize).toNat).map
      (fun _index => Store.open fun _cf _key => none) = [] := by
    rw [zero]
    rfl
  refine ⟨_, opened, shardFor_of_empty empty _, ?_⟩
  intro oneMap
  rcases oneMap.routed [107] with ⟨shard, routed⟩
  cases (shardFor_of_empty empty _).symm.trans routed

end ShardedStore

end Storage
end KernelFlow
