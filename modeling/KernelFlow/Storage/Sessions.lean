import Mathlib
import KernelFlow.Storage.Sharded

namespace KernelFlow
namespace Storage

open Bincode

/-!
# Sharded stores over time

The databases outlive the process that opened them.  A session opens a number of
them and serves its calls, any of which may fail; the next session finds what
was stored, and may open another number.  The number decides where a key goes,
so a value is found again exactly by the sessions that route its key to the
database in which it lies.

The database library is a parameter, and so is the serializer.  What is assumed of
the library is what it documents: a put that succeeds is found, one that fails may
have stored its own value or nothing, and what an open database holds is there when
its directory is opened again.  The hash of a key is the same in all sessions.
-/

/-! ## The libraries -/

/-- The database library as the store uses it.  A fault is whatever makes a call fail
or not. -/
structure RocksDb where
  Directory : Type
  Db : Type
  Fault : Type
  /-- `DB::open_cf_descriptors`: the database, or the text of the error and what is
  then left in the directory -/
  openCf : Fault -> Directory -> List String -> Except (String × Directory) Db
  /-- whether `cf_handle` finds the column family -/
  cfHandle : Db -> String -> Bool
  putCf : Fault -> Db -> String -> List UInt8 -> List UInt8 -> Except String Unit × Db
  getCf : Fault -> Db -> String -> List UInt8 -> Except String (Option (List UInt8))
  /-- the last handle is dropped -/
  close : Db -> Directory

/-- What the library documents about what is stored in a directory and held by an open
database, for each column family and key. -/
structure RocksDb.Documented (rocks : RocksDb) where
  stored : rocks.Directory -> String -> List UInt8 -> Option (List UInt8)
  held : rocks.Db -> String -> List UInt8 -> Option (List UInt8)
  opened {fault : rocks.Fault} {directory : rocks.Directory} {names : List String}
    {db : rocks.Db} : rocks.openCf fault directory names = .ok db ->
    forall name, name ∈ names ->
      rocks.cfHandle db name = true ∧ held db name = stored directory name
  refused {fault : rocks.Fault} {directory left : rocks.Directory} {names : List String}
    {message : String} : rocks.openCf fault directory names = .error (message, left) ->
    stored left = stored directory
  put_ok {fault : rocks.Fault} {db after : rocks.Db} {name : String} {key bytes : List UInt8} :
    rocks.putCf fault db name key bytes = (.ok (), after) ->
    rocks.cfHandle after = rocks.cfHandle db ∧ forall other target,
      held after other target =
        if other = name ∧ target = key then some bytes else held db other target
  /-- it may or may not have been stored -/
  put_error {fault : rocks.Fault} {db after : rocks.Db} {name message : String}
    {key bytes : List UInt8} : rocks.putCf fault db name key bytes = (.error message, after) ->
    rocks.cfHandle after = rocks.cfHandle db ∧ forall other target,
      held after other target = held db other target ∨
        other = name ∧ target = key ∧ held after other target = some bytes
  get_ok {fault : rocks.Fault} {db : rocks.Db} {name : String} {key : List UInt8}
    {found : Option (List UInt8)} :
    rocks.getCf fault db name key = .ok found -> found = held db name key
  /-- what was put is durable -/
  closed (db : rocks.Db) : stored (rocks.close db) = held db

/-- The serializer for the values of one type, with the texts of its errors. -/
structure Serializer (V : Type) where
  serialize : V -> Except String (List UInt8)
  deserialize : List UInt8 -> Except String V
  deserialize_serialize {value : V} {bytes : List UInt8} :
    serialize value = .ok bytes -> deserialize bytes = .ok value

/-! ## Calls -/

inductive Request (V : Type)
  | put (cf : Cf) (key : List UInt8) (val : V)
  | get (cf : Cf) (key : List UInt8)

inductive Answer (V : Type)
  | stored (result : KernelResult Unit)
  | found (result : KernelResult (Option V))

variable {V : Type}

def Request.key : Request V -> List UInt8
  | .put _ key _ => key
  | .get _ key => key

/-- A request, the failure of the blocking task that was to serve it, and the fault of
the database. -/
structure Call (rocks : RocksDb) (V : Type) where
  request : Request V
  joined : Option String
  fault : rocks.Fault

section Model

variable (rocks : RocksDb) (serializer : Serializer V) (hash : List UInt8 -> UInt64)

/-- `Store::put`. -/
def put (joined : Option String) (fault : rocks.Fault) (db : rocks.Db) (cf : Cf)
    (key : List UInt8) (val : V) : KernelResult Unit × rocks.Db :=
  match joined with
  | some message => (.error (.storage message), db)
  | none =>
      match serializer.serialize val with
      | .error message => (.error (.storage message), db)
      | .ok bytes =>
          if rocks.cfHandle db cf.asStr then
            match rocks.putCf fault db cf.asStr key bytes with
            | (.error message, after) => (.error (.storage message), after)
            | (.ok (), after) => (.ok (), after)
          else (.error (.storage "cf missing"), db)

/-- `Store::get`. -/
def get (joined : Option String) (fault : rocks.Fault) (db : rocks.Db) (cf : Cf)
    (key : List UInt8) : KernelResult (Option V) :=
  match joined with
  | some message => .error (.storage message)
  | none =>
      if rocks.cfHandle db cf.asStr then
        match rocks.getCf fault db cf.asStr key with
        | .error message => .error (.storage message)
        | .ok none => .ok none
        | .ok (some bytes) =>
            match serializer.deserialize bytes with
            | .error message => .error (.storage message)
            | .ok value => .ok (some value)
      else .error (.storage "cf missing")

def serve (db : rocks.Db) (call : Call rocks V) : Answer V × rocks.Db :=
  match call.request with
  | .put cf key val =>
      let stored := put rocks serializer call.joined call.fault db cf key val
      (.stored stored.1, stored.2)
  | .get cf key => (.found (get rocks serializer call.joined call.fault db cf key), db)

/-! ## Sessions -/

/-- What one process does with the databases.  `faults` are those of opening. -/
structure Session (rocks : RocksDb) (V : Type) where
  count : USize
  faults : Nat -> rocks.Fault
  calls : List (Call rocks V)

/-- The directories of the shards. -/
abbrev Disk := Nat -> rocks.Directory

/-- The column families of `Store::open`. -/
def columnFamilies : List String :=
  ["events", "state", "attestations"]

/-- The loop of `ShardedStore::open`.  The first failure ends it, and the databases that
were opened before are dropped. -/
def openShards (faults : Nat -> rocks.Fault) (disk : Disk rocks) :
    List Nat -> KernelResult (List rocks.Db) × Disk rocks
  | [] => (.ok [], disk)
  | index :: rest =>
      match rocks.openCf (faults index) (disk index) columnFamilies with
      | .error (message, left) =>
          (.error (.storage message), Function.update disk index left)
      | .ok db =>
          match openShards faults disk rest with
          | (.error error, left) => (.error error, Function.update left index (rocks.close db))
          | (.ok shards, left) => (.ok (db :: shards), left)

/-- The index in `shard_for`.  A remainder by zero panics. -/
def shardIndex (shards : List rocks.Db) (key : List UInt8) : Option Nat :=
  if shards.length = 0 then none
  else some ((hash key).toUSize.toNat % shards.length)

/-- A request, its answer, and the number of shards of its session. -/
structure Answered (V : Type) where
  count : USize
  request : Request V
  answer : Answer V

/-- The calls of a session, one after the other.  A panic ends them. -/
def serveAll (count : USize) (shards : List rocks.Db) :
    List (Call rocks V) -> List (Answered V) × List rocks.Db
  | [] => ([], shards)
  | call :: rest =>
      match shardIndex rocks hash shards call.request.key with
      | none => ([], shards)
      | some index =>
          match shards[index]? with
          | none => ([], shards)
          | some db =>
              let served := serve rocks serializer db call
              let later := serveAll count (shards.set index served.2) rest
              (⟨count, call.request, served.1⟩ :: later.1, later.2)

end Model

/-! ## The value that lies in a database -/

/-- The database of a key among so many. -/
def route (hash : List UInt8 -> UInt64) (count : USize) (key : List UInt8) : Nat :=
  (hash key).toUSize.toNat % count.toNat

/-- The answers of the sessions to requests that they routed to this database. -/
def routed (hash : List UInt8 -> UInt64) (index : Nat) (history : List (Answered V)) :
    List (Answered V) :=
  history.filter fun answered => route hash answered.count answered.request.key = index

/-- What may be left under a key after a request was answered: a put that succeeded has
replaced it, one that failed may have. -/
def Answered.effect (cf : Cf) (key : List UInt8) (possible : Set (Option V))
    (answered : Answered V) : Set (Option V) :=
  match answered.request, answered.answer with
  | .put written target val, .stored (.ok ()) =>
      if written = cf ∧ target = key then {some val} else possible
  | .put written target val, .stored (.error _) =>
      if written = cf ∧ target = key then insert (some val) possible else possible
  | _, _ => possible

/-- What requests may have left under a key. -/
def left (cf : Cf) (key : List UInt8) (history : List (Answered V)) : Set (Option V) :=
  history.foldl (Answered.effect cf key) {none}

def Answered.stored (cf : Cf) (key : List UInt8) (held : Option V) (answered : Answered V) :
    Option V :=
  match answered.request, answered.answer with
  | .put written target val, .stored (.ok ()) =>
      if written = cf ∧ target = key then some val else held
  | _, _ => held

theorem left_append (cf : Cf) (key : List UInt8) (history : List (Answered V))
    (answered : Answered V) :
    left cf key (history ++ [answered]) = answered.effect cf key (left cf key history) := by
  rw [left, List.foldl_append]
  rfl

/-- What the sessions may have left in a database. -/
def leftIn (hash : List UInt8 -> UInt64) (history : List (Answered V)) (index : Nat) (cf : Cf)
    (key : List UInt8) : Set (Option V) :=
  left cf key (routed hash index history)

theorem leftIn_append_of_route {hash : List UInt8 -> UInt64} {index : Nat}
    (history : List (Answered V)) (answered : Answered V)
    (here : route hash answered.count answered.request.key = index) :
    leftIn hash (history ++ [answered]) index =
      fun cf key => answered.effect cf key (leftIn hash history index cf key) := by
  funext cf key
  have received : routed hash index (history ++ [answered]) =
      routed hash index history ++ [answered] := by
    simp [routed, here]
  rw [leftIn, received, left_append]
  rfl

/-- A request leaves the databases alone to which it is not routed. -/
theorem leftIn_append_of_ne {hash : List UInt8 -> UInt64} {index : Nat}
    (history : List (Answered V)) (answered : Answered V)
    (elsewhere : route hash answered.count answered.request.key ≠ index) :
    leftIn hash (history ++ [answered]) index = leftIn hash history index := by
  funext cf key
  have passed : routed hash index (history ++ [answered]) = routed hash index history := by
    simp [routed, elsewhere]
  rw [leftIn, passed]
  rfl

variable {rocks : RocksDb} {serializer : Serializer V} {hash : List UInt8 -> UInt64}

/-- The bytes of the value, or nothing without one. -/
def Encodes (serializer : Serializer V) (bytes : Option (List UInt8)) (value : Option V) : Prop :=
  Option.Rel (fun bytes value => serializer.serialize value = .ok bytes) bytes value

/-- The bytes encode one of the values. -/
def EncodesOne (serializer : Serializer V) (bytes : Option (List UInt8))
    (values : Set (Option V)) : Prop :=
  ∃ value ∈ values, Encodes serializer bytes value

/-- An open database with its column families, for possible values by column family and
key. -/
structure Keeps (documented : rocks.Documented) (serializer : Serializer V) (db : rocks.Db)
    (values : Cf -> List UInt8 -> Set (Option V)) : Prop where
  handles : forall cf : Cf, rocks.cfHandle db cf.asStr = true
  encodes : forall cf key, EncodesOne serializer (documented.held db cf.asStr key) (values cf key)

namespace Keeps

variable {documented : rocks.Documented} {db : rocks.Db}
  {values : Cf -> List UInt8 -> Set (Option V)}

/-- There may be more possible values. -/
theorem mono (keeps : Keeps documented serializer db values)
    {others : Cf -> List UInt8 -> Set (Option V)}
    (more : forall cf key, values cf key ⊆ others cf key) :
    Keeps documented serializer db others where
  handles := keeps.handles
  encodes := by
    intro cf key
    rcases keeps.encodes cf key with ⟨value, possible, encodes⟩
    exact ⟨value, more cf key possible, encodes⟩

/-- A put that succeeds stores the value, and one that fails may have stored it. -/
theorem put (keeps : Keeps documented serializer db values) (joined : Option String)
    (fault : rocks.Fault) (cf : Cf) (key : List UInt8) (val : V) :
    ((put rocks serializer joined fault db cf key val).1 = .ok () ∧
      Keeps documented serializer (put rocks serializer joined fault db cf key val).2
        fun other target =>
          if cf = other ∧ key = target then {some val} else values other target) ∨
    ((∃ error, (put rocks serializer joined fault db cf key val).1 = .error error) ∧
      Keeps documented serializer (put rocks serializer joined fault db cf key val).2
        fun other target =>
          if cf = other ∧ key = target then insert (some val) (values other target)
          else values other target) := by
  have unchanged : Keeps documented serializer db fun other target =>
      if cf = other ∧ key = target then insert (some val) (values other target)
      else values other target := by
    apply keeps.mono
    intro other target
    split_ifs
    · exact Set.subset_insert _ _
    · exact subset_rfl
  have names : forall other : Cf, other.asStr = cf.asStr ↔ cf = other :=
    fun other => ⟨fun same => (Cf.asStr_injective same).symm, fun equal => equal ▸ rfl⟩
  unfold Storage.put
  cases joined with
  | some message => exact Or.inr ⟨⟨_, rfl⟩, unchanged⟩
  | none =>
      dsimp only
      cases serialized : serializer.serialize val with
      | error message => exact Or.inr ⟨⟨_, rfl⟩, unchanged⟩
      | ok bytes =>
          dsimp only
          rw [if_pos (keeps.handles cf)]
          rcases done : rocks.putCf fault db cf.asStr key bytes with ⟨result, after⟩
          cases result with
          | error message =>
              rcases documented.put_error done with ⟨handles, held⟩
              refine Or.inr ⟨⟨_, rfl⟩, ?_, ?_⟩
              · exact fun other => (congrFun handles _).trans (keeps.handles other)
              · intro other target
                rcases held other.asStr target with same | ⟨family, rfl, written⟩
                · rw [same]
                  exact unchanged.encodes other target
                · dsimp only
                  rw [written, if_pos ⟨(names other).mp family, rfl⟩]
                  exact ⟨some val, Set.mem_insert _ _, .some serialized⟩
          | ok done' =>
              rcases documented.put_ok done with ⟨handles, held⟩
              refine Or.inl ⟨rfl, ?_, ?_⟩
              · exact fun other => (congrFun handles _).trans (keeps.handles other)
              · intro other target
                have same : (other.asStr = cf.asStr ∧ target = key) ↔ (cf = other ∧ key = target) :=
                  and_congr (names other) eq_comm
                dsimp only
                rw [held, if_congr same rfl rfl]
                split_ifs
                · exact ⟨some val, rfl, .some serialized⟩
                · exact keeps.encodes other target

/-- A get that succeeds returns one of the values. -/
theorem get (keeps : Keeps documented serializer db values) (joined : Option String)
    (fault : rocks.Fault) (cf : Cf) (key : List UInt8) {found : Option V}
    (answered : get rocks serializer joined fault db cf key = .ok found) :
    found ∈ values cf key := by
  unfold Storage.get at answered
  cases joined with
  | some message => cases answered
  | none =>
      dsimp only at answered
      rw [if_pos (keeps.handles cf)] at answered
      cases answer : rocks.getCf fault db cf.asStr key with
      | error message =>
          rw [answer] at answered
          cases answered
      | ok bytes =>
          rcases keeps.encodes cf key with ⟨value, possible, encodes⟩
          rw [← documented.get_ok answer] at encodes
          rw [answer] at answered
          cases encodes with
          | none =>
              cases answered
              exact possible
          | some serialized =>
              dsimp only at answered
              rw [serializer.deserialize_serialize serialized] at answered
              cases answered
              exact possible

end Keeps

/-! ## The databases of a session -/

/-- Directories with these values by shard, column family and key. -/
def Disk.Keeps (documented : rocks.Documented) (serializer : Serializer V) (disk : Disk rocks)
    (values : Nat -> Cf -> List UInt8 -> Set (Option V)) : Prop :=
  forall index cf key,
    EncodesOne serializer (documented.stored (disk index) cf.asStr key) (values index cf key)

section Opening

variable {documented : rocks.Documented} {disk : Disk rocks}
  {values : Nat -> Cf -> List UInt8 -> Set (Option V)}

theorem Disk.Keeps.update (keeps : disk.Keeps documented serializer values) {index : Nat}
    {left : rocks.Directory}
    (same : forall cf key, EncodesOne serializer (documented.stored left cf.asStr key)
      (values index cf key)) :
    Disk.Keeps documented serializer (Function.update disk index left) values := by
  intro other cf key
  by_cases here : other = index
  · subst here
    rw [Function.update_self]
    exact same cf key
  · rw [Function.update_of_ne here]
    exact keeps other cf key

end Opening

/-- The databases of a running session hold what the history has left. -/
structure Running (documented : rocks.Documented) (serializer : Serializer V)
    (hash : List UInt8 -> UInt64) (count : USize) (history : List (Answered V))
    (shards : List rocks.Db) : Prop where
  length : shards.length = count.toNat
  keeps : forall (index : Nat) (db : rocks.Db), shards[index]? = some db ->
    Keeps documented serializer db (leftIn hash history index)

/-- An answer fits its history. -/
def Answered.Fits (hash : List UInt8 -> UInt64) (history : List (Answered V))
    (answered : Answered V) : Prop :=
  forall cf key found, answered.request = .get cf key -> answered.answer = .found (.ok found) ->
    found ∈ leftIn hash history (route hash answered.count key) cf key

/-- Every answer fits what was answered before. -/
def AllFit (hash : List UInt8 -> UInt64) (history answered : List (Answered V)) : Prop :=
  forall earlier one later, answered = earlier ++ one :: later -> one.Fits hash (history ++ earlier)

theorem allFit_nil (history : List (Answered V)) : AllFit hash history [] := by
  intro earlier one later impossible
  cases earlier <;> cases impossible

theorem AllFit.cons {history answered : List (Answered V)} {one : Answered V}
    (fits : one.Fits hash history) (rest : AllFit hash (history ++ [one]) answered) :
    AllFit hash history (one :: answered) := by
  intro earlier other later split
  cases earlier with
  | nil =>
      cases split
      rw [List.append_nil]
      exact fits
  | cons head tail =>
      cases split
      have inside := rest tail other later rfl
      rwa [List.append_assoc] at inside

theorem AllFit.append {history first second : List (Answered V)} (fits : AllFit hash history first)
    (rest : AllFit hash (history ++ first) second) : AllFit hash history (first ++ second) := by
  induction first generalizing history with
  | nil => rwa [List.append_nil] at rest
  | cons head tail inductionHypothesis =>
      apply AllFit.cons
      · have here := fits [] head tail rfl
        rwa [List.append_nil] at here
      · apply inductionHypothesis
        · intro earlier one later split
          have inside := fits (head :: earlier) one later (by rw [split, List.cons_append])
          rwa [List.append_assoc]
        · rwa [List.append_assoc]

namespace Running

variable {documented : rocks.Documented} {count : USize} {history : List (Answered V)}
  {shards : List rocks.Db}

/-- The database of the key answers what fits the history, and keeps what is stored. -/
theorem serve {index : Nat} {db : rocks.Db}
    (keeps : Keeps documented serializer db (leftIn hash history index))
    (call : Call rocks V) (here : route hash count call.request.key = index) :
    Answered.Fits hash history ⟨count, call.request, (serve rocks serializer db call).1⟩ ∧
      Keeps documented serializer (serve rocks serializer db call).2
        (leftIn hash (history ++ [⟨count, call.request, (serve rocks serializer db call).1⟩])
          index) := by
  rcases call with ⟨request, joined, fault⟩
  have effects : forall answer,
      leftIn hash (history ++ [⟨count, request, answer⟩]) index = fun cf key =>
        Answered.effect cf key (leftIn hash history index cf key) ⟨count, request, answer⟩ :=
    fun answer => leftIn_append_of_route history ⟨count, request, answer⟩ here
  rw [effects]
  cases request with
  | put cf key val =>
      refine ⟨(fun cf key found impossible => nomatch impossible), ?_⟩
      rcases keeps.put joined fault cf key val with ⟨stored, after⟩ | ⟨⟨error, failed⟩, after⟩
      · simp only [Storage.serve, Answered.effect, stored]
        exact after
      · simp only [Storage.serve, Answered.effect, failed]
        exact after
  | get cf key =>
      refine ⟨?_, keeps⟩
      intro other target found same answered
      cases same
      dsimp only [Request.key] at here
      rw [here]
      exact keeps.get joined fault cf key (Answer.found.inj answered)

/-- The step lemma of a session: the database of the key is replaced. -/
theorem step (running : Running documented serializer hash count history shards) {index : Nat}
    {db : rocks.Db} (found : shards[index]? = some db) (call : Call rocks V)
    (here : route hash count call.request.key = index) :
    Running documented serializer hash count
      (history ++ [⟨count, call.request, (Storage.serve rocks serializer db call).1⟩])
      (shards.set index (Storage.serve rocks serializer db call).2) where
  length := by
    rw [List.length_set]
    exact running.length
  keeps := by
    intro other shard entry
    by_cases same : index = other
    · subst same
      rw [List.getElem?_set_self (List.getElem?_eq_some_iff.mp found).1] at entry
      cases entry
      exact (Running.serve (running.keeps index db found) call here).2
    · rw [List.getElem?_set_ne same] at entry
      have elsewhere : route hash count call.request.key ≠ other := here ▸ same
      have unchanged : forall answer,
          leftIn hash (history ++ [⟨count, call.request, answer⟩]) other =
            leftIn hash history other :=
        fun answer => leftIn_append_of_ne history ⟨count, call.request, answer⟩ elsewhere
      rw [unchanged]
      exact running.keeps other shard entry

/-- The run lemma of a session. -/
theorem serveAll (running : Running documented serializer hash count history shards)
    (calls : List (Call rocks V)) :
    AllFit hash history (serveAll rocks serializer hash count shards calls).1 ∧
      Running documented serializer hash count
        (history ++ (Storage.serveAll rocks serializer hash count shards calls).1)
        (Storage.serveAll rocks serializer hash count shards calls).2 := by
  have stays : AllFit hash history ([] : List (Answered V)) ∧
      Running documented serializer hash count (history ++ []) shards :=
    ⟨allFit_nil history, (List.append_nil history).symm ▸ running⟩
  induction calls generalizing history shards with
  | nil => exact stays
  | cons call rest inductionHypothesis =>
      rw [Storage.serveAll]
      cases positioned : shardIndex rocks hash shards call.request.key with
      | none => exact stays
      | some index =>
          dsimp only
          cases found : shards[index]? with
          | none => exact stays
          | some db =>
              have here : route hash count call.request.key = index := by
                unfold shardIndex at positioned
                split_ifs at positioned
                rw [running.length] at positioned
                exact Option.some.inj positioned
              have fits := (Running.serve (running.keeps index db found) call here).1
              have continued := running.step found call here
              have later := inductionHypothesis continued
                ⟨allFit_nil _, (List.append_nil _).symm ▸ continued⟩
              refine ⟨later.1.cons fits, ?_⟩
              have finished := later.2
              rwa [List.append_assoc] at finished

end Running

section Sessions

variable {documented : rocks.Documented} {disk : Disk rocks} {history : List (Answered V)}

end Sessions

/-- A library that keeps maps.  A fault is the text of the error, if any. -/
abbrev RocksDb.maps : RocksDb where
  Directory := String -> Family
  Db := List String × (String -> Family)
  Fault := Option String
  openCf fault directory names :=
    match fault with
    | some message => .error (message, directory)
    | none => .ok (names, directory)
  cfHandle db name := decide (name ∈ db.1)
  putCf fault db name key bytes :=
    match fault with
    | some message => (.error message, db)
    | none =>
        (.ok (), db.1,
          Function.update db.2 name (Function.update (db.2 name) key (some bytes)))
  getCf fault db name key :=
    match fault with
    | some message => .error message
    | none => .ok (db.2 name key)
  close db := db.2

/-- The serializer for numbers.  `display` renders the errors of the format. -/
def Serializer.u32 (display : ReadError -> String) : Serializer UInt32 where
  serialize value := .ok (Format.u32.write value)
  deserialize bytes := (Bincode.deserialize (.expect Format.u32) bytes).mapError display
  deserialize_serialize := by
    intro value bytes written
    cases written
    rw [deserialize_expect Format.u32 (Format.u32_fits value)]
    rfl

end Storage
end KernelFlow
