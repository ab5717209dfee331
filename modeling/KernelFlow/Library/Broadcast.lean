import Mathlib

universe u

/-!
# Broadcast channels with slow readers

Every value that is sent goes to every reader that has subscribed before.  A
channel keeps the latest values only, at least as many as its capacity says.  A
reader that has fallen further behind is told so.

A broadcast library is a parameter here: its operations, and what it documents
about them.  A stream that stops at the first message that is not a value reads a
window of what was sent: nothing is skipped, repeated or reordered before the
stop.
-/

namespace Broadcast

variable {α : Type u}

/-- What a receiver is given. -/
inductive Received (α : Type u)
  | value (value : α)
  | lagged (missed : Nat)
  | closed

/-- The operations of a library.  A state is all that a channel and its receivers
share, and a receiver is named by its handle. -/
structure Library (α : Type u) where
  State : Type u
  Receiver : Type
  /-- `none` if the capacity is refused -/
  channel : Nat -> Option State
  send : State -> α -> State
  /-- the last sender is dropped -/
  close : State -> State
  subscribe : State -> Receiver × State
  /-- `none` while there is nothing to receive -/
  recv : State -> Receiver -> Option (Received α × State)

/-- What a library documents.  `Live` tells the capacity that was asked for and
whether all senders are gone; `Pending` tells the values that a receiver has yet to
receive. -/
structure Documented (library : Library α) where
  Live : library.State -> Nat -> Bool -> Prop
  Pending : library.State -> library.Receiver -> List α -> Prop
  /-- there is no channel without a place for a value -/
  refused : library.channel 0 = none
  channel {capacity : Nat} {state : library.State} :
    library.channel capacity = some state -> Live state capacity false
  send_live {state : library.State} {capacity : Nat} (value : α) :
    Live state capacity false -> Live (library.send state value) capacity false
  /-- a value goes to every receiver, after all earlier ones -/
  send_pending {state : library.State} {receiver : library.Receiver} {values : List α}
    (value : α) : Pending state receiver values ->
    Pending (library.send state value) receiver (values ++ [value])
  close_live {state : library.State} {capacity : Nat} :
    Live state capacity false -> Live (library.close state) capacity true
  close_pending {state : library.State} {receiver : library.Receiver} {values : List α} :
    Pending state receiver values -> Pending (library.close state) receiver values
  subscribe_live {state : library.State} {capacity : Nat} :
    Live state capacity false -> Live (library.subscribe state).2 capacity false
  /-- a receiver only gets what is sent after its subscription -/
  subscribe_pending {state : library.State} {capacity : Nat} : Live state capacity false ->
    Pending (library.subscribe state).2 (library.subscribe state).1 []
  subscribe_others {state : library.State} {other : library.Receiver} {values : List α} :
    Pending state other values ->
    (library.subscribe state).1 ≠ other ∧ Pending (library.subscribe state).2 other values
  recv_live {state after : library.State} {receiver : library.Receiver} {capacity : Nat}
    {closed : Bool} {answer : Received α} : Live state capacity closed ->
    library.recv state receiver = some (answer, after) -> Live after capacity closed
  recv_others {state after : library.State} {receiver other : library.Receiver}
    {values : List α} {answer : Received α} : receiver ≠ other -> Pending state other values ->
    library.recv state receiver = some (answer, after) -> Pending after other values
  /-- values arrive in the order in which they were sent -/
  recv_value {state after : library.State} {receiver : library.Receiver} {values : List α}
    {value : α} : Pending state receiver values ->
    library.recv state receiver = some (.value value, after) ->
    ∃ rest, values = value :: rest ∧ Pending after receiver rest
  /-- as many values as the capacity says are kept -/
  recv_lagged {state after : library.State} {receiver : library.Receiver} {capacity : Nat}
    {closed : Bool} {values : List α} {missed : Nat} : Live state capacity closed ->
    Pending state receiver values ->
    library.recv state receiver = some (.lagged missed, after) -> capacity < values.length
  /-- the end is told after the last value -/
  recv_closed {state after : library.State} {receiver : library.Receiver} {capacity : Nat}
    {closed : Bool} {values : List α} : Live state capacity closed ->
    Pending state receiver values -> library.recv state receiver = some (.closed, after) ->
    closed = true ∧ values = []
  recv_waiting {state : library.State} {receiver : library.Receiver} {values : List α} :
    Pending state receiver values -> library.recv state receiver = none -> values = []

/-! ## Streams -/

/-- A stream that passes values on until the first other answer. -/
structure Reader (library : Library α) where
  /-- the number of values that were sent before the subscription -/
  start : Nat
  receiver : library.Receiver
  received : List α
  ended : Bool

/-- A channel with everything that was ever sent on it, and its streams. -/
structure Relay (library : Library α) where
  state : library.State
  sent : List α
  closed : Bool
  readers : List (Reader library)

namespace Relay

variable {library : Library α}

def new (library : Library α) (capacity : Nat) : Option (Relay library) :=
  (library.channel capacity).map fun state =>
    { state := state
      sent := []
      closed := false
      readers := [] }

def send (relay : Relay library) (value : α) : Relay library :=
  { relay with
    state := library.send relay.state value
    sent := relay.sent ++ [value] }

/-- Several values, one after the other. -/
def sendAll (relay : Relay library) (values : List α) : Relay library :=
  values.foldl send relay

def close (relay : Relay library) : Relay library :=
  { relay with
    state := library.close relay.state
    closed := true }

def subscribe (relay : Relay library) : Relay library :=
  let subscribed := library.subscribe relay.state
  { relay with
    state := subscribed.2
    readers := relay.readers ++ [{
      start := relay.sent.length
      receiver := subscribed.1
      received := []
      ended := false }] }

/-- The stream gets an answer and is left as given. -/
def answered (relay : Relay library) (state : library.State) (index : Nat)
    (reader : Reader library) : Relay library :=
  { relay with
    state := state
    readers := relay.readers.set index reader }

/-- One turn of a stream, or `none` if it waits or has ended. -/
def poll (relay : Relay library) (index : Nat) : Option (Relay library) :=
  match relay.readers[index]? with
  | none => none
  | some reader =>
      if reader.ended then none
      else match library.recv relay.state reader.receiver with
        | none => none
        | some (.value value, state) =>
            some (relay.answered state index { reader with received := reader.received ++ [value] })
        | some (_, state) => some (relay.answered state index { reader with ended := true })

/-- Turns of streams in the given order.  A turn of a stream that waits or has
ended does nothing. -/
def turns (relay : Relay library) (order : List Nat) : Relay library :=
  order.foldl (fun current index => (current.poll index).getD current) relay

/-- There is nothing to receive for the stream. -/
def Waits (relay : Relay library) (reader : Reader library) : Prop :=
  reader.ended = false ∧ library.recv relay.state reader.receiver = none

@[simp] theorem sendAll_nil (relay : Relay library) : relay.sendAll [] = relay := rfl

@[simp] theorem sendAll_cons (relay : Relay library) (value : α) (values : List α) :
    relay.sendAll (value :: values) = (relay.send value).sendAll values := rfl

theorem sendAll_append (relay : Relay library) (values later : List α) :
    relay.sendAll (values ++ later) = (relay.sendAll values).sendAll later :=
  List.foldl_append

@[simp] theorem sent_sendAll (relay : Relay library) (values : List α) :
    (relay.sendAll values).sent = relay.sent ++ values := by
  induction values generalizing relay with
  | nil => exact (List.append_nil _).symm
  | cons value values inductionHypothesis =>
      rw [sendAll_cons, inductionHypothesis]
      exact List.append_assoc _ [value] values

@[simp] theorem closed_sendAll (relay : Relay library) (values : List α) :
    (relay.sendAll values).closed = relay.closed := by
  induction values generalizing relay with
  | nil => rfl
  | cons value values inductionHypothesis => exact inductionHypothesis (relay.send value)

/-- What a turn of a stream did. -/
theorem poll_cases {relay after : Relay library} {index : Nat}
    (polled : relay.poll index = some after) :
    ∃ reader answer state, relay.readers[index]? = some reader ∧ reader.ended = false ∧
      library.recv relay.state reader.receiver = some (answer, state) ∧
      ((∃ value, answer = .value value ∧ after =
          relay.answered state index { reader with received := reader.received ++ [value] }) ∨
        ((forall value, answer ≠ .value value) ∧ after =
          relay.answered state index { reader with ended := true })) := by
  unfold poll at polled
  cases found : relay.readers[index]? with
  | none =>
      rw [found] at polled
      cases polled
  | some reader =>
      simp only [found] at polled
      by_cases ended : reader.ended
      · simp only [ended, if_true, reduceCtorEq] at polled
      · rw [if_neg ended] at polled
        have running := Bool.eq_false_iff.mpr ended
        cases answered : library.recv relay.state reader.receiver with
        | none =>
            rw [answered] at polled
            cases polled
        | some pair =>
            rcases pair with ⟨answer, state⟩
            rw [answered] at polled
            refine ⟨reader, answer, state, rfl, running, answered, ?_⟩
            cases answer with
            | value value =>
                exact Or.inl ⟨value, rfl, (Option.some.inj polled).symm⟩
            | lagged missed =>
                refine Or.inr ⟨?_, (Option.some.inj polled).symm⟩
                intro value impossible
                cases impossible
            | closed =>
                refine Or.inr ⟨?_, (Option.some.inj polled).symm⟩
                intro value impossible
                cases impossible

/-- Only sending changes what was sent. -/
theorem sent_poll {relay after : Relay library} {index : Nat}
    (polled : relay.poll index = some after) : after.sent = relay.sent := by
  rcases poll_cases polled with ⟨reader, answer, state, _, _, _, ⟨value, _, rfl⟩ | ⟨_, rfl⟩⟩
  · rfl
  · rfl

theorem sent_new {capacity : Nat} {relay : Relay library}
    (created : Relay.new library capacity = some relay) : relay.sent = [] := by
  rcases Option.map_eq_some_iff.mp created with ⟨state, _made, rfl⟩
  rfl

end Relay

/-! ## The invariant -/

variable {library : Library α}

/-- The stream has received a window of what was sent, and these values are left
of it.  If it has ended, nothing is left on a closed channel, or it was left
behind. -/
structure Reader.Left (documented : Documented library) (capacity : Nat) (relay : Relay library)
    (reader : Reader library) (rest : List α) : Prop where
  begun : reader.start ≤ relay.sent.length
  split : relay.sent.drop reader.start = reader.received ++ rest
  pending : reader.ended = false -> documented.Pending relay.state reader.receiver rest
  stopped : reader.ended = true -> (relay.closed = true ∧ rest = []) ∨ capacity < rest.length

/-- Every stream reads a window, and no two streams share a receiver. -/
structure Relay.Sound (documented : Documented library) (capacity : Nat) (relay : Relay library) :
    Prop where
  live : documented.Live relay.state capacity relay.closed
  readers : forall reader, reader ∈ relay.readers -> ∃ rest, reader.Left documented capacity relay rest
  distinct : forall (one other : Nat) (first second : Reader library),
    relay.readers[one]? = some first -> relay.readers[other]? = some second -> one ≠ other ->
    first.ended = false -> second.ended = false -> first.receiver ≠ second.receiver

namespace Relay.Sound

variable {documented : Documented library} {capacity : Nat} {relay after : Relay library}

theorem new (created : Relay.new library capacity = some relay) :
    Sound documented capacity relay := by
  rcases Option.map_eq_some_iff.mp created with ⟨state, made, rfl⟩
  exact {
    live := documented.channel made
    readers := fun _reader impossible => nomatch impossible
    distinct := fun _one _other _first _second impossible => nomatch impossible }

/-- A value is one more that is left for every stream.  Nothing is sent on a closed
channel. -/
theorem send (sound : Sound documented capacity relay) (open_ : relay.closed = false) (value : α) :
    Sound documented capacity (relay.send value) where
  live := by
    have live := sound.live
    rw [open_] at live
    change documented.Live (library.send relay.state value) capacity relay.closed
    rw [open_]
    exact documented.send_live value live
  readers := by
    intro reader member
    rcases sound.readers reader member with ⟨rest, left⟩
    refine ⟨rest ++ [value], ?_, ?_, ?_, ?_⟩
    · change reader.start ≤ (relay.sent ++ [value]).length
      rw [List.length_append]
      exact Nat.le_add_right_of_le left.begun
    · change (relay.sent ++ [value]).drop reader.start = _
      rw [List.drop_append_of_le_length left.begun, left.split, List.append_assoc]
    · intro running
      exact documented.send_pending value (left.pending running)
    · intro ended
      rcases left.stopped ended with ⟨closed, _⟩ | behind
      · rw [open_] at closed
        cases closed
      · refine Or.inr ?_
        rw [List.length_append]
        exact Nat.lt_add_right _ behind
  distinct := sound.distinct

theorem sendAll (sound : Sound documented capacity relay) (open_ : relay.closed = false)
    (values : List α) : Sound documented capacity (relay.sendAll values) := by
  induction values generalizing relay with
  | nil => exact sound
  | cons value values inductionHypothesis => exact inductionHypothesis (sound.send open_ value) open_

theorem close (sound : Sound documented capacity relay) (open_ : relay.closed = false) :
    Sound documented capacity relay.close where
  live := by
    have live := sound.live
    rw [open_] at live
    exact documented.close_live live
  readers := by
    intro reader member
    rcases sound.readers reader member with ⟨rest, left⟩
    refine ⟨rest, left.begun, left.split, ?_, ?_⟩
    · intro running
      exact documented.close_pending (left.pending running)
    · intro ended
      rcases left.stopped ended with ⟨closed, _⟩ | behind
      · rw [open_] at closed
        cases closed
      · exact Or.inr behind
  distinct := sound.distinct

/-- The new receiver is none of those that still have values to receive. -/
theorem subscribe (sound : Sound documented capacity relay) (open_ : relay.closed = false) :
    Sound documented capacity relay.subscribe := by
  have live := sound.live
  rw [open_] at live
  have fresh : forall reader, reader ∈ relay.readers -> reader.ended = false ->
      (library.subscribe relay.state).1 ≠ reader.receiver := by
    intro reader member running
    rcases sound.readers reader member with ⟨rest, left⟩
    exact (documented.subscribe_others (left.pending running)).1
  have position : forall (index : Nat) (reader : Reader library),
      relay.subscribe.readers[index]? = some reader ->
      relay.readers[index]? = some reader ∨
        (index = relay.readers.length ∧ reader.receiver = (library.subscribe relay.state).1) := by
    intro index reader found
    by_cases old : index < relay.readers.length
    · exact Or.inl ((List.getElem?_append_left old).symm.trans found)
    · have later := (List.getElem?_append_right (Nat.not_lt.mp old)).symm.trans found
      have first := (List.getElem?_eq_some_iff.mp later).1
      rw [List.length_singleton] at first
      rw [List.mem_singleton.mp (List.mem_of_getElem? later)]
      exact Or.inr ⟨by omega, rfl⟩
  refine ⟨?_, ?_, ?_⟩
  · change documented.Live (library.subscribe relay.state).2 capacity relay.closed
    rw [open_]
    exact documented.subscribe_live live
  · intro reader member
    rcases List.mem_append.mp member with old | new
    · rcases sound.readers reader old with ⟨rest, left⟩
      refine ⟨rest, left.begun, left.split, ?_, left.stopped⟩
      intro running
      exact (documented.subscribe_others (left.pending running)).2
    · rw [List.mem_singleton.mp new]
      exact ⟨[], Nat.le_refl _, List.drop_length,
        fun _running => documented.subscribe_pending live, fun impossible => nomatch impossible⟩
  · intro one other first second foundFirst foundSecond different firstRuns secondRuns
    rcases position one first foundFirst with oldFirst | ⟨rfl, newFirst⟩
    · rcases position other second foundSecond with oldSecond | ⟨rfl, newSecond⟩
      · exact sound.distinct one other first second oldFirst oldSecond different firstRuns secondRuns
      · rw [newSecond]
        exact (fresh first (List.mem_of_getElem? oldFirst) firstRuns).symm
    · rcases position other second foundSecond with oldSecond | ⟨rfl, newSecond⟩
      · rw [newFirst]
        exact fresh second (List.mem_of_getElem? oldSecond) secondRuns
      · exact absurd rfl different

/-- A stream that is answered keeps its receiver, and the other streams do not
notice. -/
theorem answered (sound : Sound documented capacity relay) {index : Nat}
    {reader : Reader library} (next : Reader library) {answer : Received α}
    {state : library.State} (found : relay.readers[index]? = some reader) (running : reader.ended = false)
    (received : library.recv relay.state reader.receiver = some (answer, state))
    (same : next.receiver = reader.receiver)
    (left : ∃ rest, next.Left documented capacity (relay.answered state index next) rest) :
    Sound documented capacity (relay.answered state index next) := by
  have position : forall (other : Nat) (one : Reader library),
      (relay.readers.set index next)[other]? = some one ->
      (index = other ∧ one = next) ∨ (index ≠ other ∧ relay.readers[other]? = some one) := by
    intro other one here
    by_cases own : index = other
    · subst own
      rw [List.getElem?_set_self (List.getElem?_eq_some_iff.mp found).1] at here
      exact Or.inl ⟨rfl, (Option.some.inj here).symm⟩
    · rw [List.getElem?_set_ne own] at here
      exact Or.inr ⟨own, here⟩
  refine ⟨documented.recv_live sound.live received, ?_, ?_⟩
  · intro one member
    rcases List.mem_iff_getElem?.mp member with ⟨other, here⟩
    rcases position other one here with ⟨_, rfl⟩ | ⟨different, old⟩
    · exact left
    · rcases sound.readers one (List.mem_of_getElem? old) with ⟨rest, leftThere⟩
      refine ⟨rest, leftThere.begun, leftThere.split, ?_, leftThere.stopped⟩
      intro runsThere
      have apart := sound.distinct index other reader one found old different running runsThere
      exact documented.recv_others apart (leftThere.pending runsThere) received
  · intro one other first second foundFirst foundSecond different firstRuns secondRuns
    rcases position one first foundFirst with ⟨rfl, rfl⟩ | ⟨_, oldFirst⟩
    · rcases position other second foundSecond with ⟨rfl, _⟩ | ⟨_, oldSecond⟩
      · exact absurd rfl different
      · rw [same]
        exact sound.distinct index other reader second found oldSecond different running secondRuns
    · rcases position other second foundSecond with ⟨rfl, rfl⟩ | ⟨_, oldSecond⟩
      · rw [same]
        exact sound.distinct one index first reader oldFirst found different firstRuns running
      · exact sound.distinct one other first second oldFirst oldSecond different firstRuns secondRuns

theorem poll (sound : Sound documented capacity relay) {index : Nat}
    (polled : relay.poll index = some after) : Sound documented capacity after := by
  rcases Relay.poll_cases polled with ⟨reader, answer, state, found, running, received, outcome⟩
  rcases sound.readers reader (List.mem_of_getElem? found) with ⟨rest, left⟩
  have pending := left.pending running
  rcases outcome with ⟨value, rfl, rfl⟩ | ⟨other, rfl⟩
  · refine sound.answered _ found running received rfl ?_
    rcases documented.recv_value pending received with ⟨later, rfl, pendingLater⟩
    refine ⟨later, left.begun, ?_, fun _running => pendingLater, ?_⟩
    · change relay.sent.drop reader.start = (reader.received ++ [value]) ++ later
      rw [left.split, List.append_assoc, List.singleton_append]
    · intro ended
      rw [running] at ended
      cases ended
  · refine sound.answered _ found running received rfl ?_
    refine ⟨rest, left.begun, left.split, (fun impossible => nomatch impossible), ?_⟩
    intro _ended
    cases answer with
    | value value => exact absurd rfl (other value)
    | lagged missed => exact Or.inr (documented.recv_lagged sound.live pending received)
    | closed => exact Or.inl (documented.recv_closed sound.live pending received)

/-- What was received is a contiguous part of what was sent. -/
theorem infix_sent (sound : Sound documented capacity relay) {reader : Reader library}
    (member : reader ∈ relay.readers) : reader.received <:+: relay.sent := by
  rcases sound.readers reader member with ⟨rest, left⟩
  have start : reader.received <+: relay.sent.drop reader.start := left.split ▸ List.prefix_append _ _
  exact start.isInfix.trans (List.drop_suffix _ _).isInfix

/-- A stream that waits has received everything since its subscription. -/
theorem received_of_waits (sound : Sound documented capacity relay) {reader : Reader library}
    (member : reader ∈ relay.readers) (waits : relay.Waits reader) :
    reader.received = relay.sent.drop reader.start := by
  rcases sound.readers reader member with ⟨rest, left⟩
  rcases waits with ⟨running, waiting⟩
  rw [left.split, documented.recv_waiting (left.pending running) waiting, List.append_nil]

/-- A stream that has ended has everything from a closed channel, or more than the
capacity was ahead of it. -/
theorem received_of_ended (sound : Sound documented capacity relay) {reader : Reader library}
    (member : reader ∈ relay.readers) (ended : reader.ended = true) :
    (relay.closed = true ∧ reader.received = relay.sent.drop reader.start) ∨
      reader.start + reader.received.length + capacity < relay.sent.length := by
  rcases sound.readers reader member with ⟨rest, left⟩
  rcases left.stopped ended with ⟨closed, rfl⟩ | behind
  · refine Or.inl ⟨closed, ?_⟩
    rw [left.split, List.append_nil]
  · refine Or.inr ?_
    have length := congrArg List.length left.split
    have begun := left.begun
    rw [List.length_drop, List.length_append] at length
    omega

end Relay.Sound

/-! ## A ring of slots -/

/-- A channel whose number of slots is the next power of two.  The latest values
are in the slots, and every receiver has its position. -/
structure Ring (α : Type u) where
  slots : Nat
  sent : List α
  closed : Bool
  cursors : List Nat

namespace Ring

def new (capacity : Nat) : Ring α where
  slots := 2 ^ Nat.clog 2 capacity
  sent := []
  closed := false
  cursors := []

def recv (ring : Ring α) (receiver : Nat) : Option (Received α × Ring α) :=
  match ring.cursors[receiver]? with
  | none => none
  | some next =>
      let oldest := ring.sent.length - ring.slots
      if next < oldest then
        some (.lagged (oldest - next), { ring with cursors := ring.cursors.set receiver oldest })
      else match ring.sent[next]? with
        | some value =>
            some (.value value, { ring with cursors := ring.cursors.set receiver (next + 1) })
        | none => if ring.closed then some (.closed, ring) else none

/-- A capacity of nothing or of more than half the address space is refused. -/
def channels (α : Type u) : Library α where
  State := Ring α
  Receiver := Nat
  channel := fun capacity =>
    if capacity = 0 ∨ 2 ^ 63 ≤ capacity then none
    else some (new capacity)
  send := fun ring value => { ring with sent := ring.sent ++ [value] }
  close := fun ring => { ring with closed := true }
  subscribe := fun ring =>
    (ring.cursors.length, { ring with cursors := ring.cursors ++ [ring.sent.length] })
  recv := recv

/-- The answers of a ring, and where the receiver is afterwards. -/
theorem recv_cases {ring after : Ring α} {receiver : Nat} {answer : Received α}
    (received : ring.recv receiver = some (answer, after)) :
    ∃ next, ring.cursors[receiver]? = some next ∧
      ((next < ring.sent.length - ring.slots ∧ (∃ missed, answer = .lagged missed) ∧
          after = { ring with
            cursors := ring.cursors.set receiver (ring.sent.length - ring.slots) }) ∨
        (∃ value, ring.sent[next]? = some value ∧ answer = .value value ∧
          after = { ring with cursors := ring.cursors.set receiver (next + 1) }) ∨
        (ring.sent[next]? = none ∧ ring.closed = true ∧ answer = .closed ∧ after = ring)) := by
  unfold recv at received
  cases found : ring.cursors[receiver]? with
  | none =>
      rw [found] at received
      cases received
  | some next =>
      simp only [found] at received
      refine ⟨next, rfl, ?_⟩
      by_cases behind : next < ring.sent.length - ring.slots
      · rw [if_pos behind] at received
        cases received
        exact Or.inl ⟨behind, ⟨_, rfl⟩, rfl⟩
      · rw [if_neg behind] at received
        cases present : ring.sent[next]? with
        | some value =>
            rw [present] at received
            cases received
            exact Or.inr (Or.inl ⟨value, rfl, rfl, rfl⟩)
        | none =>
            simp only [present] at received
            cases closed : ring.closed with
            | false => simp only [closed, Bool.false_eq_true, if_false, reduceCtorEq] at received
            | true =>
                simp only [closed, if_true, Option.some.injEq, Prod.mk.injEq] at received
                exact Or.inr (Or.inr ⟨rfl, rfl, received.1.symm, received.2.symm⟩)

/-- The values from the position of the receiver on. -/
def Pending (ring : Ring α) (receiver : Nat) (values : List α) : Prop :=
  ∃ next, ring.cursors[receiver]? = some next ∧ next ≤ ring.sent.length ∧
    values = ring.sent.drop next

/-- A turn of one receiver only moves its own position. -/
theorem recv_frame {ring after : Ring α} {receiver : Nat} {answer : Received α}
    (received : ring.recv receiver = some (answer, after)) :
    after.slots = ring.slots ∧ after.sent = ring.sent ∧ after.closed = ring.closed ∧
      forall other, receiver ≠ other -> after.cursors[other]? = ring.cursors[other]? := by
  rcases recv_cases received with
    ⟨next, _found, ⟨_, _, rfl⟩ | ⟨value, _, _, rfl⟩ | ⟨_, _, _, rfl⟩⟩
  · exact ⟨rfl, rfl, rfl, fun _other different => List.getElem?_set_ne different⟩
  · exact ⟨rfl, rfl, rfl, fun _other different => List.getElem?_set_ne different⟩
  · exact ⟨rfl, rfl, rfl, fun _other _different => rfl⟩

/-- A ring behaves as documented: rounding its size up only keeps more values. -/
def documented (α : Type u) : Documented (channels α) where
  Live := fun ring capacity closed => capacity ≤ ring.slots ∧ ring.closed = closed
  Pending := Pending
  refused := rfl
  channel := by
    intro capacity ring made
    simp only [channels] at made
    split at made
    · cases made
    · cases made
      exact ⟨Nat.le_pow_clog (by decide) capacity, rfl⟩
  send_live := fun _value live => live
  send_pending := by
    rintro ring receiver values value ⟨next, found, within, rfl⟩
    refine ⟨next, found, ?_, (List.drop_append_of_le_length within).symm⟩
    exact Nat.le_trans within (List.sublist_append_left ring.sent [value]).length_le
  close_live := fun live => ⟨live.1, rfl⟩
  close_pending := fun pending => pending
  subscribe_live := fun live => live
  subscribe_pending := by
    intro ring capacity _live
    exact ⟨ring.sent.length, List.getElem?_concat_length, Nat.le_refl _, List.drop_length.symm⟩
  subscribe_others := by
    rintro ring other values ⟨next, found, within, rfl⟩
    have known := (List.getElem?_eq_some_iff.mp found).1
    refine ⟨Nat.ne_of_gt known, next, ?_, within, rfl⟩
    exact (List.getElem?_append_left known).trans found
  recv_live := by
    intro ring after receiver capacity closed answer live received
    have frame := recv_frame received
    exact ⟨frame.1 ▸ live.1, frame.2.2.1.trans live.2⟩
  recv_others := by
    rintro ring after receiver other values answer different ⟨next, found, within, rfl⟩ received
    rcases recv_frame received with ⟨_, sent, _, others⟩
    exact ⟨next, (others other different).trans found, sent ▸ within, sent ▸ rfl⟩
  recv_value := by
    rintro ring after receiver values value ⟨next, found, _within, rfl⟩ received
    rcases recv_cases received with
      ⟨here, foundHere, ⟨_, ⟨missed, impossible⟩, _⟩ | ⟨_, present, same, rfl⟩ | ⟨_, _, impossible, _⟩⟩
    · cases impossible
    · cases found.symm.trans foundHere
      cases same
      rcases List.getElem?_eq_some_iff.mp present with ⟨bound, value⟩
      refine ⟨ring.sent.drop (next + 1), ?_, next + 1, ?_, bound, rfl⟩
      · rw [List.drop_eq_getElem_cons bound, value]
      · exact List.getElem?_set_self (List.getElem?_eq_some_iff.mp found).1
    · cases impossible
  recv_lagged := by
    rintro ring after receiver capacity closed values missed live ⟨next, found, within, rfl⟩ received
    rcases recv_cases received with
      ⟨here, foundHere, ⟨behind, _, _⟩ | ⟨_, _, impossible, _⟩ | ⟨_, _, impossible, _⟩⟩
    · cases found.symm.trans foundHere
      have room := live.1
      rw [List.length_drop]
      omega
    · cases impossible
    · cases impossible
  recv_closed := by
    rintro ring after receiver capacity closed values live ⟨next, found, _within, rfl⟩ received
    rcases recv_cases received with
      ⟨here, foundHere, ⟨_, ⟨missed, impossible⟩, _⟩ | ⟨_, _, impossible, _⟩ | ⟨absent, shut, _, _⟩⟩
    · cases impossible
    · cases impossible
    · cases found.symm.trans foundHere
      exact ⟨live.2.symm.trans shut, List.drop_eq_nil_of_le (List.getElem?_eq_none_iff.mp absent)⟩
  recv_waiting := by
    rintro ring receiver values ⟨next, found, _within, rfl⟩ waiting
    simp only [channels, recv, found] at waiting
    by_cases behind : next < ring.sent.length - ring.slots
    · rw [if_pos behind] at waiting
      cases waiting
    · rw [if_neg behind] at waiting
      cases present : ring.sent[next]? with
      | some value =>
          rw [present] at waiting
          cases waiting
      | none => exact List.drop_eq_nil_of_le (List.getElem?_eq_none_iff.mp present)

end Ring

end Broadcast
