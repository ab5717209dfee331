import Mathlib
import KernelFlow.Library.Broadcast
import KernelFlow.Scheduler.Progress

namespace KernelFlow
namespace Scheduler

open Transition Broadcast

/-!
# The event bus

The runs of one scheduler share a broadcast channel, and any number of
subscription streams read from it.  Runs may begin and overlap as they like, and
streams may be slow.  A stream ends at the first answer that is not an event, so
a subscriber that is left behind is cut off and not moved ahead.

What a subscriber has seen of one workflow is a contiguous part of the log of
that run.  From the start of a run on it is a prefix of the log, so a subscriber
never sees an effect before its cause.
-/

variable {P : Type} {dag : Dag P} {backend : HashBackend}
  {calls : NodeInput -> KernelResult NodeOutput -> Prop}

/-- The events of one workflow. -/
def eventsOf (id : WorkflowId) (events : List KernelEvent) : List KernelEvent :=
  events.filter fun event => event.workflowId == id

/-! ## The log of one run -/

/-- A step only appends to the log. -/
theorem Step.events {before after : RunState} (step : Step dag backend calls before after) :
    before.events <+: after.events := by
  rcases step with advanced | ⟨position, input, result, _control, _found, _called, rfl⟩
  · rcases RunState.advance_frame advanced with ⟨_outputs, _inflight, events, appended⟩
    rw [appended]
    exact List.prefix_append _ _
  · cases result with
    | ok output => exact List.prefix_append _ _
    | error error => exact List.prefix_append _ _

/-- A run only emits events of its own workflow. -/
theorem Log.workflowId {state : RunState} (log : Log dag backend calls state)
    {event : KernelEvent} (member : event ∈ state.events) : event.workflowId = dag.id := by
  rcases log.shape with ⟨body, terminal, events, inside, exits, unfinished⟩
  rw [events] at member
  rcases List.mem_append.mp member with first | last
  · rcases List.mem_cons.mp first with rfl | node
    · rfl
    · have isNode := inside event node
      cases event with
      | nodeStarted workflow node attempt => exact isNode.1
      | nodeCompleted workflow node outcome => exact isNode.1
      | _ => exact isNode.elim
  · by_cases returned : ∃ result, state.control = .returned result
    · rcases returned with ⟨result, control⟩
      cases exits result control with
      | completed idle drained all =>
          rw [List.mem_singleton.mp last]
          rfl
      | unreached idle drained missing => cases last
      | failed input error inflight called =>
          rw [List.mem_singleton.mp last]
          rfl
    · rw [unfinished fun result control => returned ⟨result, control⟩] at last
      cases last

/-- Node events are announcements and completions. -/
theorem length_of_nodeEvents {events : List KernelEvent}
    (inside : forall event, event ∈ events -> IsNodeEvent dag event) :
    events.length = (startedNodes events).length + (completions events).length := by
  induction events with
  | nil => rfl
  | cons event events inductionHypothesis =>
      have rest := inductionHypothesis fun event member =>
        inside event (List.mem_cons_of_mem _ member)
      have isNode := inside event List.mem_cons_self
      cases event with
      | nodeStarted workflow node attempt =>
          change events.length + 1 = (startedNodes events).length + 1 + (completions events).length
          omega
      | nodeCompleted workflow node outcome =>
          change events.length + 1 = (startedNodes events).length +
            ((completions events).length + 1)
          omega
      | _ => exact isNode.elim

/-- A run emits at most two events for a node, one at its start and one at its
end. -/
theorem events_length_le (wellFormed : dag.WellFormed) {state : RunState}
    (run : Reaches (Step dag backend calls) (start dag) state) :
    state.events.length ≤ 2 * dag.nodes.size + 2 := by
  have invariant := Invariant.reachable wellFormed run
  have log := Log.reachable wellFormed run
  have declared : forall nodes : List NodeId, nodes.Nodup ->
      (forall node, node ∈ nodes -> node ∈ dag.nodes) -> nodes.length ≤ dag.nodes.size := by
    intro nodes distinct known
    rw [← Std.ExtTreeMap.length_keys]
    exact (distinct.subperm fun node member =>
      Std.ExtTreeMap.mem_keys.mpr (known node member)).length_le
  have started : (startedNodes state.events).length ≤ dag.nodes.size := by
    apply declared
    · exact (List.nodup_append.mp (List.nodup_append.mp invariant.counts.nodup).1).1
    · exact fun node member => invariant.declared_of_seen (Invariant.seen_of_started member)
  have completed : (completions state.events).length ≤ dag.nodes.size := by
    rw [← List.length_map (f := Prod.fst)]
    apply declared _ log.completions_nodup
    intro node member
    exact invariant.declared_of_seen
      (invariant.seen_of_output ((log.completions_iff node).mp member))
  rcases log.shape with ⟨body, terminal, events, inside, exits, unfinished⟩
  have last : terminal.length ≤ 1 := by
    by_cases returned : ∃ result, state.control = .returned result
    · rcases returned with ⟨result, control⟩
      cases exits result control with
      | completed idle drained all => exact Nat.le_refl _
      | unreached idle drained missing => exact Nat.zero_le _
      | failed input error inflight called => exact Nat.le_refl _
    · rw [unfinished fun result control => returned ⟨result, control⟩]
      exact Nat.zero_le _
  have counted := length_of_nodeEvents inside
  have startedBody : (startedNodes body).length ≤ (startedNodes state.events).length := by
    rw [events, ← List.singleton_append, startedNodes_append, startedNodes_append,
      List.length_append, List.length_append]
    omega
  have completedBody : (completions body).length ≤ (completions state.events).length := by
    rw [events, ← List.singleton_append, completions_append, completions_append,
      List.length_append, List.length_append]
    omega
  rw [events, List.length_append, List.length_cons]
  omega

/-! ## Runs and streams on one channel -/

/-- A scheduler with its runs, and its channel with the subscriptions.  The history
is what was sent, with the number of the run that sent each event. -/
structure Hub (P : Type) (library : Library KernelEvent) where
  relay : Relay library
  history : List (Nat × KernelEvent)
  runs : List (Dag P × RunState)

namespace Hub

variable {library : Library KernelEvent}

/-- `Scheduler::new`, which panics if the library refuses the buffer. -/
def new (library : Library KernelEvent) (eventBuffer : Nat) : Option (Hub P library) :=
  (Relay.new library eventBuffer).map fun relay =>
    { relay := relay
      history := []
      runs := [] }

/-- A run sends events. -/
def emit (hub : Hub P library) (index : Nat) (events : List KernelEvent) : Hub P library :=
  { hub with
    relay := hub.relay.sendAll events
    history := hub.history ++ events.map fun event => (index, event) }

end Hub

/-- One action of the scheduler, of a run or of a stream. -/
inductive HubStep {library : Library KernelEvent} (backend : HashBackend)
    (before : Hub P library) : Hub P library -> Prop
  | begin (dag : Dag P) (accepted : dag.Accepted) (open_ : before.relay.closed = false) :
      HubStep backend before
        { before.emit before.runs.length (start dag).events with
          runs := before.runs ++ [(dag, start dag)] }
  | run (index : Nat) (dag : Dag P) (state after : RunState)
      (found : before.runs[index]? = some (dag, state)) (open_ : before.relay.closed = false)
      (step : Step dag backend anyResult state after) :
      HubStep backend before
        { before.emit index (after.events.drop state.events.length) with
          runs := before.runs.set index (dag, after) }
  | subscribe (open_ : before.relay.closed = false) :
      HubStep backend before { before with relay := before.relay.subscribe }
  | poll (index : Nat) (relay : Relay library) (polled : before.relay.poll index = some relay) :
      HubStep backend before { before with relay := relay }
  | close (open_ : before.relay.closed = false) :
      HubStep backend before { before with relay := before.relay.close }

/-- The events that one run has sent. -/
def sentBy (index : Nat) (history : List (Nat × KernelEvent)) : List KernelEvent :=
  (history.filter fun entry => entry.1 == index).map Prod.snd

theorem sentBy_append (index : Nat) (first second : List (Nat × KernelEvent)) :
    sentBy index (first ++ second) = sentBy index first ++ sentBy index second := by
  rw [sentBy, List.filter_append, List.map_append]
  rfl

theorem sentBy_own (index : Nat) (events : List KernelEvent) :
    sentBy index (events.map fun event => (index, event)) = events := by
  simp [sentBy, List.filter_map, Function.comp_def]

theorem sentBy_other {index other : Nat} (different : other ≠ index)
    (events : List KernelEvent) :
    sentBy index (events.map fun event => (other, event)) = [] := by
  simp [sentBy, List.filter_map, Function.comp_def, different]

/-! ## The invariant -/

/-- The channel carried the logs of the runs, interleaved, and every stream reads
a window of it. -/
structure Hub.Sound {library : Library KernelEvent} (documented : Documented library)
    (eventBuffer : Nat) (backend : HashBackend) (hub : Hub P library) : Prop where
  sent : hub.relay.sent = hub.history.map Prod.snd
  accepted : forall (index : Nat) (dag : Dag P) (state : RunState),
    hub.runs[index]? = some (dag, state) -> dag.Accepted
  reached : forall (index : Nat) (dag : Dag P) (state : RunState),
    hub.runs[index]? = some (dag, state) ->
    Reaches (Step dag backend anyResult) (start dag) state
  logs : forall (index : Nat) (dag : Dag P) (state : RunState),
    hub.runs[index]? = some (dag, state) -> sentBy index hub.history = state.events
  owners : forall entry, entry ∈ hub.history -> entry.1 < hub.runs.length
  relay : hub.relay.Sound documented eventBuffer

namespace Hub.Sound

variable {library : Library KernelEvent} {documented : Documented library} {eventBuffer : Nat}
  {hub : Hub P library}

theorem begin (sound : Sound documented eventBuffer backend hub) (accepted : dag.Accepted)
    (open_ : hub.relay.closed = false) :
    Sound documented eventBuffer backend { hub.emit hub.runs.length (start dag).events with
      runs := hub.runs ++ [(dag, start dag)] } := by
  have split : forall (index : Nat) (other : Dag P) (state : RunState),
      (hub.runs ++ [(dag, start dag)])[index]? = some (other, state) ->
      hub.runs[index]? = some (other, state) ∨
        (index = hub.runs.length ∧ other = dag ∧ state = start dag) := by
    intro index other state found
    by_cases old : index < hub.runs.length
    · rw [List.getElem?_append_left old] at found
      exact Or.inl found
    · rw [List.getElem?_append_right (Nat.not_lt.mp old)] at found
      have first := (List.getElem?_eq_some_iff.mp found).1
      rw [List.length_singleton] at first
      have same := List.mem_singleton.mp (List.mem_of_getElem? found)
      exact Or.inr ⟨by omega, congrArg Prod.fst same, congrArg Prod.snd same⟩
  exact {
    sent := by
      change (hub.relay.sendAll _).sent = (hub.history ++ _).map Prod.snd
      rw [Relay.sent_sendAll, sound.sent, List.map_append, List.map_map]
      congr 1
      exact (List.map_id _).symm
    accepted := by
      intro index other state found
      rcases split index other state found with old | ⟨_, rfl, _⟩
      · exact sound.accepted index other state old
      · exact accepted
    reached := by
      intro index other state found
      rcases split index other state found with old | ⟨_, rfl, rfl⟩
      · exact sound.reached index other state old
      · exact .refl
    logs := by
      intro index other state found
      change sentBy index (hub.history ++ _) = _
      rw [sentBy_append]
      rcases split index other state found with old | ⟨rfl, rfl, rfl⟩
      · have different : hub.runs.length ≠ index :=
          Nat.ne_of_gt (List.getElem?_eq_some_iff.mp old).1
        rw [sentBy_other different, List.append_nil]
        exact sound.logs index other state old
      · have none : sentBy hub.runs.length hub.history = [] := by
          rw [sentBy, List.map_eq_nil_iff, List.filter_eq_nil_iff]
          intro entry member same
          exact absurd (beq_iff_eq.mp same) (Nat.ne_of_lt (sound.owners entry member))
        rw [none, sentBy_own, List.nil_append]
    owners := by
      intro entry member
      change entry.1 < (hub.runs ++ [_]).length
      rw [List.length_append, List.length_singleton]
      rcases List.mem_append.mp member with old | added
      · exact Nat.lt_succ_of_lt (sound.owners entry old)
      · rcases List.mem_map.mp added with ⟨event, _, rfl⟩
        exact Nat.lt_succ_self _
    relay := sound.relay.sendAll open_ _ }

theorem run (sound : Sound documented eventBuffer backend hub) {index : Nat}
    {state after : RunState} (found : hub.runs[index]? = some (dag, state))
    (open_ : hub.relay.closed = false) (step : Step dag backend anyResult state after) :
    Sound documented eventBuffer backend { hub.emit index (after.events.drop state.events.length) with
      runs := hub.runs.set index (dag, after) } := by
  have split : forall (position : Nat) (other : Dag P) (otherState : RunState),
      (hub.runs.set index (dag, after))[position]? = some (other, otherState) ->
      (index ≠ position ∧ hub.runs[position]? = some (other, otherState)) ∨
        (index = position ∧ other = dag ∧ otherState = after) := by
    intro position other otherState foundHere
    by_cases same : index = position
    · subst same
      rw [List.getElem?_set_self (List.getElem?_eq_some_iff.mp found).1] at foundHere
      cases foundHere
      exact Or.inr ⟨rfl, rfl, rfl⟩
    · rw [List.getElem?_set_ne same] at foundHere
      exact Or.inl ⟨same, foundHere⟩
  exact {
    sent := by
      change (hub.relay.sendAll _).sent = (hub.history ++ _).map Prod.snd
      rw [Relay.sent_sendAll, sound.sent, List.map_append, List.map_map]
      congr 1
      exact (List.map_id _).symm
    accepted := by
      intro position other otherState foundHere
      rcases split position other otherState foundHere with ⟨_, old⟩ | ⟨_, rfl, _⟩
      · exact sound.accepted position other otherState old
      · exact sound.accepted index other state found
    reached := by
      intro position other otherState foundHere
      rcases split position other otherState foundHere with ⟨_, old⟩ | ⟨_, rfl, rfl⟩
      · exact sound.reached position other otherState old
      · exact (sound.reached index other state found).tail step
    logs := by
      intro position other otherState foundHere
      change sentBy position (hub.history ++ _) = _
      rw [sentBy_append]
      rcases split position other otherState foundHere with ⟨different, old⟩ | ⟨rfl, rfl, rfl⟩
      · rw [sentBy_other different, List.append_nil]
        exact sound.logs position other otherState old
      · rw [sentBy_own, sound.logs index other state found]
        exact List.prefix_iff_eq_append.mp step.events
    owners := by
      intro entry member
      change entry.1 < (hub.runs.set index _).length
      rw [List.length_set]
      rcases List.mem_append.mp member with old | added
      · exact sound.owners entry old
      · rcases List.mem_map.mp added with ⟨event, _, rfl⟩
        exact (List.getElem?_eq_some_iff.mp found).1
    relay := sound.relay.sendAll open_ _ }

theorem step {before after : Hub P library} (sound : Sound documented eventBuffer backend before)
    (step : HubStep backend before after) : Sound documented eventBuffer backend after := by
  cases step with
  | begin dag accepted open_ => exact sound.begin accepted open_
  | run index dag state after found open_ moved => exact sound.run found open_ moved
  | subscribe open_ => exact { sound with relay := sound.relay.subscribe open_ }
  | poll index relay polled =>
      exact { sound with
        sent := (Relay.sent_poll polled).trans sound.sent
        relay := sound.relay.poll polled }
  | close open_ => exact { sound with relay := sound.relay.close open_ }

theorem reachable (documented : Documented library) {first : Hub P library}
    (created : Hub.new library eventBuffer = some first)
    (run : Reaches (HubStep backend) first hub) : Sound documented eventBuffer backend hub := by
  refine run.invariant ?_ fun _before _after sound step => sound.step step
  rcases Option.map_eq_some_iff.mp created with ⟨relay, made, rfl⟩
  exact {
    sent := Relay.sent_new made
    accepted := fun _index _dag _state impossible => nomatch impossible
    reached := fun _index _dag _state impossible => nomatch impossible
    logs := fun _index _dag _state impossible => nomatch impossible
    owners := fun _entry impossible => nomatch impossible
    relay := .new made }

end Hub.Sound

/-! ## What a subscriber sees -/

section Subscribers

variable {library : Library KernelEvent} {documented : Documented library} {eventBuffer : Nat}
  {hub : Hub P library}

/-- With distinct workflow ids, the events of a workflow on the channel are the
log of its run. -/
theorem Hub.Sound.eventsOf_sent (sound : Sound documented eventBuffer backend hub)
    (distinct : (hub.runs.map fun run => run.1.id).Nodup) {index : Nat} {state : RunState}
    (found : hub.runs[index]? = some (dag, state)) :
    eventsOf dag.id hub.relay.sent = state.events := by
  have owner : forall entry, entry ∈ hub.history ->
      (entry.2.workflowId == dag.id) = (entry.1 == index) := by
    intro entry member
    have bound := sound.owners entry member
    rcases other : hub.runs[entry.1] with ⟨otherDag, otherState⟩
    have foundOther : hub.runs[entry.1]? = some (otherDag, otherState) := by
      rw [List.getElem?_eq_getElem bound, other]
    have logged : entry.2 ∈ otherState.events := by
      rw [← sound.logs entry.1 otherDag otherState foundOther]
      exact List.mem_map.mpr ⟨entry, List.mem_filter.mpr ⟨member, beq_self_eq_true _⟩, rfl⟩
    have named := (Log.reachable (sound.accepted _ _ _ foundOther).wellFormed
      (sound.reached _ _ _ foundOther)).workflowId logged
    rw [Bool.eq_iff_iff, beq_iff_eq, beq_iff_eq, named]
    constructor
    · intro sameId
      have left : (hub.runs.map fun run => run.1.id)[entry.1]? = some otherDag.id := by
        rw [List.getElem?_map, foundOther]
        rfl
      have right : (hub.runs.map fun run => run.1.id)[index]? = some otherDag.id := by
        rw [List.getElem?_map, found, sameId]
        rfl
      exact (List.getElem?_inj (List.getElem?_eq_some_iff.mp left).1 distinct).mp
        (left.trans right.symm)
    · intro sameIndex
      rw [sameIndex, found] at foundOther
      cases foundOther
      rfl
  rw [eventsOf, sound.sent, List.filter_map, ← sound.logs index dag state found, sentBy]
  congr 1
  exact List.filter_congr owner

/-- A contiguous part that contains the only first entry is a prefix. -/
theorem prefix_of_infix {α : Type} {first : α} {rest part : List α}
    (contiguous : part <:+: first :: rest) (fresh : first ∉ rest) (member : first ∈ part) :
    part <+: first :: rest := by
  rcases contiguous with ⟨before, after, whole⟩
  cases before with
  | nil => exact ⟨after, whole⟩
  | cons head tail =>
      rw [List.cons_append, List.cons_append, List.cons.injEq] at whole
      refine absurd ?_ fresh
      rw [← whole.2]
      exact List.mem_append_left _ (List.mem_append_right _ member)

/-- The first event of a log occurs nowhere else in it. -/
theorem Log.started_once {state : RunState} (log : Log dag backend calls state) :
    ∃ rest, state.events = .workflowStarted dag.id dag.name :: rest ∧
      KernelEvent.workflowStarted dag.id dag.name ∉ rest := by
  rcases log.shape with ⟨body, terminal, events, inside, exits, unfinished⟩
  refine ⟨body ++ terminal, events, ?_⟩
  intro again
  rcases List.mem_append.mp again with node | last
  · exact inside _ node
  · by_cases returned : ∃ result, state.control = .returned result
    · rcases returned with ⟨result, control⟩
      cases exits result control with
      | completed idle drained all => cases List.mem_singleton.mp last
      | unreached idle drained missing => cases last
      | failed input error inflight called => cases List.mem_singleton.mp last
    · rw [unfinished fun result control => returned ⟨result, control⟩] at last
      cases last

/-- What a stream has seen of one run. -/
structure View (dag : Dag P) (state : RunState) (seen : List KernelEvent) : Prop where
  /-- nothing is missing in between, repeated or reordered -/
  part : seen <:+: state.events
  from_start : KernelEvent.workflowStarted dag.id dag.name ∈ seen -> seen <+: state.events
  /-- a node starts in the view only after all its sources completed in the view -/
  causal : KernelEvent.workflowStarted dag.id dag.name ∈ seen ->
    forall earlier workflow node attempt later,
      seen = earlier ++ .nodeStarted workflow node attempt :: later ->
      forall edge, edge ∈ dag.edges -> edge.to = node ->
        ∃ hash gas, (edge.from, .success hash gas) ∈ completions earlier

theorem Log.view {state : RunState} (log : Log dag backend calls state) {seen : List KernelEvent}
    (part : seen <:+: state.events) : View dag state seen := by
  have fromStart : KernelEvent.workflowStarted dag.id dag.name ∈ seen -> seen <+: state.events := by
    intro member
    rcases log.started_once with ⟨rest, events, fresh⟩
    rw [events] at part ⊢
    exact prefix_of_infix part fresh member
  refine ⟨part, fromStart, ?_⟩
  intro member earlier workflow node attempt later split edge inEdges target
  rcases fromStart member with ⟨rest, whole⟩
  refine log.justified earlier (.nodeStarted workflow node attempt) (later ++ rest) ?_ edge
    inEdges target
  rw [← whole, split, List.append_assoc, List.cons_append]

theorem Hub.Sound.view (sound : Sound documented eventBuffer backend hub)
    (distinct : (hub.runs.map fun run => run.1.id).Nodup) {reader : Reader library}
    (member : reader ∈ hub.relay.readers) {index : Nat} {state : RunState}
    (found : hub.runs[index]? = some (dag, state)) :
    View dag state (eventsOf dag.id reader.received) := by
  have log := Log.reachable (sound.accepted _ _ _ found).wellFormed (sound.reached _ _ _ found)
  apply log.view
  rw [← sound.eventsOf_sent distinct found]
  exact (sound.relay.infix_sent member).filter _

/-- A scheduler is only made with room for an event. -/
theorem Hub.eventBuffer_pos (documented : Documented library) {first : Hub P library}
    (created : Hub.new library eventBuffer = some first) : 0 < eventBuffer := by
  rcases Option.map_eq_some_iff.mp created with ⟨relay, made, _⟩
  rcases Option.map_eq_some_iff.mp made with ⟨state, channel, _⟩
  apply Nat.pos_of_ne_zero
  rintro rfl
  rw [documented.refused] at channel
  cases channel

/-- What a subscriber has of the runs of a scheduler. -/
structure Subscribed (eventBuffer : Nat) (hub : Hub P library) (reader : Reader library) : Prop where
  views : forall (index : Nat) (dag : Dag P) (state : RunState),
    hub.runs[index]? = some (dag, state) -> View dag state (eventsOf dag.id reader.received)
  /-- a subscriber that waits has everything up to now -/
  current : hub.relay.Waits reader -> forall (index : Nat) (dag : Dag P) (state : RunState),
    hub.runs[index]? = some (dag, state) -> eventsOf dag.id reader.received <:+ state.events
  /-- a stream that has ended has everything from a closed channel, or more than the
  event buffer was ahead of it -/
  stopped : reader.ended = true ->
    (hub.relay.closed = true ∧ reader.received = hub.relay.sent.drop reader.start) ∨
      reader.start + reader.received.length + eventBuffer < hub.relay.sent.length

end Subscribers

/-- For every broadcast library that behaves as documented, and every interleaving
of runs and streams with distinct workflow ids: each stream has a causally closed
view of every run, and a complete one up to now while it waits.  It only ends when
it is left behind or the channel is closed. -/
theorem subscription_views_runs (library : Library KernelEvent) (documented : Documented library)
    (backend : HashBackend) (eventBuffer : Nat) (first hub : Hub P library)
    (created : Hub.new library eventBuffer = some first)
    (run : Reaches (HubStep backend) first hub)
    (distinct : (hub.runs.map fun run => run.1.id).Nodup) (reader : Reader library)
    (member : reader ∈ hub.relay.readers) :
    0 < eventBuffer ∧ Subscribed eventBuffer hub reader := by
  have sound := Hub.Sound.reachable documented created run
  refine ⟨Hub.eventBuffer_pos documented created, ?_, ?_, sound.relay.received_of_ended member⟩
  · exact fun _index _dag _state found => sound.view distinct member found
  · intro waits index dag state found
    rw [← sound.eventsOf_sent distinct found, sound.relay.received_of_waits member waits]
    exact (List.drop_suffix _ _).filter _

/-! ## A scheduler with two streams -/

section Schedules

variable {library : Library KernelEvent} {hub : Hub P library}

/-- A run appends to its log. -/
theorem events_of_reaches {state after : RunState}
    (run : Reaches (Step dag backend calls) state after) : state.events <+: after.events := by
  induction run with
  | refl => exact List.prefix_refl _
  | tail _earlier step inductionHypothesis => exact inductionHypothesis.trans step.events

theorem Hub.emit_append (index : Nat) (events later : List KernelEvent) :
    hub.emit index (events ++ later) = (hub.emit index events).emit index later := by
  simp [Hub.emit, Relay.sendAll_append]

/-- Every run of a workflow can take place on the channel. -/
theorem Hub.run_reaches {index : Nat} {state after : RunState}
    (found : hub.runs[index]? = some (dag, state)) (open_ : hub.relay.closed = false)
    (run : Reaches (Step dag backend anyResult) state after) :
    Reaches (HubStep backend) hub
      { hub.emit index (after.events.drop state.events.length) with
        runs := hub.runs.set index (dag, after) } := by
  rcases List.getElem?_eq_some_iff.mp found with ⟨inside, here⟩
  induction run with
  | refl =>
      rw [List.drop_length, ← here, List.set_getElem_self]
      have same : hub.emit index [] = hub := by
        rw [Hub.emit, Relay.sendAll_nil, List.map_nil, List.append_nil]
      rw [same]
  | @tail middle after earlier step inductionHypothesis =>
      refine inductionHypothesis.tail ?_
      have moved : HubStep backend
          { hub.emit index (middle.events.drop state.events.length) with
            runs := hub.runs.set index (dag, middle) } _ :=
        .run index dag middle after (List.getElem?_set_self inside)
          ((Relay.closed_sendAll _ _).trans open_) step
      have split : after.events.drop state.events.length =
          middle.events.drop state.events.length ++ after.events.drop middle.events.length := by
        have known := (events_of_reaches earlier).length_le
        rcases step.events with ⟨later, whole⟩
        rw [← whole, List.drop_append_of_le_length known, List.drop_left]
      simp only [List.set_set] at moved
      rw [split, Hub.emit_append]
      exact moved

/-- Streams may take turns at any time. -/
theorem Hub.turns_reaches (order : List Nat) :
    Reaches (HubStep backend) hub { hub with relay := hub.relay.turns order } := by
  induction order generalizing hub with
  | nil => exact .refl
  | cons index order inductionHypothesis =>
      cases polled : hub.relay.poll index with
      | none =>
          have same : hub.relay.turns (index :: order) = hub.relay.turns order := by
            rw [Relay.turns, List.foldl_cons, polled]
            rfl
          rw [same]
          exact inductionHypothesis
      | some relay =>
          have same : hub.relay.turns (index :: order) = relay.turns order := by
            rw [Relay.turns, List.foldl_cons, polled]
            rfl
          rw [same]
          exact .head (.poll index relay polled) inductionHypothesis

end Schedules

/-- The state of a run of two nodes after some steps. -/
def pairAfter (steps : Nat) : RunState :=
  (start (Dag.pair .always)).drive (Dag.pair .always) .sample (.constant .null) steps

theorem pairAfter_later (steps more : Nat) :
    Reaches (Step (Dag.pair .always) .sample anyResult) (pairAfter steps)
      ((pairAfter steps).drive (Dag.pair .always) .sample (.constant .null) more) :=
  (RunState.drive_reaches (Dag.pair .always) .sample _ more _).weaken fun _before _after => Step.any

def Hub.idle (eventBuffer : Nat) : Hub Unit (Ring.channels KernelEvent) :=
  { relay := {
      state := .new eventBuffer
      sent := []
      closed := false
      readers := [] }
    history := []
    runs := [] }

/-- A stream that was subscribed before the run. -/
def fromStart (received : List KernelEvent) : Reader (Ring.channels KernelEvent) where
  start := 0
  receiver := Nat.zero
  received := received
  ended := false

/-- A stream that was subscribed after the first event and has received nothing. -/
def left (ended : Bool) : Reader (Ring.channels KernelEvent) where
  start := 1
  receiver := Nat.succ Nat.zero
  received := []
  ended := ended

/-- Streams read from the channel of one run.  The positions are those of their
receivers. -/
def Hub.watched (slots : Nat) (run : RunState) (positions : List Nat)
    (readers : List (Reader (Ring.channels KernelEvent))) : Hub Unit (Ring.channels KernelEvent) :=
  { relay := {
      state := {
        slots := slots
        sent := run.events
        closed := false
        cursors := positions }
      sent := run.events
      closed := false
      readers := readers }
    history := run.events.map fun event => (0, event)
    runs := [(Dag.pair .always, run)] }

theorem Hub.begun_reached : Reaches (HubStep .sample) (Hub.idle 3)
    (.watched 4 (pairAfter 0) [1, 1] [fromStart (pairAfter 0).events, left false]) := by
  have subscribed : Reaches (HubStep .sample) (Hub.idle 3) _ := .single (.subscribe rfl)
  have begun := subscribed.tail (.begin (Dag.pair .always) (Dag.pair_accepted .always) rfl)
  have joined := begun.tail (.subscribe rfl)
  exact joined.trans (Hub.turns_reaches [0])

/-- The run has returned.  The first stream has all its events, and four slots were
too few for the second one. -/
def Hub.crowded : Hub Unit (Ring.channels KernelEvent) :=
  .watched 4 (pairAfter 12) [6, 2] [fromStart (pairAfter 12).events, left true]

theorem Hub.crowded_reached : Reaches (HubStep .sample) (Hub.idle 3) Hub.crowded := by
  have halfway : Reaches (HubStep .sample)
      (.watched 4 (pairAfter 0) [1, 1] [fromStart (pairAfter 0).events, left false])
      (.watched 4 (pairAfter 4) [1, 1] [fromStart (pairAfter 0).events, left false]) :=
    Hub.run_reaches rfl rfl (pairAfter_later 0 4)
  have followed : Reaches (HubStep .sample)
      (.watched 4 (pairAfter 4) [1, 1] [fromStart (pairAfter 0).events, left false])
      (.watched 4 (pairAfter 4) [3, 1] [fromStart (pairAfter 4).events, left false]) :=
    Hub.turns_reaches [0, 0]
  have finished : Reaches (HubStep .sample)
      (.watched 4 (pairAfter 4) [3, 1] [fromStart (pairAfter 4).events, left false])
      (.watched 4 (pairAfter 12) [3, 1] [fromStart (pairAfter 4).events, left false]) :=
    Hub.run_reaches rfl rfl (pairAfter_later 4 8)
  have ended : Reaches (HubStep .sample)
      (.watched 4 (pairAfter 12) [3, 1] [fromStart (pairAfter 4).events, left false])
      Hub.crowded :=
    Hub.turns_reaches [0, 0, 0, 1]
  exact Hub.begun_reached.trans (halfway.trans (followed.trans (finished.trans ended)))

theorem subscription_views_runs_crowded :
    (0 < 3 ∧ Subscribed 3 Hub.crowded (fromStart (pairAfter 12).events)) ∧
      (0 < 3 ∧ Subscribed 3 Hub.crowded (left true)) :=
  ⟨subscription_views_runs (Ring.channels KernelEvent) (Ring.documented KernelEvent) .sample 3
      (Hub.idle 3) Hub.crowded rfl Hub.crowded_reached (List.nodup_singleton _)
      (fromStart (pairAfter 12).events) List.mem_cons_self,
    subscription_views_runs (Ring.channels KernelEvent) (Ring.documented KernelEvent) .sample 3
      (Hub.idle 3) Hub.crowded rfl Hub.crowded_reached (List.nodup_singleton _) (left true)
      (List.mem_cons_of_mem _ List.mem_cons_self)⟩

/-! ## Buffers that are large enough -/

/-- The most events that runs can send. -/
def Hub.bound {library : Library KernelEvent} (hub : Hub P library) : Nat :=
  (hub.runs.map fun run => 2 * run.1.nodes.size + 2).sum

/-- A history is the sum of its parts. -/
theorem length_history_le {history : List (Nat × KernelEvent)} {limits : List Nat}
    (owners : forall entry, entry ∈ history -> entry.1 < limits.length)
    (each : forall (index limit : Nat), limits[index]? = some limit ->
      (sentBy index history).length ≤ limit) : history.length ≤ limits.sum := by
  induction limits using List.reverseRecOn generalizing history with
  | nil =>
      cases history with
      | nil => exact Nat.le_refl _
      | cons entry rest => exact absurd (owners entry List.mem_cons_self) (Nat.not_lt_zero _)
  | append_singleton limits last inductionHypothesis =>
      let here := fun entry : Nat × KernelEvent => entry.1 == limits.length
      have split : history.length = (history.filter here).length +
          (history.filter fun entry => !here entry).length := by
        rw [← List.countP_eq_length_filter, ← List.countP_eq_length_filter]
        simpa using List.length_eq_countP_add_countP here (l := history)
      have own : (history.filter here).length ≤ last := by
        have bound := each limits.length last (by simp)
        rwa [sentBy, List.length_map] at bound
      have rest : (history.filter fun entry => !here entry).length ≤ limits.sum := by
        apply inductionHypothesis
        · intro entry member
          rcases List.mem_filter.mp member with ⟨recorded, other⟩
          have bound := owners entry recorded
          rw [List.length_append, List.length_singleton] at bound
          have different : entry.1 ≠ limits.length := by simpa [here] using other
          omega
        · intro index limit found
          have bound := each index limit (by
            rw [List.getElem?_append_left (List.getElem?_eq_some_iff.mp found).1, found])
          refine Nat.le_trans ?_ bound
          rw [sentBy, sentBy, List.length_map, List.length_map]
          exact (List.filter_sublist.filter _).length_le
      rw [List.sum_append, List.sum_singleton]
      omega

/-- A buffer for two events per node and two per run never cuts a stream off,
however slow its subscriber is. -/
theorem subscription_lossless (library : Library KernelEvent) (documented : Documented library)
    (backend : HashBackend) (eventBuffer : Nat) (first hub : Hub P library)
    (created : Hub.new library eventBuffer = some first)
    (run : Reaches (HubStep backend) first hub) (large : hub.bound ≤ eventBuffer)
    (reader : Reader library) (member : reader ∈ hub.relay.readers) :
    (reader.ended = true -> hub.relay.closed = true) ∧
    ((reader.ended = true ∨ hub.relay.Waits reader) ->
      reader.received = hub.relay.sent.drop reader.start) := by
  have sound := Hub.Sound.reachable documented created run
  have length : hub.relay.sent.length ≤ hub.bound := by
    rw [sound.sent, List.length_map]
    apply length_history_le
    · intro entry owned
      rw [List.length_map]
      exact sound.owners entry owned
    · intro index limit found
      rw [List.getElem?_map, Option.map_eq_some_iff] at found
      rcases found with ⟨⟨dag, state⟩, here, rfl⟩
      rw [sound.logs index dag state here]
      exact events_length_le (sound.accepted _ _ _ here).wellFormed (sound.reached _ _ _ here)
  have finished : reader.ended = true -> hub.relay.closed = true ∧
      reader.received = hub.relay.sent.drop reader.start := by
    intro ended
    rcases sound.relay.received_of_ended member ended with both | behind
    · exact both
    · omega
  refine ⟨fun ended => (finished ended).1, ?_⟩
  rintro (ended | waits)
  · exact (finished ended).2
  · exact sound.relay.received_of_waits member waits

/-- A stream that took no turn before the run had returned. -/
def Hub.roomy : Hub Unit (Ring.channels KernelEvent) :=
  .watched 8 (pairAfter 12) [6] [fromStart (pairAfter 12).events]

theorem Hub.roomy_reached : Reaches (HubStep .sample) (Hub.idle 6) Hub.roomy := by
  have subscribed : Reaches (HubStep .sample) (Hub.idle 6) _ := .single (.subscribe rfl)
  have begun := subscribed.tail (.begin (Dag.pair .always) (Dag.pair_accepted .always) rfl)
  have returned : Reaches (HubStep .sample) (.watched 8 (pairAfter 0) [0] [fromStart []])
      (.watched 8 (pairAfter 12) [0] [fromStart []]) :=
    Hub.run_reaches rfl rfl (pairAfter_later 0 12)
  have polled : Reaches (HubStep .sample) (.watched 8 (pairAfter 12) [0] [fromStart []])
      Hub.roomy :=
    Hub.turns_reaches [0, 0, 0, 0, 0, 0]
  exact begun.trans (returned.trans polled)

theorem subscription_lossless_roomy :
    (false = true -> Hub.roomy.relay.closed = true) ∧
    ((false = true ∨ Hub.roomy.relay.Waits (fromStart (pairAfter 12).events)) ->
      (pairAfter 12).events = Hub.roomy.relay.sent.drop 0) :=
  subscription_lossless (Ring.channels KernelEvent) (Ring.documented KernelEvent) .sample 6
    (Hub.idle 6) Hub.roomy rfl Hub.roomy_reached (by decide) (fromStart (pairAfter 12).events)
    (List.mem_singleton.mpr rfl)

end Scheduler
end KernelFlow
