import Mathlib
import KernelFlow.Core.Wire
import KernelFlow.Scheduler.Bus

namespace KernelFlow
namespace Scheduler

open Transition Broadcast Json

/-!
# The event feed of the API

A subscription sends every event that its stream yields as a frame: the number
of the variant and the JSON text of the event.  The receiver reads the text with
a JSON parser of its own, which may list members in another order, and servers
and proxies may add members.  None of this keeps it from the events: what it
decodes is what the stream has yielded, and so a causally closed view of every
run.

The derived writer and reader of the event type are a parameter: of the reader only
this is assumed, that it takes the members of an event in any order and among
others.
-/

/-- `serde_json::to_string`, and the parser of a receiver. -/
structure JsonText where
  write : Json -> String
  parse : String -> Option Json

/-- One frame. -/
structure EventDto where
  kind : String
  payload : String

/-- The position of the variant in the declaration of the type. -/
def discriminant : KernelEvent -> Nat
  | .workflowStarted _ _ => 0
  | .nodeStarted _ _ _ => 1
  | .nodeCompleted _ _ _ => 2
  | .workflowCompleted _ _ => 3
  | .workflowFailed _ _ => 4

/-- The document is an object with the members of the written event, each equal up
to member order, in any order and among any others. -/
def Carries (write : KernelEvent -> Json) (document : Json) (event : KernelEvent) : Prop :=
  ∃ written members, write event = .object written ∧ document = .object members ∧
    forall key, key ∈ written.map Prod.fst ->
      List.Forall₂ Reordered (valuesOf key written) (valuesOf key members)

/-- The derived writer and reader of the event type. -/
structure EventCodec where
  write : KernelEvent -> Json
  read : Json -> Option KernelEvent
  /-- the order of members and unknown members do not matter -/
  reads {document : Json} {event : KernelEvent} :
    Carries write document event -> read document = some event

variable {codec : EventCodec}

/-- The frame of an event. -/
def EventDto.of (text : JsonText) (codec : EventCodec) (event : KernelEvent) : EventDto where
  kind := "Discriminant(" ++ toString (discriminant event) ++ ")"
  payload := text.write (codec.write event)

/-- A receiver parses the payload and reads the event from the document. -/
def EventDto.decode (text : JsonText) (codec : EventCodec) (frame : EventDto) :
    Option KernelEvent :=
  (text.parse frame.payload).bind codec.read

/-- The frames that a stream has sent. -/
def feed {library : Library KernelEvent} (text : JsonText) (codec : EventCodec)
    (reader : Reader library) : List EventDto :=
  reader.received.map (EventDto.of text codec)

/-- What is sent for the events can be parsed, and nothing of it is lost. -/
def JsonText.Transmits (text : JsonText) (codec : EventCodec) (events : List KernelEvent) : Prop :=
  forall event, event ∈ events -> ∃ document,
    text.parse (text.write (codec.write event)) = some document ∧
      Carries codec.write document event

theorem decode_of {text : JsonText} {events : List KernelEvent}
    (transmits : text.Transmits codec events) {event : KernelEvent} (member : event ∈ events) :
    (EventDto.of text codec event).decode text codec = some event := by
  rcases transmits event member with ⟨document, parsed, carries⟩
  change (text.parse (text.write (codec.write event))).bind _ = _
  rw [parsed, Option.bind_some, codec.reads carries]

theorem mapM_decode {text : JsonText} {events : List KernelEvent}
    (transmits : text.Transmits codec events) :
    (events.map (EventDto.of text codec)).mapM (EventDto.decode text codec) = some events := by
  induction events with
  | nil => rfl
  | cons event events inductionHypothesis =>
      have rest := inductionHypothesis fun other member =>
        transmits other (List.mem_cons_of_mem _ member)
      rw [List.map_cons, List.mapM_cons, decode_of transmits List.mem_cons_self, rest]
      rfl

/-! ## What a receiver knows -/

/-- For every broadcast library that behaves as documented, every interleaving of
runs and streams with distinct workflow ids, and whatever order of members and
further members the receiver finds in the payloads: every frame of a stream is
decoded, the decoded events are those of the stream, and they are a causally closed
view of every run.  The kind of a frame tells the variant. -/
theorem feed_transcribes_runs {P : Type} (library : Library KernelEvent)
    (documented : Documented library) (codec : EventCodec) (backend : HashBackend)
    (eventBuffer : Nat) (first hub : Hub P library)
    (created : Hub.new library eventBuffer = some first)
    (run : Reaches (HubStep backend) first hub)
    (distinct : (hub.runs.map fun run => run.1.id).Nodup) (reader : Reader library)
    (member : reader ∈ hub.relay.readers) (text : JsonText)
    (transmits : text.Transmits codec reader.received) :
    ∃ events, (feed text codec reader).mapM (EventDto.decode text codec) = some events ∧
      (feed text codec reader).map EventDto.kind = events.map (fun event =>
        "Discriminant(" ++ toString (discriminant event) ++ ")") ∧
      events <:+: hub.relay.sent ∧
      forall (index : Nat) (dag : Dag P) (state : RunState), hub.runs[index]? = some (dag, state) ->
        View dag state (eventsOf dag.id events) := by
  have sound := Hub.Sound.reachable documented created run
  refine ⟨reader.received, mapM_decode transmits, ?_, sound.relay.infix_sent member, ?_⟩
  · rw [feed, List.map_map]
    rfl
  · intro index dag state found
    exact sound.view distinct member found

/-! ## The derived code -/

/-- A parser that at most lists members in another order loses nothing. -/
theorem carries_of_reordered {write : KernelEvent -> Json} {document : Json}
    {event : KernelEvent} {written : List (String × Json)} (object : write event = .object written)
    (reordered : (write event).Reordered document) : Carries write document event := by
  rw [object] at reordered
  rcases reordered.members with ⟨members, rfl, values⟩
  exact ⟨written, members, object, rfl, fun key _known => values key⟩

/-- An event is read from every document that carries it. -/
theorem read_of_carries {document : Json} {event : KernelEvent}
    (carries : Carries Wire.kernelEvent.write document event) :
    Wire.kernelEvent.read document = some event := by
  rcases carries with ⟨sent, members, object, rfl, values⟩
  rcases Wire.kernelEventVariants_records event with ⟨written, content⟩
  have fresh : "type" ∉ written.map Prod.fst :=
    Wire.kernelEventVariants.keys_content event written content ▸
      Wire.kernelEventVariants_fresh _ (Wire.kernelEventVariants.name_mem event)
  have same : Wire.kernelEvent.write event = .object
      (("type", .string (Wire.kernelEventVariants.name event)) :: written) := by
    change Json.object (_ :: (Wire.kernelEventVariants.content event).getD []) = _
    rw [content, Option.getD_some]
  cases object.symm.trans same
  have tagged : valuesOf "type" members = [.string (Wire.kernelEventVariants.name event)] := by
    have tag := values "type" List.mem_cons_self
    rw [Serde.Variants.valuesOf_cons_self fresh] at tag
    generalize valuesOf "type" members = received at tag
    cases tag with
    | cons same rest =>
        cases rest with
        | nil => rw [same.eq_of_leaf trivial]
  have fields : forall key, key ∈ Wire.kernelEventVariants.keys (Wire.kernelEventVariants.name event) ->
      List.Forall₂ Reordered (valuesOf key written) (valuesOf key members) := by
    intro key known
    rw [← Wire.kernelEventVariants.keys_content event written content] at known
    have different : ("type" == key) = false := by
      rw [beq_eq_false_iff_ne]
      rintro rfl
      exact fresh known
    have related := values key (List.mem_cons_of_mem _ known)
    rwa [valuesOf, List.filter_cons, different] at related
  rcases Wire.kernelEventVariants.internal_read_extended Wire.kernelEventVariants_records
    Wire.kernelEventVariants_fresh content tagged fields with ⟨received, read, same⟩
  rw [Wire.kernelEvent_exact _ _ same]
  exact read

/-- The internally tagged enumeration with its fields in the order of declaration. -/
def EventCodec.derived : EventCodec where
  write := Wire.kernelEvent.write
  read := Wire.kernelEvent.read
  reads := read_of_carries

/-- The text of the first event of a workflow. -/
def startedText : String :=
  "\x7b\"type\":\"workflow_started\",\"workflow_id\":\"00000000-0000-0000-0000-000000000000\"," ++
    "\"name\":\"pair\"\x7d"

/-- The text of the start of its first node. -/
def nodeText : String :=
  "\x7b\"type\":\"node_started\",\"workflow_id\":\"00000000-0000-0000-0000-000000000000\"," ++
    "\"node_id\":\"a\",\"attempt\":1\x7d"

/-- Their writer, and a parser that lists the last member first. -/
def JsonText.sample : JsonText where
  write := fun document => match document with
    | .object [("type", .string _), ("workflow_id", .string _), ("name", .string _)] => startedText
    | .object [("type", .string _), ("workflow_id", .string _), ("node_id", .string _),
        ("attempt", .number _)] => nodeText
    | _ => ""
  parse := fun text =>
    if text = startedText then
      some (.object [("name", .string "pair"),
        ("workflow_id", .string "00000000-0000-0000-0000-000000000000"),
        ("type", .string "workflow_started")])
    else if text = nodeText then
      some (.object [("attempt", .number (.posInt 1)), ("node_id", .string "a"),
        ("workflow_id", .string "00000000-0000-0000-0000-000000000000"),
        ("type", .string "node_started")])
    else none

theorem parse_startedText : JsonText.sample.parse startedText =
    some (.object [("name", .string "pair"),
      ("workflow_id", .string "00000000-0000-0000-0000-000000000000"),
      ("type", .string "workflow_started")]) := by
  simp only [JsonText.sample, if_true]

theorem parse_nodeText : JsonText.sample.parse nodeText =
    some (.object [("attempt", .number (.posInt 1)), ("node_id", .string "a"),
      ("workflow_id", .string "00000000-0000-0000-0000-000000000000"),
      ("type", .string "node_started")]) := by
  have different : nodeText ≠ startedText := by decide
  simp only [JsonText.sample, if_neg different, if_true]

theorem JsonText.sample_transmits :
    JsonText.sample.Transmits .derived (pairAfter 2).events := by
  intro event member
  have events : (pairAfter 2).events = [.workflowStarted 0 "pair", .nodeStarted 0 "a" 1] := by rfl
  rw [events] at member
  rcases List.mem_pair.mp member with rfl | rfl
  · have written : EventCodec.derived.write (.workflowStarted 0 "pair") =
        .object [("type", .string "workflow_started"),
          ("workflow_id", .string "00000000-0000-0000-0000-000000000000"),
          ("name", .string "pair")] := by rfl
    have distinct := Wire.kernelEvent.distinct_write (.workflowStarted 0 "pair")
    refine ⟨_, parse_startedText, carries_of_reordered written ?_⟩
    change Reordered (Wire.kernelEvent.write _) _
    change Wire.kernelEvent.write _ = _ at written
    rw [written] at distinct ⊢
    exact .of_perm distinct (List.reverse_perm _).symm
  · have written : EventCodec.derived.write (.nodeStarted 0 "a" 1) =
        .object [("type", .string "node_started"),
          ("workflow_id", .string "00000000-0000-0000-0000-000000000000"),
          ("node_id", .string "a"), ("attempt", .number (.posInt 1))] := by rfl
    have distinct := Wire.kernelEvent.distinct_write (.nodeStarted 0 "a" 1)
    refine ⟨_, parse_nodeText, carries_of_reordered written ?_⟩
    change Reordered (Wire.kernelEvent.write _) _
    change Wire.kernelEvent.write _ = _ at written
    rw [written] at distinct ⊢
    exact .of_perm distinct (List.reverse_perm _).symm

/-- The first node of the run has started, and the first stream has seen it. -/
def Hub.started : Hub Unit (Ring.channels KernelEvent) :=
  .watched 4 (pairAfter 2) [2, 1] [fromStart (pairAfter 2).events, left false]

theorem Hub.started_reached : Reaches (HubStep .sample) (Hub.idle 3) Hub.started := by
  have moved : Reaches (HubStep .sample)
      (.watched 4 (pairAfter 0) [1, 1] [fromStart (pairAfter 0).events, left false])
      (.watched 4 (pairAfter 2) [1, 1] [fromStart (pairAfter 0).events, left false]) :=
    Hub.run_reaches rfl rfl (pairAfter_later 0 2)
  have polled : Reaches (HubStep .sample)
      (.watched 4 (pairAfter 2) [1, 1] [fromStart (pairAfter 0).events, left false])
      Hub.started :=
    Hub.turns_reaches [0]
  exact Hub.begun_reached.trans (moved.trans polled)

theorem feed_transcribes_runs_started :
    ∃ events, (feed .sample .derived (fromStart (pairAfter 2).events)).mapM
        (EventDto.decode .sample .derived) = some events ∧
      (feed .sample .derived (fromStart (pairAfter 2).events)).map EventDto.kind =
        events.map (fun event => "Discriminant(" ++ toString (discriminant event) ++ ")") ∧
      events <:+: Hub.started.relay.sent ∧
      forall (index : Nat) (dag : Dag Unit) (state : RunState),
        Hub.started.runs[index]? = some (dag, state) ->
        View dag state (eventsOf dag.id events) :=
  feed_transcribes_runs (Ring.channels KernelEvent) (Ring.documented KernelEvent) .derived .sample 3
    (Hub.idle 3) Hub.started rfl Hub.started_reached (List.nodup_singleton _)
    (fromStart (pairAfter 2).events) List.mem_cons_self .sample JsonText.sample_transmits

end Scheduler
end KernelFlow
