import Mathlib
import KernelFlow.Core.Hex
import KernelFlow.Resilience.Faults

namespace KernelFlow
namespace Attest

open Transition Scheduler Resilience

/-!
# Attestations

A node signs the text `workflow_id|output_hash`.  Since every workflow id is
displayed with the same number of characters, the text determines both parts,
and a signature for one pair cannot be presented for another one.

Together with the agreement of faulty runs this is what a verifier learns: all
attestations that it accepts for a workflow, from whichever nodes, carry one
hash, that of the reference outputs.

The signature scheme is a parameter.  That a signature was not forged is a
premise about the attestation at hand.
-/

/-- The functions of the signature library.  Keys and signatures are bytes on
the wire. -/
structure SignatureScheme where
  SigningKey : Type
  verifyingKey : SigningKey -> List UInt8
  sign : SigningKey -> List UInt8 -> List UInt8
  /-- `VerifyingKey::from_bytes` succeeds -/
  isPoint : List UInt8 -> Bool
  verifyStrict : List UInt8 -> List UInt8 -> List UInt8 -> Bool

/-- The documented behaviour for a key and its own signatures. -/
structure SignatureScheme.Lawful (scheme : SignatureScheme) : Prop where
  key_length : forall key, (scheme.verifyingKey key).length = 32
  key_valid : forall key, scheme.isPoint (scheme.verifyingKey key) = true
  signature_length : forall key message, (scheme.sign key message).length = 64
  verify_sign : forall key message,
    scheme.verifyStrict (scheme.verifyingKey key) message (scheme.sign key message) = true

/-- A signed record.  `Time` is the type of the timestamps. -/
structure Attestation (Time : Type) where
  workflowId : WorkflowId
  outputHash : String
  signerPubkeyHex : String
  signatureHex : String
  timestamp : Time

/-- The signed text. -/
def message (workflowId : WorkflowId) (outputHash : String) : String :=
  workflowId.display ++ "|" ++ outputHash

/-- `as_bytes`. -/
def messageBytes (workflowId : WorkflowId) (outputHash : String) : List UInt8 :=
  (message workflowId outputHash).toByteArray.data.toList

variable {Time : Type} {scheme : SignatureScheme}

/-- `Attestor::sign` at a reading of the clock. -/
def sign (scheme : SignatureScheme) (key : scheme.SigningKey) (now : Time)
    (workflowId : WorkflowId) (outputHash : String) : Attestation Time where
  workflowId := workflowId
  outputHash := outputHash
  signerPubkeyHex := hexEncode (scheme.verifyingKey key)
  signatureHex := hexEncode (scheme.sign key (messageBytes workflowId outputHash))
  timestamp := now

/-- The check of a verifier; `none` is a failed unwrap. -/
def Attestation.verify (scheme : SignatureScheme) (att : Attestation Time) : Option Bool :=
  (hexDecode att.signerPubkeyHex).bind fun key =>
    if key.length = 32 ∧ scheme.isPoint key = true then
      (hexDecode att.signatureHex).bind fun signature =>
        if signature.length = 64 then
          some (scheme.verifyStrict key (messageBytes att.workflowId att.outputHash) signature)
        else none
    else none

/-! ## The signed text -/

/-- Different pairs have different texts. -/
theorem messageBytes_injective {id other : WorkflowId} {hash otherHash : String}
    (same : messageBytes id hash = messageBytes other otherHash) :
    id = other ∧ hash = otherHash := by
  have texts : message id hash = message other otherHash := by
    rw [← String.toByteArray_inj]
    exact ByteArray.ext (Array.toList_inj.mp same)
  have characters := congrArg String.toList texts
  simp only [message, String.toList_append, List.append_assoc] at characters
  rcases List.append_inj characters
    (by rw [WorkflowId.length_display, WorkflowId.length_display]) with ⟨ids, rest⟩
  refine ⟨WorkflowId.display_injective (String.toList_inj.mp ids), ?_⟩
  exact String.toList_inj.mp (List.append_cancel_left rest)

/-- A node's own attestations verify. -/
theorem verify_sign (lawful : scheme.Lawful) (key : scheme.SigningKey) (now : Time)
    (workflowId : WorkflowId) (outputHash : String) :
    (sign scheme key now workflowId outputHash).verify scheme = some true := by
  simp only [Attestation.verify, sign, hexDecode_hexEncode, Option.bind_some, lawful.key_length,
    lawful.key_valid, lawful.signature_length, and_self, if_true, lawful.verify_sign]

/-- The verifier's check was made on a signature over the displayed fields. -/
theorem Attestation.verified {att : Attestation Time} {key : List UInt8}
    (signer : hexDecode att.signerPubkeyHex = some key) (accepted : att.verify scheme = some true) :
    ∃ signature, hexDecode att.signatureHex = some signature ∧
      scheme.verifyStrict key (messageBytes att.workflowId att.outputHash) signature = true := by
  rw [Attestation.verify, signer, Option.bind_some] at accepted
  split at accepted
  · rcases Option.bind_eq_some_iff.mp accepted with ⟨signature, decoded, checked⟩
    split at checked
    · exact ⟨signature, decoded, Option.some.inj checked⟩
    · cases checked
  · cases accepted

/-- The attestation claims this signer, and its signature is not a forgery: if
it verifies, then the signer signed that text for some issued pair. -/
structure Genuine (scheme : SignatureScheme) (key : scheme.SigningKey)
    (issued : List (WorkflowId × String)) (att : Attestation Time) : Prop where
  signer : hexDecode att.signerPubkeyHex = some (scheme.verifyingKey key)
  unforged : forall signature, hexDecode att.signatureHex = some signature ->
    scheme.verifyStrict (scheme.verifyingKey key) (messageBytes att.workflowId att.outputHash)
      signature = true ->
    ∃ pair ∈ issued, messageBytes pair.1 pair.2 = messageBytes att.workflowId att.outputHash

/-- An accepted attestation shows exactly what its signer attested. -/
theorem Genuine.mem_issued {key : scheme.SigningKey} {issued : List (WorkflowId × String)}
    {att : Attestation Time} (genuine : Genuine scheme key issued att)
    (accepted : att.verify scheme = some true) : (att.workflowId, att.outputHash) ∈ issued := by
  rcases att.verified genuine.signer accepted with ⟨signature, decoded, verifies⟩
  rcases genuine.unforged signature decoded verifies with ⟨⟨id, hash⟩, member, same⟩
  rcases messageBytes_injective same with ⟨rfl, rfl⟩
  exact member

/-! ## What accepted attestations say about the workflow -/

variable {P : Type} {dag : Dag P} {backend : HashBackend} {sem : NodeSemantics}

/-- Some run of the workflow on a stack with faults has returned this hash. -/
def Produced (dag : Dag P) (backend : HashBackend) (sem : NodeSemantics) (hash : String) : Prop :=
  ∃ (edges : List Edge) (config : ResilienceConfig) (governor : Governor) (timer : Timer)
    (now : Instant) (attempts : NodeInput -> UInt32 -> KernelResult NodeOutput -> Prop)
    (state : TimedState governor),
    edges.Perm dag.edges ∧ Faithful sem attempts ∧
    Reaches (TimedStep { dag with edges := edges } backend config governor timer attempts)
      (.start { dag with edges := edges } config governor now) state ∧
    state.run.control = .returned (.ok hash)

/-- The outputs that the reference evaluation gives to the nodes. -/
structure ReferenceOutputs (dag : Dag P) (sem : NodeSemantics)
    (outputs : BTreeMap NodeId Value) : Prop where
  complete : forall node, node ∈ outputs ↔ node ∈ dag.nodes
  evaluates : forall (node : NodeId) (value : Value), outputs[node]? = some value ↔
    ∃ output : NodeOutput, Evaluates dag sem node (.ok output) ∧ output.value = value

theorem declared_of_evaluates {node : NodeId} {result : KernelResult NodeOutput}
    (evaluates : Evaluates dag sem node result) : node ∈ dag.nodes := by
  cases evaluates with
  | intro _ output declared sources conditions => exact declared

/-- A produced hash is the hash of the reference outputs. -/
theorem Produced.reference (wellFormed : dag.WellFormed) {hash : String}
    (produced : Produced dag backend sem hash) :
    ∃ outputs, ReferenceOutputs dag sem outputs ∧ hash = hashJson backend (Value.ofMap outputs) := by
  rcases produced with
    ⟨edges, config, governor, timer, now, attempts, state, permuted, faithful, run, returned⟩
  have reordered := wellFormed_perm wellFormed permuted
  have grounded := Grounded.of_stack reordered faithful run
  rcases grounded.returned_ok reordered returned with ⟨same, covered⟩
  refine ⟨state.run.outputs, ⟨covered, ?_⟩, same⟩
  intro node value
  constructor
  · intro found
    rcases grounded.evaluates reordered found with ⟨output, evaluates, equal⟩
    exact ⟨output, (evaluates_perm_iff permuted _ _).mp evaluates, equal⟩
  · rintro ⟨output, evaluates, rfl⟩
    have declared := declared_of_evaluates evaluates
    rcases (OrderedMap.mem_iff_exists _ _).mp ((covered node).mpr declared) with ⟨stored, found⟩
    rcases grounded.evaluates reordered found with ⟨other, otherEvaluates, rfl⟩
    have equal := evaluates.unique ((evaluates_perm_iff permuted _ _).mp otherEvaluates)
    rw [found, Except.ok.inj equal]

theorem ReferenceOutputs.unique {first second : BTreeMap NodeId Value}
    (left : ReferenceOutputs dag sem first) (right : ReferenceOutputs dag sem second) :
    first = second := by
  apply Std.ExtTreeMap.ext_getElem?
  intro node
  ext value
  exact (left.evaluates node value).trans (right.evaluates node value).symm

/-- Two accepted attestations of one workflow, signed by nodes that attest only
what their own runs returned, carry the same hash: that of the reference
outputs.  The runs may differ in configuration, limiter, timing, faults and edge
order.  A signed text belongs to one id and one hash. -/
theorem accepted_attestations_agree (accepted : dag.Accepted) (backend : HashBackend)
    (sem : NodeSemantics) (scheme : SignatureScheme) (first second : scheme.SigningKey)
    (firstIssued secondIssued : List (WorkflowId × String))
    (firstHonest : forall hash, (dag.id, hash) ∈ firstIssued -> Produced dag backend sem hash)
    (secondHonest : forall hash, (dag.id, hash) ∈ secondIssued -> Produced dag backend sem hash)
    (att att' : Attestation Time) (genuine : Genuine scheme first firstIssued att)
    (genuine' : Genuine scheme second secondIssued att') (workflow : att.workflowId = dag.id)
    (workflow' : att'.workflowId = dag.id) (verified : att.verify scheme = some true)
    (verified' : att'.verify scheme = some true) :
    ∃ outputs, ReferenceOutputs dag sem outputs ∧
      att.outputHash = hashJson backend (Value.ofMap outputs) ∧
      att'.outputHash = hashJson backend (Value.ofMap outputs) ∧
      forall (id other : WorkflowId) (hash otherHash : String),
        messageBytes id hash = messageBytes other otherHash -> id = other ∧ hash = otherHash := by
  have wellFormed := accepted.wellFormed
  have attested := genuine.mem_issued verified
  have attested' := genuine'.mem_issued verified'
  rw [workflow] at attested
  rw [workflow'] at attested'
  rcases (firstHonest _ attested).reference wellFormed with ⟨outputs, reference, same⟩
  rcases (secondHonest _ attested').reference wellFormed with ⟨outputs', reference', same'⟩
  rw [reference'.unique reference] at same'
  exact ⟨outputs, reference, same, same', fun _id _other _hash _otherHash texts =>
    messageBytes_injective texts⟩

/-- The attestation hash of two nodes that return `null`. -/
def pairHash : String :=
  "052c4bd5e6ded53bd884485af8b1667a7b70ba3a8573b54bd878f6d2c705c2df"

/-- The signature of the sample key on the attestation of that hash.  Other
texts are not tabulated. -/
def sampleSignature (text : List UInt8) : List UInt8 :=
  if text = messageBytes 0 pairHash then
    [62, 196, 68, 110, 205, 190, 64, 181, 201, 4, 66, 219, 147, 212, 242, 160,
      201, 227, 238, 129, 180, 142, 226, 3, 20, 110, 64, 138, 67, 85, 232, 114,
      202, 134, 173, 231, 163, 36, 249, 13, 77, 48, 60, 176, 193, 97, 135, 197,
      46, 229, 162, 119, 48, 217, 74, 96, 104, 246, 13, 17, 92, 44, 16, 11]
  else List.replicate 64 0

/-- The signature scheme on one key. -/
def SignatureScheme.sample : SignatureScheme where
  SigningKey := Unit
  verifyingKey := fun _key =>
    [215, 90, 152, 1, 130, 177, 10, 183, 213, 75, 254, 211, 201, 100, 7, 58,
      14, 225, 114, 243, 218, 166, 35, 37, 175, 2, 26, 104, 247, 7, 81, 26]
  sign := fun _key text => sampleSignature text
  isPoint := fun _key => true
  verifyStrict := fun _key text signature => signature == sampleSignature text

theorem SignatureScheme.sample_lawful : SignatureScheme.sample.Lawful where
  key_length := fun _key => rfl
  key_valid := fun _key => rfl
  signature_length := by
    intro _key text
    change (sampleSignature text).length = 64
    unfold sampleSignature
    split
    · rfl
    · exact List.length_replicate
  verify_sign := fun _key text => beq_self_eq_true (sampleSignature text)

/-- The run of the two nodes on the whole stack. -/
def pairState : TimedState Governor.gcra :=
  (TimedState.start (Dag.pair .always) .default .gcra 0).drive (Dag.pair .always) .sample .default
    .linux (.constant .null) 30

theorem pairHash_produced : Produced (Dag.pair .always) .sample (.constant .null) pairHash := by
  have run : Reaches (TimedStep (Dag.pair .always) .sample .default .gcra .linux
      (attemptsOf (.constant .null))) (.start (Dag.pair .always) .default .gcra 0) pairState :=
    TimedState.drive_reaches 30 _
  have returned : pairState.run.control =
      .returned (.ok (hashJson .sample (Value.ofMap pairState.run.outputs))) := by rfl
  have hash : hashJson .sample (Value.ofMap pairState.run.outputs) = pairHash := by
    decide +kernel
  rw [hash] at returned
  exact ⟨(Dag.pair .always).edges, .default, .gcra, .linux, 0, attemptsOf (.constant .null),
    pairState, .refl _, fun _input _count _output attempted => attempted.symm, run, returned⟩

theorem accepted_attestations_agree_pair :
    ∃ outputs, ReferenceOutputs (Dag.pair .always) (.constant .null) outputs ∧
      pairHash = hashJson .sample (Value.ofMap outputs) ∧
      pairHash = hashJson .sample (Value.ofMap outputs) ∧
      forall (id other : WorkflowId) (hash otherHash : String),
        messageBytes id hash = messageBytes other otherHash -> id = other ∧ hash = otherHash := by
  have issued : forall hash, ((Dag.pair .always).id, hash) ∈ [((0 : WorkflowId), pairHash)] ->
      Produced (Dag.pair .always) .sample (.constant .null) hash := by
    intro hash member
    cases List.mem_singleton.mp member
    exact pairHash_produced
  have genuine : forall now : Int, Genuine .sample () [((0 : WorkflowId), pairHash)]
      (sign .sample () now 0 pairHash) := fun now =>
    ⟨hexDecode_hexEncode _, fun _signature _decoded _verifies =>
      ⟨(0, pairHash), List.mem_singleton.mpr rfl, rfl⟩⟩
  exact accepted_attestations_agree (Dag.pair_accepted .always) .sample (.constant .null) .sample
    () () _ _ issued issued (sign .sample () (0 : Int) 0 pairHash)
    (sign .sample () (1 : Int) 0 pairHash) (genuine 0) (genuine 1) rfl rfl
    (verify_sign SignatureScheme.sample_lawful () 0 0 pairHash)
    (verify_sign SignatureScheme.sample_lawful () 1 0 pairHash)

end Attest
end KernelFlow
