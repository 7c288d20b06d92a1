import EapAccel.Mediator.Spec

/-!
# What the functions of the mediator leave alone

The functions that stay on the supplicant's side leave the record of the exchanges as
it is. Handling a packet is made of a few kinds of steps, and what all of them preserve is
preserved by the whole (`PullRule`, `ReplyRule`, `ForwardRule`, `MediateRule`). Two uses of this: the
drain sends nothing but ACKs (`handleUpstreamReply_pulls`), and it does not touch what the
session knows of the supplicant (`drain_supplicantSide`).
-/

set_option autoImplicit false

namespace EapAccel

open Foundations EapTls

/-! ## Functions that stay on the supplicant's side -/

/-- The session without its queue toward the supplicant, and what is counted there. -/
def Session.unqueued (session : Session) : Session :=
  { session with downOutbox := [], downNextId := 0, down := {}, downTotal := 0, downNchunks := 0 }

/-- The state without the queue toward the supplicant. -/
def Leg.unqueued (leg : Leg) : Leg := { leg with session := leg.session.unqueued }

namespace Mediator

variable {client : UpstreamClient} {fuel : ℕ}

theorem keeps_updateSession {f : Session → Session} (same : ∀ s, (f s).unqueued = s.unqueued) :
    Act.Keeps Leg.unqueued (updateSession f) :=
  fun leg => congrArg (fun s => ({ leg with session := s } : Leg)) (same leg.session)

/-- Sending a fragment to the supplicant touches nothing but the queue. -/
theorem sendNext_unqueued (ackedId : Option UInt8) :
    Act.Keeps Leg.unqueued (sendNextDownstreamFragment ackedId) := by
  refine Act.Keeps.read_bind fun leg => ?_
  rcases leg.session.downOutbox with _ | ⟨⟨idx, chunk⟩, rest⟩
  · rfl
  · refine Act.Keeps.bind ?_ (fun _ => Act.Keeps.bind ?_ fun _ => Act.Keeps.bind (Act.Keeps.lift _)
      fun _ => Act.Keeps.bind ?_ fun _ => Act.Keeps.pure _) leg
    · exact keeps_updateSession fun _ => rfl
    · exact keeps_updateSession fun _ => rfl
    · exact keeps_updateSession fun _ => rfl

/-- **Queueing a record touches nothing but the queue.** -/
theorem deliver_unqueued (tlsRecord : Bytes) :
    Act.Keeps Leg.unqueued (deliverRecord tlsRecord) := by
  refine Act.Keeps.bind ?_ fun _ => Act.Keeps.read_bind fun leg => ?_
  · exact keeps_updateSession fun _ => rfl
  · refine Act.Keeps.bind (Act.Keeps.lift _)
      (fun _ => Act.Keeps.bind ?_ fun _ => sendNext_unqueued none) leg
    exact keeps_updateSession fun _ => rfl

theorem keeps_deliver (tlsRecord : Bytes) :
    Act.Keeps Leg.exchanges (deliverRecord tlsRecord) :=
  (deliver_unqueued tlsRecord).weaken Leg.exchanges fun _ => rfl

/-! ## The rules of handling

A rule says what has to be shown of the steps for an assertion to hold throughout. Between
taking an Identifier and sending the packet built with it, `ready` of that Identifier
holds. -/

/-- An EAP-TLS Response that was built with this Identifier. -/
def Built (identifier : UInt8) (eapPayload : Bytes) : Prop :=
  ∃ tlsData moreFragments tlsMessageLength,
    build codeResponse identifier tlsData moreFragments tlsMessageLength false = .ok eapPayload

theorem built_ack (identifier : UInt8) :
    Built identifier (layout (ackPacket codeResponse identifier)) :=
  ⟨[], false, none, buildAck_eq_ok codeResponse identifier⟩

variable {context : AuthContext} {ready : UInt8 → Leg → Prop} {inv final : Leg → Prop}
  {got : Reply → Leg → Prop} {post : Outcome → Leg → Prop}

/-- The steps of a pull. After a reply `got` holds of it, and once a verdict in it has been
stored, or it has been passed over, `inv` holds again. -/
structure PullRule (client : UpstreamClient) (context : AuthContext)
    (ready : UInt8 → Leg → Prop) (got : Reply → Leg → Prop) (inv : Leg → Prop) : Prop where
  echo : Act.Triple inv echoUpstreamId ready (fun _ => inv)
  weaken : ∀ identifier leg, ready identifier leg → inv leg
  count : ∀ identifier, Act.Invariant (ready identifier)
    (updateSession fun s => { s with down.acksGenerated := s.down.acksGenerated + 1 })
  pull : ∀ identifier, Act.Triple (ready identifier)
    (exchange client (layout (ackPacket codeResponse identifier)) context) got (fun _ => inv)
  pass : ∀ reply leg, got reply leg → inv leg
  ingest : ∀ packet, Act.Invariant inv (ingestDown packet)
  accept : ∀ reply, Act.Triple (got reply) (finishAccept reply.eapMessages.head?)
    (fun _ => inv) (fun _ => inv)
  reject : ∀ reply, Act.Triple (got reply) (finishReject reply.eapMessages.head?)
    (fun _ => inv) (fun _ => inv)

theorem PullRule.weakened {α : Type} {identifier : UInt8} {x : Act Raised Leg α}
    (rule : PullRule client context ready got inv) (keeps : Act.Invariant (ready identifier) x) :
    Act.Triple (ready identifier) x (fun _ => ready identifier) (fun _ => inv) :=
  Act.Triple.conseq keeps (fun _ => id) (fun _ _ => id) fun _ => rule.weaken identifier

theorem PullRule.passed {α : Type} {reply : Reply} {x : Act Raised Leg α}
    {after : α → Leg → Prop} (rule : PullRule client context ready got inv)
    (triple : Act.Triple inv x after (fun _ => inv)) :
    Act.Triple (got reply) x after (fun _ => inv) :=
  Act.Triple.conseq triple (rule.pass reply) (fun _ _ => id) fun _ _ => id

/-- **What the steps of a pull preserve, the drain preserves.** -/
theorem PullRule.drain (rule : PullRule client context ready got inv) :
    ∀ fuel packet, Act.Invariant inv (drainUpstreamFragments client context fuel packet) := by
  have buffered : Act.Invariant inv
      (Act.read >>= fun leg : Leg => pure (some leg.session.downReasm.buffer) :
        Act Raised Leg (Option Bytes)) :=
    Act.Invariant.read_bind fun leg => Act.Invariant.pure _
  intro fuel
  induction fuel with
  | zero =>
      intro packet
      rw [drainUpstreamFragments]
      exact Act.Invariant.ite (Act.Invariant.raise _) buffered
  | succ fuel ih =>
      intro packet
      rw [drainUpstreamFragments]
      refine Act.Invariant.ite ?_ buffered
      refine Act.Triple.bind rule.echo fun ackId => ?_
      rw [buildAck_eq_ok, Act.bind_lift_ok]
      refine Act.Triple.bind (rule.weakened (rule.count ackId)) fun _ => ?_
      refine Act.Triple.bind (rule.pull ackId) fun reply => ?_
      refine Act.Triple.ite (fun _ => Act.Triple.bind (rule.accept reply) fun _ =>
        Act.Invariant.pure _) fun _ => ?_
      refine Act.Triple.ite (fun _ => Act.Triple.bind (rule.reject reply) fun _ =>
        Act.Invariant.pure _) fun _ => ?_
      refine rule.passed ?_
      cases reply.eapMessages with
      | nil => exact buffered
      | cons eap _ =>
          refine Act.Invariant.bind (Act.Invariant.lift _) fun lastPkt => ?_
          refine Act.Invariant.bind (rule.ingest _) fun done => ?_
          cases done with
          | some tlsRecord => exact Act.Invariant.pure _
          | none => exact ih lastPkt

/-- The steps of handling a reply. Each outcome satisfies `post`, and after a raise `final`
holds. -/
structure ReplyRule (client : UpstreamClient) (context : AuthContext)
    (ready : UInt8 → Leg → Prop) (got : Reply → Leg → Prop) (inv : Leg → Prop)
    (post : Outcome → Leg → Prop) (final : Leg → Prop) : Prop
    extends PullRule client context ready got inv where
  raise : ∀ leg, inv leg → final leg
  deliver : ∀ tlsRecord, Act.Triple inv (deliverRecord tlsRecord) post (fun _ => final)
  accepted : ∀ leg, inv leg → post (acceptOutcome leg.session) leg
  rejected : ∀ leg, inv leg → post (rejectOutcome leg.session) leg
  nothing : ∀ action leg, inv leg → post { action := action, eapBytes := none, echoId := none } leg

theorem ReplyRule.raised {α : Type} {pre : Leg → Prop} {after : α → Leg → Prop}
    {x : Act Raised Leg α} (rule : ReplyRule client context ready got inv post final)
    (triple : Act.Triple pre x after (fun _ => inv)) :
    Act.Triple pre x after (fun _ => final) :=
  Act.Triple.conseq triple (fun _ => id) (fun _ _ => id) fun _ => rule.raise

/-- What holds after the last of some replies, if there was any. -/
def GotLast (got : Reply → Leg → Prop) (inv : Leg → Prop) : Option Reply → Leg → Prop
  | some reply => got reply
  | none => inv

/-- **What the steps of handling a reply preserve, the handling of a reply preserves.** -/
theorem ReplyRule.handleUpstreamReply (rule : ReplyRule client context ready got inv post final)
    (reply : Option Reply) :
    Act.Triple (GotLast got inv reply) (handleUpstreamReply client fuel context reply) post
      (fun _ => final) := by
  have outcome : ∀ f : Leg → Outcome, (∀ leg, inv leg → post (f leg) leg) →
      Act.Triple inv (Act.read >>= fun leg : Leg => pure (f leg) : Act Raised Leg Outcome)
        post (fun _ => final) :=
    fun f good => Act.Triple.read_bind fun leg holds =>
      Act.Triple.pure fun _ same => same ▸ good leg holds
  have stored : ∀ leg, inv leg → post (storedOutcome leg.session) leg := by
    intro leg holds
    rw [storedOutcome]
    split
    · exact rule.accepted leg holds
    · exact rule.rejected leg holds
  cases reply with
  | none => exact Act.Triple.pure fun leg holds => rule.nothing .reject leg holds
  | some reply =>
      rw [Mediator.handleUpstreamReply]
      refine Act.Triple.ite (fun _ => Act.Triple.bind (rule.raised (rule.accept reply)) fun _ =>
        outcome _ rule.accepted) fun _ => ?_
      refine Act.Triple.ite (fun _ => Act.Triple.bind (rule.raised (rule.reject reply)) fun _ =>
        outcome _ rule.rejected) fun _ => ?_
      cases reply.eapMessages with
      | nil => exact Act.Triple.pure fun leg holds => rule.nothing .ack leg (rule.pass reply leg holds)
      | cons eap _ =>
          refine Act.Triple.bind (rule.raised (rule.passed (Act.Invariant.lift _)))
            fun serverPkt => ?_
          refine Act.Triple.bind (rule.raised (rule.ingest _)) fun complete => ?_
          cases complete with
          | some tlsRecord => exact rule.deliver tlsRecord
          | none =>
              refine Act.Triple.bind (rule.raised (rule.drain fuel serverPkt)) fun complete => ?_
              cases complete with
              | some tlsRecord => exact rule.deliver tlsRecord
              | none => exact outcome _ stored

/-- The steps of forwarding a record. -/
structure ForwardRule (client : UpstreamClient) (context : AuthContext)
    (ready : UInt8 → Leg → Prop) (got : Reply → Leg → Prop) (inv : Leg → Prop)
    (post : Outcome → Leg → Prop) (final : Leg → Prop) : Prop
    extends ReplyRule client context ready got inv post final where
  chunk : ∀ identifier, Act.Invariant (ready identifier)
    (updateSession fun s => { s with up.fragmentsOut := s.up.fragmentsOut + 1 })
  send : ∀ identifier eapPayload, Built identifier eapPayload →
    Act.Triple (ready identifier) (exchange client eapPayload context) got (fun _ => inv)

theorem ForwardRule.sendChunks (rule : ForwardRule client context ready got inv post final)
    (total count : ℕ) : ∀ (pieces : List Bytes) (idx : ℕ) (reply : Option Reply),
    Act.Triple (GotLast got inv reply) (sendChunks client context total count idx pieces reply)
      (GotLast got inv) (fun _ => inv) := by
  have passed : ∀ reply leg, GotLast got inv reply leg → inv leg := by
    intro reply leg holds
    cases reply with
    | none => exact holds
    | some reply => exact rule.pass reply leg holds
  intro pieces
  induction pieces with
  | nil => exact fun idx reply => Act.Triple.pure fun leg holds => holds
  | cons chunk rest ih =>
      intro idx reply
      rw [Mediator.sendChunks]
      refine Act.Triple.conseq ?_ (passed reply) (fun _ _ => id) fun _ _ => id
      refine Act.Triple.bind rule.echo fun upId => ?_
      rcases built : build codeResponse upId chunk (idx < count - 1)
        (if idx = 0 then some total else none) false with e | eapFrag
      · exact fun leg readied => rule.weaken upId leg readied
      · rw [Act.bind_lift_ok]
        refine Act.Triple.bind (rule.weakened (rule.chunk upId)) fun _ => ?_
        refine Act.Triple.bind (rule.send upId eapFrag ⟨_, _, _, built⟩) fun reply => ?_
        exact ih (idx + 1) (some reply)

/-- **What the steps of forwarding preserve, forwarding preserves.** -/
theorem ForwardRule.forward (rule : ForwardRule client context ready got inv post final)
    (tlsRecord : Bytes) :
    Act.Triple inv (forwardRecordUpstream client fuel context tlsRecord) post (fun _ => final) := by
  refine Act.Triple.read_bind fun leg holds => ?_
  refine Act.Triple.at_state ?_ holds
  refine Act.Triple.bind (rule.raised (Act.Invariant.lift _)) fun pieces => ?_
  refine Act.Triple.bind (rule.raised (rule.sendChunks _ _ pieces 0 none)) fun reply => ?_
  exact rule.toReplyRule.handleUpstreamReply reply

/-- The steps of handling a packet of the supplicant in reassemble mode. -/
structure MediateRule (client : UpstreamClient) (context : AuthContext)
    (ready : UInt8 → Leg → Prop) (got : Reply → Leg → Prop) (inv : Leg → Prop)
    (post : Outcome → Leg → Prop) (final : Leg → Prop) : Prop
    extends ForwardRule client context ready got inv post final where
  release : ∀ ackedId, Act.Triple inv (sendNextDownstreamFragment ackedId) post (fun _ => final)
  ingestData : ∀ packet, Act.Invariant inv (ingestUp packet)
  acknowledge : ∀ leg, inv leg → post (ackOutcome leg.session.nextDownId)
    { leg with session := acked leg.session leg.session.upReasm }
  gather : ∀ tlsRecord : Bytes, Act.Invariant inv (updateSession fun s =>
    { s with up.bytesReassembled := s.up.bytesReassembled + tlsRecord.length })

theorem MediateRule.handleAck (rule : MediateRule client context ready got inv post final)
    (packet : EapTlsPacket) :
    Act.Triple inv (handleAck client fuel context packet) post (fun _ => final) := by
  refine Act.Triple.read_bind fun leg holds => ?_
  refine Act.Triple.ite (fun _ => (rule.release _).at_state holds) fun _ => ?_
  refine Act.Triple.ite (fun _ => Act.Triple.pure fun _ same => same ▸ rule.accepted leg holds)
    fun _ => ?_
  refine Act.Triple.ite (fun _ => Act.Triple.pure fun _ same => same ▸ rule.rejected leg holds)
    fun _ => ?_
  refine Act.Triple.at_state ?_ holds
  refine Act.Triple.bind (rule.raised rule.echo) fun upId => ?_
  rw [buildAck_eq_ok, Act.bind_lift_ok]
  refine Act.Triple.bind (rule.raised (rule.pull upId)) fun reply => ?_
  exact rule.toReplyRule.handleUpstreamReply (some reply)

theorem MediateRule.handleData (rule : MediateRule client context ready got inv post final)
    (packet : EapTlsPacket) :
    Act.Triple inv (handleData client fuel context packet) post (fun _ => final) := by
  refine Act.Triple.bind (rule.raised (rule.ingestData packet)) fun complete => ?_
  cases complete with
  | none =>
      refine Act.Triple.read_bind fun leg holds => ?_
      simp only [buildAck_eq_ok, Act.bind_lift_ok]
      rintro _ rfl
      exact rule.acknowledge _ holds
  | some tlsRecord =>
      refine Act.Triple.bind (rule.raised (rule.gather tlsRecord)) fun _ => ?_
      exact rule.toForwardRule.forward tlsRecord

/-- **What the steps preserve, handling a packet in reassemble mode preserves**, and its
outcome satisfies `post`. The packet has been noted in the session before. -/
theorem MediateRule.mediates (rule : MediateRule client context ready got inv post final)
    {eapBytes : Bytes} {packet : EapTlsPacket} {leg : Leg}
    (reassembling : leg.session.mode = .reassemble) (parsed : parse eapBytes = .ok packet)
    (arrives : inv { leg with session := arrived leg.session packet }) :
    Act.Triple (fun start => start = leg) (handleSupplicantEap client fuel context eapBytes) post
      (fun _ => final) := by
  rintro _ rfl
  rcases ack : packet.isAck with _ | _
  · rw [handle_data_eq reassembling parsed ack]
    exact rule.handleData packet _ arrives
  · rw [handle_ack_eq reassembling parsed ack]
    exact rule.handleAck packet _ arrives

theorem MediateRule.handleSupplicantEap
    (rule : MediateRule client context ready got inv (fun _ => inv) inv) (eapBytes : Bytes)
    {leg : Leg} (reassembling : leg.session.mode = .reassemble) (start : inv leg)
    (arrives : ∀ packet, inv { leg with session := arrived leg.session packet }) :
    inv (handleSupplicantEap client fuel context eapBytes leg).2 := by
  rcases parsed : parse eapBytes with e | packet
  · rw [handle_unparsed parsed]
    exact start
  · exact (rule.mediates reassembling parsed (arrives packet)).ended rfl

/-- The steps of relaying a packet as it is. -/
structure RelayRule (client : UpstreamClient) (context : AuthContext) (inv : Leg → Prop) :
    Prop where
  chunk : Act.Invariant inv
    (updateSession fun s => { s with up.fragmentsOut := s.up.fragmentsOut + 1 })
  send : ∀ eapPayload, Act.Invariant inv (exchange client eapPayload context)
  finish : ∀ verdict, Act.Invariant inv
    (Act.modify fun leg => { leg with session := leg.session.finish verdict leg.clock } :
      Act Raised Leg Unit)
  relay : Act.Invariant inv
    (updateSession fun s => { s with down.fragmentsOut := s.down.fragmentsOut + 1 })

theorem RelayRule.passthroughUpstream (rule : RelayRule client context inv) (eapBytes : Bytes) :
    Act.Invariant inv (passthroughUpstream client context eapBytes) := by
  refine Act.Invariant.bind rule.chunk fun _ => ?_
  refine Act.Invariant.bind (rule.send eapBytes) fun reply => ?_
  refine Act.Invariant.ite
    (Act.Invariant.bind (rule.finish _) fun _ => Act.Invariant.pure _) ?_
  refine Act.Invariant.ite
    (Act.Invariant.bind (rule.finish _) fun _ => Act.Invariant.pure _) ?_
  cases reply.eapMessages with
  | nil => exact Act.Invariant.pure _
  | cons eap _ => exact Act.Invariant.bind rule.relay fun _ => Act.Invariant.pure _

/-! ## Plain invariants

Where the Identifier does not matter, the steps are those of the rules with the same
assertion throughout. -/

/-- What the steps of a pull preserve. -/
structure PullSteps (client : UpstreamClient) (inv : Leg → Prop) : Prop where
  echo : Act.Invariant inv echoUpstreamId
  count : Act.Invariant inv
    (updateSession fun s => { s with down.acksGenerated := s.down.acksGenerated + 1 })
  exchange : ∀ identifier context,
    Act.Invariant inv (exchange client (layout (ackPacket codeResponse identifier)) context)
  ingest : ∀ packet, Act.Invariant inv (ingestDown packet)
  accept : ∀ eap, Act.Invariant inv (finishAccept eap)
  reject : ∀ eap, Act.Invariant inv (finishReject eap)

theorem PullSteps.rule (steps : PullSteps client inv) (context : AuthContext) :
    PullRule client context (fun _ => inv) (fun _ => inv) inv where
  echo := steps.echo
  weaken := fun _ _ => id
  count := fun _ => steps.count
  pull := fun identifier => steps.exchange identifier context
  pass := fun _ _ => id
  ingest := steps.ingest
  accept := fun _ => steps.accept _
  reject := fun _ => steps.reject _

theorem PullSteps.drain (steps : PullSteps client inv) (context : AuthContext) :
    ∀ fuel packet, Act.Invariant inv (drainUpstreamFragments client context fuel packet) :=
  (steps.rule context).drain

theorem PullSteps.replyRule (steps : PullSteps client inv)
    (deliver : ∀ tlsRecord, Act.Invariant inv (deliverRecord tlsRecord)) (context : AuthContext) :
    ReplyRule client context (fun _ => inv) (fun _ => inv) inv (fun _ => inv) inv where
  toPullRule := steps.rule context
  raise := fun _ => id
  deliver := deliver
  accepted := fun _ => id
  rejected := fun _ => id
  nothing := fun _ _ => id

theorem PullSteps.handleUpstreamReply (steps : PullSteps client inv)
    (deliver : ∀ tlsRecord, Act.Invariant inv (deliverRecord tlsRecord)) (context : AuthContext)
    (reply : Option Reply) :
    Act.Invariant inv (handleUpstreamReply client fuel context reply) := by
  cases reply with
  | none => exact (steps.replyRule deliver context).handleUpstreamReply none
  | some reply => exact (steps.replyRule deliver context).handleUpstreamReply (some reply)

/-- What the steps of forwarding a record preserve. -/
structure ForwardSteps (client : UpstreamClient) (inv : Leg → Prop) : Prop
    extends PullSteps client inv where
  chunk : Act.Invariant inv
    (updateSession fun s => { s with up.fragmentsOut := s.up.fragmentsOut + 1 })
  send : ∀ eapPayload context, Act.Invariant inv (Mediator.exchange client eapPayload context)
  deliver : ∀ tlsRecord, Act.Invariant inv (deliverRecord tlsRecord)

theorem ForwardSteps.rule (steps : ForwardSteps client inv) (context : AuthContext) :
    ForwardRule client context (fun _ => inv) (fun _ => inv) inv (fun _ => inv) inv where
  toReplyRule := steps.toPullSteps.replyRule steps.deliver context
  chunk := fun _ => steps.chunk
  send := fun _ eapPayload _ => steps.send eapPayload context

theorem ForwardSteps.sendChunks (steps : ForwardSteps client inv) (context : AuthContext)
    (total count : ℕ) (pieces : List Bytes) (idx : ℕ) (reply : Option Reply) :
    Act.Invariant inv (sendChunks client context total count idx pieces reply) := by
  have same : GotLast (fun _ => inv) inv = fun _ => inv := by
    funext reply
    cases reply <;> rfl
  have sends := (steps.rule context).sendChunks total count pieces idx reply
  rw [same] at sends
  exact sends

theorem ForwardSteps.forward (steps : ForwardSteps client inv) (context : AuthContext)
    (tlsRecord : Bytes) :
    Act.Invariant inv (forwardRecordUpstream client fuel context tlsRecord) :=
  (steps.rule context).forward tlsRecord

/-- What the steps of handling a packet of the supplicant preserve. -/
structure HandleSteps (client : UpstreamClient) (inv : Leg → Prop) : Prop
    extends ForwardSteps client inv where
  arrive : ∀ identifier, Act.Invariant inv (updateSession fun s =>
    { s with up.fragmentsIn := s.up.fragmentsIn + 1, downNextId := identifier })
  see : ∀ identifier, Act.Invariant inv (updateSession fun s =>
    { s with downLastReqId := some identifier })
  release : ∀ ackedId, Act.Invariant inv (sendNextDownstreamFragment ackedId)
  ingestData : ∀ packet, Act.Invariant inv (ingestUp packet)
  acknowledge : ∀ identifier, Act.Invariant inv (updateSession fun s =>
    { s with up.acksGenerated := s.up.acksGenerated + 1, downNextId := identifier })
  gather : ∀ tlsRecord : Bytes, Act.Invariant inv (updateSession fun s =>
    { s with up.bytesReassembled := s.up.bytesReassembled + tlsRecord.length })
  finish : ∀ verdict, Act.Invariant inv
    (Act.modify fun leg => { leg with session := leg.session.finish verdict leg.clock } :
      Act Raised Leg Unit)
  relay : Act.Invariant inv
    (updateSession fun s => { s with down.fragmentsOut := s.down.fragmentsOut + 1 })

theorem HandleSteps.rule (steps : HandleSteps client inv) (context : AuthContext) :
    MediateRule client context (fun _ => inv) (fun _ => inv) inv (fun _ => inv) inv where
  toForwardRule := steps.toForwardSteps.rule context
  release := steps.release
  ingestData := steps.ingestData
  acknowledge := fun leg holds => (steps.acknowledge leg.session.nextDownId).ended holds
  gather := steps.gather

theorem HandleSteps.relayRule (steps : HandleSteps client inv) (context : AuthContext) :
    RelayRule client context inv where
  chunk := steps.chunk
  send := fun eapPayload => steps.send eapPayload context
  finish := steps.finish
  relay := steps.relay

theorem HandleSteps.handleAck (steps : HandleSteps client inv) (context : AuthContext)
    (packet : EapTlsPacket) : Act.Invariant inv (handleAck client fuel context packet) :=
  (steps.rule context).handleAck packet

theorem HandleSteps.handleData (steps : HandleSteps client inv) (context : AuthContext)
    (packet : EapTlsPacket) : Act.Invariant inv (handleData client fuel context packet) :=
  (steps.rule context).handleData packet

/-- **What the steps of handling preserve, handling preserves.** -/
theorem HandleSteps.handleSupplicantEap (steps : HandleSteps client inv) (context : AuthContext)
    (eapBytes : Bytes) : Act.Invariant inv (handleSupplicantEap client fuel context eapBytes) := by
  refine Act.Invariant.bind (Act.Invariant.lift _) fun packet => ?_
  refine Act.Invariant.bind (steps.arrive _) fun _ => Act.Invariant.read_bind fun leg => ?_
  refine Act.Invariant.ite ((steps.relayRule context).passthroughUpstream eapBytes) ?_
  refine Act.Invariant.bind (steps.see _) fun _ => ?_
  exact Act.Invariant.ite (steps.handleAck context packet) (steps.handleData context packet)

/-! ## What goes upstream -/

/-- Since `start`, exactly these packets went upstream. -/
def SentSince (start : Leg) (packets : List EapTlsPacket) (leg : Leg) : Prop :=
  ∃ new, leg.exchanges = start.exchanges ++ new ∧
    new.map (fun exchange => parse exchange.request.eap) = packets.map .ok

namespace SentSince

variable {start mid leg : Leg} {packets packets' : List EapTlsPacket}

theorem nil (same : leg.exchanges = start.exchanges) : SentSince start [] leg :=
  ⟨[], by rw [same, List.append_nil], rfl⟩

theorem append (first : SentSince start packets mid) (rest : SentSince mid packets' leg) :
    SentSince start (packets ++ packets') leg := by
  obtain ⟨new, grown, parsed⟩ := first
  obtain ⟨new', grown', parsed'⟩ := rest
  refine ⟨new ++ new', ?_, ?_⟩
  · rw [grown', grown, List.append_assoc]
  · rw [List.map_append, parsed, parsed', List.map_append]

theorem singleton {packet : EapTlsPacket} {exchange : Exchange}
    (grown : leg.exchanges = start.exchanges ++ [exchange])
    (carries : parse exchange.request.eap = .ok packet) : SentSince start [packet] leg :=
  ⟨[exchange], grown, by rw [List.map_singleton, carries, List.map_singleton]⟩

theorem of_exchanges {leg' : Leg} (same : leg'.exchanges = leg.exchanges)
    (sent : SentSince start packets leg) : SentSince start packets leg' := by
  obtain ⟨new, grown, parsed⟩ := sent
  exact ⟨new, same.trans grown, parsed⟩

end SentSince

/-- Since `start`, only ACKs went upstream. -/
def PullsSince (start leg : Leg) : Prop :=
  ∃ identifiers : List UInt8, SentSince start (identifiers.map (ackPacket codeResponse)) leg

namespace PullsSince

theorem refl (leg : Leg) : PullsSince leg leg := ⟨[], SentSince.nil rfl⟩

theorem invariant_of_keeps {α : Type} {x : Act Raised Leg α} (keeps : Act.Keeps Leg.exchanges x)
    (start : Leg) : Act.Invariant (PullsSince start) x :=
  keeps.invariant fun _ _ same ⟨identifiers, sent⟩ => ⟨identifiers, sent.of_exchanges same⟩

/-- An ACK that goes upstream is a pull. -/
theorem exchange_ack (start : Leg) (identifier : UInt8) (context : AuthContext) :
    Act.Invariant (PullsSince start)
      (exchange client (layout (ackPacket codeResponse identifier)) context) := by
  refine Act.Invariant.of_ended fun leg ⟨identifiers, sent⟩ => ?_
  refine ⟨identifiers ++ [identifier], ?_⟩
  rw [List.map_append]
  exact sent.append (SentSince.singleton (exchange_exchanges _ _ _)
    (by rw [Leg.eap_exchanged, parse_ack]))

theorem steps (start : Leg) : PullSteps client (PullsSince start) where
  echo := invariant_of_keeps (fun leg => by rw [echoUpstreamId_eq, Leg.takeUpId_exchanges]) start
  count := invariant_of_keeps (fun _ => rfl) start
  exchange := exchange_ack start
  ingest := fun _ => invariant_of_keeps (fun _ => rfl) start
  accept := fun _ => invariant_of_keeps (fun _ => rfl) start
  reject := fun _ => invariant_of_keeps (fun _ => rfl) start

end PullsSince

/-- **Handling the server's reply sends nothing but ACKs.** -/
theorem handleUpstreamReply_pulls (start : Leg) (context : AuthContext) (reply : Option Reply) :
    Act.Invariant (PullsSince start) (handleUpstreamReply client fuel context reply) :=
  (PullsSince.steps start).handleUpstreamReply
    (fun tlsRecord => PullsSince.invariant_of_keeps (keeps_deliver tlsRecord) start) context reply

end Mediator

/-! ## What a pull does not touch -/

/-- The session without what it knows of the server. -/
def Session.supplicantSide (session : Session) : Session :=
  { session with
    radiusState := none
    msMppeSendKey := none
    msMppeRecvKey := none
    upstreamLastEapReqId := none
    downReasm := { maxMessageLen := session.downReasm.maxMessageLen }
    upNextId := 0
    down := {}
    completedAt := none
    upstreamRoundTrips := 0
    result := none
    pendingSuccess := none
    pendingFailure := none }

@[simp] theorem Session.supplicantSide_mode (session : Session) :
    session.supplicantSide.mode = session.mode := rfl

@[simp] theorem Session.supplicantSide_downstreamFragmentSize (session : Session) :
    session.supplicantSide.downstreamFragmentSize = session.downstreamFragmentSize := rfl

namespace Mediator

variable {client : UpstreamClient}

theorem learn_supplicantSide (reply : RadiusReply) (session : Session) :
    (UpstreamClient.learn reply session).supplicantSide = session.supplicantSide := by
  obtain ⟨learnt, sendKey, recvKey, writes⟩ := learn_writes reply
  rw [writes]
  rfl

theorem learn_ident (reply : RadiusReply) (session : Session) :
    (UpstreamClient.learn reply session).ident = session.ident :=
  congrArg (fun s => s.ident) (learn_supplicantSide reply session)

theorem learn_upstreamRoundTrips (reply : RadiusReply) (session : Session) :
    (UpstreamClient.learn reply session).upstreamRoundTrips = session.upstreamRoundTrips := by
  obtain ⟨learnt, sendKey, recvKey, writes⟩ := learn_writes reply
  rw [writes]

theorem exchange_supplicantSide (eapPayload : Bytes) (context : AuthContext) :
    Act.Keeps (fun leg => leg.session.supplicantSide) (exchange client eapPayload context) := by
  intro leg
  rw [exchange_eq]
  rcases leg.outcome client eapPayload context with e | reply
  · rfl
  · exact learn_supplicantSide reply _

theorem ingestDown_supplicantSide (packet : EapTlsPacket) :
    Act.Keeps (fun leg => leg.session.supplicantSide) (ingestDown packet) := by
  intro leg
  simp only [ingestDown_eq, Session.supplicantSide, Reassembler.ingest_maxMessageLen]

theorem keeps_supplicantSide_echo :
    Act.Keeps (fun leg => leg.session.supplicantSide) echoUpstreamId := by
  intro leg
  rw [echoUpstreamId_eq]
  unfold Leg.takeUpId Session.takeUpId
  split <;> rfl

/-- What depends on the supplicant's side alone is preserved by the steps of a pull. -/
theorem pullSteps_of_supplicantSide {P : Session → Prop}
    (of_side : ∀ s s' : Session, s'.supplicantSide = s.supplicantSide → P s → P s') :
    PullSteps client (fun leg => P leg.session) where
  echo := keeps_supplicantSide_echo.invariant fun _ _ => of_side _ _
  count := fun _ => of_side _ _ rfl
  exchange := fun _ context =>
    (exchange_supplicantSide _ context).invariant fun _ _ => of_side _ _
  ingest := fun packet => (ingestDown_supplicantSide packet).invariant fun _ _ => of_side _ _
  accept := fun _ _ => of_side _ _ rfl
  reject := fun _ _ => of_side _ _ rfl

/-- **The drain does not touch what the session knows of the supplicant.** -/
theorem drain_supplicantSide (context : AuthContext) (fuel : ℕ) (packet : EapTlsPacket)
    (leg : Leg) :
    (drainUpstreamFragments client context fuel packet leg).2.session.supplicantSide =
      leg.session.supplicantSide :=
  ((@pullSteps_of_supplicantSide client (fun s => s.supplicantSide = leg.session.supplicantSide)
    fun _ _ => Eq.trans).drain context fuel packet).ended rfl

/-! ## Properties of the session -/

/-- What makes a property of the session survive the handling of a packet: it depends neither
on what the session knows of the server nor on the queue toward the supplicant, and the
steps on the supplicant's side preserve it. -/
structure SessionSteps (P : Session → Prop) : Prop where
  side : ∀ s s' : Session, s'.supplicantSide = s.supplicantSide → P s → P s'
  queue : ∀ s s' : Session, s'.unqueued = s.unqueued → P s → P s'
  chunk : ∀ s, P s → P { s with up.fragmentsOut := s.up.fragmentsOut + 1 }
  arrive : ∀ s identifier, P s →
    P { s with up.fragmentsIn := s.up.fragmentsIn + 1, downNextId := identifier }
  see : ∀ s identifier, P s → P { s with downLastReqId := some identifier }
  ingestData : ∀ s packet, P s → P { s with upReasm := (Reassembler.ingest packet s.upReasm).2 }
  acknowledge : ∀ s identifier, P s →
    P { s with up.acksGenerated := s.up.acksGenerated + 1, downNextId := identifier }
  gather : ∀ s (tlsRecord : Bytes), P s →
    P { s with up.bytesReassembled := s.up.bytesReassembled + tlsRecord.length }

/-- **A property of the session that survives the steps survives the handling.** -/
theorem SessionSteps.handleSteps {P : Session → Prop} (steps : SessionSteps P) :
    HandleSteps client (fun leg => P leg.session) where
  toPullSteps := pullSteps_of_supplicantSide steps.side
  chunk := fun leg => steps.chunk leg.session
  send := fun eapPayload context => (exchange_supplicantSide eapPayload context).invariant
    fun _ _ => steps.side _ _
  deliver := fun tlsRecord => (deliver_unqueued tlsRecord).invariant
    fun _ _ same => steps.queue _ _ (congrArg Leg.session same)
  arrive := fun identifier leg => steps.arrive leg.session identifier
  see := fun identifier leg => steps.see leg.session identifier
  release := fun ackedId => (sendNext_unqueued ackedId).invariant
    fun _ _ same => steps.queue _ _ (congrArg Leg.session same)
  ingestData := fun packet => Act.Invariant.of_ended fun leg => steps.ingestData leg.session packet
  acknowledge := fun identifier leg => steps.acknowledge leg.session identifier
  gather := fun tlsRecord leg => steps.gather leg.session tlsRecord
  finish := fun _ leg => steps.side leg.session _ rfl
  relay := fun leg => steps.side leg.session _ rfl

/-! ## What only an exchange changes -/

end Mediator

/-- The session without what is kept on the way between the server and the supplicant: what
is left changes only when a request is sent and its reply taken in. -/
def Session.upstreamSide (session : Session) : Session :=
  { session with
    downLastReqId := none
    upReasm := { maxMessageLen := session.upReasm.maxMessageLen }
    downReasm := { maxMessageLen := session.downReasm.maxMessageLen }
    downOutbox := []
    upNextId := 0
    downNextId := 0
    up := {}
    down := {}
    completedAt := none
    result := none
    pendingSuccess := none
    pendingFailure := none
    downTotal := 0
    downNchunks := 0 }

/-- The exchanges, and what else only an exchange changes. -/
def Leg.upstreamSide (leg : Leg) : List Exchange × Session :=
  (leg.exchanges, leg.session.upstreamSide)

namespace Mediator

variable {client : UpstreamClient} {fuel : ℕ} {context : AuthContext}
  {ready : UInt8 → Leg → Prop} {inv : Leg → Prop}

theorem keeps_upstreamSide_echo : Act.Keeps Leg.upstreamSide echoUpstreamId := by
  intro leg
  rw [echoUpstreamId_eq]
  unfold Leg.takeUpId Session.takeUpId
  split <;> rfl

theorem keeps_upstreamSide_ingestDown (packet : EapTlsPacket) :
    Act.Keeps Leg.upstreamSide (ingestDown packet) := by
  intro leg
  simp only [ingestDown_eq, Leg.upstreamSide, Session.upstreamSide, Reassembler.ingest_maxMessageLen]

theorem keeps_upstreamSide_ingestUp (packet : EapTlsPacket) :
    Act.Keeps Leg.upstreamSide (ingestUp packet) := by
  intro leg
  simp only [ingestUp_eq, Leg.upstreamSide, Session.upstreamSide, Reassembler.ingest_maxMessageLen]

/-- An assertion about what only an exchange changes, which exchanges preserve. -/
structure ExchangeRule (client : UpstreamClient) (context : AuthContext)
    (ready : UInt8 → Leg → Prop) (inv : Leg → Prop) : Prop where
  side : ∀ leg leg' : Leg, leg'.upstreamSide = leg.upstreamSide → inv leg → inv leg'
  readySide : ∀ identifier (leg leg' : Leg), leg'.upstreamSide = leg.upstreamSide →
    ready identifier leg → ready identifier leg'
  echo : ∀ leg, inv leg → ready leg.session.upId leg
  weaken : ∀ identifier leg, ready identifier leg → inv leg
  send : ∀ identifier eapPayload, Built identifier eapPayload →
    Act.Triple (ready identifier) (exchange client eapPayload context) (fun _ => inv) (fun _ => inv)

/-- **What exchanges preserve, and nothing else touches, handling a packet preserves.** -/
theorem ExchangeRule.mediateRule (rule : ExchangeRule client context ready inv) :
    MediateRule client context ready (fun _ => inv) inv (fun _ => inv) inv := by
  have keeps : ∀ {α : Type} {x : Act Raised Leg α}, Act.Keeps Leg.upstreamSide x →
      Act.Invariant inv x := fun kept => kept.invariant rule.side
  have keepsReady : ∀ identifier (f : Session → Session),
      (∀ s, (f s).upstreamSide = s.upstreamSide) →
        Act.Invariant (ready identifier) (updateSession f) := fun identifier f same leg =>
    rule.readySide identifier leg _ (congrArg (leg.exchanges, ·) (same leg.session))
  exact {
    echo := by
      intro leg holds
      have kept := keeps_upstreamSide_echo leg
      rw [echoUpstreamId_eq] at kept ⊢
      exact rule.readySide _ leg _ kept (rule.echo leg holds)
    weaken := rule.weaken
    count := fun identifier => keepsReady identifier _ fun _ => rfl
    pull := fun identifier => rule.send identifier _ (built_ack identifier)
    pass := fun _ _ => id
    raise := fun _ => id
    ingest := fun packet => keeps (keeps_upstreamSide_ingestDown packet)
    accept := fun _ => keeps fun _ => rfl
    reject := fun _ => keeps fun _ => rfl
    deliver := fun tlsRecord =>
      keeps ((deliver_unqueued tlsRecord).weaken Leg.upstreamSide fun _ => rfl)
    accepted := fun _ => id
    rejected := fun _ => id
    nothing := fun _ _ => id
    chunk := fun identifier => keepsReady identifier _ fun _ => rfl
    send := rule.send
    release := fun ackedId =>
      keeps ((sendNext_unqueued ackedId).weaken Leg.upstreamSide fun _ => rfl)
    ingestData := fun packet => keeps (keeps_upstreamSide_ingestUp packet)
    acknowledge := fun leg => rule.side leg _ rfl
    gather := fun _ => keeps fun _ => rfl }

/-- The same where the Identifier does not matter. -/
theorem exchangeRule_of_invariant
    (side : ∀ leg leg' : Leg, leg'.upstreamSide = leg.upstreamSide → inv leg → inv leg')
    (send : ∀ eapPayload, Act.Invariant inv (exchange client eapPayload context)) :
    ExchangeRule client context (fun _ => inv) inv where
  side := side
  readySide := fun _ => side
  echo := fun _ => id
  weaken := fun _ _ => id
  send := fun _ eapPayload _ => send eapPayload

theorem relayRule_of_invariant
    (side : ∀ leg leg' : Leg, leg'.upstreamSide = leg.upstreamSide → inv leg → inv leg')
    (send : ∀ eapPayload, Act.Invariant inv (exchange client eapPayload context)) :
    RelayRule client context inv where
  chunk := fun leg => side leg _ rfl
  send := send
  finish := fun _ leg => side leg _ rfl
  relay := fun leg => side leg _ rfl

/-- **In both modes.** -/
theorem handleSupplicantEap_of_exchange
    (side : ∀ leg leg' : Leg, leg'.upstreamSide = leg.upstreamSide → inv leg → inv leg')
    (send : ∀ eapPayload, Act.Invariant inv (exchange client eapPayload context))
    (eapBytes : Bytes) : Act.Invariant inv (handleSupplicantEap client fuel context eapBytes) := by
  refine Act.Invariant.of_ended fun leg start => ?_
  rcases parsed : parse eapBytes with e | packet
  · rw [handle_unparsed parsed]
    exact start
  cases mode : leg.session.mode with
  | passthrough =>
      rw [handle_passthrough_eq mode parsed]
      exact ((relayRule_of_invariant side send).passthroughUpstream eapBytes).ended
        (side leg _ rfl start)
  | reassemble =>
      exact (exchangeRule_of_invariant side send).mediateRule.handleSupplicantEap eapBytes mode start
        fun packet => side leg _ rfl start

/-- Since `start`, every exchange came to what pyrad and the server made of its request. -/
def AskedSince (client : UpstreamClient) (start leg : Leg) : Prop :=
  ∃ new, leg.exchanges = start.exchanges ++ new ∧ ∀ exchange ∈ new, ∃ before,
    exchange.outcome = client.answer before exchange.request

theorem exchange_askedSince (start : Leg) (eapPayload : Bytes) :
    Act.Invariant (AskedSince client start) (exchange client eapPayload context) := by
  apply Act.Invariant.of_ended
  rintro leg ⟨new, grown, asked⟩
  refine ⟨new ++ [leg.exchanged client eapPayload context], ?_, ?_⟩
  · rw [exchange_exchanges, grown, List.append_assoc]
  · intro exchange member
    rcases List.mem_append.mp member with early | last
    · exact asked exchange early
    · rw [List.mem_singleton.mp last]
      exact ⟨leg.exchanges, rfl⟩

/-- **What came of a request is what pyrad and the server made of it.** -/
theorem handleSupplicantEap_asked (eapBytes : Bytes) (leg : Leg) :
    AskedSince client leg (handleSupplicantEap client fuel context eapBytes leg).2 := by
  apply (handleSupplicantEap_of_exchange ?_ (exchange_askedSince leg) eapBytes).ended
  · exact ⟨[], (List.append_nil _).symm, by simp⟩
  · rintro mid mid' same ⟨new, grown, asked⟩
    exact ⟨new, (congrArg Prod.fst same).trans grown, asked⟩

/-! ## Exchanges are never undone -/

theorem keeps_since {α : Type} {x : Act Raised Leg α} (keeps : Act.Keeps Leg.exchanges x)
    (before : List Exchange) : Act.Invariant (fun leg => before <+: leg.exchanges) x :=
  keeps.invariant fun _ _ same start => same ▸ start

theorem keeps_send_next (ackedId : Option UInt8) :
    Act.Keeps Leg.exchanges (sendNextDownstreamFragment ackedId) :=
  (sendNext_unqueued ackedId).weaken Leg.exchanges fun _ => rfl

/-- What was exchanged stays exchanged. -/
theorem since_steps (client : UpstreamClient) (before : List Exchange) :
    HandleSteps client (fun leg => before <+: leg.exchanges) where
  echo := keeps_since (fun leg => by rw [echoUpstreamId_eq, Leg.takeUpId_exchanges]) before
  count := keeps_since (fun _ => rfl) before
  exchange := fun _ context => Act.Invariant.of_ended fun leg start => by
    rw [exchange_exchanges]
    exact start.trans (List.prefix_append _ _)
  ingest := fun _ => keeps_since (fun _ => rfl) before
  accept := fun _ => keeps_since (fun _ => rfl) before
  reject := fun _ => keeps_since (fun _ => rfl) before
  chunk := keeps_since (fun _ => rfl) before
  send := fun _ context => Act.Invariant.of_ended fun leg start => by
    rw [exchange_exchanges]
    exact start.trans (List.prefix_append _ _)
  deliver := fun tlsRecord => keeps_since (keeps_deliver tlsRecord) before
  arrive := fun _ => keeps_since (fun _ => rfl) before
  see := fun _ => keeps_since (fun _ => rfl) before
  release := fun ackedId => keeps_since (keeps_send_next ackedId) before
  ingestData := fun _ => keeps_since (fun _ => rfl) before
  acknowledge := fun _ => keeps_since (fun _ => rfl) before
  gather := fun _ => keeps_since (fun _ => rfl) before
  finish := fun _ => keeps_since (fun _ => rfl) before
  relay := keeps_since (fun _ => rfl) before

/-- What begins with an exchange has made it. -/
theorem grows_of_exchange {α : Type} {rest : Reply → Act Raised Leg α}
    (keeps : ∀ before reply, Act.Invariant (fun leg => before <+: leg.exchanges) (rest reply))
    (eapPayload : Bytes) (leg : Leg) :
    leg.exchanges ++ [leg.exchanged client eapPayload context] <+:
      ((exchange client eapPayload context >>= rest) leg).2.exchanges := by
  have grows := @exchange_exchanges client eapPayload context leg
  rcases sent : exchange client eapPayload context leg with ⟨e | reply, mid⟩
  · rw [sent] at grows
    rw [Act.bind_of_error sent]
    exact grows ▸ List.prefix_rfl
  · rw [sent] at grows
    rw [Act.bind_of_ok sent, ← grows]
    exact (keeps mid.exchanges reply).ended List.prefix_rfl

/-- A drain that goes on has ACKed the last fragment. -/
theorem drain_grows {lastPkt : EapTlsPacket} (more : lastPkt.moreFragments = true) (leg : Leg) :
    leg.exchanges ++ [leg.pullReady.exchanged client (layout (ackPacket codeResponse leg.session.upId))
        context] <+:
      (drainUpstreamFragments client context (fuel + 1) lastPkt leg).2.exchanges := by
  rw [drainUpstreamFragments, if_pos more, Act.bind_of_ok (echoUpstreamId_eq leg), buildAck_eq_ok,
    Act.bind_lift_ok]
  simp only [updateSession, Act.modify_bind]
  refine grows_of_exchange (fun before reply => ?_) _ leg.pullReady
  have steps := (since_steps client before).toPullSteps
  apply Act.Invariant.ite (Act.Invariant.bind (steps.accept _) fun _ => Act.Invariant.pure _)
  apply Act.Invariant.ite (Act.Invariant.bind (steps.reject _) fun _ => Act.Invariant.pure _)
  cases reply.eapMessages with
  | nil => exact Act.Invariant.read_bind fun _ => Act.Invariant.pure _
  | cons eap _ =>
      apply Act.Invariant.bind (Act.Invariant.lift _)
      intro lastPkt
      apply Act.Invariant.bind (steps.ingest _)
      intro done
      cases done with
      | some tlsRecord => exact Act.Invariant.pure _
      | none => exact steps.drain context fuel lastPkt

/-- A loop over chunks has sent the first one. -/
theorem sendChunks_grows {total count idx : ℕ} {chunk : Bytes} {pieces : List Bytes}
    {reply : Option Reply} {leg : Leg}
    (encodable : (wrap codeResponse total count idx leg.session.upId chunk).Encodable) :
    leg.exchanges ++ [leg.chunkReady.exchanged client
        (layout (wrap codeResponse total count idx leg.session.upId chunk)) context] <+:
      (sendChunks client context total count idx (chunk :: pieces) reply leg).2.exchanges := by
  rw [sendChunks_cons encodable]
  refine grows_of_exchange (fun before reply => ?_) _ leg.chunkReady
  exact (since_steps client before).toForwardSteps.sendChunks context _ _ _ _ _

/-! ## The reassembler of the supplicant's fragments -/

theorem upReasm_steps (value : Reassembler) :
    ForwardSteps client (fun leg => leg.session.upReasm = value) where
  toPullSteps := pullSteps_of_supplicantSide fun _ _ side same =>
    (congrArg Session.upReasm side).trans same
  chunk := fun _ same => same
  send := fun eapPayload context => (exchange_supplicantSide eapPayload context).invariant
    fun _ _ side same => (congrArg Session.upReasm side).trans same
  deliver := fun tlsRecord =>
    ((deliver_unqueued tlsRecord).weaken (fun leg => leg.session.upReasm) fun _ => rfl).invariant
      fun _ _ => Eq.trans

/-- **Forwarding a record leaves the reassembler of the supplicant's fragments alone.** -/
theorem forward_upReasm {fuel : ℕ} (context : AuthContext) (tlsRecord : Bytes) (leg : Leg) :
    (forwardRecordUpstream client fuel context tlsRecord leg).2.session.upReasm =
      leg.session.upReasm :=
  ((upReasm_steps leg.session.upReasm).forward context tlsRecord).ended rfl

end Mediator
end EapAccel
