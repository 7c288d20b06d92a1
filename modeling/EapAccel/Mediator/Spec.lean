import EapAccel.Mediator
import EapAccel.Upstream.Packing

/-!
# What the functions of the mediator do

One equation for each function that goes straight through: the state it leaves and
the value it returns. The callers reason from these and do not unfold the functions.

`Leg.sent` is the state after pyrad was asked to send a request, whatever came of it, and
`Leg.received` the state after its reply has been taken in.
-/

set_option autoImplicit false

namespace EapAccel

open Foundations EapTls

/-! ## The upstream leg -/

section Upstream

variable (client : UpstreamClient)

/-- The request that `exchange` asks pyrad to send. -/
def Leg.request (leg : Leg) (eapPayload : Bytes) (context : AuthContext) : AccessRequest :=
  client.accessRequestFor leg.session eapPayload context leg.session.radiusState

/-- What comes of it. -/
def Leg.outcome (leg : Leg) (eapPayload : Bytes) (context : AuthContext) :
    Except Raised RadiusReply :=
  client.answer leg.exchanges (leg.request client eapPayload context)

/-- The record of the exchange. -/
def Leg.exchanged (leg : Leg) (eapPayload : Bytes) (context : AuthContext) : Exchange :=
  ⟨leg.session.ident, leg.request client eapPayload context, leg.outcome client eapPayload context⟩

/-- The state after a request has gone out, or was refused. -/
def Leg.sent (leg : Leg) (eapPayload : Bytes) (context : AuthContext) : Leg where
  session := client.countTrip (leg.request client eapPayload context) leg.session
  exchanges := leg.exchanges ++ [leg.exchanged client eapPayload context]
  clock := leg.clock + client.duration leg.exchanges (leg.request client eapPayload context)

/-- The state after a reply has been taken in. -/
def Leg.received (leg : Leg) (reply : RadiusReply) : Leg :=
  { leg with
    session := { UpstreamClient.learn reply leg.session with radiusState := reply.state } }

variable {client}

@[simp] theorem Leg.eap_request (leg : Leg) (eapPayload : Bytes) (context : AuthContext) :
    (leg.request client eapPayload context).eap = eapPayload :=
  splitEapMessage_flatten eapPayload

@[simp] theorem Leg.eap_exchanged (leg : Leg) (eapPayload : Bytes) (context : AuthContext) :
    (leg.exchanged client eapPayload context).request.eap = eapPayload :=
  leg.eap_request eapPayload context

@[simp] theorem Leg.sent_exchanges (leg : Leg) (eapPayload : Bytes) (context : AuthContext) :
    (leg.sent client eapPayload context).exchanges =
      leg.exchanges ++ [leg.exchanged client eapPayload context] := rfl

@[simp] theorem Leg.received_exchanges (leg : Leg) (reply : RadiusReply) :
    (leg.received reply).exchanges = leg.exchanges := rfl

end Upstream

namespace Mediator

variable {client : UpstreamClient} {fuel : ℕ}

/-- **`exchange` sends one request and takes in its reply, or raises.** -/
theorem exchange_eq (eapPayload : Bytes) (context : AuthContext) (leg : Leg) :
    exchange client eapPayload context leg =
      match leg.outcome client eapPayload context with
      | .ok reply => (.ok reply.normalise, (leg.sent client eapPayload context).received reply)
      | .error e => (.error e, leg.sent client eapPayload context) := by
  rcases h : leg.outcome client eapPayload context with e | reply
  · have sends : client.sendEap eapPayload context leg.session.radiusState leg =
        (.error e, leg.sent client eapPayload context) := by
      simp only [UpstreamClient.sendEap, Act.read_bind, updateSession, Act.modify_bind]
      rw [Act.bind_of_error (by rw [Act.lift_apply]; exact congrArg (·, _) h)]
      rfl
    simp only [exchange, Act.read_bind]
    exact Act.bind_of_error sends
  · have sends : client.sendEap eapPayload context leg.session.radiusState leg =
        (.ok reply.normalise,
          { leg.sent client eapPayload context with
            session := UpstreamClient.learn reply (leg.sent client eapPayload context).session }) := by
      simp only [UpstreamClient.sendEap, Act.read_bind, updateSession, Act.modify_bind]
      rw [Act.bind_of_ok (by rw [Act.lift_apply]; exact congrArg (·, _) h)]
      rfl
    simp only [exchange, Act.read_bind]
    rw [Act.bind_of_ok sends]
    rfl

theorem exchange_ok {eapPayload : Bytes} {context : AuthContext} {leg : Leg} {reply : RadiusReply}
    (answered : leg.outcome client eapPayload context = .ok reply) :
    exchange client eapPayload context leg =
      (.ok reply.normalise, (leg.sent client eapPayload context).received reply) := by
  rw [exchange_eq, answered]

theorem exchange_error {eapPayload : Bytes} {context : AuthContext} {leg : Leg} {e : Raised}
    (failed : leg.outcome client eapPayload context = .error e) :
    exchange client eapPayload context leg = (.error e, leg.sent client eapPayload context) := by
  rw [exchange_eq, failed]

theorem exchange_exchanges (eapPayload : Bytes) (context : AuthContext) (leg : Leg) :
    (exchange client eapPayload context leg).2.exchanges =
      leg.exchanges ++ [leg.exchanged client eapPayload context] := by
  rw [exchange_eq]
  rcases leg.outcome client eapPayload context with e | reply <;> rfl

end Mediator

/-! ## Identifiers toward the server -/

namespace Session

/-- The Identifier that the next EAP-Response to the server echoes. -/
def upId (session : Session) : UInt8 := session.upstreamLastEapReqId.getD session.nextUpId

/-- The session after the Identifier has been taken. -/
def takeUpId (session : Session) : Session :=
  match session.upstreamLastEapReqId with
  | some _ => session
  | none => { session with upNextId := session.nextUpId }

end Session

def Leg.takeUpId (leg : Leg) : Leg := { leg with session := leg.session.takeUpId }

/-- The state when a chunk is about to be sent. -/
def Leg.chunkReady (leg : Leg) : Leg :=
  { leg with session :=
    { leg.session.takeUpId with up.fragmentsOut := leg.session.takeUpId.up.fragmentsOut + 1 } }

/-- The state when a fragment of the server is about to be ACKed. -/
def Leg.pullReady (leg : Leg) : Leg :=
  { leg with session :=
    { leg.session.takeUpId with
      down.acksGenerated := leg.session.takeUpId.down.acksGenerated + 1 } }

@[simp] theorem Leg.pullReady_exchanges (leg : Leg) : leg.pullReady.exchanges = leg.exchanges := rfl

@[simp] theorem Leg.chunkReady_exchanges (leg : Leg) : leg.chunkReady.exchanges = leg.exchanges := rfl

@[simp] theorem Leg.takeUpId_exchanges (leg : Leg) : leg.takeUpId.exchanges = leg.exchanges := rfl

namespace Mediator

variable {client : UpstreamClient} {fuel : ℕ}

theorem echoUpstreamId_eq (leg : Leg) :
    echoUpstreamId leg = (.ok leg.session.upId, leg.takeUpId) := by
  rcases h : leg.session.upstreamLastEapReqId with _ | identifier
  · simp only [echoUpstreamId, Act.read_bind, h, updateSession, Act.modify_bind, Act.pure_apply,
      Session.upId, Option.getD_none, Leg.takeUpId, Session.takeUpId]
  · simp only [echoUpstreamId, Act.read_bind, h, Act.pure_apply, Session.upId, Option.getD_some,
      Leg.takeUpId, Session.takeUpId]

/-! ## The reassemblers -/

theorem ingestUp_eq (packet : EapTlsPacket) (leg : Leg) :
    ingestUp packet leg =
      ((Reassembler.ingest packet leg.session.upReasm).1,
        { leg with session :=
          { leg.session with upReasm := (Reassembler.ingest packet leg.session.upReasm).2 } }) := rfl

theorem ingestDown_eq (packet : EapTlsPacket) (leg : Leg) :
    ingestDown packet leg =
      ((Reassembler.ingest packet leg.session.downReasm).1,
        { leg with session :=
          { leg.session with downReasm := (Reassembler.ingest packet leg.session.downReasm).2 } }) :=
  rfl

/-! ## Releasing fragments to the supplicant -/

end Mediator

namespace Session

/-- The packet that carries the queued chunk `chunk` of index `idx`. -/
def releasePacket (session : Session) (idx : ℕ) (chunk : Bytes) : EapTlsPacket :=
  wrap codeRequest session.downTotal session.downNchunks idx session.nextDownId chunk

/-- The session after its first queued chunk, of index `idx`, has been released. -/
def release (session : Session) (idx : ℕ) : Session :=
  { session with
    downOutbox := session.downOutbox.tail
    downNextId := session.nextDownId
    down.fragmentsOut := session.down.fragmentsOut + 1
    down.acksGenerated :=
      session.down.acksGenerated + if idx < session.downNchunks - 1 then 1 else 0 }

/-- The session when a record of the server has been counted. -/
def counted (session : Session) (tlsRecord : Bytes) : Session :=
  { session with down.bytesReassembled := session.down.bytesReassembled + tlsRecord.length }

/-- Chunks with their indices, from `idx` on. -/
def queued (idx : ℕ) (pieces : List Bytes) : List (ℕ × Bytes) :=
  (pieces.zipIdx idx).map fun piece => (piece.2, piece.1)

@[simp] theorem queued_nil (idx : ℕ) : queued idx [] = [] := rfl

@[simp] theorem queued_cons (idx : ℕ) (chunk : Bytes) (pieces : List Bytes) :
    queued idx (chunk :: pieces) = (idx, chunk) :: queued (idx + 1) pieces := by
  simp [queued, List.zipIdx_cons]

/-- The session with the chunks of a record queued. -/
def queue (session : Session) (tlsRecord : Bytes) (pieces : List Bytes) : Session :=
  { session with
    downOutbox := queued 0 pieces
    downTotal := tlsRecord.length
    downNchunks := pieces.length }

end Session

namespace Mediator

variable {client : UpstreamClient} {fuel : ℕ}

/-- The outcome that carries an EAP-Request to the supplicant. -/
def challengeOutcome (packet : EapTlsPacket) : Outcome where
  action := .challenge
  eapBytes := some (layout packet)
  echoId := some packet.identifier

theorem sendNext_eq {leg : Leg} {idx : ℕ} {chunk : Bytes} {rest : List (ℕ × Bytes)}
    {ackedId : Option UInt8} (queued : leg.session.downOutbox = (idx, chunk) :: rest)
    (short : chunk.length ≤ 65000) (encodable : idx = 0 → leg.session.downTotal < 2 ^ 32) :
    sendNextDownstreamFragment ackedId leg =
      (.ok (challengeOutcome (leg.session.releasePacket idx chunk)),
        { leg with session := leg.session.release idx }) := by
  have fits : Fits chunk (if idx = 0 then some leg.session.downTotal else none) := by
    refine Fits.of_length ?_ short
    intro n declared
    split at declared
    · cases declared
      exact encodable ‹_›
    · cases declared
  simp only [sendNextDownstreamFragment, Act.read_bind, queued, updateSession, Act.modify_bind,
    build_eq_ok fits, Act.lift_ok_bind, Act.pure_apply]
  simp [challengeOutcome, Session.releasePacket, Session.release, wrap, queued, described]

theorem begin_eq {leg : Leg} {tlsRecord : Bytes} {pieces : List Bytes}
    (cut : fragment tlsRecord leg.session.downstreamFragmentSize = .ok pieces) :
    beginDownstreamFragmentation tlsRecord leg =
      sendNextDownstreamFragment none { leg with session := leg.session.queue tlsRecord pieces } := by
  simp only [beginDownstreamFragmentation, Act.read_bind, cut, Act.lift_ok_bind, updateSession,
    Act.modify_bind]
  rfl

theorem deliverRecord_eq (tlsRecord : Bytes) (leg : Leg) :
    deliverRecord tlsRecord leg =
      beginDownstreamFragmentation tlsRecord { leg with session := leg.session.counted tlsRecord } :=
  rfl

/-! ## Pulling the server's record -/

/-- A reply tells a session the last Identifier and the keys, and nothing else. -/
theorem learn_writes (reply : RadiusReply) :
    ∃ learnt sendKey recvKey, ∀ session : Session,
      UpstreamClient.learn reply session = { session with
        upstreamLastEapReqId := Option.or learnt session.upstreamLastEapReqId
        msMppeSendKey := Option.or sendKey session.msMppeSendKey
        msMppeRecvKey := Option.or recvKey session.msMppeRecvKey } := by
  unfold UpstreamClient.learn
  by_cases accept : reply.code = accessAccept
  · simp only [if_pos accept]
    split
    next code identifier _ _ _ =>
      by_cases request : code = codeRequest
      · exact ⟨some identifier, reply.msMppeSendKey, reply.msMppeRecvKey,
          fun _ => by rw [if_pos request]; rfl⟩
      · exact ⟨none, reply.msMppeSendKey, reply.msMppeRecvKey, fun _ => by rw [if_neg request]; rfl⟩
    next => exact ⟨none, reply.msMppeSendKey, reply.msMppeRecvKey, fun _ => rfl⟩
  · simp only [if_neg accept]
    split
    next code identifier _ _ _ =>
      by_cases request : code = codeRequest
      · exact ⟨some identifier, none, none, fun _ => by rw [if_pos request]; rfl⟩
      · exact ⟨none, none, none, fun _ => by rw [if_neg request]; rfl⟩
    next => exact ⟨none, none, none, fun _ => rfl⟩

@[simp] theorem learn_downReasm (reply : RadiusReply) (session : Session) :
    (UpstreamClient.learn reply session).downReasm = session.downReasm := by
  obtain ⟨learnt, sendKey, recvKey, writes⟩ := learn_writes reply
  rw [writes]

@[simp] theorem takeUpId_downReasm (session : Session) :
    session.takeUpId.downReasm = session.downReasm := by
  unfold Session.takeUpId
  split <;> rfl

/-- The EAP packet of a reply that `parse` accepts. -/
theorem eapMessages_normalise {reply : RadiusReply} {packet : EapTlsPacket}
    (parsed : parse reply.eapMessage.flatten = .ok packet) :
    reply.normalise.eapMessages = [reply.eapMessage.flatten] := by
  have present : reply.eapMessage.flatten ≠ [] := by
    intro empty
    rw [empty] at parsed
    cases parsed
  have some : reply.eapMessage ≠ [] := by
    intro empty
    exact present (by rw [empty]; rfl)
  rw [RadiusReply.normalise, concatEapMessages, if_neg some, if_neg present]

/-- The EAP packet of a normalised reply is that of the reply. -/
theorem head_normalise {reply : RadiusReply} {eap : Bytes}
    (head : reply.normalise.eapMessages.head? = some eap) : reply.eapMessage.flatten = eap := by
  rw [RadiusReply.normalise, concatEapMessages] at head
  split at head
  · cases head
  · split at head
    · cases head
    · exact Option.some.inj head

theorem normalise_challenge {reply : RadiusReply} (challenge : reply.code = accessChallenge) :
    reply.normalise.accept = false ∧ reply.normalise.reject = false := by
  simp only [RadiusReply.normalise, challenge]
  decide

/-- **A challenge that carries a fragment is fed to the reassembler**, and what is missing
of the record is pulled. -/
theorem handleUpstreamReply_challenge {context : AuthContext} {leg : Leg} {reply : Reply}
    {eap : Bytes} {packet : EapTlsPacket} (accept : reply.accept = false)
    (reject : reply.reject = false) (carries : reply.eapMessages = [eap])
    (parsed : parse eap = .ok packet) :
    handleUpstreamReply client fuel context (some reply) leg =
      (do
        match ← ingestDown packet with
        | some tlsRecord => deliverRecord tlsRecord
        | none =>
          match ← drainUpstreamFragments client context fuel packet with
          | some tlsRecord => deliverRecord tlsRecord
          | none => do
            let leg ← Act.read
            return storedOutcome leg.session) leg := by
  simp only [handleUpstreamReply, accept, reject, Bool.false_eq_true, if_false, carries, parsed]
  rfl

/-- One turn of the drain in which the server sends its next fragment. -/
theorem drain_challenge {context : AuthContext} {leg : Leg} {lastPkt packet : EapTlsPacket}
    {reply : RadiusReply} (more : lastPkt.moreFragments = true)
    (answered : leg.pullReady.outcome client (layout (ackPacket codeResponse leg.session.upId))
      context = .ok reply)
    (challenge : reply.code = accessChallenge)
    (parsed : parse reply.eapMessage.flatten = .ok packet) :
    drainUpstreamFragments client context (fuel + 1) lastPkt leg =
      (do
        match ← ingestDown packet with
        | some tlsRecord => return some tlsRecord
        | none => drainUpstreamFragments client context fuel packet)
        ((leg.pullReady.sent client (layout (ackPacket codeResponse leg.session.upId))
          context).received reply) := by
  obtain ⟨accept, reject⟩ := normalise_challenge challenge
  rw [drainUpstreamFragments, if_pos more, Act.bind_of_ok (echoUpstreamId_eq leg), buildAck_eq_ok,
    Act.bind_lift_ok]
  simp only [updateSession, Act.modify_bind]
  refine (Act.bind_of_ok (exchange_ok answered)).trans ?_
  simp only [accept, reject, Bool.false_eq_true, if_false, eapMessages_normalise parsed, parsed]
  rfl

/-- Where the last packet has M clear, the drain reads the buffer. -/
theorem drain_last {context : AuthContext} {packet : EapTlsPacket}
    (last : packet.moreFragments = false) (leg : Leg) :
    drainUpstreamFragments client context fuel packet leg =
      (.ok (some leg.session.downReasm.buffer), leg) := by
  have stopped : ¬ packet.moreFragments = true := by rw [last]; decide
  cases fuel with
  | zero =>
      rw [drainUpstreamFragments, if_neg stopped]
      rfl
  | succ fuel =>
      rw [drainUpstreamFragments, if_neg stopped]
      rfl

theorem last_of_ack {packet : EapTlsPacket} (ack : packet.isAck = true) :
    packet.moreFragments = false := by
  cases more : packet.moreFragments with
  | true =>
      rw [Reassembler.isAck_of_more more] at ack
      cases ack
  | false => rfl

/-! ## The supplicant's packets -/

/-- The session when a packet of the supplicant has been parsed. -/
def arrived (session : Session) (packet : EapTlsPacket) : Session :=
  { session with
    up.fragmentsIn := session.up.fragmentsIn + 1
    downNextId := packet.identifier
    downLastReqId := some packet.identifier }

/-- The session when a packet has been parsed in passthrough mode. -/
def relayed (session : Session) (packet : EapTlsPacket) : Session :=
  { session with
    up.fragmentsIn := session.up.fragmentsIn + 1
    downNextId := packet.identifier }

theorem handle_passthrough_eq {leg : Leg} {context : AuthContext} {eapBytes : Bytes}
    {packet : EapTlsPacket} (passing : leg.session.mode = .passthrough)
    (parsed : parse eapBytes = .ok packet) :
    handleSupplicantEap client fuel context eapBytes leg =
      passthroughUpstream client context eapBytes
        { leg with session := relayed leg.session packet } := by
  simp only [handleSupplicantEap, parsed, Act.lift_ok_bind, updateSession, Act.modify_bind,
    Act.read_bind]
  rw [if_pos passing]
  rfl

theorem handle_unparsed {leg : Leg} {context : AuthContext} {eapBytes : Bytes} {e : Raised}
    (unparsed : parse eapBytes = .error e) :
    handleSupplicantEap client fuel context eapBytes leg = (.error e, leg) := by
  simp only [handleSupplicantEap, unparsed, Act.lift_error_bind]

theorem handle_ack_eq {leg : Leg} {context : AuthContext} {eapBytes : Bytes}
    {packet : EapTlsPacket} (reassembling : leg.session.mode = .reassemble)
    (parsed : parse eapBytes = .ok packet) (ack : packet.isAck = true) :
    handleSupplicantEap client fuel context eapBytes leg =
      handleAck client fuel context packet { leg with session := arrived leg.session packet } := by
  simp only [handleSupplicantEap, parsed, Act.lift_ok_bind, updateSession, Act.modify_bind,
    Act.read_bind]
  rw [if_neg (by rw [reassembling]; decide), Act.modify_bind, if_pos ack]
  rfl

theorem handle_data_eq {leg : Leg} {context : AuthContext} {eapBytes : Bytes}
    {packet : EapTlsPacket} (reassembling : leg.session.mode = .reassemble)
    (parsed : parse eapBytes = .ok packet) (data : packet.isAck = false) :
    handleSupplicantEap client fuel context eapBytes leg =
      handleData client fuel context packet { leg with session := arrived leg.session packet } := by
  simp only [handleSupplicantEap, parsed, Act.lift_ok_bind, updateSession, Act.modify_bind,
    Act.read_bind]
  rw [if_neg (by rw [reassembling]; decide), Act.modify_bind, if_neg (by rw [data]; decide)]
  rfl

/-- An ACK while fragments are queued releases the next one. -/
theorem handleAck_queued {leg : Leg} {context : AuthContext} {packet : EapTlsPacket}
    (queued : leg.session.downOutbox ≠ []) :
    handleAck client fuel context packet leg =
      sendNextDownstreamFragment (some packet.identifier) leg := by
  simp only [handleAck, Act.read_bind, ne_eq, queued, not_false_eq_true, if_true]

/-- The outcome that ACKs a fragment of the supplicant. -/
def ackOutcome (identifier : UInt8) : Outcome where
  action := .ack
  eapBytes := some (layout (ackPacket codeRequest identifier))
  echoId := some identifier

/-- The session after a fragment was absorbed and ACKed locally. -/
def acked (session : Session) (reassembler : Reassembler) : Session :=
  { session with
    upReasm := reassembler
    up.acksGenerated := session.up.acksGenerated + 1
    downNextId := session.nextDownId }

theorem handleData_more {leg : Leg} {context : AuthContext} {packet : EapTlsPacket}
    {reassembler : Reassembler}
    (absorbed : Reassembler.ingest packet leg.session.upReasm = (.ok none, reassembler)) :
    handleData client fuel context packet leg =
      (.ok (ackOutcome leg.session.nextDownId),
        { leg with session := acked leg.session reassembler }) := by
  simp only [handleData]
  rw [Act.bind_of_ok (by rw [ingestUp_eq, absorbed])]
  simp only [Act.read_bind, updateSession, Act.modify_bind, buildAck_eq_ok, Act.lift_ok_bind]
  rfl

/-- The session when a record of the supplicant has been completed. -/
def completed (session : Session) (reassembler : Reassembler) (tlsRecord : Bytes) : Session :=
  { session with
    upReasm := reassembler
    up.bytesReassembled := session.up.bytesReassembled + tlsRecord.length }

theorem handleData_complete {leg : Leg} {context : AuthContext} {packet : EapTlsPacket}
    {reassembler : Reassembler} {tlsRecord : Bytes}
    (complete : Reassembler.ingest packet leg.session.upReasm = (.ok (some tlsRecord), reassembler)) :
    handleData client fuel context packet leg =
      forwardRecordUpstream client fuel context tlsRecord
        { leg with session := completed leg.session reassembler tlsRecord } := by
  simp only [handleData]
  rw [Act.bind_of_ok (by rw [ingestUp_eq, complete])]
  simp only [updateSession, Act.modify_bind]
  rfl

theorem handleData_raises {leg : Leg} {context : AuthContext} {packet : EapTlsPacket}
    {reassembler : Reassembler} {e : Raised}
    (raises : Reassembler.ingest packet leg.session.upReasm = (.error e, reassembler)) :
    handleData client fuel context packet leg =
      (.error e, { leg with session := { leg.session with upReasm := reassembler } }) := by
  simp only [handleData]
  rw [Act.bind_of_error (by rw [ingestUp_eq, raises])]

theorem sendChunks_cons {total count idx : ℕ} {chunk : Bytes} {rest : List Bytes}
    {reply : Option Reply} {leg : Leg} {context : AuthContext}
    (encodable : (wrap codeResponse total count idx leg.session.upId chunk).Encodable) :
    sendChunks client context total count idx (chunk :: rest) reply leg =
      (exchange client (layout (wrap codeResponse total count idx leg.session.upId chunk)) context >>=
        fun reply => sendChunks client context total count (idx + 1) rest (some reply))
          leg.chunkReady := by
  have built := @build_eq_ok codeResponse leg.session.upId chunk (idx < count - 1) false _
    encodable.fits
  rw [sendChunks, Act.bind_of_ok (echoUpstreamId_eq leg)]
  simp only [wrap, described] at built
  rw [built]
  rfl

theorem forward_eq {leg : Leg} {context : AuthContext} {tlsRecord : Bytes} {pieces : List Bytes}
    (cut : fragment tlsRecord leg.session.upstreamFragmentSize = .ok pieces) :
    forwardRecordUpstream client fuel context tlsRecord leg =
      (sendChunks client context tlsRecord.length pieces.length 0 pieces none >>=
        handleUpstreamReply client fuel context) leg := by
  simp only [forwardRecordUpstream, Act.read_bind, cut, Act.lift_ok_bind]

end Mediator
end EapAccel
