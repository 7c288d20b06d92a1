import EapAccel.Upstream

/-!
# The mediator

`proxy/mediator.py`. Each function of the class is a computation over the session it
is handed and the upstream leg, and returns what the downstream server should send.

The only loop without a bound of its own is `_drain_upstream_fragments`; `fuel` bounds
its iterations, and running out of it raises `outOfFuel`.
-/

set_option autoImplicit false

namespace EapAccel

open Foundations EapTls

/-- What the downstream server should send back. -/
inductive Action where
  | ack
  | challenge
  | accept
  | reject
  deriving DecidableEq, Repr

structure Outcome where
  action : Action
  eapBytes : Option Bytes
  echoId : Option UInt8
  deriving DecidableEq, Repr

namespace Mediator

variable (client : UpstreamClient) (fuel : ℕ)

/-- `_restamp_terminal`: put the Identifier the supplicant expects into a terminal
EAP packet. -/
def restampTerminal (session : Session) (eap : Option Bytes) : Option Bytes :=
  match eap, session.downLastReqId with
  | some (code :: _ :: rest), some identifier => some (code :: identifier :: rest)
  | _, _ => eap

/-- The outcome for an accepted session, from the stored EAP-Success. -/
def acceptOutcome (session : Session) : Outcome where
  action := .accept
  eapBytes := restampTerminal session session.pendingSuccess
  echoId := session.downLastReqId

/-- The outcome for a rejected session, from the stored EAP-Failure. -/
def rejectOutcome (session : Session) : Outcome where
  action := .reject
  eapBytes := restampTerminal session session.pendingFailure
  echoId := session.downLastReqId

/-- The outcome for the verdict that the drain has stored. -/
def storedOutcome (session : Session) : Outcome :=
  if session.result = some .accept then acceptOutcome session else rejectOutcome session

/-- Store an accept and its EAP-Success. -/
def finishAccept (eap : Option Bytes) : Act Raised Leg Unit :=
  Act.modify fun leg =>
    { leg with session := { leg.session.finish .accept leg.clock with pendingSuccess := eap } }

/-- Store a reject and its EAP-Failure. -/
def finishReject (eap : Option Bytes) : Act Raised Leg Unit :=
  Act.modify fun leg =>
    { leg with session := { leg.session.finish .reject leg.clock with pendingFailure := eap } }

/-- The Identifier to echo toward the server: that of its last EAP-Request, or a
counter if there was none. -/
def echoUpstreamId : Act Raised Leg UInt8 := do
  let leg ← Act.read
  match leg.session.upstreamLastEapReqId with
  | some identifier => return identifier
  | none =>
      updateSession fun s => { s with upNextId := s.nextUpId }
      return leg.session.nextUpId

/-- `send_eap` with the stored State, storing the State of the reply. -/
def exchange (eapPayload : Bytes) (context : AuthContext) : Act Raised Leg Reply := do
  let leg ← Act.read
  let reply ← client.sendEap eapPayload context leg.session.radiusState
  updateSession fun s => { s with radiusState := reply.state }
  return reply

/-- Feed a packet to the supplicant-to-server reassembler. -/
def ingestUp (packet : EapTlsPacket) : Act Raised Leg (Option Bytes) :=
  Act.zoom (fun leg => leg.session.upReasm)
    (fun reassembler leg => { leg with session := { leg.session with upReasm := reassembler } })
    (Reassembler.ingest packet)

/-- Feed a packet to the server-to-supplicant reassembler. -/
def ingestDown (packet : EapTlsPacket) : Act Raised Leg (Option Bytes) :=
  Act.zoom (fun leg => leg.session.downReasm)
    (fun reassembler leg => { leg with session := { leg.session with downReasm := reassembler } })
    (Reassembler.ingest packet)

/-- `_send_next_downstream_fragment`. The Identifier of the ACK is passed in and not
used. -/
def sendNextDownstreamFragment (_ackedId : Option UInt8) : Act Raised Leg Outcome := do
  let leg ← Act.read
  match leg.session.downOutbox with
  | [] => return { action := .ack, eapBytes := none, echoId := none }
  | (idx, chunk) :: rest =>
      updateSession fun s => { s with downOutbox := rest }
      let more : Bool := idx < leg.session.downNchunks - 1
      let tml := if idx = 0 then some leg.session.downTotal else none
      let downId := leg.session.nextDownId
      updateSession fun s => { s with downNextId := downId }
      let eapFrag ← Act.lift (build codeRequest downId chunk more tml false)
      updateSession fun s =>
        { s with
          down.fragmentsOut := s.down.fragmentsOut + 1
          down.acksGenerated := s.down.acksGenerated + if more then 1 else 0 }
      return { action := .challenge, eapBytes := some eapFrag, echoId := some downId }

/-- `_begin_downstream_fragmentation`. -/
def beginDownstreamFragmentation (tlsRecord : Bytes) : Act Raised Leg Outcome := do
  let leg ← Act.read
  let pieces ← Act.lift (fragment tlsRecord leg.session.downstreamFragmentSize)
  updateSession fun s =>
    { s with
      downOutbox := pieces.zipIdx.map fun piece => (piece.2, piece.1)
      downTotal := tlsRecord.length
      downNchunks := pieces.length }
  sendNextDownstreamFragment none

/-- `_drain_upstream_fragments`: ACK the server's fragments until its record is whole.
Returns `none` when the server ended the authentication instead. -/
def drainUpstreamFragments (context : AuthContext) :
    ℕ → EapTlsPacket → Act Raised Leg (Option Bytes)
  | fuel, lastPkt =>
    if lastPkt.moreFragments then
      match fuel with
      | 0 => Act.raise .outOfFuel
      | fuel + 1 => do
        let ackId ← echoUpstreamId
        let ack ← Act.lift (buildAck codeResponse ackId)
        updateSession fun s => { s with down.acksGenerated := s.down.acksGenerated + 1 }
        let reply ← exchange client ack context
        if reply.accept then
          finishAccept reply.eapMessages.head?
          return none
        else if reply.reject then
          finishReject reply.eapMessages.head?
          return none
        else
          match reply.eapMessages with
          -- An empty challenge leaves the loop.
          | [] => do
            let leg ← Act.read
            return some leg.session.downReasm.buffer
          | eap :: _ => do
            let lastPkt ← Act.lift (parse eap)
            let done ← ingestDown lastPkt
            match done with
            | some record => return some record
            | none => drainUpstreamFragments context fuel lastPkt
    else do
      let leg ← Act.read
      return some leg.session.downReasm.buffer

/-- The end of `_handle_upstream_reply`: the server's record is whole, and is cut again
toward the supplicant. -/
def deliverRecord (tlsRecord : Bytes) : Act Raised Leg Outcome := do
  updateSession fun s =>
    { s with down.bytesReassembled := s.down.bytesReassembled + tlsRecord.length }
  beginDownstreamFragmentation tlsRecord

/-- `_handle_upstream_reply`. -/
def handleUpstreamReply (context : AuthContext) (reply : Option Reply) :
    Act Raised Leg Outcome :=
  match reply with
  | none => return { action := .reject, eapBytes := none, echoId := none }
  | some reply =>
    if reply.accept then do
      finishAccept reply.eapMessages.head?
      let leg ← Act.read
      return acceptOutcome leg.session
    else if reply.reject then do
      finishReject reply.eapMessages.head?
      let leg ← Act.read
      return rejectOutcome leg.session
    else
      match reply.eapMessages with
      -- An empty challenge: nothing for the supplicant yet.
      | [] => return { action := .ack, eapBytes := none, echoId := none }
      | eap :: _ => do
        let serverPkt ← Act.lift (parse eap)
        let complete ← ingestDown serverPkt
        match complete with
        | some record => deliverRecord record
        | none => do
          let complete ← drainUpstreamFragments client context fuel serverPkt
          match complete with
          | some record => deliverRecord record
          | none => do
            -- The drain met a terminal reply and stored it.
            let leg ← Act.read
            return storedOutcome leg.session

/-- The loop of `_forward_record_upstream` from chunk `idx` on: `total` is the length of
the record, `count` the number of its chunks. Returns the last reply. -/
def sendChunks (context : AuthContext) (total count : ℕ) :
    ℕ → List Bytes → Option Reply → Act Raised Leg (Option Reply)
  | _, [], reply => return reply
  | idx, chunk :: rest, _ => do
      let more : Bool := idx < count - 1
      let tml := if idx = 0 then some total else none
      let upId ← echoUpstreamId
      let eapFrag ← Act.lift (build codeResponse upId chunk more tml false)
      updateSession fun s => { s with up.fragmentsOut := s.up.fragmentsOut + 1 }
      let reply ← exchange client eapFrag context
      sendChunks context total count (idx + 1) rest (some reply)

/-- `_forward_record_upstream`. -/
def forwardRecordUpstream (context : AuthContext) (tlsRecord : Bytes) :
    Act Raised Leg Outcome := do
  let leg ← Act.read
  let pieces ← Act.lift (fragment tlsRecord leg.session.upstreamFragmentSize)
  let reply ← sendChunks client context tlsRecord.length pieces.length 0 pieces none
  handleUpstreamReply client fuel context reply

/-- `_passthrough_upstream`. -/
def passthroughUpstream (context : AuthContext) (eapBytes : Bytes) : Act Raised Leg Outcome := do
  updateSession fun s => { s with up.fragmentsOut := s.up.fragmentsOut + 1 }
  let reply ← exchange client eapBytes context
  if reply.accept then
    Act.modify fun leg => { leg with session := leg.session.finish .accept leg.clock }
    return { action := .accept, eapBytes := reply.eapMessages.head?, echoId := none }
  else if reply.reject then
    Act.modify fun leg => { leg with session := leg.session.finish .reject leg.clock }
    return { action := .reject, eapBytes := none, echoId := none }
  else
    match reply.eapMessages with
    | eap :: _ =>
        updateSession fun s => { s with down.fragmentsOut := s.down.fragmentsOut + 1 }
        return { action := .challenge, eapBytes := some eap, echoId := none }
    | [] => return { action := .ack, eapBytes := none, echoId := none }

/-- An ACK of the supplicant in reassemble mode: release the next fragment, deliver a
stored verdict, or poll the server with an empty EAP-TLS response. -/
def handleAck (context : AuthContext) (packet : EapTlsPacket) : Act Raised Leg Outcome := do
  let leg ← Act.read
  if leg.session.downOutbox ≠ [] then
    sendNextDownstreamFragment (some packet.identifier)
  else if leg.session.result = some .accept then
    return acceptOutcome leg.session
  else if leg.session.result = some .reject then
    return rejectOutcome leg.session
  else
    let upId ← echoUpstreamId
    let ack ← Act.lift (buildAck codeResponse upId)
    let reply ← exchange client ack context
    handleUpstreamReply client fuel context (some reply)

/-- A data fragment of the supplicant in reassemble mode: ACK it locally, or forward the
record it completes. -/
def handleData (context : AuthContext) (packet : EapTlsPacket) : Act Raised Leg Outcome := do
  let complete ← ingestUp packet
  match complete with
  | none => do
    let leg ← Act.read
    let ackId := leg.session.nextDownId
    updateSession fun s =>
      { s with up.acksGenerated := s.up.acksGenerated + 1, downNextId := ackId }
    let ack ← Act.lift (buildAck codeRequest ackId)
    return { action := .ack, eapBytes := some ack, echoId := some ackId }
  | some record => do
    updateSession fun s => { s with up.bytesReassembled := s.up.bytesReassembled + record.length }
    forwardRecordUpstream client fuel context record

/-- `handle_supplicant_eap`. -/
def handleSupplicantEap (context : AuthContext) (eapBytes : Bytes) : Act Raised Leg Outcome := do
  let packet ← Act.lift (parse eapBytes)
  updateSession fun s =>
    { s with up.fragmentsIn := s.up.fragmentsIn + 1, downNextId := packet.identifier }
  let leg ← Act.read
  if leg.session.mode = .passthrough then
    passthroughUpstream client context eapBytes
  else
    updateSession fun s => { s with downLastReqId := some packet.identifier }
    if packet.isAck then handleAck client fuel context packet
    else handleData client fuel context packet

end Mediator
end EapAccel
