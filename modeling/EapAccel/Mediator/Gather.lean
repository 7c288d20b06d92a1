import EapAccel.Mediator.Frames

/-!
# The server's record, before it is cut for the supplicant

Handling a packet ends with an outcome, or with a record of the server that
`_begin_downstream_fragmentation` is called with. `gatherReply` is `_handle_upstream_reply`
up to this call, and the functions around it are taken the same way; with `handOver` they
are the functions of the mediator again (`handleSupplicantEap_eq_gather`). So the record
that a handling hands over can be spoken of.
-/

set_option autoImplicit false

namespace EapAccel

open Foundations EapTls

namespace Mediator

variable (client : UpstreamClient) (fuel : ℕ)

/-! ## Up to the record -/

/-- What is left to do: nothing, or to cut a record for the supplicant. -/
def handOver : Outcome ⊕ Bytes → Act Raised Leg Outcome
  | .inl outcome => return outcome
  | .inr tlsRecord => deliverRecord tlsRecord

/-- `_handle_upstream_reply` up to the record. -/
def gatherReply (context : AuthContext) (reply : Option Reply) :
    Act Raised Leg (Outcome ⊕ Bytes) :=
  match reply with
  | none => return .inl { action := .reject, eapBytes := none, echoId := none }
  | some reply =>
    if reply.accept then do
      finishAccept reply.eapMessages.head?
      let leg ← Act.read
      return .inl (acceptOutcome leg.session)
    else if reply.reject then do
      finishReject reply.eapMessages.head?
      let leg ← Act.read
      return .inl (rejectOutcome leg.session)
    else
      match reply.eapMessages with
      | [] => return .inl { action := .ack, eapBytes := none, echoId := none }
      | eap :: _ => do
        let serverPkt ← Act.lift (parse eap)
        let complete ← ingestDown serverPkt
        match complete with
        | some record => return .inr record
        | none => do
          let complete ← drainUpstreamFragments client context fuel serverPkt
          match complete with
          | some record => return .inr record
          | none => do
            let leg ← Act.read
            return .inl (storedOutcome leg.session)

/-- `_forward_record_upstream` up to the server's record. -/
def gatherForward (context : AuthContext) (tlsRecord : Bytes) :
    Act Raised Leg (Outcome ⊕ Bytes) := do
  let leg ← Act.read
  let pieces ← Act.lift (fragment tlsRecord leg.session.upstreamFragmentSize)
  let reply ← sendChunks client context tlsRecord.length pieces.length 0 pieces none
  gatherReply client fuel context reply

/-- `handleAck` up to the server's record. -/
def gatherAck (context : AuthContext) (packet : EapTlsPacket) :
    Act Raised Leg (Outcome ⊕ Bytes) := do
  let leg ← Act.read
  if leg.session.downOutbox ≠ [] then
    Sum.inl <$> sendNextDownstreamFragment (some packet.identifier)
  else if leg.session.result = some .accept then
    return .inl (acceptOutcome leg.session)
  else if leg.session.result = some .reject then
    return .inl (rejectOutcome leg.session)
  else
    let upId ← echoUpstreamId
    let ack ← Act.lift (buildAck codeResponse upId)
    let reply ← exchange client ack context
    gatherReply client fuel context (some reply)

/-- `handleData` up to the server's record. -/
def gatherData (context : AuthContext) (packet : EapTlsPacket) :
    Act Raised Leg (Outcome ⊕ Bytes) := do
  let complete ← ingestUp packet
  match complete with
  | none => do
    let leg ← Act.read
    let ackId := leg.session.nextDownId
    updateSession fun s =>
      { s with up.acksGenerated := s.up.acksGenerated + 1, downNextId := ackId }
    let ack ← Act.lift (buildAck codeRequest ackId)
    return .inl { action := .ack, eapBytes := some ack, echoId := some ackId }
  | some record => do
    updateSession fun s => { s with up.bytesReassembled := s.up.bytesReassembled + record.length }
    gatherForward client fuel context record

/-- `handle_supplicant_eap` up to the server's record. -/
def gatherSupplicantEap (context : AuthContext) (eapBytes : Bytes) :
    Act Raised Leg (Outcome ⊕ Bytes) := do
  let packet ← Act.lift (parse eapBytes)
  updateSession fun s =>
    { s with up.fragmentsIn := s.up.fragmentsIn + 1, downNextId := packet.identifier }
  let leg ← Act.read
  if leg.session.mode = .passthrough then
    Sum.inl <$> passthroughUpstream client context eapBytes
  else
    updateSession fun s => { s with downLastReqId := some packet.identifier }
    if packet.isAck then gatherAck client fuel context packet
    else gatherData client fuel context packet

/-! ## The functions of the mediator, from these -/

variable {client fuel}

theorem inl_handOver (x : Act Raised Leg Outcome) : Sum.inl <$> x >>= handOver = x := by
  rw [map_eq_pure_bind, bind_assoc]
  simp [handOver]

/-- **`_handle_upstream_reply` gathers and hands over.** -/
theorem handleUpstreamReply_eq_gather (context : AuthContext) (reply : Option Reply) :
    handleUpstreamReply client fuel context reply =
      gatherReply client fuel context reply >>= handOver := by
  cases reply with
  | none => rfl
  | some reply =>
      rw [handleUpstreamReply, gatherReply]
      by_cases accept : reply.accept = true
      · simp only [if_pos accept, bind_assoc, pure_bind, handOver]
      by_cases reject : reply.reject = true
      · simp only [if_neg accept, if_pos reject, bind_assoc, pure_bind, handOver]
      simp only [if_neg accept, if_neg reject]
      cases reply.eapMessages with
      | nil => rfl
      | cons eap _ =>
          simp only [bind_assoc]
          congr 1
          funext serverPkt
          congr 1
          funext complete
          cases complete with
          | some record => rfl
          | none =>
              simp only [bind_assoc]
              congr 1
              funext complete
              cases complete with
              | some record => rfl
              | none => rfl

theorem forward_eq_gather (context : AuthContext) (tlsRecord : Bytes) :
    forwardRecordUpstream client fuel context tlsRecord =
      gatherForward client fuel context tlsRecord >>= handOver := by
  simp only [forwardRecordUpstream, gatherForward, bind_assoc, handleUpstreamReply_eq_gather]

theorem handleAck_eq_gather (context : AuthContext) (packet : EapTlsPacket) :
    handleAck client fuel context packet =
      gatherAck client fuel context packet >>= handOver := by
  simp only [handleAck, gatherAck, bind_assoc]
  congr 1
  funext leg
  by_cases queued : leg.session.downOutbox ≠ []
  · rw [if_pos queued, if_pos queued, inl_handOver]
  rw [if_neg queued, if_neg queued]
  by_cases accept : leg.session.result = some .accept
  · rw [if_pos accept, if_pos accept]
    rfl
  rw [if_neg accept, if_neg accept]
  by_cases reject : leg.session.result = some .reject
  · rw [if_pos reject, if_pos reject]
    rfl
  rw [if_neg reject, if_neg reject]
  simp only [bind_assoc, handleUpstreamReply_eq_gather]

theorem handleData_eq_gather (context : AuthContext) (packet : EapTlsPacket) :
    handleData client fuel context packet =
      gatherData client fuel context packet >>= handOver := by
  simp only [handleData, gatherData, bind_assoc]
  congr 1
  funext complete
  cases complete with
  | none => rfl
  | some record =>
      simp only [bind_assoc, forward_eq_gather]

/-- **`handle_supplicant_eap` gathers and hands over.** -/
theorem handleSupplicantEap_eq_gather (context : AuthContext) (eapBytes : Bytes) :
    handleSupplicantEap client fuel context eapBytes =
      gatherSupplicantEap client fuel context eapBytes >>= handOver := by
  simp only [handleSupplicantEap, gatherSupplicantEap, bind_assoc]
  congr 1
  funext packet
  congr 1
  funext _
  congr 1
  funext leg
  by_cases passing : leg.session.mode = .passthrough
  · rw [if_pos passing, if_pos passing, inl_handOver]
  rw [if_neg passing, if_neg passing, bind_assoc]
  congr 1
  funext _
  by_cases ack : packet.isAck = true
  · rw [if_pos ack, if_pos ack, handleAck_eq_gather]
  · rw [if_neg ack, if_neg ack, handleData_eq_gather]

/-- A packet of the supplicant in reassemble mode. -/
theorem gatherSupplicantEap_of_parse {context : AuthContext} {eapBytes : Bytes} {leg : Leg}
    (reassembling : leg.session.mode = .reassemble) {packet : EapTlsPacket}
    (parsed : parse eapBytes = .ok packet) :
    gatherSupplicantEap client fuel context eapBytes leg =
      (if packet.isAck then gatherAck client fuel context packet
        else gatherData client fuel context packet)
          { leg with session := arrived leg.session packet } := by
  simp only [gatherSupplicantEap, parsed, Act.lift_ok_bind, updateSession, Act.modify_bind,
    Act.read_bind]
  rw [if_neg (by rw [reassembling]; decide), Act.modify_bind]
  rfl

end Mediator
end EapAccel
