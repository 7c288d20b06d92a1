import EapAccel.Mediator.Budget
import EapAccel.Mediator.Cost

/-!
# How often a handling goes upstream

At most. The drain takes one exchange a turn, so no more than its budget (`drain_atMost`); a record
takes one a chunk, and the reassembler completes none that is longer than its limit
(`handleData_demands`). A handling that fails goes upstream no more often than one that does not
(`handleSupplicantEap_demands`).
-/

set_option autoImplicit false

namespace EapAccel

open Foundations EapTls

namespace Mediator

variable {client : UpstreamClient} {context : AuthContext} {fuel : ℕ}

/-- How often it has been gone upstream. -/
def requests (leg : Leg) : ℕ := leg.exchanges.length

/-- What leaves the exchanges makes no requests. -/
theorem still_requests {α : Type} {x : Act Raised Leg α} (keeps : Act.Keeps Leg.exchanges x) :
    Act.Keeps requests x := keeps.weaken List.length fun _ => rfl

theorem exchange_atMost (eapPayload : Bytes) :
    Act.AtMost requests 1 (exchange client eapPayload context) := by
  intro leg
  rw [requests, exchange_exchanges, List.length_append]
  exact le_rfl

theorem echo_keeps_requests : Act.Keeps requests echoUpstreamId := by
  intro leg
  rw [echoUpstreamId_eq, requests, Leg.takeUpId_exchanges]
  rfl

theorem takePulled_atMost (reply : Reply) : Act.AtMost requests 0 (takePulled reply) := by
  apply Act.AtMost.ite (Act.AtMost.of_keeps fun _ => rfl)
  apply Act.AtMost.ite (Act.AtMost.of_keeps fun _ => rfl)
  cases reply.eapMessages with
  | nil => exact Act.AtMost.of_keeps fun _ => rfl
  | cons eap _ =>
      apply Act.AtMost.after (Act.Keeps.lift _)
      intro lastPkt
      apply Act.AtMost.after (still_requests fun _ => rfl)
      intro done
      cases done with
      | some tlsRecord => exact Act.AtMost.of_keeps fun _ => rfl
      | none => exact Act.AtMost.of_keeps fun _ => rfl

theorem pull_atMost : Act.AtMost requests 1 (pull client context) := by
  apply Act.AtMost.after echo_keeps_requests
  intro ackId
  apply Act.AtMost.after (Act.Keeps.lift _)
  intro ack
  apply Act.AtMost.after fun _ => rfl
  intro _
  exact Act.AtMost.bind (exchange_atMost ack) takePulled_atMost

/-- **The drain takes an exchange a turn.** -/
theorem drain_atMost : ∀ fuel packet,
    Act.AtMost requests fuel (drainUpstreamFragments client context fuel packet) := by
  intro fuel
  induction fuel with
  | zero =>
      intro packet
      rw [drainUpstreamFragments]
      exact Act.AtMost.ite (Act.AtMost.of_keeps fun _ => rfl) (Act.AtMost.of_keeps fun _ => rfl)
  | succ fuel ih =>
      intro packet
      cases more : packet.moreFragments with
      | false =>
          intro leg
          rw [drain_last more]
          exact Nat.le_add_right _ _
      | true =>
          rw [drain_succ more, Nat.add_comm]
          apply Act.AtMost.bind pull_atMost
          intro turn
          cases turn with
          | inl packet => exact ih packet
          | inr returned => exact Act.AtMost.of_keeps fun _ => rfl

theorem deliver_keeps_requests (tlsRecord : Bytes) : Act.Keeps requests (deliverRecord tlsRecord) :=
  (deliver_unqueued tlsRecord).weaken requests fun _ => rfl

theorem handleUpstreamReply_atMost (reply : Option Reply) :
    Act.AtMost requests fuel (handleUpstreamReply client fuel context reply) := by
  cases reply with
  | none => exact Act.AtMost.of_keeps fun _ => rfl
  | some reply =>
      rw [handleUpstreamReply]
      apply Act.AtMost.ite (Act.AtMost.of_keeps fun _ => rfl)
      apply Act.AtMost.ite (Act.AtMost.of_keeps fun _ => rfl)
      cases reply.eapMessages with
      | nil => exact Act.AtMost.of_keeps fun _ => rfl
      | cons eap _ =>
          apply Act.AtMost.after (Act.Keeps.lift _)
          intro serverPkt
          apply Act.AtMost.after (still_requests fun _ => rfl)
          intro complete
          cases complete with
          | some tlsRecord => exact Act.AtMost.of_keeps (deliver_keeps_requests tlsRecord)
          | none =>
              apply Act.AtMost.before (drain_atMost fuel serverPkt)
              intro complete
              cases complete with
              | some tlsRecord => exact deliver_keeps_requests tlsRecord
              | none => exact fun _ => rfl

theorem sendChunks_atMost (total count : ℕ) : ∀ (pieces : List Bytes) (idx : ℕ) (reply : Option Reply),
    Act.AtMost requests pieces.length (sendChunks client context total count idx pieces reply) := by
  intro pieces
  induction pieces with
  | nil => exact fun idx reply => Act.AtMost.of_keeps fun _ => rfl
  | cons chunk rest ih =>
      intro idx reply
      apply Act.AtMost.after echo_keeps_requests
      intro upId
      apply Act.AtMost.after (Act.Keeps.lift _)
      intro eapFrag
      apply Act.AtMost.after fun _ => rfl
      intro _
      rw [List.length_cons, Nat.add_comm]
      apply Act.AtMost.bind (exchange_atMost eapFrag)
      exact fun reply => ih (idx + 1) (some reply)

/-- Longer records have more chunks. -/
theorem chunkCount_mono (size : ℕ) {length limit : ℕ} (within : length ≤ limit) :
    chunkCount size length ≤ chunkCount size limit := by
  have filled : (length + size - 1) / size ≤ (limit + size - 1) / size := by
    apply Nat.div_le_div_right
    omega
  exact max_le_max le_rfl filled

theorem forward_demands (tlsRecord : Bytes) (leg : Leg) :
    requests (forwardRecordUpstream client fuel context tlsRecord leg).2 ≤
      requests leg + (chunkCount leg.session.upstreamFragmentSize tlsRecord.length + fuel) := by
  rcases cut : fragment tlsRecord leg.session.upstreamFragmentSize with e | pieces
  · rw [forwardRecordUpstream]
    simp only [Act.read_bind, cut, Act.lift_error_bind]
    exact Nat.le_add_right _ _
  · have sends : Act.AtMost requests (pieces.length + fuel)
        (sendChunks client context tlsRecord.length pieces.length 0 pieces none >>=
          handleUpstreamReply client fuel context) :=
      Act.AtMost.bind (sendChunks_atMost _ _ pieces 0 none) handleUpstreamReply_atMost
    rw [forward_eq cut, chunkCount, ← length_fragment cut]
    exact sends leg

theorem handleAck_atMost (packet : EapTlsPacket) :
    Act.AtMost requests (1 + fuel) (handleAck client fuel context packet) := by
  apply Act.AtMost.read_bind
  intro leg
  apply Act.AtMost.ite
  · exact Act.AtMost.of_keeps ((sendNext_unqueued _).weaken requests fun _ => rfl)
  apply Act.AtMost.ite (Act.AtMost.of_keeps fun _ => rfl)
  apply Act.AtMost.ite (Act.AtMost.of_keeps fun _ => rfl)
  apply Act.AtMost.after echo_keeps_requests
  intro upId
  apply Act.AtMost.after (Act.Keeps.lift _)
  intro ack
  apply Act.AtMost.bind (exchange_atMost ack)
  exact fun reply => handleUpstreamReply_atMost (some reply)

/-- **A data fragment takes no more than the chunks of the longest record**, and the drain. -/
theorem handleData_demands (packet : EapTlsPacket) (leg : Leg) :
    requests (handleData client fuel context packet leg).2 ≤ requests leg +
      (chunkCount leg.session.upstreamFragmentSize leg.session.upReasm.maxMessageLen + fuel) := by
  rcases fed : Reassembler.ingest packet leg.session.upReasm with ⟨e | none | tlsRecord, after⟩
  · rw [handleData_raises fed]
    exact Nat.le_add_right _ _
  · rw [handleData_more fed]
    exact Nat.le_add_right _ _
  · have forwards := @forward_demands client context fuel tlsRecord
      { leg with session := completed leg.session after tlsRecord }
    have within := (Reassembler.record_of_ingest (congrArg Prod.fst fed)).2.2.2
    have chunks := chunkCount_mono leg.session.upstreamFragmentSize within
    rw [handleData_complete fed]
    apply forwards.trans
    apply Nat.add_le_add_left
    exact Nat.add_le_add_right chunks fuel

theorem passthroughUpstream_atMost (eapBytes : Bytes) :
    Act.AtMost requests 1 (passthroughUpstream client context eapBytes) := by
  apply Act.AtMost.after fun _ => rfl
  intro _
  apply Act.AtMost.bind (m := 0) (exchange_atMost eapBytes)
  intro reply
  apply Act.AtMost.ite (Act.AtMost.of_keeps fun _ => rfl)
  apply Act.AtMost.ite (Act.AtMost.of_keeps fun _ => rfl)
  cases reply.eapMessages with
  | nil => exact Act.AtMost.of_keeps fun _ => rfl
  | cons eap _ => exact Act.AtMost.of_keeps fun _ => rfl

/-- The most exchanges that a packet can take. -/
def demand (size limit fuel : ℕ) : ℕ := chunkCount size limit + fuel

theorem le_demand (size limit fuel : ℕ) : 1 + fuel ≤ demand size limit fuel :=
  Nat.add_le_add_right (le_max_left _ _) fuel

/-- **No packet of the supplicant takes more than that**, whatever fails. -/
theorem handleSupplicantEap_demands (eapBytes : Bytes) (leg : Leg) :
    requests (handleSupplicantEap client fuel context eapBytes leg).2 ≤ requests leg +
      demand leg.session.upstreamFragmentSize leg.session.upReasm.maxMessageLen fuel := by
  have most := le_demand leg.session.upstreamFragmentSize leg.session.upReasm.maxMessageLen fuel
  rcases parsed : parse eapBytes with e | packet
  · rw [handle_unparsed parsed]
    exact Nat.le_add_right _ _
  cases mode : leg.session.mode with
  | passthrough =>
      have passes := @passthroughUpstream_atMost client context eapBytes
        { leg with session := relayed leg.session packet }
      rw [handle_passthrough_eq mode parsed]
      apply passes.trans
      apply Nat.add_le_add_left
      omega
  | reassemble =>
      cases ack : packet.isAck with
      | true =>
          have acks := @handleAck_atMost client context fuel packet
            { leg with session := arrived leg.session packet }
          rw [handle_ack_eq mode parsed ack]
          exact acks.trans (Nat.add_le_add_left most _)
      | false =>
          rw [handle_data_eq mode parsed ack]
          exact handleData_demands packet { leg with session := arrived leg.session packet }

end Mediator
end EapAccel
