import EapAccel.Opacity.ToServer

/-!
# What a packet sends upstream

In reassemble mode a packet of the supplicant sends a record upstream if it completes one, and
otherwise ACKs at most (`handle_uplinksSince`). A record goes up in the chunks of one cut of it,
from the first one on. It goes up whole unless a request for it is not answered, or its length does
not fit its field (`Uplinks.whole`).
-/

set_option autoImplicit false

namespace EapAccel

open Foundations EapTls

namespace Mediator

variable {client : UpstreamClient} {fuel : ℕ} {context : AuthContext}

/-- The EAP-TLS packets that were sent upstream. -/
def uplink (exchanges : List Exchange) : List EapTlsPacket :=
  exchanges.filterMap fun exchange => (parse exchange.request.eap).toOption

theorem uplink_append (exchanges new : List Exchange) :
    uplink (exchanges ++ new) = uplink exchanges ++ uplink new := List.filterMap_append

theorem uplink_of_sent {new : List Exchange} {packets : List EapTlsPacket}
    (parsed : new.map (fun exchange => parse exchange.request.eap) = packets.map .ok) :
    uplink new = packets := by
  have mapped := congrArg (List.filterMap Except.toOption) parsed
  rw [List.filterMap_map, List.filterMap_map] at mapped
  have all : packets.filterMap (Except.toOption ∘ Except.ok (ε := Raised)) = packets :=
    List.filterMap_some
  exact mapped.trans all

/-- The record in a result of a reassembler. -/
def recordOf : Except Raised (Option Bytes) → Option Bytes
  | .ok complete => complete
  | .error _ => none

theorem completed_of_recordOf {result : Except Raised (Option Bytes)} {tlsRecord : Bytes}
    (completes : recordOf result = some tlsRecord) : result = .ok (some tlsRecord) := by
  cases result with
  | ok complete => exact congrArg _ completes
  | error e => cases completes

/-- What a handling sent upstream: ACKs alone, or a record in chunks of a size. -/
structure Uplinks (size : ℕ) (record : Option Bytes) (new : List Exchange) : Prop where
  acks : record = none → ∀ packet ∈ uplink new, packet.isAck = true
  early : ∀ tlsRecord ∈ record, joined (uplink new) <+: tlsRecord
  whole : ∀ tlsRecord ∈ record, (∀ exchange ∈ new, exchange.Answered) → tlsRecord.length < 2 ^ 32 →
    ∃ packets pulls, uplink new = packets ++ pulls ∧ CutOf tlsRecord size packets ∧
      ∀ packet ∈ pulls, packet.isAck = true

/-- Since `start`, this was sent upstream. -/
def UplinksSince (start : Leg) (size : ℕ) (record : Option Bytes) (leg : Leg) : Prop :=
  ∃ new, leg.exchanges = start.exchanges ++ new ∧ Uplinks size record new

theorem joined_acks {packets : List EapTlsPacket} (acks : ∀ packet ∈ packets, packet.isAck = true) :
    joined packets = [] := by
  rw [joined_eq_nil_iff]
  exact fun packet member => Reassembler.data_of_ack (acks packet member)

theorem joined_of_prefix {sent packets : List EapTlsPacket} (early : sent <+: packets) :
    joined sent <+: joined packets := by
  obtain ⟨rest, rfl⟩ := early
  rw [joined_append]
  exact List.prefix_append _ _

theorem acks_of_pulls {start leg : Leg} (pulls : PullsSince start leg) :
    ∃ new, leg.exchanges = start.exchanges ++ new ∧ ∀ packet ∈ uplink new, packet.isAck = true := by
  obtain ⟨identifiers, new, grown, parsed⟩ := pulls
  refine ⟨new, grown, ?_⟩
  rw [uplink_of_sent parsed]
  intro packet member
  obtain ⟨identifier, _, rfl⟩ := List.mem_map.mp member
  exact ackPacket_isAck _ _

/-- Where nothing but ACKs went up, no record did. -/
theorem uplinksSince_of_pulls {start leg : Leg} {size : ℕ} (pulls : PullsSince start leg) :
    UplinksSince start size none leg := by
  obtain ⟨new, grown, acks⟩ := acks_of_pulls pulls
  refine ⟨new, grown, fun _ => acks, ?_, ?_⟩
  · intro tlsRecord member
    cases member
  · intro tlsRecord member
    cases member

/-! ## A record -/

/-- **Forwarding a record sends it**, all of it unless a request is not answered. -/
theorem forward_uplinksSince {tlsRecord : Bytes} {leg : Leg}
    (size : 1 ≤ leg.session.upstreamFragmentSize ∧ leg.session.upstreamFragmentSize ≤ 65000) :
    UplinksSince leg leg.session.upstreamFragmentSize (some tlsRecord)
      (forwardRecordUpstream client fuel context tlsRecord leg).2 := by
  by_cases encodable : tlsRecord.length < 2 ^ 32
  · obtain ⟨packets, identifiers, cut, _, sent⟩ :=
      @forward_sends client fuel context tlsRecord leg size encodable
    have acks : ∀ packet ∈ identifiers.map (ackPacket codeResponse), packet.isAck = true := by
      intro packet member
      obtain ⟨identifier, _, rfl⟩ := List.mem_map.mp member
      exact ackPacket_isAck _ _
    rcases sent with ⟨new, grown, parsed⟩ | ⟨sent, new, early, grown, parsed, broken⟩
    · refine ⟨new, grown, ?_, ?_, ?_⟩
      · intro none
        cases none
      · rintro _ ⟨⟩
        have whole : joined (packets ++ identifiers.map (ackPacket codeResponse)) = tlsRecord := by
          rw [joined_append, joined_acks acks, List.append_nil, cut.whole]
        rw [uplink_of_sent parsed]
        exact whole ▸ List.prefix_rfl
      · rintro _ ⟨⟩ _ _
        exact ⟨_, _, uplink_of_sent parsed, cut, acks⟩
    · -- The loop broke off, so a chunk was not answered.
      refine ⟨new, grown, ?_, ?_, ?_⟩
      · intro none
        cases none
      · rintro _ ⟨⟩
        rw [uplink_of_sent parsed, ← cut.whole]
        exact joined_of_prefix early
      · rintro _ ⟨⟩ answered
        exact absurd (fun exchange member _ _ _ => answered exchange member) broken
  · rw [forward_overflow (Nat.not_lt.mp encodable) size.1]
    refine ⟨[], (List.append_nil _).symm, ?_, ?_, ?_⟩
    · intro none
      cases none
    · rintro _ ⟨⟩
      exact List.nil_prefix
    · rintro _ ⟨⟩ _ small
      exact absurd small encodable

/-- An ACK of the supplicant sends nothing but ACKs. -/
theorem handleAck_pulls (packet : EapTlsPacket) (start : Leg) :
    Act.Invariant (PullsSince start) (handleAck client fuel context packet) := by
  have steps := @PullsSince.steps client start
  apply Act.Invariant.read_bind
  intro leg
  apply Act.Invariant.ite
  · exact PullsSince.invariant_of_keeps
      ((sendNext_unqueued _).weaken Leg.exchanges fun _ => rfl) start
  · apply Act.Invariant.ite (Act.Invariant.pure _)
    apply Act.Invariant.ite (Act.Invariant.pure _)
    apply Act.Invariant.bind steps.echo
    intro upId
    rw [buildAck_eq_ok, Act.bind_lift_ok]
    apply Act.Invariant.bind (steps.exchange upId context)
    intro reply
    exact handleUpstreamReply_pulls start context (some reply)

/-- **A packet sends the record that it completes**, and ACKs at most otherwise. -/
theorem handle_uplinksSince {eapBytes : Bytes} {packet : EapTlsPacket} {leg : Leg}
    (reassembling : leg.session.mode = .reassemble) (parsed : parse eapBytes = .ok packet)
    (size : 1 ≤ leg.session.upstreamFragmentSize ∧ leg.session.upstreamFragmentSize ≤ 65000) :
    UplinksSince leg leg.session.upstreamFragmentSize
      (recordOf (Reassembler.ingest packet leg.session.upReasm).1)
      (handleSupplicantEap client fuel context eapBytes leg).2 := by
  rcases ack : packet.isAck with _ | _
  · rw [handle_data_eq reassembling parsed ack]
    rcases fed : Reassembler.ingest packet leg.session.upReasm with ⟨e | _ | tlsRecord, after⟩
    · rw [@handleData_raises client fuel { leg with session := arrived leg.session packet } _ _ _ _ fed]
      exact uplinksSince_of_pulls ⟨[], SentSince.nil rfl⟩
    · rw [@handleData_more client fuel { leg with session := arrived leg.session packet } _ _ _ fed]
      exact uplinksSince_of_pulls ⟨[], SentSince.nil rfl⟩
    · rw [@handleData_complete client fuel { leg with session := arrived leg.session packet }
        _ _ _ _ fed]
      exact forward_uplinksSince size
  · rw [handle_ack_eq reassembling parsed ack, Reassembler.ingest_ack ack]
    apply uplinksSince_of_pulls
    exact (handleAck_pulls packet leg).ended ⟨[], SentSince.nil rfl⟩

end Mediator
end EapAccel
