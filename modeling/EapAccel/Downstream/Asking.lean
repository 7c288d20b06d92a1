import EapAccel.Downstream.Reachable
import EapAccel.Opacity.ToServer

/-!
# Which requests go upstream

Whether the handling of an EAP packet asks the server anything can be told from the packet
and the session it finds (`Asks`): a packet that is not EAP-TLS, or one in passthrough
mode, is forwarded; in reassemble mode an ACK asks when nothing is left to hand over, and a
data fragment when it completes a record. `route_asks` says that this is exact.
-/

set_option autoImplicit false

namespace EapAccel

open Foundations EapTls

namespace Mediator

variable {client : UpstreamClient} {fuel : ℕ} {context : AuthContext}

/-- The handling asked the server something. -/
def Asked (leg : Leg) (leg' : Leg) : Prop :=
  ∃ exchange, leg.exchanges ++ [exchange] <+: leg'.exchanges

/-- A handling that begins with an exchange has asked. -/
theorem asked_of_exchange {α : Type} {rest : Reply → Act Raised Leg α}
    (keeps : ∀ before reply, Act.Invariant (fun leg => before <+: leg.exchanges) (rest reply))
    (eapPayload : Bytes) (leg : Leg) :
    Asked leg ((exchange client eapPayload context >>= rest) leg).2 :=
  ⟨leg.exchanged client eapPayload context, grows_of_exchange keeps eapPayload leg⟩

/-! ## The supplicant's packets -/

/-- Relaying a packet asks the server. -/
theorem passthrough_asked (eapBytes : Bytes) (leg : Leg) :
    Asked leg (passthroughUpstream client context eapBytes leg).2 := by
  refine asked_of_exchange (fun before reply => ?_) eapBytes
    { leg with session := { leg.session with up.fragmentsOut := leg.session.up.fragmentsOut + 1 } }
  have steps := since_steps client before
  refine Act.Invariant.ite (Act.Invariant.bind (steps.finish _) fun _ => Act.Invariant.pure _) ?_
  refine Act.Invariant.ite (Act.Invariant.bind (steps.finish _) fun _ => Act.Invariant.pure _) ?_
  cases reply.eapMessages with
  | nil => exact Act.Invariant.pure _
  | cons eap _ => exact Act.Invariant.bind steps.relay fun _ => Act.Invariant.pure _

/-- An ACK when nothing is left to hand over polls the server. -/
theorem handleAck_poll {packet : EapTlsPacket} {leg : Leg} (released : leg.session.downOutbox = [])
    (unfinished : leg.session.result = none) :
    handleAck client fuel context packet leg =
      (exchange client (layout (ackPacket codeResponse leg.session.upId)) context >>= fun reply =>
        handleUpstreamReply client fuel context (some reply)) leg.takeUpId := by
  simp only [handleAck, Act.read_bind, released, unfinished, ne_eq, not_true_eq_false, if_false,
    reduceCtorEq]
  rw [Act.bind_of_ok (echoUpstreamId_eq leg), buildAck_eq_ok, Act.bind_lift_ok]

/-- A stored verdict is handed over as it is. -/
theorem handleAck_stored {packet : EapTlsPacket} {leg : Leg} (released : leg.session.downOutbox = [])
    (finished : leg.session.result ≠ none) :
    handleAck client fuel context packet leg = (.ok (storedOutcome leg.session), leg) := by
  obtain ⟨v, result⟩ := Option.ne_none_iff_exists'.mp finished
  simp only [handleAck, Act.read_bind, released, ne_eq, not_true_eq_false, if_false, result]
  cases v with
  | accept => simp only [if_true, Act.pure_apply, storedOutcome, result]
  | reject => simp [storedOutcome, result]

/-- Forwarding a record asks the server, if the record can be sent at all. -/
theorem forward_asked {tlsRecord : Bytes} {leg : Leg} (encodable : tlsRecord.length < 2 ^ 32)
    (size : 1 ≤ leg.session.upstreamFragmentSize ∧ leg.session.upstreamFragmentSize ≤ 65000) :
    Asked leg (forwardRecordUpstream client fuel context tlsRecord leg).2 := by
  have cut := @fragment_eq tlsRecord leg.session.upstreamFragmentSize size.1
  have count := length_fragment cut
  generalize hpieces : (if tlsRecord = [] then [[]] else _) = pieces at cut count
  rw [forward_eq cut]
  cases pieces with
  | nil => simp at count; omega
  | cons chunk rest =>
      have short := (length_le_of_fragment cut chunk List.mem_cons_self).trans size.2
      have first := @sendChunks_cons client tlsRecord.length (chunk :: rest).length 0 chunk rest none
        leg context (encodable_wrap (fun _ => encodable) short)
      rw [Act.bind_apply, first, ← Act.bind_apply, bind_assoc]
      refine asked_of_exchange (fun before reply => ?_) _ leg.chunkReady
      have steps := (since_steps client before).toForwardSteps
      refine Act.Invariant.bind (steps.sendChunks context _ _ rest 1 (some reply)) fun reply => ?_
      exact steps.toPullSteps.handleUpstreamReply steps.deliver context reply

/-- The packet of the supplicant asks the server: in passthrough mode always, in reassemble
mode when it is an ACK and nothing is left to hand over, or completes a record that can be
sent. -/
def AsksServer (session : Session) (eapBytes : Bytes) : Prop :=
  match parse eapBytes with
  | .error _ => False
  | .ok packet =>
      session.mode = .passthrough ∨
        if packet.isAck then session.downOutbox = [] ∧ session.result = none
        else ∃ tlsRecord, completedRecord session eapBytes = some tlsRecord ∧
          tlsRecord.length < 2 ^ 32

instance (session : Session) (eapBytes : Bytes) : Decidable (AsksServer session eapBytes) :=
  match parsed : parse eapBytes with
  | .error _ => isFalse (by simp [AsksServer, parsed])
  | .ok packet =>
      decidable_of_iff (session.mode = .passthrough ∨
        if packet.isAck then session.downOutbox = [] ∧ session.result = none
        else ∃ tlsRecord ∈ completedRecord session eapBytes, tlsRecord.length < 2 ^ 32)
        (by simp [AsksServer, parsed])

theorem handleAck_asks {packet : EapTlsPacket} (leg : Leg) :
    (leg.session.downOutbox = [] ∧ leg.session.result = none →
        Asked leg (handleAck client fuel context packet leg).2) ∧
      (¬ (leg.session.downOutbox = [] ∧ leg.session.result = none) →
        (handleAck client fuel context packet leg).2.exchanges = leg.exchanges) := by
  constructor
  · rintro ⟨released, unfinished⟩
    rw [handleAck_poll released unfinished]
    refine asked_of_exchange (fun before reply => ?_) _ leg.takeUpId
    have steps := (since_steps client before).toForwardSteps
    exact steps.toPullSteps.handleUpstreamReply steps.deliver context (some reply)
  · intro busy
    by_cases released : leg.session.downOutbox = []
    · rw [handleAck_stored released fun unfinished => busy ⟨released, unfinished⟩]
    · rw [handleAck_queued released]
      exact keeps_send_next _ leg

theorem handleData_asks {packet : EapTlsPacket} {leg : Leg}
    (size : 1 ≤ leg.session.upstreamFragmentSize ∧ leg.session.upstreamFragmentSize ≤ 65000) :
    (∀ tlsRecord, (Reassembler.ingest packet leg.session.upReasm).1 = .ok (some tlsRecord) →
        tlsRecord.length < 2 ^ 32 → Asked leg (handleData client fuel context packet leg).2) ∧
      ((∀ tlsRecord, (Reassembler.ingest packet leg.session.upReasm).1 = .ok (some tlsRecord) →
          2 ^ 32 ≤ tlsRecord.length) →
        (handleData client fuel context packet leg).2.exchanges = leg.exchanges) := by
  rcases fed : Reassembler.ingest packet leg.session.upReasm with ⟨e | _ | tlsRecord, reassembler⟩
  · rw [handleData_raises fed]
    exact ⟨by simp, fun _ => rfl⟩
  · rw [handleData_more fed]
    exact ⟨by simp, fun _ => rfl⟩
  · rw [handleData_complete fed]
    constructor
    · rintro _ ⟨⟩ encodable
      exact @forward_asked client fuel context tlsRecord
        { leg with session := completed leg.session reassembler tlsRecord } encodable size
    · intro large
      rw [@forward_overflow client fuel context tlsRecord (large tlsRecord rfl)
        { leg with session := completed leg.session reassembler tlsRecord } size.1]
      rfl

/-- **Which packets of the supplicant go upstream.** -/
theorem handleSupplicantEap_asks {leg : Leg} (eapBytes : Bytes)
    (size : 1 ≤ leg.session.upstreamFragmentSize ∧ leg.session.upstreamFragmentSize ≤ 65000) :
    (AsksServer leg.session eapBytes →
        Asked leg (handleSupplicantEap client fuel context eapBytes leg).2) ∧
      (¬ AsksServer leg.session eapBytes →
        (handleSupplicantEap client fuel context eapBytes leg).2.exchanges = leg.exchanges) := by
  rcases parsed : parse eapBytes with e | packet
  · rw [handle_unparsed parsed]
    simp [AsksServer, parsed]
  cases mode : leg.session.mode with
  | passthrough =>
      rw [handle_passthrough_eq mode parsed]
      refine ⟨fun _ => ?_, fun silent => ?_⟩
      · exact @passthrough_asked client context eapBytes
          { leg with session := relayed leg.session packet }
      · exact absurd (by rw [AsksServer, parsed]; exact .inl mode) silent
  | reassemble =>
      rcases ack : packet.isAck with _ | _
      · rw [handle_data_eq mode parsed ack]
        obtain ⟨asked, quiet⟩ := @handleData_asks client fuel context packet
          { leg with session := arrived leg.session packet } size
        have same : AsksServer leg.session eapBytes ↔ ∃ tlsRecord,
            (Reassembler.ingest packet leg.session.upReasm).1 = .ok (some tlsRecord) ∧
              tlsRecord.length < 2 ^ 32 := by
          simp only [AsksServer, parsed, mode, reduceCtorEq, false_or, ack, Bool.false_eq_true,
            if_false, completedRecord]
          rcases Reassembler.ingest packet leg.session.upReasm with ⟨e | _ | tlsRecord, _⟩ <;> simp
        rw [same]
        constructor
        · rintro ⟨tlsRecord, completes, encodable⟩
          exact asked tlsRecord completes encodable
        · intro none
          refine quiet fun tlsRecord completes => ?_
          by_contra small
          exact none ⟨tlsRecord, completes, not_le.mp small⟩
      · rw [handle_ack_eq mode parsed ack]
        have same : AsksServer leg.session eapBytes ↔
            leg.session.downOutbox = [] ∧ leg.session.result = none := by
          simp [AsksServer, parsed, mode, ack]
        rw [same]
        exact @handleAck_asks client fuel context packet
          { leg with session := arrived leg.session packet }

end Mediator

namespace Downstream

open Mediator

variable {env : Env} {fuel : ℕ}

/-- The EAP packet of a request asks the server: it is not EAP-TLS, or the mediator asks. -/
def Asks (session : Session) (eapBytes : Bytes) : Prop :=
  eapBytes[4]? ≠ some eapTypeTls ∨ AsksServer session eapBytes

instance (session : Session) (eapBytes : Bytes) : Decidable (Asks session eapBytes) :=
  inferInstanceAs (Decidable (_ ∨ _))

/-- **Which packets go upstream.** -/
theorem route_asks {leg : Leg} (context : AuthContext) (eapBytes : Bytes)
    (size : 1 ≤ leg.session.upstreamFragmentSize ∧ leg.session.upstreamFragmentSize ≤ 65000) :
    (Asks leg.session eapBytes → Asked leg (route env fuel context eapBytes leg).2) ∧
      (¬ Asks leg.session eapBytes →
        (route env fuel context eapBytes leg).2.exchanges = leg.exchanges) := by
  by_cases tls : eapBytes[4]? = some eapTypeTls
  · have same : Asks leg.session eapBytes ↔ AsksServer leg.session eapBytes := by simp [Asks, tls]
    rw [route, if_pos tls, same]
    exact handleSupplicantEap_asks eapBytes size
  · rw [route, if_neg tls]
    refine ⟨fun _ => ?_, fun silent => absurd (.inl tls) silent⟩
    refine asked_of_exchange (fun before reply => ?_) eapBytes leg
    have steps := since_steps env.client before
    refine Act.Invariant.ite (Act.Invariant.bind (steps.finish _) fun _ => Act.Invariant.pure _) ?_
    exact Act.Invariant.ite (Act.Invariant.bind (steps.finish _) fun _ => Act.Invariant.pure _)
      (Act.Invariant.pure _)

/-- The upstream fragment size of an accepted configuration. -/
theorem startOf_size (valid : env.cfg.validate = .ok ()) {σ : Server} (regular : σ.Regular env)
    (addr : String × ℕ) (request : ApRequest) :
    1 ≤ (startOf env addr request σ).session.upstreamFragmentSize ∧
      (startOf env addr request σ).session.upstreamFragmentSize ≤ 65000 := by
  have settled := congrArg Session.Settings.upstreamFragmentSize
    (startOf_settings regular addr request)
  have size : (startOf env addr request σ).session.upstreamFragmentSize =
      env.cfg.upstream.fragmentSize := settled
  rw [size]
  exact (Config.accepted_of_validate valid).upstream

/-- The request goes upstream: it can be noted, and its packet asks the server. -/
def GoesUp (env : Env) (addr : String × ℕ) (request : ApRequest) (σ : Server) : Prop :=
  notes env addr request σ = .ok () ∧
    Asks ((found env addr request σ).2.objects (found env addr request σ).1) request.eap

instance (env : Env) (addr : String × ℕ) (request : ApRequest) (σ : Server) :
    Decidable (GoesUp env addr request σ) :=
  inferInstanceAs (Decidable (_ ∧ _))

/-- **A request makes an exchange exactly when it goes upstream.** -/
theorem handleRequest_quiet_iff (valid : env.cfg.validate = .ok ()) {σ : Server}
    (regular : σ.Regular env) (addr : String × ℕ) (request : ApRequest) :
    (handleRequest env fuel addr request σ).2.exchanges = σ.exchanges ↔
      ¬ GoesUp env addr request σ := by
  have asks := @route_asks env fuel (startOf env addr request σ) request.context request.eap
    (startOf_size valid regular addr request)
  have start := @startOf_exchanges env addr request σ
  rw [handleRequest_exchanges]
  rcases handled_cases env fuel addr request σ with ⟨notes, routed⟩ | ⟨e, raises, same⟩
  · rw [routed]
    constructor
    · rintro quiet ⟨_, asked⟩
      obtain ⟨exchange, grown⟩ := asks.1 asked
      have more := grown.length_le
      rw [List.length_append, List.length_singleton, quiet, start] at more
      exact Nat.not_succ_le_self _ more
    · intro silent
      exact (asks.2 fun asked => silent ⟨notes, asked⟩).trans start
  · rw [same]
    refine iff_of_true start ?_
    rintro ⟨notes, _⟩
    cases raises.symm.trans notes

end Downstream
end EapAccel
