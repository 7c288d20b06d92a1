import EapAccel.Mediator.Spec

/-!
# Handling one packet twice

A packet is handled on two legs, with a client each. What the two handlings have in common is what
their steps have in common: what is read and written of a session apart from its times, the
exchanges, the reassemblers and the verdicts (`TwinRule`). The loops of the mediator need less than
that (`LoopRule`), and the rest follows the text of the mediator
(`TwinRule.handleSupplicantEap`).
-/

set_option autoImplicit false

namespace EapAccel

open Foundations EapTls

/-- A session without the object that it is, and without its times. -/
def Session.timeless (session : Session) : Session :=
  { session with ident := 0, startedAt := 0, completedAt := none }

/-- What is read of a session, apart from the object it is and its times. -/
theorem timeless_eq {α : Type} {session session' : Session} (f : Session → α)
    (reads : ∀ s, f s = f s.timeless) (same : session'.timeless = session.timeless) :
    f session' = f session := by
  rw [reads session', reads session, same]

namespace Mediator

variable {sound : Leg → Prop} {rel : Leg → Leg → Prop} {client own : UpstreamClient} {fuel : ℕ}

/-! ## The loops

What the two loops of the mediator do on two legs follows from their steps, whatever it is that
the two have in common. -/

/-- The steps of the loops do the same on both legs. -/
structure LoopRule (sound : Leg → Prop) (rel : Leg → Leg → Prop) (client own : UpstreamClient)
    (context context' : AuthContext) : Prop where
  echo : Act.Simulates sound rel echoUpstreamId echoUpstreamId
  exchange : ∀ eapPayload, Act.Simulates sound rel (exchange client eapPayload context)
    (exchange own eapPayload context')
  ingest : ∀ packet, Act.Simulates sound rel (ingestDown packet) (ingestDown packet)
  accept : ∀ eap, Act.Simulates sound rel (finishAccept eap) (finishAccept eap)
  reject : ∀ eap, Act.Simulates sound rel (finishReject eap) (finishReject eap)
  pulled : Act.Simulates sound rel
    (updateSession fun s => { s with down.acksGenerated := s.down.acksGenerated + 1 })
    (updateSession fun s => { s with down.acksGenerated := s.down.acksGenerated + 1 })
  sent : Act.Simulates sound rel
    (updateSession fun s => { s with up.fragmentsOut := s.up.fragmentsOut + 1 })
    (updateSession fun s => { s with up.fragmentsOut := s.up.fragmentsOut + 1 })
  buffer : Act.Simulates sound rel
    ((Act.read >>= fun leg => pure (some leg.session.downReasm.buffer)) : Act Raised Leg (Option Bytes))
    (Act.read >>= fun leg => pure (some leg.session.downReasm.buffer))

namespace LoopRule

variable {context context' : AuthContext}

/-- **The drain**, by induction on the fuel. -/
theorem drain (rule : LoopRule sound rel client own context context') :
    ∀ fuel packet, Act.Simulates sound rel (drainUpstreamFragments client context fuel packet)
      (drainUpstreamFragments own context' fuel packet) := by
  intro fuel
  induction fuel with
  | zero =>
      intro packet
      rw [drainUpstreamFragments, drainUpstreamFragments]
      exact Act.Simulates.ite (Act.Simulates.raise _) rule.buffer
  | succ fuel ih =>
      intro packet
      rw [drainUpstreamFragments, drainUpstreamFragments]
      refine Act.Simulates.ite ?_ rule.buffer
      refine Act.Simulates.bind rule.echo fun ackId => ?_
      refine Act.Simulates.bind (Act.Simulates.lift _) fun ack => ?_
      refine Act.Simulates.bind rule.pulled fun _ => ?_
      refine Act.Simulates.bind (rule.exchange ack) fun reply => ?_
      refine Act.Simulates.ite (Act.Simulates.bind (rule.accept _) fun _ =>
        Act.Simulates.pure _) ?_
      refine Act.Simulates.ite (Act.Simulates.bind (rule.reject _) fun _ =>
        Act.Simulates.pure _) ?_
      cases reply.eapMessages with
      | nil => exact rule.buffer
      | cons eap _ =>
          refine Act.Simulates.bind (Act.Simulates.lift _) fun lastPkt => ?_
          refine Act.Simulates.bind (rule.ingest _) fun done => ?_
          cases done with
          | some tlsRecord => exact Act.Simulates.pure _
          | none => exact ih lastPkt

/-- **The loop of the chunks.** -/
theorem sendChunks (rule : LoopRule sound rel client own context context') (total count : ℕ) :
    ∀ (rest : List Bytes) (idx : ℕ) (reply : Option Reply),
      Act.Simulates sound rel (sendChunks client context total count idx rest reply)
        (sendChunks own context' total count idx rest reply) := by
  intro rest
  induction rest with
  | nil => exact fun _ _ => Act.Simulates.pure _
  | cons chunk rest ih =>
      intro idx reply
      rw [Mediator.sendChunks, Mediator.sendChunks]
      refine Act.Simulates.bind rule.echo fun upId => ?_
      refine Act.Simulates.bind (Act.Simulates.lift _) fun eapFrag => ?_
      refine Act.Simulates.bind rule.sent fun _ => ?_
      exact Act.Simulates.bind (rule.exchange eapFrag) fun reply => ih (idx + 1) (some reply)

end LoopRule

/-! ## The mediator -/

/-- The steps of the mediator do the same on both legs. -/
structure TwinRule (sound : Leg → Prop) (rel : Leg → Leg → Prop) (client own : UpstreamClient) :
    Prop where
  /-- What is read of a session, apart from its times. -/
  read : ∀ {α : Type} {f g : Leg → Act Raised Leg α},
    (∀ leg, f leg = f ⟨leg.session.timeless, [], 0⟩) →
    (∀ leg, g leg = g ⟨leg.session.timeless, [], 0⟩) →
    (∀ session, Act.Simulates sound rel (f ⟨session, [], 0⟩) (g ⟨session, [], 0⟩)) →
      Act.Simulates sound rel (Act.read >>= f) (Act.read >>= g)
  /-- What is written to a session, and does not look at its times. -/
  update : ∀ {f : Session → Session}, (∀ s, (f s).timeless = (f s.timeless).timeless) →
    Act.Simulates sound rel (updateSession f) (updateSession f)
  exchange : ∀ eapPayload context, Act.Simulates sound rel (exchange client eapPayload context)
    (exchange own eapPayload context)
  ingestUp : ∀ packet, Act.Simulates sound rel (ingestUp packet) (ingestUp packet)
  ingestDown : ∀ packet, Act.Simulates sound rel (ingestDown packet) (ingestDown packet)
  accept : ∀ eap, Act.Simulates sound rel (finishAccept eap) (finishAccept eap)
  reject : ∀ eap, Act.Simulates sound rel (finishReject eap) (finishReject eap)
  finish : ∀ verdict, Act.Simulates sound rel
    (Act.modify (fun leg : Leg => { leg with session := leg.session.finish verdict leg.clock }) :
      Act Raised Leg Unit)
    (Act.modify fun leg => { leg with session := leg.session.finish verdict leg.clock })

namespace TwinRule

variable (rule : TwinRule sound rel client own)

include rule

/-- What is returned of a session, apart from its times. -/
theorem returns {α : Type} {f : Session → α} (timeless : ∀ session, f session = f session.timeless) :
    Act.Simulates sound rel
      ((Act.read >>= fun leg => pure (f leg.session)) : Act Raised Leg α)
      (Act.read >>= fun leg => pure (f leg.session)) := by
  refine rule.read (fun leg => ?_) (fun leg => ?_) fun session => Act.Simulates.pure _
  · rw [timeless]
  · rw [timeless]

theorem echo : Act.Simulates sound rel echoUpstreamId echoUpstreamId := by
  refine rule.read (fun _ => rfl) (fun _ => rfl) fun session => ?_
  cases session.upstreamLastEapReqId with
  | some identifier => exact Act.Simulates.pure _
  | none =>
      exact Act.Simulates.bind (rule.update fun _ => rfl) fun _ => Act.Simulates.pure _

theorem loops (context : AuthContext) : LoopRule sound rel client own context context where
  echo := rule.echo
  exchange := fun eapPayload => rule.exchange eapPayload context
  ingest := rule.ingestDown
  accept := rule.accept
  reject := rule.reject
  pulled := rule.update fun _ => rfl
  sent := rule.update fun _ => rfl
  buffer := @returns _ _ _ _ rule _ (fun session => some session.downReasm.buffer) fun _ => rfl

/-! ## The supplicant's side -/

theorem sendNext (ackedId : Option UInt8) :
    Act.Simulates sound rel (sendNextDownstreamFragment ackedId)
      (sendNextDownstreamFragment ackedId) := by
  refine rule.read (fun _ => rfl) (fun _ => rfl) fun session => ?_
  rcases session.downOutbox with _ | ⟨⟨idx, chunk⟩, rest⟩
  · exact Act.Simulates.pure _
  · refine Act.Simulates.bind (rule.update fun _ => rfl) fun _ => ?_
    refine Act.Simulates.bind (rule.update fun _ => rfl) fun _ => ?_
    refine Act.Simulates.bind (Act.Simulates.lift _) fun eapFrag => ?_
    exact Act.Simulates.bind (rule.update fun _ => rfl) fun _ => Act.Simulates.pure _

theorem begin (tlsRecord : Bytes) :
    Act.Simulates sound rel (beginDownstreamFragmentation tlsRecord)
      (beginDownstreamFragmentation tlsRecord) := by
  refine rule.read (fun _ => rfl) (fun _ => rfl) fun session => ?_
  refine Act.Simulates.bind (Act.Simulates.lift _) fun pieces => ?_
  exact Act.Simulates.bind (rule.update fun _ => rfl) fun _ => rule.sendNext none

theorem deliver (tlsRecord : Bytes) :
    Act.Simulates sound rel (deliverRecord tlsRecord) (deliverRecord tlsRecord) :=
  Act.Simulates.bind (rule.update fun _ => rfl) fun _ => rule.begin tlsRecord

/-! ## Handling a reply -/

theorem handleUpstreamReply (context : AuthContext) (reply : Option Reply) :
    Act.Simulates sound rel (handleUpstreamReply client fuel context reply)
      (handleUpstreamReply own fuel context reply) := by
  have accepted := @returns _ _ _ _ rule _ acceptOutcome fun _ => rfl
  have rejected := @returns _ _ _ _ rule _ rejectOutcome fun _ => rfl
  have stored := @returns _ _ _ _ rule _ storedOutcome fun _ => rfl
  cases reply with
  | none => exact Act.Simulates.pure _
  | some reply =>
      refine Act.Simulates.ite (Act.Simulates.bind (rule.accept _) fun _ => accepted) ?_
      refine Act.Simulates.ite (Act.Simulates.bind (rule.reject _) fun _ => rejected) ?_
      cases reply.eapMessages with
      | nil => exact Act.Simulates.pure _
      | cons eap _ =>
          refine Act.Simulates.bind (Act.Simulates.lift _) fun serverPkt => ?_
          refine Act.Simulates.bind (rule.ingestDown _) fun complete => ?_
          cases complete with
          | some tlsRecord => exact rule.deliver tlsRecord
          | none =>
              refine Act.Simulates.bind ((rule.loops context).drain fuel serverPkt)
                fun complete => ?_
              cases complete with
              | some tlsRecord => exact rule.deliver tlsRecord
              | none => exact stored

/-! ## Forwarding the supplicant's record -/

theorem forward (context : AuthContext) (tlsRecord : Bytes) :
    Act.Simulates sound rel (forwardRecordUpstream client fuel context tlsRecord)
      (forwardRecordUpstream own fuel context tlsRecord) := by
  refine rule.read (fun _ => rfl) (fun _ => rfl) fun session => ?_
  refine Act.Simulates.bind (Act.Simulates.lift _) fun pieces => ?_
  exact Act.Simulates.bind ((rule.loops context).sendChunks _ _ _ _ _) fun reply =>
    rule.handleUpstreamReply context reply

/-! ## Handling a packet -/

theorem passthroughUpstream (context : AuthContext) (eapBytes : Bytes) :
    Act.Simulates sound rel (passthroughUpstream client context eapBytes)
      (passthroughUpstream own context eapBytes) := by
  refine Act.Simulates.bind (rule.update fun _ => rfl) fun _ => ?_
  refine Act.Simulates.bind (rule.exchange eapBytes context) fun reply => ?_
  refine Act.Simulates.ite (Act.Simulates.bind (rule.finish _) fun _ => Act.Simulates.pure _) ?_
  refine Act.Simulates.ite (Act.Simulates.bind (rule.finish _) fun _ => Act.Simulates.pure _) ?_
  cases reply.eapMessages with
  | nil => exact Act.Simulates.pure _
  | cons eap _ =>
      exact Act.Simulates.bind (rule.update fun _ => rfl) fun _ => Act.Simulates.pure _

theorem handleAck (context : AuthContext) (packet : EapTlsPacket) :
    Act.Simulates sound rel (handleAck client fuel context packet)
      (handleAck own fuel context packet) := by
  refine rule.read (fun _ => rfl) (fun _ => rfl) fun session => ?_
  refine Act.Simulates.ite (rule.sendNext _) ?_
  refine Act.Simulates.ite (Act.Simulates.pure _) ?_
  refine Act.Simulates.ite (Act.Simulates.pure _) ?_
  refine Act.Simulates.bind rule.echo fun upId => ?_
  refine Act.Simulates.bind (Act.Simulates.lift _) fun ack => ?_
  exact Act.Simulates.bind (rule.exchange ack context) fun reply =>
    rule.handleUpstreamReply context (some reply)

theorem handleData (context : AuthContext) (packet : EapTlsPacket) :
    Act.Simulates sound rel (handleData client fuel context packet)
      (handleData own fuel context packet) := by
  refine Act.Simulates.bind (rule.ingestUp packet) fun complete => ?_
  cases complete with
  | none =>
      refine rule.read (fun _ => rfl) (fun _ => rfl) fun session => ?_
      refine Act.Simulates.bind (rule.update fun _ => rfl) fun _ => ?_
      exact Act.Simulates.bind (Act.Simulates.lift _) fun ack => Act.Simulates.pure _
  | some tlsRecord =>
      exact Act.Simulates.bind (rule.update fun _ => rfl) fun _ => rule.forward context tlsRecord

/-- **A packet is handled alike.** -/
theorem handleSupplicantEap (context : AuthContext) (eapBytes : Bytes) :
    Act.Simulates sound rel (handleSupplicantEap client fuel context eapBytes)
      (handleSupplicantEap own fuel context eapBytes) := by
  refine Act.Simulates.bind (Act.Simulates.lift _) fun packet => ?_
  refine Act.Simulates.bind (rule.update fun _ => rfl) fun _ => ?_
  refine rule.read (fun _ => rfl) (fun _ => rfl) fun session => ?_
  refine Act.Simulates.ite (rule.passthroughUpstream context eapBytes) ?_
  refine Act.Simulates.bind (rule.update fun _ => rfl) fun _ => ?_
  exact Act.Simulates.ite (rule.handleAck context packet) (rule.handleData context packet)

end TwinRule
end Mediator
end EapAccel
