import EapAccel.Mediator.Agreement
import EapAccel.Mediator.Gather
import EapAccel.Mediator.Verdicts

/-!
# What the latent leg sees of a session

Most of a session is about the AP and the supplicant. What is left, `Session.latent`, is all
that the requests to the server and the reading of its replies depend on: where the server
answers by the EAP packets and its own States, a handling up to the server's record makes the
same exchanges from any session with the same latent part, and leaves the same latent part
(`gatherReply_shares`, `gatherForward_shares`, `poll_shares`).
-/

set_option autoImplicit false

namespace EapAccel

open Foundations EapTls

/-- The session without what it knows of the AP and the supplicant, but for the lengths of
their records, and without the number of its requests. -/
def Session.latent (session : Session) : Session :=
  { session with
    ident := 0
    key := ""
    downstreamFragmentSize := 0
    downstreamState := none
    apAttrs := []
    lastApAuthenticator := none
    downLastReqId := none
    upReasm := { maxMessageLen := 0 }
    downOutbox := []
    downNextId := 0
    up := { bytesReassembled := session.up.bytesReassembled }
    down := { bytesReassembled := session.down.bytesReassembled }
    startedAt := 0
    completedAt := none
    upstreamRoundTrips := 0
    downTotal := 0
    downNchunks := 0 }

/-- The session without what it knows of the server, and without its counters. -/
def Session.lanSide (session : Session) : Session := { session.supplicantSide with up := {} }

/-- What a request says apart from what the AP adds to it: the EAP packet, and the State that
the server has given out. -/
abbrev Core : Type := Bytes × Option Bytes

def AccessRequest.core (request : AccessRequest) : Core := (request.eap, request.state)

/-- A server that looks at no more than this of the requests. -/
def bySight {V : Type} (sight : AccessRequest → V) (answer : List V → V → Except Raised RadiusReply)
    (earlier : List AccessRequest) (request : AccessRequest) : Except Raised RadiusReply :=
  answer (earlier.map sight) (sight request)

/-- A server that looks at the EAP packets and the States alone. -/
abbrev byCore (answer : List Core → Core → Except Raised RadiusReply) :
    List AccessRequest → AccessRequest → Except Raised RadiusReply :=
  bySight AccessRequest.core answer

/-- The client of such a server. -/
def coreClient (answer : List Core → Core → Except Raised RadiusReply) : UpstreamClient where
  respond := fun before request => byCore answer (before.map Exchange.request) request

/-- Its requests are sent as they are. -/
theorem coreClient_wire (answer : List Core → Core → Except Raised RadiusReply)
    (request : AccessRequest) : (coreClient answer).wire request = .ok request :=
  UpstreamClient.wire_self (UpstreamClient.encode_self (fun _ _ => rfl) fun _ _ => rfl) rfl

/-- What was sent to the server since the first `n` exchanges. -/
def Leg.cores (n : ℕ) (leg : Leg) : List Core :=
  (leg.exchanges.drop n).map fun exchange => exchange.request.core

/-- What was sent to the server in a conversation. -/
def coresOf (said : List Said) : List Core := said.map fun one => one.1.core

/-- Two legs with the same latent part. The first one shares the exchanges with others, and has
this side toward the supplicant. -/
structure Leg.Shares (base : List Said) (n : ℕ) (side : Session) (leg own : Leg) : Prop where
  session : own.session.latent = leg.session.latent
  cores : own.cores 0 = coresOf base ++ leg.cores n
  since : n ≤ leg.exchanges.length
  side : leg.session.lanSide = side

/-- What an EAP packet tells the supplicant of a record of the server: nothing, or one more
fragment, and whether more are to come. -/
def fragmentIn (eapBytes : Bytes) : Option Bool :=
  match parse eapBytes with
  | .ok packet => if packet.start ∨ packet.tlsData = [] then none else some packet.moreFragments
  | .error _ => none

/-- What the supplicant is told when a packet has been handled. -/
def Outcome.fragment (outcome : Outcome) : Option Bool :=
  match outcome.action.verdict with
  | some _ => none
  | none => fragmentIn (outcome.eapBytes.getD [])

namespace Mediator

variable {answer : List Core → Core → Except Raised RadiusReply} {base : List Said} {n : ℕ}
  {side : Session} {client : UpstreamClient} {context context' : AuthContext} {fuel : ℕ} {α : Type}

/-- From legs with the same latent part both computations do the same. -/
abbrev SharesLatent (answer : List Core → Core → Except Raised RadiusReply) (base : List Said)
    (n : ℕ) (side : Session) (x y : Act Raised Leg α) : Prop :=
  Act.Simulates (Leg.Told (byCore answer) base n) (Leg.Shares base n side) x y

/-! ## The rules -/

/-- What is written to the latent part, and depends on it alone. -/
theorem shares_modify {f : Leg → Leg} {g : Session → Session}
    (session : ∀ leg, (f leg).session.latent = g leg.session.latent)
    (exchanges : ∀ leg, (f leg).exchanges = leg.exchanges)
    (kept : ∀ leg, (f leg).session.lanSide = leg.session.lanSide) :
    SharesLatent answer base n side (Act.modify f) (Act.modify f) := by
  constructor
  · intro leg told
    have same : (f leg).saidSince n = leg.saidSince n := by
      rw [Leg.saidSince, Leg.saidSince, exchanges]
    rwa [Act.modify_apply, Leg.Told, same] at told
  · rintro leg own shares _
    refine ⟨rfl, ?_, ?_, ?_, ?_⟩
    · exact (session own).trans ((congrArg g shares.session).trans (session leg).symm)
    · show (f own).cores 0 = coresOf base ++ (f leg).cores n
      rw [Leg.cores, Leg.cores, exchanges, exchanges]
      exact shares.cores
    · show n ≤ (f leg).exchanges.length
      rw [exchanges]
      exact shares.since
    · exact (kept leg).trans shares.side

theorem shares_update {f : Session → Session} (latent : ∀ s, (f s).latent = (f s.latent).latent)
    (kept : ∀ s, (f s).lanSide = s.lanSide) :
    SharesLatent answer base n side (updateSession f) (updateSession f) :=
  @shares_modify answer base n side (fun leg => { leg with session := f leg.session })
    (fun s => (f s).latent) (fun leg => latent leg.session) (fun _ => rfl)
    fun leg => kept leg.session

/-- What is read of the latent part. -/
theorem shares_read {f g : Leg → Act Raised Leg α}
    (left : ∀ leg, f leg = f ⟨leg.session.latent, [], 0⟩)
    (right : ∀ leg, g leg = g ⟨leg.session.latent, [], 0⟩)
    (rest : ∀ session, SharesLatent answer base n side (f ⟨session, [], 0⟩) (g ⟨session, [], 0⟩)) :
    SharesLatent answer base n side (Act.read >>= f) (Act.read >>= g) :=
  Act.Simulates.read_bind (fun _ _ shares => shares.session) left right rest

/-! ## The steps -/

/-- A reply tells two legs with the same latent part the same. -/
theorem received_latent {leg own : Leg} (reply : RadiusReply)
    (same : own.session.latent = leg.session.latent) :
    (own.received reply).session.latent = (leg.received reply).session.latent := by
  obtain ⟨learnt, sendKey, recvKey, writes⟩ := learn_writes reply
  simp only [Leg.received]
  rw [writes, writes]
  exact congrArg (fun s : Session =>
    { s with
      radiusState := reply.state
      upstreamLastEapReqId := Option.or learnt s.upstreamLastEapReqId
      msMppeSendKey := Option.or sendKey s.msMppeSendKey
      msMppeRecvKey := Option.or recvKey s.msMppeRecvKey }) same

theorem exchange_lanSide (eapPayload : Bytes) (leg : Leg) :
    (exchange client eapPayload context leg).2.session.lanSide = leg.session.lanSide :=
  congrArg (fun s : Session => { s with up := {} }) (exchange_supplicantSide eapPayload context leg)

theorem cores_concat {leg : Leg} (exchange : Exchange) (since : n ≤ leg.exchanges.length) :
    ((leg.exchanges ++ [exchange]).drop n).map (fun exchange => exchange.request.core) =
      leg.cores n ++ [exchange.request.core] := by
  rw [List.drop_append_of_le_length since, List.map_append]
  rfl

/-- What a session with the latent part of another one says with an EAP packet. -/
theorem core_request {leg own : Leg} (eapPayload : Bytes)
    (same : own.session.latent = leg.session.latent) :
    (own.request (coreClient answer) eapPayload context').core =
      (leg.request client eapPayload context).core := by
  have state : own.session.radiusState = leg.session.radiusState := by
    have latent := congrArg Session.radiusState same
    exact latent
  rw [AccessRequest.core, AccessRequest.core, Leg.eap_request, Leg.eap_request]
  exact congrArg (Prod.mk eapPayload) state

/-- The server's answer, where it looks at the EAP packets and the States alone. -/
theorem outcome_of_told {leg : Leg} (since : n ≤ leg.exchanges.length) (eapPayload : Bytes)
    (told : (exchange client eapPayload context leg).2.Told (byCore answer) base n) :
    leg.outcome client eapPayload context =
      answer (coresOf base ++ leg.cores n) (leg.request client eapPayload context).core := by
  have said : (exchange client eapPayload context leg).2.saidSince n =
      leg.saidSince n ++ [(leg.exchanged client eapPayload context).said] := by
    rw [Leg.saidSince, exchange_exchanges]
    exact saidSince_concat leg _ since
  rw [Leg.Told, said, ← List.append_assoc] at told
  have last := (converses_append.mp told).2.1
  refine Eq.trans last ?_
  rw [byCore, bySight]
  congr 1
  rw [List.nil_append, List.map_append, List.map_append, Leg.saidSince, Leg.cores,
    coresOf, List.map_map, List.map_map, List.map_map]
  rfl

/-- **An exchange.** -/
theorem exchange_shares (eapPayload : Bytes) :
    SharesLatent answer base n side (exchange client eapPayload context)
      (exchange (coreClient answer) eapPayload context') := by
  refine ⟨fun leg => told_of_exchange, ?_⟩
  intro leg own shares told
  have core := @core_request answer client context context' leg own eapPayload shares.session
  have outcome := outcome_of_told shares.since eapPayload told
  have outcome' : own.outcome (coreClient answer) eapPayload context' =
      leg.outcome client eapPayload context := by
    rw [outcome, ← shares.cores, ← core, Leg.outcome,
      UpstreamClient.answer_of_wire (coreClient_wire answer _)]
    show answer ((own.exchanges.map Exchange.request).map AccessRequest.core) _ = _
    rw [List.map_map]
    rfl
  have kept := @exchange_lanSide client context eapPayload leg
  have cores : (own.sent (coreClient answer) eapPayload context').cores 0 =
      coresOf base ++ (leg.sent client eapPayload context).cores n := by
    have first := cores_concat (leg.exchanged client eapPayload context) shares.since
    have second := @cores_concat 0 own
      (own.exchanged (coreClient answer) eapPayload context') (Nat.zero_le _)
    have core : (own.exchanged (coreClient answer) eapPayload context').request.core =
        (leg.exchanged client eapPayload context).request.core := core
    rw [core, shares.cores, List.append_assoc, ← first] at second
    exact second
  have since : n ≤ (leg.sent client eapPayload context).exchanges.length := by
    rw [Leg.sent_exchanges, List.length_append]
    exact Nat.le_add_right_of_le shares.since
  have sent : (own.sent (coreClient answer) eapPayload context').session.latent =
      (leg.sent client eapPayload context).session.latent := shares.session
  rcases answered : leg.outcome client eapPayload context with e | reply
  · rw [exchange_error answered] at kept ⊢
    rw [exchange_error (outcome'.trans answered)]
    exact ⟨rfl, sent, cores, since, kept.trans shares.side⟩
  · rw [exchange_ok answered] at kept ⊢
    rw [exchange_ok (outcome'.trans answered)]
    exact ⟨rfl, received_latent reply sent, cores, since, kept.trans shares.side⟩

theorem echo_shares : SharesLatent answer base n side echoUpstreamId echoUpstreamId := by
  refine shares_read (fun _ => rfl) (fun _ => rfl) fun session => ?_
  cases session.upstreamLastEapReqId with
  | some identifier => exact Act.Simulates.pure _
  | none =>
      exact Act.Simulates.bind (shares_update (fun _ => rfl) fun _ => rfl) fun _ =>
        Act.Simulates.pure _

theorem ingestDown_shares (packet : EapTlsPacket) :
    SharesLatent answer base n side (ingestDown packet) (ingestDown packet) := by
  refine ⟨fun _ told => told, fun leg own shares _ => ?_⟩
  have latent := congrArg Session.downReasm shares.session
  have reassembler : own.session.downReasm = leg.session.downReasm := latent
  rw [ingestDown_eq, ingestDown_eq, reassembler]
  refine ⟨rfl, ?_, shares.cores, shares.since, ?_⟩
  · exact congrArg (fun s : Session =>
      { s with downReasm := (Reassembler.ingest packet leg.session.downReasm).2 }) shares.session
  · exact (congrArg (fun s : Session => { s with up := {} })
      (ingestDown_supplicantSide packet leg)).trans shares.side

theorem finishAccept_shares (eap : Option Bytes) :
    SharesLatent answer base n side (finishAccept eap) (finishAccept eap) :=
  @shares_modify answer base n side _
    (fun s => { s with result := some .accept, pendingSuccess := eap })
    (fun _ => rfl) (fun _ => rfl) fun _ => rfl

theorem finishReject_shares (eap : Option Bytes) :
    SharesLatent answer base n side (finishReject eap) (finishReject eap) :=
  @shares_modify answer base n side _
    (fun s => { s with result := some .reject, pendingFailure := eap })
    (fun _ => rfl) (fun _ => rfl) fun _ => rfl

theorem finish_shares (verdict : Verdict) :
    SharesLatent answer base n side
      (Act.modify fun leg => { leg with session := leg.session.finish verdict leg.clock })
      (Act.modify fun leg => { leg with session := leg.session.finish verdict leg.clock }) :=
  @shares_modify answer base n side _ (fun s => { s with result := some verdict })
    (fun _ => rfl) (fun _ => rfl) fun _ => rfl

theorem loops_share : LoopRule (Leg.Told (byCore answer) base n) (Leg.Shares base n side) client
    (coreClient answer) context context' where
  echo := echo_shares
  exchange := exchange_shares
  ingest := ingestDown_shares
  accept := finishAccept_shares
  reject := finishReject_shares
  pulled := shares_update (fun _ => rfl) fun _ => rfl
  sent := shares_update (fun _ => rfl) fun _ => rfl
  buffer := shares_read (fun _ => rfl) (fun _ => rfl) fun _ => Act.Simulates.pure _

/-! ## Up to the server's record -/

/-- What is left of a handling for the latent leg: what the supplicant is told, or the record
that is cut for it. -/
def gist (gathered : Outcome ⊕ Bytes) : Option Bool ⊕ Bytes := Sum.map Outcome.fragment id gathered

/-- An outcome that brings no fragment. -/
theorem shares_nothing {f : Session → Outcome} (nothing : ∀ s, (f s).fragment = none) :
    SharesLatent answer base n side
      ((Act.read >>= fun leg : Leg => pure (gist (.inl (f leg.session)))) :
        Act Raised Leg (Option Bool ⊕ Bytes))
      (Act.read >>= fun leg : Leg => pure (gist (.inl (f leg.session)))) := by
  have same : ∀ s, gist (.inl (f s)) = .inl none := fun s => congrArg Sum.inl (nothing s)
  simp only [same]
  exact shares_read (fun _ => rfl) (fun _ => rfl) fun _ => Act.Simulates.pure _

theorem storedOutcome_fragment (session : Session) : (storedOutcome session).fragment = none := by
  unfold storedOutcome
  split <;> rfl

/-- **`_handle_upstream_reply`, up to the record.** -/
theorem gatherReply_shares (reply : Option Reply) :
    SharesLatent answer base n side (gist <$> gatherReply client fuel context reply)
      (gist <$> gatherReply (coreClient answer) fuel context' reply) := by
  rw [map_eq_pure_bind, map_eq_pure_bind]
  cases reply with
  | none => exact Act.Simulates.pure _
  | some reply =>
      rw [gatherReply, gatherReply]
      by_cases accept : reply.accept = true
      · simp only [if_pos accept, bind_assoc, pure_bind]
        exact Act.Simulates.bind (finishAccept_shares _) fun _ => shares_nothing fun _ => rfl
      by_cases reject : reply.reject = true
      · simp only [if_neg accept, if_pos reject, bind_assoc, pure_bind]
        exact Act.Simulates.bind (finishReject_shares _) fun _ => shares_nothing fun _ => rfl
      simp only [if_neg accept, if_neg reject]
      cases reply.eapMessages with
      | nil => exact Act.Simulates.pure _
      | cons eap _ =>
          simp only [bind_assoc]
          refine Act.Simulates.bind (Act.Simulates.lift _) fun serverPkt => ?_
          refine Act.Simulates.bind (ingestDown_shares _) fun complete => ?_
          cases complete with
          | some tlsRecord => exact Act.Simulates.pure _
          | none =>
              simp only [bind_assoc]
              refine Act.Simulates.bind (loops_share.drain fuel serverPkt) fun complete => ?_
              cases complete with
              | some tlsRecord => exact Act.Simulates.pure _
              | none =>
                  simp only [bind_assoc, pure_bind]
                  exact shares_nothing storedOutcome_fragment

/-- **`_forward_record_upstream`, up to the server's record.** -/
theorem gatherForward_shares (tlsRecord : Bytes) :
    SharesLatent answer base n side (gist <$> gatherForward client fuel context tlsRecord)
      (gist <$> gatherForward (coreClient answer) fuel context' tlsRecord) := by
  rw [map_eq_pure_bind, map_eq_pure_bind, gatherForward, gatherForward]
  simp only [bind_assoc]
  refine shares_read (fun _ => rfl) (fun _ => rfl) fun session => ?_
  refine Act.Simulates.bind (Act.Simulates.lift _) fun pieces => ?_
  refine Act.Simulates.bind (loops_share.sendChunks _ _ _ _ _) fun reply => ?_
  rw [← map_eq_pure_bind, ← map_eq_pure_bind]
  exact gatherReply_shares reply

/-- What an ACK for which nothing is queued does on the latent leg: nothing if there is a
verdict, else it polls the server. -/
def poll (client : UpstreamClient) (fuel : ℕ) (context : AuthContext) :
    Act Raised Leg (Option Bool ⊕ Bytes) := do
  let leg ← Act.read
  if leg.session.result.isSome then
    return .inl none
  else
    let upId ← echoUpstreamId
    let ack ← Act.lift (buildAck codeResponse upId)
    let reply ← exchange client ack context
    gist <$> gatherReply client fuel context (some reply)

theorem gatherAck_polls {leg : Leg} (packet : EapTlsPacket) (empty : leg.session.downOutbox = []) :
    (gist <$> gatherAck client fuel context packet) leg = poll client fuel context leg := by
  rw [map_eq_pure_bind, gatherAck, poll]
  simp only [bind_assoc, Act.read_bind, empty, ne_eq, not_true_eq_false, if_false]
  rcases verdict : leg.session.result with _ | _ | _
  · simp only [reduceCtorEq, if_false, Option.isSome_none, Bool.false_eq_true, bind_assoc,
      map_eq_pure_bind]
  · rfl
  · rfl

/-- **An ACK for which nothing is queued.** -/
theorem poll_shares : SharesLatent answer base n side (poll client fuel context)
    (poll (coreClient answer) fuel context') := by
  refine shares_read (fun _ => rfl) (fun _ => rfl) fun session => ?_
  refine Act.Simulates.ite (Act.Simulates.pure _) ?_
  refine Act.Simulates.bind echo_shares fun upId => ?_
  refine Act.Simulates.bind (Act.Simulates.lift _) fun ack => ?_
  exact Act.Simulates.bind (exchange_shares ack) fun reply => gatherReply_shares (some reply)

end Mediator
end EapAccel
