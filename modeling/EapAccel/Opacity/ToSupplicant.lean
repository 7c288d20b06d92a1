import EapAccel.Downstream.Packing
import EapAccel.Opacity.ToServer

/-!
# Opacity toward the supplicant

A record of the server reaches the supplicant as it was. The server divides the record
as it likes; the proxy pulls the fragments with ACKs of its own until the record is
whole (`handleUpstreamReply_supplied`). It then cuts the record again and queues the
pieces. The first piece goes out at once, and every ACK of the supplicant releases one
more (`collect_release`).
-/

set_option autoImplicit false

namespace EapAccel.Mediator

open Foundations EapTls

variable {client : UpstreamClient} {fuel : ℕ} {context : AuthContext}

/-! ## Pulling the record -/

/-- After the exchanges `before`, the server answers ACKs with these packets, one each. -/
def Supplies (client : UpstreamClient) (before : List Exchange) (packets : List EapTlsPacket) :
    Prop :=
  ∀ new request ack packet, packets[new.length]? = some packet →
    parse request.eap = .ok ack → ack.isAck = true →
      ∃ reply, client.respond (before ++ new) request = .ok reply ∧ reply.code = accessChallenge ∧
        parse reply.eapMessage.flatten = .ok packet

theorem Supplies.head {before : List Exchange} {packet : EapTlsPacket}
    {packets : List EapTlsPacket} (supplies : Supplies client before (packet :: packets))
    {request : AccessRequest} {ack : EapTlsPacket} (parsed : parse request.eap = .ok ack)
    (isAck : ack.isAck = true) :
    ∃ reply, client.respond before request = .ok reply ∧ reply.code = accessChallenge ∧
      parse reply.eapMessage.flatten = .ok packet := by
  simpa using supplies [] request ack packet rfl parsed isAck

theorem Supplies.tail {before : List Exchange} {packet : EapTlsPacket}
    {packets : List EapTlsPacket} (supplies : Supplies client before (packet :: packets))
    (exchange : Exchange) : Supplies client (before ++ [exchange]) packets := by
  intro new request ack next at_new parsed isAck
  obtain ⟨reply, answered, rest⟩ := supplies (exchange :: new) request ack next at_new parsed isAck
  exact ⟨reply, by rwa [List.append_assoc, List.singleton_append], rest⟩

/-- One ACK that is sent pulls one fragment. -/
theorem drain_supplied_step (fuel : ℕ) (context : AuthContext) {leg : Leg}
    {lastPkt packet : EapTlsPacket}
    {packets : List EapTlsPacket} (more : lastPkt.moreFragments = true)
    (supplies : Supplies client leg.exchanges (packet :: packets))
    (sends : AllSent client leg.exchanges
      (drainUpstreamFragments client context (fuel + 1) lastPkt leg).2.exchanges) :
    ∃ pulled : Leg, SentSince leg [ackPacket codeResponse leg.session.upId] pulled ∧
      Supplies client pulled.exchanges packets ∧
      pulled.session.downReasm = leg.session.downReasm ∧
      AllSent client pulled.exchanges
        (drainUpstreamFragments client context (fuel + 1) lastPkt leg).2.exchanges ∧
      drainUpstreamFragments client context (fuel + 1) lastPkt leg =
        (do
          match ← ingestDown packet with
          | some tlsRecord => return some tlsRecord
          | none => drainUpstreamFragments client context fuel packet) pulled := by
  have carries : parse (leg.pullReady.request client
      (layout (ackPacket codeResponse leg.session.upId)) context).eap =
        .ok (ackPacket codeResponse leg.session.upId) := by
    rw [leg.pullReady.eap_request, parse_ack]
  obtain ⟨sent, later⟩ := sends.cons (drain_grows more leg)
  obtain ⟨reply, answers, challenge, parsed⟩ := supplies.head carries (ackPacket_isAck _ _)
  have answered : leg.pullReady.outcome client (layout (ackPacket codeResponse leg.session.upId))
      context = .ok reply := (UpstreamClient.answer_of_wire sent _).trans answers
  refine ⟨(leg.pullReady.sent client _ context).received reply,
    SentSince.singleton (leg.pullReady.sent_exchanges _ context) carries, supplies.tail _, ?_, later,
    drain_challenge more answered challenge parsed⟩
  simp [Leg.received, Leg.sent, Leg.pullReady, UpstreamClient.countTrip]

/-- **The drain pulls the missing fragments**, one ACK each, and returns the record. -/
theorem drain_supplied {last : EapTlsPacket} (final : last.moreFragments = false)
    (data : last.isAck = false) : ∀ {init : List EapTlsPacket} {fuel : ℕ} {leg : Leg}
      {lastPkt : EapTlsPacket}, lastPkt.moreFragments = true → init.length < fuel →
      Supplies client leg.exchanges (init ++ [last]) →
      AllSent client leg.exchanges
        (drainUpstreamFragments client context fuel lastPkt leg).2.exchanges →
      (∀ packet ∈ init, packet.moreFragments = true) →
      (∀ packet ∈ init ++ [last], ∀ n ∈ Reassembler.declared packet,
        n ≤ leg.session.downReasm.maxMessageLen) →
      (leg.session.downReasm.pending ++ joined (init ++ [last])).length ≤
        leg.session.downReasm.maxMessageLen →
      ∃ (identifiers : List UInt8) (leg' : Leg), identifiers.length = init.length + 1 ∧
        SentSince leg (identifiers.map (ackPacket codeResponse)) leg' ∧
        drainUpstreamFragments client context fuel lastPkt leg =
          (.ok (some (leg.session.downReasm.pending ++ joined (init ++ [last]))), leg') := by
  intro init
  induction init with
  | nil =>
      intro fuel leg lastPkt more enough supplies sends _ small room
      obtain ⟨fuel, rfl⟩ := Nat.exists_eq_add_one.mpr enough
      obtain ⟨pulled, sent, _, same, _, step⟩ :=
        drain_supplied_step fuel context more supplies sends
      have complete := @Reassembler.ingest_last pulled.session.downReasm last data final
        (by rw [same]; exact not_refuses (small last (by simp))) (by rw [same]; simpa using room)
      rw [same] at complete
      refine ⟨[leg.session.upId],
        ⟨{ pulled.session with downReasm := leg.session.downReasm.close last },
        pulled.exchanges, pulled.clock⟩, rfl, sent.of_exchanges rfl, ?_⟩
      rw [step, Act.bind_of_ok (by rw [ingestDown_eq, same, complete])]
      simp only [List.nil_append, joined_cons, joined_nil, List.append_nil]
      rfl
  | cons packet init ih =>
      intro fuel leg lastPkt more enough supplies sends continues small room
      obtain ⟨fuel, rfl⟩ := Nat.exists_eq_add_one.mpr (Nat.zero_lt_of_lt enough)
      obtain ⟨pulled, sent, rest, same, later, step⟩ :=
        drain_supplied_step fuel context more supplies sends
      rw [List.cons_append, joined_cons, ← List.append_assoc] at room ⊢
      have absorbed := @Reassembler.ingest_more pulled.session.downReasm packet
        (continues packet (by simp))
        (by rw [same]; exact not_refuses (small packet (by simp)))
        (by rw [same]; rw [List.length_append] at room; omega)
      rw [same] at absorbed
      have goes_on : drainUpstreamFragments client context (fuel + 1) lastPkt leg =
          drainUpstreamFragments client context fuel packet ⟨{ pulled.session with
            downReasm := leg.session.downReasm.extend packet }, pulled.exchanges, pulled.clock⟩ := by
        rw [step, Act.bind_of_ok (by rw [ingestDown_eq, same, absorbed])]
      rw [goes_on] at later ⊢
      obtain ⟨identifiers, leg', count, sent', drained⟩ := @ih fuel ⟨{ pulled.session with
          downReasm := leg.session.downReasm.extend packet }, pulled.exchanges, pulled.clock⟩ packet
        (continues packet (by simp)) (by simpa using enough) rest later
        (fun p member => continues p (by simp [member]))
        (fun p member => small p (by simp at member ⊢; tauto)) (by simpa using room)
      exact ⟨leg.session.upId :: identifiers, leg', by simp [count], sent.append sent', drained⟩

/-- A reply that carries an EAP-TLS packet and ends nothing. -/
structure Brings (reply : Reply) (packet : EapTlsPacket) : Prop where
  accept : reply.accept = false
  reject : reply.reject = false
  eap : ∃ eap, reply.eapMessages = [eap] ∧ parse eap = .ok packet

/-- **A record of the server is pulled whole**, one ACK for every fragment but the first,
and then delivered, behind what is pending. -/
theorem handleUpstreamReply_supplied {record : Bytes} {init : List EapTlsPacket}
    {last first : EapTlsPacket} {rest : List EapTlsPacket} (division : Division record init last)
    (order : init ++ [last] = first :: rest) {leg : Leg}
    (room : (leg.session.downReasm.pending ++ record).length ≤
      leg.session.downReasm.maxMessageLen) {reply : Reply}
    (brings : Brings reply first) (supplies : Supplies client leg.exchanges rest)
    (sends : AllSent client leg.exchanges
      (handleUpstreamReply client fuel context (some reply) leg).2.exchanges)
    (enough : init.length ≤ fuel) :
    ∃ (identifiers : List UInt8) (mid : Leg), identifiers.length = init.length ∧
      SentSince leg (identifiers.map (ackPacket codeResponse)) mid ∧
      mid.session.supplicantSide = leg.session.supplicantSide ∧
      handleUpstreamReply client fuel context (some reply) leg =
        deliverRecord (leg.session.downReasm.pending ++ record) mid := by
  obtain ⟨accept, reject, eap, carries, parsed⟩ := brings
  rw [handleUpstreamReply_challenge accept reject carries parsed] at sends ⊢
  have small : ∀ packet ∈ init ++ [last], ∀ n ∈ Reassembler.declared packet,
      n ≤ leg.session.downReasm.maxMessageLen := by
    intro packet member n declares
    rw [division.trueLength packet member n declares]
    rw [List.length_append] at room
    omega
  cases init with
  | nil =>
      obtain ⟨rfl, rfl⟩ := List.cons.inj order
      have whole : last.tlsData = record := by simpa using division.whole
      have complete := @Reassembler.ingest_last leg.session.downReasm last division.data
        division.final (not_refuses (small last (by simp))) (by rw [whole]; exact room)
      rw [whole] at complete
      refine ⟨[], ⟨{ leg.session with downReasm := leg.session.downReasm.close last },
        leg.exchanges, leg.clock⟩, rfl, SentSince.nil rfl, rfl, ?_⟩
      rw [Act.bind_of_ok (by rw [ingestDown_eq, complete])]
  | cons packet init =>
      obtain ⟨rfl, rfl⟩ := List.cons.inj order
      have whole : packet.tlsData ++ joined (init ++ [last]) = record := division.whole
      have short : (leg.session.downReasm.pending ++ packet.tlsData).length ≤
          leg.session.downReasm.maxMessageLen := by
        have total := congrArg List.length whole
        rw [List.length_append] at total room ⊢
        omega
      have absorbed := @Reassembler.ingest_more leg.session.downReasm packet
        (division.more packet (by simp)) (not_refuses (small packet (by simp))) short
      rw [Act.bind_of_ok (by rw [ingestDown_eq, absorbed])] at sends ⊢
      have drains := sends.of_bind fun before drained => by
        cases drained with
        | none => exact Act.Invariant.read_bind fun _ => Act.Invariant.pure _
        | some tlsRecord => exact keeps_since (keeps_deliver tlsRecord) before
      obtain ⟨identifiers, mid, count, sent, drained⟩ := @drain_supplied client context last
        division.final division.data init fuel
        ⟨{ leg.session with downReasm := leg.session.downReasm.extend packet }, leg.exchanges,
          leg.clock⟩ packet (division.more packet (by simp)) enough supplies drains
        (fun p member => division.more p (by simp [member]))
        (fun p member => small p (by simp at member ⊢; tauto))
        (by rw [Reassembler.pending_extend, List.append_assoc, whole]; exact room)
      have side := @drain_supplicantSide client context fuel packet
        ⟨{ leg.session with downReasm := leg.session.downReasm.extend packet }, leg.exchanges,
          leg.clock⟩
      rw [drained] at side
      refine ⟨identifiers, mid, by simp [count], sent, side, ?_⟩
      refine (Act.bind_of_ok drained).trans ?_
      simp only [Reassembler.pending_extend, List.append_assoc, whole]

/-! ## Delivering the record -/

/-- The session when the first piece of a record has gone out. -/
def delivered (session : Session) (record : Bytes) (pieces : List Bytes) : Session :=
  ((session.counted record).queue record pieces).release 0

/-- **The first piece of a record goes out at once**, and the others are queued. -/
theorem deliver_eq {leg : Leg} {record chunk : Bytes} {pieces : List Bytes}
    (cut : fragment record leg.session.downstreamFragmentSize = .ok (chunk :: pieces))
    (short : chunk.length ≤ 65000) (encodable : record.length < 2 ^ 32) :
    deliverRecord record leg =
      (.ok (challengeOutcome (wrap codeRequest record.length (pieces.length + 1) 0
        leg.session.nextDownId chunk)),
        { leg with session := delivered leg.session record (chunk :: pieces) }) := by
  have begins := @begin_eq ⟨leg.session.counted record, leg.exchanges, leg.clock⟩ record _ cut
  have sends := @sendNext_eq
    ⟨(leg.session.counted record).queue record (chunk :: pieces), leg.exchanges, leg.clock⟩
    0 chunk (Session.queued 1 pieces) none (Session.queued_cons 0 chunk pieces) short fun _ => encodable
  exact (deliverRecord_eq record leg).trans (begins.trans sends)

@[simp] theorem delivered_downOutbox (session : Session) (record chunk : Bytes)
    (pieces : List Bytes) :
    (delivered session record (chunk :: pieces)).downOutbox = Session.queued 1 pieces := by
  simp [delivered, Session.release, Session.queue]

/-- An ACK releases the first queued piece, under the Identifier after that of the ACK. -/
theorem handle_ack_queued {leg : Leg} {arrival : Incoming} {ack : EapTlsPacket} {idx : ℕ}
    {chunk : Bytes} {rest : List (ℕ × Bytes)} (reassembling : leg.session.mode = .reassemble)
    (parsed : parse arrival.2 = .ok ack) (isAck : ack.isAck = true)
    (queued : leg.session.downOutbox = (idx, chunk) :: rest) (short : chunk.length ≤ 65000)
    (encodable : idx = 0 → leg.session.downTotal < 2 ^ 32) :
    handle client fuel arrival leg =
      (.ok (challengeOutcome (wrap codeRequest leg.session.downTotal leg.session.downNchunks idx
        (ack.identifier + 1) chunk)),
        { leg with session := (arrived leg.session ack).release idx }) := by
  rw [handle, handle_ack_eq reassembling parsed isAck]
  have waits := @handleAck_queued client fuel ⟨arrived leg.session ack, leg.exchanges, leg.clock⟩
    arrival.1 ack (queued ▸ List.cons_ne_nil _ _)
  exact waits.trans (@sendNext_eq ⟨arrived leg.session ack, leg.exchanges, leg.clock⟩ idx chunk rest
    (some ack.identifier) queued short encodable)

/-- **As many ACKs as there are queued pieces release them in order.** -/
theorem collect_release {pieces : List Bytes} : ∀ {acks : List EapTlsPacket}
    {arrivals : List Incoming} {idx : ℕ} {leg : Leg}, Carry arrivals acks →
      (∀ ack ∈ acks, ack.isAck = true) → acks.length = pieces.length →
      leg.session.mode = .reassemble → leg.session.downOutbox = Session.queued idx pieces →
      (∀ chunk ∈ pieces, chunk.length ≤ 65000) → leg.session.downTotal < 2 ^ 32 →
      ∃ leg' : Leg, leg'.exchanges = leg.exchanges ∧ leg'.session.downOutbox = [] ∧
        Act.collect (handle client fuel) arrivals leg =
          ((wrapFrom codeRequest leg.session.downTotal leg.session.downNchunks idx
            (acks.map (·.identifier + 1)) pieces).map (fun packet => .ok (challengeOutcome packet)),
            leg') := by
  induction pieces with
  | nil =>
      intro acks arrivals idx leg carry _ count _ queued _ _
      obtain rfl := List.length_eq_zero_iff.mp count
      obtain rfl := List.map_eq_nil_iff.mp carry
      exact ⟨leg, rfl, queued, rfl⟩
  | cons chunk pieces ih =>
      intro acks arrivals idx leg carry isAck count reassembling queued short encodable
      obtain ⟨ack, acks, rfl⟩ := List.exists_cons_of_length_eq_add_one count
      obtain ⟨arrival, arrivals, rfl, parsed, carry⟩ := carry_cons.mp carry
      rw [Session.queued_cons] at queued
      have head := @handle_ack_queued client fuel _ _ _ _ _ _ reassembling parsed
        (isAck ack (by simp)) queued
        (short chunk (by simp)) fun _ => encodable
      obtain ⟨leg', same, empty, rest⟩ := @ih acks arrivals (idx + 1)
        ⟨(arrived leg.session ack).release idx, leg.exchanges, leg.clock⟩ carry
        (fun a member => isAck a (by simp [member])) (by simpa using count) reassembling
        (by simp [Session.release, arrived, queued]) (fun c member => short c (by simp [member]))
        encodable
      refine ⟨leg', same, empty, (Act.collect_cons head rest).trans ?_⟩
      rw [List.map_cons, wrapFrom_cons, List.map_cons]
      rfl

/-- **A record goes out in requests**, one at once and one on each of the ACKs. -/
theorem deliver_released {leg : Leg} {record : Bytes} {pieces : List Bytes}
    (cut : fragment record leg.session.downstreamFragmentSize = .ok pieces)
    (short : ∀ chunk ∈ pieces, chunk.length ≤ 65000) (encodable : record.length < 2 ^ 32)
    (reassembling : leg.session.mode = .reassemble) {arrivals : List Incoming}
    {acks : List EapTlsPacket} (carry : Carry arrivals acks)
    (isAck : ∀ ack ∈ acks, ack.isAck = true) (count : acks.length + 1 = pieces.length) :
    ∃ started ended : Leg, started.exchanges = leg.exchanges ∧
      ended.exchanges = leg.exchanges ∧ ended.session.downOutbox = [] ∧
      ∃ first others, deliverRecord record leg = (first, started) ∧
        Act.collect (handle client fuel) arrivals started = (others, ended) ∧
        first :: others = (wrapAll codeRequest record.length
          (leg.session.nextDownId :: acks.map (·.identifier + 1)) pieces).map
            fun request => .ok (challengeOutcome request) := by
  cases pieces with
  | nil => cases count
  | cons chunk pieces =>
      have delivers := deliver_eq cut (short chunk List.mem_cons_self) encodable
      obtain ⟨ended, same, empty, released⟩ := @collect_release client fuel pieces acks arrivals 1
        { leg with session := delivered leg.session record (chunk :: pieces) } carry isAck
        (Nat.succ.inj count) reassembling (delivered_downOutbox _ _ _ _)
        (fun piece member => short piece (List.mem_cons_of_mem _ member)) encodable
      refine ⟨{ leg with session := delivered leg.session record (chunk :: pieces) }, ended, rfl, same,
        empty, _, _, delivers, released, ?_⟩
      rw [wrapAll, wrapFrom_cons, List.map_cons]
      rfl

/-! ## Opacity -/

/-- What the handling of a reply comes to, and that of the packets which the supplicant sends
then. -/
def resultsOf (client : UpstreamClient) (fuel : ℕ) (context : AuthContext) (reply : Reply)
    (arrivals : List Incoming) (leg : Leg) : List (Except Raised Outcome) :=
  (handleUpstreamReply client fuel context (some reply) leg).1 ::
    (Act.collect (handle client fuel) arrivals
      (handleUpstreamReply client fuel context (some reply) leg).2).1

/-- The EAP-TLS packet that goes out to the AP for what a handling comes to, in a session with a
State. -/
def goesOut (env : Env) (session : Session) (state : Bytes) (result : Except Raised Outcome) :
    Except Raised EapTlsPacket := do
  let outcome ← result
  let packet ← env.wire (Downstream.replyFor session (some state) outcome)
  parse packet.eapMessage.flatten

/-- What the supplicant receives of a `record` of the server in `count` fragments, the first
of which is in `reply`: the packets `requests`, one at once and one on each of the `acks`. -/
structure ReachesSupplicant (env : Env) (fuel size limit : ℕ) (context : AuthContext)
    (record : Bytes) (count : ℕ) (reply : Reply) (arrivals : List Incoming)
    (acks : List EapTlsPacket) (leg : Leg) (state : Bytes) (requests : List EapTlsPacket) :
    Prop where
  /-- All fragments are pulled, and nothing more. -/
  pulled : ∃ identifiers : List UInt8, identifiers.length + 1 = count ∧
    SentSince leg (identifiers.map (ackPacket codeResponse))
      (handleUpstreamReply env.client fuel context (some reply) leg).2
  emitted : resultsOf env.client fuel context reply arrivals leg =
    requests.map fun request => .ok (challengeOutcome request)
  /-- Each of them goes out to the AP as it is. -/
  carried : (resultsOf env.client fuel context reply arrivals leg).map
    (goesOut env leg.session state) = requests.map .ok
  decoded : ∀ request ∈ requests, request.code = codeRequest ∧ parse (layout request) = .ok request
  cut : CutOf record size requests
  /-- An ACK that echoes a Request is answered under the next Identifier. -/
  consecutive : ∀ idx ack request next, acks[idx]? = some ack → requests[idx]? = some request →
    requests[idx + 1]? = some next → ack.identifier = request.identifier →
      next.identifier = request.identifier + 1
  whole : (Act.collect Reassembler.ingest requests { maxMessageLen := limit }).1 =
    List.replicate (requests.length - 1) (.ok none) ++ [.ok (some record)]
  /-- The ACKs cause no exchange, and after the last one nothing is queued. -/
  quiet : (Act.collect (handle env.client fuel) arrivals
      (handleUpstreamReply env.client fuel context (some reply) leg).2).2.exchanges =
    (handleUpstreamReply env.client fuel context (some reply) leg).2.exchanges
  released : (Act.collect (handle env.client fuel) arrivals
    (handleUpstreamReply env.client fuel context (some reply) leg).2).2.session.downOutbox = []

/-- The requests that pull the record, and the replies that carry it, are such that pyrad has no
reason to change or to refuse them. -/
structure SendableRecord (env : Env) (fuel : ℕ) (context : AuthContext) (reply : Reply)
    (arrivals : List Incoming) (leg : Leg) (state : Bytes) : Prop where
  requests : ∀ exchange ∈
    (handleUpstreamReply env.client fuel context (some reply) leg).2.exchanges.drop
    leg.exchanges.length, exchange.request.Sendable
  replies : ∀ result ∈ resultsOf env.client fuel context reply arrivals leg,
    ∀ outcome ∈ result.toOption,
      (Downstream.replyFor leg.session (some state) outcome).Sendable

/-- A Request goes out as it is, where pyrad can send the reply. -/
theorem goesOut_challenge {env : Env} (packs : env.Packs) {session : Session} {state : Bytes}
    {request : EapTlsPacket} (decoded : parse (layout request) = .ok request)
    (sendable : (Downstream.replyFor session (some state) (challengeOutcome request)).Sendable) :
    goesOut env session state (.ok (challengeOutcome request)) = .ok request := by
  have eap := @flatten_replyFor session (some state) (challengeOutcome request) (layout request) rfl
    (by rw [layout]; exact List.cons_ne_nil _ _)
  rw [goesOut, Except.ok_bind, packs.wire sendable, Except.ok_bind, eap, decoded]

/-- **Opacity toward the supplicant.** Whatever way the server divides a record, and
whatever size the proxy cuts it to, the supplicant gets the record, where pyrad can send the
requests and the replies as they are. -/
theorem record_reaches_supplicant {env : Env} {cfg : Config} (valid : cfg.validate = .ok ())
    {leg : Leg} (configured : leg.session.Configured cfg)
    (reassembling : leg.session.mode = .reassemble)
    (rests : leg.session.downReasm.state = .idle ∨ leg.session.downReasm.state = .complete)
    {record : Bytes} (room : record.length ≤ cfg.maxMessageLen)
    (encodable : record.length < 2 ^ 32) {init : List EapTlsPacket} {last first : EapTlsPacket}
    {rest : List EapTlsPacket} (division : Division record init last)
    (order : init ++ [last] = first :: rest) {reply : Reply} (brings : Brings reply first)
    (supplies : Supplies env.client leg.exchanges rest) (enough : init.length ≤ fuel)
    {arrivals : List Incoming} {acks : List EapTlsPacket} (carry : Carry arrivals acks)
    (isAck : ∀ ack ∈ acks, ack.isAck = true)
    (each : acks.length + 1 =
      max 1 ((record.length + cfg.downstream.fragmentSize - 1) / cfg.downstream.fragmentSize))
    (packs : env.Packs) {state : Bytes}
    (sends : SendableRecord env fuel context reply arrivals leg state) :
    ∃ requests, ReachesSupplicant env fuel cfg.downstream.fragmentSize cfg.maxMessageLen context
      record (init.length + 1) reply arrivals acks leg state requests := by
  have fresh : leg.session.downReasm.pending = [] :=
    Reassembler.pending_of_not_inProgress (by rcases rests with h | h <;> simp [h])
  have asked : AllSent env.client leg.exchanges
      (handleUpstreamReply env.client fuel context (some reply) leg).2.exchanges :=
    fun exchange member => packs.client.wire (sends.requests exchange member)
  obtain ⟨identifiers, mid, count, sent, side, handled⟩ := @handleUpstreamReply_supplied env.client
    fuel context record init last first rest division order leg
    (by rwa [fresh, List.nil_append, configured.downLimit]) reply brings supplies asked enough
  rw [fresh, List.nil_append] at handled
  have downRange := (Config.accepted_of_validate valid).downstream
  have midSize : mid.session.downstreamFragmentSize = cfg.downstream.fragmentSize := by
    simpa [configured.downstreamFragmentSize] using congrArg Session.downstreamFragmentSize side
  have midMode : mid.session.mode = .reassemble := by
    simpa [reassembling] using congrArg Session.mode side
  obtain ⟨pieces, cut⟩ : ∃ pieces, fragment record cfg.downstream.fragmentSize = .ok pieces :=
    ⟨_, fragment_eq downRange.1⟩
  have number := length_fragment cut
  have short : ∀ chunk ∈ pieces, chunk.length ≤ 65000 :=
    fun chunk member => (length_le_of_fragment cut chunk member).trans downRange.2
  have count' : acks.length + 1 = pieces.length := each.trans number.symm
  obtain ⟨started, ended, kept, same, empty, _, _, delivers, released, all⟩ :=
    @deliver_released env.client fuel mid record pieces (midSize ▸ cut) short encodable midMode
      arrivals acks carry isAck count'
  have emits := handled.trans delivers
  have sameLength : (mid.session.nextDownId :: acks.map (·.identifier + 1)).length =
      pieces.length := by
    rw [List.length_cons, List.length_map, count']
  have whole := @cutOf_wrapAll codeRequest record _ _ cut _ sameLength
  have results : resultsOf env.client fuel context reply arrivals leg =
      (wrapAll codeRequest record.length
        (mid.session.nextDownId :: acks.map (·.identifier + 1)) pieces).map
          fun request => .ok (challengeOutcome request) := by
    rw [resultsOf, emits, released, all]
  have decoded : ∀ request ∈ wrapAll codeRequest record.length
      (mid.session.nextDownId :: acks.map (·.identifier + 1)) pieces,
        parse (layout request) = .ok request := parse_wrapAll encodable short
  refine ⟨wrapAll codeRequest record.length
    (mid.session.nextDownId :: acks.map (·.identifier + 1)) pieces, ?_⟩
  refine ⟨⟨identifiers, by rw [count], ?_⟩, results, ?_, ?_, whole, ?_, whole.collect room, ?_, ?_⟩
  · rw [emits]
    exact sent.of_exchanges kept
  · rw [results, List.map_map]
    apply List.map_congr_left
    intro request member
    apply goesOut_challenge packs (decoded request member)
    apply sends.replies (.ok (challengeOutcome request)) _ _ rfl
    rw [results]
    exact List.mem_map_of_mem member
  · exact fun request member => ⟨code_wrapAll request member, decoded request member⟩
  · intro idx ack request next at_ack _ at_next echoes
    obtain ⟨identifier, piece, at_identifier, _, rfl⟩ := getElem?_wrapAll at_next
    rw [List.getElem?_cons_succ, List.getElem?_map, at_ack] at at_identifier
    rw [← echoes]
    exact (Option.some.inj at_identifier).symm
  · rw [emits, released, same, kept]
  · rw [emits, released]
    exact empty

/-! ## An instance -/

/-- A challenge that carries a packet. -/
def challengeWith (packet : EapTlsPacket) : RadiusReply where
  code := accessChallenge
  state := none
  eapMessage := [layout packet]

/-- A server that answers the request after `n` exchanges with `packets n`. -/
def streamingServer (cfg : Config) (packets : ℕ → EapTlsPacket) : Env where
  cfg := cfg
  respond := fun exchanges _ => .ok (challengeWith (packets exchanges.length))
  token := fun _ => []

theorem streamingServer_supplies {cfg : Config} {packets : ℕ → EapTlsPacket}
    {rest : List EapTlsPacket} (encodable : ∀ packet ∈ rest, packet.Encodable)
    (agrees : ∀ idx packet, rest[idx]? = some packet → packets idx = packet) :
    Supplies (streamingServer cfg packets).client [] rest := by
  intro new request ack packet at_new _ _
  refine ⟨challengeWith packet, ?_, rfl, ?_⟩
  · simp only [Env.client, streamingServer, List.nil_append, agrees _ _ at_new]
  · rw [challengeWith, List.flatten_singleton,
      parse_layout (encodable packet (List.mem_of_getElem? at_new))]

theorem brings_normalise {packet : EapTlsPacket} (encodable : packet.Encodable) :
    Brings (challengeWith packet).normalise packet := by
  have parsed : parse (challengeWith packet).eapMessage.flatten = .ok packet := by
    rw [challengeWith, List.flatten_singleton, parse_layout encodable]
  exact ⟨(normalise_challenge rfl).1, (normalise_challenge rfl).2, _, eapMessages_normalise parsed,
    parsed⟩

theorem bareFragment_encodable {code identifier : UInt8} {tlsData : Bytes} {moreFragments : Bool}
    (short : tlsData.length ≤ 65000) :
    (bareFragment code identifier tlsData moreFragments).Encodable :=
  ⟨rfl, Fits.of_length (by simp [bareFragment, described]) short⟩

/-- Records are cut to two octets toward the supplicant. -/
def twoOctetRequests : Config :=
  { Config.sample "reassemble" with downstream := { fragmentSize := 2 } }

/-- Five octets in two fragments of the server, cut to three Requests. -/
theorem record_reaches_supplicant_sample :
    ∃ requests, ReachesSupplicant
      (streamingServer twoOctetRequests fun _ => bareFragment codeRequest 4 [4, 5] false).refusing
      10 2 262144 sampleContext [1, 2, 3, 4, 5] 2
      (challengeWith (bareFragment codeRequest 3 [1, 2, 3] true)).normalise
      [(sampleContext, layout (ackPacket codeResponse 1)),
        (sampleContext, layout (ackPacket codeResponse 2))]
      [ackPacket codeResponse 1, ackPacket codeResponse 2] (newLeg twoOctetRequests) [7]
      requests := by
  have valid : twoOctetRequests.validate = .ok () := by decide
  have division : Division [1, 2, 3, 4, 5] [bareFragment codeRequest 3 [1, 2, 3] true]
      (bareFragment codeRequest 4 [4, 5] false) :=
    ⟨rfl, by decide, rfl, rfl, by decide⟩
  refine record_reaches_supplicant valid (Session.configured_create _ _ _ _) rfl (.inl rfl)
    (by decide) (by decide) division rfl (brings_normalise (bareFragment_encodable (by decide)))
    ?_ (by decide) ?_ (by decide) (by decide) (Env.refusing_packs _) ⟨?_, ?_⟩
  · apply @streamingServer_supplies twoOctetRequests
      (fun _ => bareFragment codeRequest 4 [4, 5] false) [bareFragment codeRequest 4 [4, 5] false]
    · intro packet member
      rw [List.mem_singleton.mp member]
      exact bareFragment_encodable (by decide)
    · intro idx packet at_idx
      exact (List.mem_singleton.mp (List.mem_of_getElem? at_idx)).symm
  · simp [Carry, parse_ack]
  · decide +kernel
  · decide +kernel

/-! ## Records that are too long for the length field -/

/-- A record of `2 ^ 32` octets or more cannot be delivered. -/
theorem deliver_overflow {record : Bytes} (large : 2 ^ 32 ≤ record.length) {leg : Leg}
    (size : 1 ≤ leg.session.downstreamFragmentSize) :
    (deliverRecord record leg).1 = .error .overflowError := by
  rw [deliverRecord_eq, @begin_eq ⟨leg.session.counted record, leg.exchanges, leg.clock⟩ record _
    (fragment_cut size record)]
  simp only [sendNextDownstreamFragment, Act.read_bind, Session.queue, Session.queued_cons,
    updateSession, Act.modify_bind, if_true, build_eq_overflow large]
  rfl

theorem not_reachesSupplicant_of_large {env : Env} {leg : Leg}
    (fresh : leg.session.downReasm.pending = []) {record : Bytes}
    (room : record.length ≤ leg.session.downReasm.maxMessageLen)
    (large : 2 ^ 32 ≤ record.length) {init : List EapTlsPacket} {last first : EapTlsPacket}
    {rest : List EapTlsPacket} (division : Division record init last)
    (order : init ++ [last] = first :: rest) {reply : Reply} (brings : Brings reply first)
    (supplies : Supplies env.client leg.exchanges rest) (lossless : env.Lossless)
    (enough : init.length ≤ fuel) (positive : 1 ≤ leg.session.downstreamFragmentSize)
    {size limit count : ℕ} {arrivals : List Incoming} {state : Bytes}
    {acks requests : List EapTlsPacket} :
    ¬ ReachesSupplicant env fuel size limit context record count reply arrivals acks leg state
      requests := by
  obtain ⟨_, mid, _, _, side, handled⟩ := @handleUpstreamReply_supplied env.client
    fuel context record init last first rest division order leg
    (by rwa [fresh, List.nil_append]) reply brings supplies
    (fun exchange _ => lossless.wire_request exchange.request) enough
  rw [fresh, List.nil_append] at handled
  have midSize : mid.session.downstreamFragmentSize = leg.session.downstreamFragmentSize := by
    simpa using congrArg Session.downstreamFragmentSize side
  rintro ⟨_, emitted, -⟩
  rw [resultsOf, handled, deliver_overflow large (midSize ▸ positive)] at emitted
  cases requests with
  | nil => cases emitted
  | cons request requests => cases (List.cons.inj emitted).1

/-- A server that sends `n` fragments of zeros and then the last one. -/
def zeroServer (n : ℕ) : Env :=
  streamingServer fourGib fun sent => zeroFragment codeRequest (decide (sent < n))

theorem zeroFragment_encodable (code : UInt8) (moreFragments : Bool) :
    (zeroFragment code moreFragments).Encodable :=
  bareFragment_encodable (by rw [List.length_replicate]; decide)

theorem zeroServer_supplies (n : ℕ) :
    Supplies (zeroServer n).client []
      (List.replicate n (zeroFragment codeRequest true) ++ [zeroFragment codeRequest false]) := by
  refine streamingServer_supplies ?_ ?_
  · intro packet member
    rcases List.mem_append.mp member with early | final
    · rw [List.eq_of_mem_replicate early]
      exact zeroFragment_encodable _ _
    · rw [List.mem_singleton.mp final]
      exact zeroFragment_encodable _ _
  · intro idx packet at_idx
    rcases Nat.lt_or_ge idx n with early | final
    · rw [List.getElem?_append_left (by rwa [List.length_replicate]),
        List.getElem?_replicate_of_lt early] at at_idx
      rw [decide_eq_true early]
      exact Option.some.inj at_idx
    · rw [List.getElem?_append_right (by rwa [List.length_replicate])] at at_idx
      rw [decide_eq_false (Nat.not_lt.mpr final)]
      exact (List.mem_singleton.mp (List.mem_of_getElem? at_idx)).symm

/-- **A record of `2 ^ 32` octets, within the configured maximum, is not delivered**: the
server sends it in `2 ^ 21` fragments. -/
theorem record_of_four_gib_not_delivered :
    fourGib.validate = .ok () ∧ (newLeg fourGib).session.Configured fourGib ∧
      (newLeg fourGib).session.mode = .reassemble ∧
      (newLeg fourGib).session.downReasm.state = .idle ∧
      (List.replicate (2 ^ 32) (0 : UInt8)).length ≤ fourGib.maxMessageLen ∧
      Division (List.replicate (2 ^ 32) 0)
        (List.replicate (2 ^ 21 - 1) (zeroFragment codeRequest true))
        (zeroFragment codeRequest false) ∧
      Brings (challengeWith (zeroFragment codeRequest true)).normalise
        (zeroFragment codeRequest true) ∧
      Supplies (zeroServer (2 ^ 21 - 2)).client (newLeg fourGib).exchanges
        (List.replicate (2 ^ 21 - 2) (zeroFragment codeRequest true) ++
          [zeroFragment codeRequest false]) ∧
      (zeroServer (2 ^ 21 - 2)).Lossless ∧
      ∀ fuel arrivals acks state requests, 2 ^ 21 - 1 ≤ fuel →
        ¬ ReachesSupplicant (zeroServer (2 ^ 21 - 2)) fuel fourGib.downstream.fragmentSize
          fourGib.maxMessageLen sampleContext (List.replicate (2 ^ 32) 0) (2 ^ 21)
          (challengeWith (zeroFragment codeRequest true)).normalise arrivals acks (newLeg fourGib)
          state requests := by
  have division := division_zeros codeRequest (2 ^ 21 - 1)
  rw [show (2 ^ 21 - 1 + 1) * 2048 = 2 ^ 32 by norm_num] at division
  have length : (List.replicate (2 ^ 32) (0 : UInt8)).length = 2 ^ 32 := List.length_replicate
  have order : ∀ n, List.replicate (n + 1) (zeroFragment codeRequest true) ++
      [zeroFragment codeRequest false] = zeroFragment codeRequest true ::
        (List.replicate n (zeroFragment codeRequest true) ++ [zeroFragment codeRequest false]) :=
    fun n => by rw [List.replicate_succ, List.cons_append]
  have brings := brings_normalise (zeroFragment_encodable codeRequest true)
  have lossless : (zeroServer (2 ^ 21 - 2)).Lossless := ⟨fun _ => rfl, fun _ => rfl, fun _ => rfl⟩
  refine ⟨by decide, Session.configured_create _ _ _ _, rfl, rfl, length.le, division, brings,
    zeroServer_supplies _, lossless, fun fuel arrivals acks state requests enough => ?_⟩
  exact not_reachesSupplicant_of_large rfl length.le length.ge division (order (2 ^ 21 - 2)) brings
    (zeroServer_supplies _) lossless (by rwa [List.length_replicate]) (by decide)

end EapAccel.Mediator
