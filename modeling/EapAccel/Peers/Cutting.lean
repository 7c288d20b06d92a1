import EapAccel.Downstream.Asking
import EapAccel.Mediator.Cost
import EapAccel.Mediator.Latent
import EapAccel.Peers.Passing

/-!
# Reassemble mode is faithful

In reassemble mode the proxy gathers the supplicant's message and sends it in chunks of its own
(`sendChunks_reach`), pulls the server's record (`drain_gathers`), and queues the pieces that it
cuts it into. So what is sent of the message is in the reassembler toward the server, what is left
of the record is in the queue, and between two messages the server has nothing (`Cutting`).
-/

set_option autoImplicit false

namespace EapAccel

open Foundations EapTls Mediator Downstream

/-- These pieces of a record wait for the supplicant's ACKs. -/
structure QueuesPieces (session : Session) (pieces : List Bytes) : Prop where
  queue : ∃ idx, 0 < idx ∧ session.downOutbox = Session.queued idx pieces ∧
    (pieces ≠ [] → session.downNchunks = idx + pieces.length)
  chunks : ∀ chunk ∈ pieces, chunk ≠ [] ∧ chunk.length ≤ 65000

/-- The proxy has these octets of the message, and queues these pieces of the record. -/
structure Cutting (peers : Peers) (heard : List Bytes) (gathered : Bytes) (pieces : List Bytes)
    (session : Session) (exchanges : List Exchange) : Prop where
  callee : peers.callee exchanges = { heard := heard }
  gathers : session.upReasm.pending = gathered
  rests : session.downReasm.pending = []
  queue : QueuesPieces session pieces

/-- A wrapped chunk is a fragment. -/
theorem isFragment_wrap {code : UInt8} {total count idx : ℕ} {identifier : UInt8} {chunk : Bytes}
    (encodable : idx = 0 → total < 2 ^ 32) (fine : chunk ≠ [] ∧ chunk.length ≤ 65000) :
    IsFragment (wrap code total count idx identifier chunk) (decide (idx < count - 1)) := by
  have some : chunk.isEmpty = false := List.isEmpty_eq_false_iff.mpr fine.1
  refine ⟨encodable_wrap encodable fine.2, rfl, ?_, rfl⟩
  simp [EapTlsPacket.isAck, wrap, described, some]

theorem length_of_wrap {code : UInt8} {total count idx : ℕ} {identifier : UInt8} {chunk : Bytes}
    (n : ℕ) (declares : n ∈ Reassembler.declared (wrap code total count idx identifier chunk)) :
    n = total := by
  by_cases first : idx = 0
  · rw [wrap, if_pos first] at declares
    exact (Option.some.inj declares).symm
  · rw [wrap, if_neg first] at declares
    cases declares

variable {peers : Peers} {client : UpstreamClient} {context : AuthContext}

/-! ## The message -/

/-- **The chunks of a message reach the server**, which answers the last. -/
theorem sendChunks_reach (behind : peers.Behind client) {message : Bytes} {count : ℕ}
    (length : message.length < 2 ^ 32) {heard : List Bytes} {pieces : List Bytes} :
    ∀ {idx : ℕ} {chunk gathered : Bytes} {last : Option Reply} {leg : Leg},
      (∀ piece ∈ chunk :: pieces, piece ≠ [] ∧ piece.length ≤ 65000) →
      idx + (pieces.length + 1) = count →
      peers.callee leg.exchanges = { heard := heard, gathered := gathered } →
      gathered ++ (chunk :: pieces).flatten = message →
      ∃ (reply : RadiusReply) (mid : Leg),
        sendChunks client context message.length count idx (chunk :: pieces) last leg =
          (.ok (some reply.normalise), mid) ∧
        reply.Has (peers.answers (heard ++ [message])).2 ∧
        peers.callee mid.exchanges = (peers.answers (heard ++ [message])).1 ∧
        Takes leg (pieces.length + 1) mid ∧ Alongside leg.session mid.session := by
  induction pieces with
  | nil =>
      intro idx chunk gathered last leg fine counted callee whole
      have fragment := @isFragment_wrap codeResponse message.length count idx leg.session.upId chunk
        (fun _ => length) (fine chunk (by simp))
      have ends : EndsMessage message gathered
          (wrap codeResponse message.length count idx leg.session.upId chunk) := by
        constructor
        · rfl
        · rw [fragment.more, decide_eq_false_iff_not]
          rw [List.length_nil] at counted
          omega
        · rw [← whole, List.flatten_cons, List.flatten_nil, List.append_nil]
          rfl
        · exact fun isAck => absurd (isAck.symm.trans fragment.data) (by decide)
        · rw [← whole, List.flatten_cons]
          intro _ empty
          have none := (List.append_eq_nil_iff.mp (List.append_eq_nil_iff.mp empty).2).1
          exact (fine chunk List.mem_cons_self).1 none
        · exact length_of_wrap
        · exact length
      have hears := parse_layout fragment.encodable
      obtain ⟨reply, mid, asks, has, after, cost, alongside⟩ := exchange_reaches behind
        (layout (wrap codeResponse message.length count idx leg.session.upId chunk)) context
        leg.chunkReady
      rw [Leg.chunkReady_exchanges, callee, Peers.replies_ends hears ends rfl] at has after
      refine ⟨reply, mid, ?_, has, after, cost, (Alongside.chunkReady leg).trans alongside⟩
      rw [sendChunks_cons fragment.encodable, Act.bind_of_ok asks]
      rfl
  | cons next pieces ih =>
      intro idx chunk gathered last leg fine counted callee whole
      have fragment := @isFragment_wrap codeResponse message.length count idx leg.session.upId chunk
        (fun _ => length) (fine chunk (by simp))
      have more : decide (idx < count - 1) = true := by
        rw [List.length_cons] at counted
        rw [decide_eq_true_iff]
        omega
      rw [more] at fragment
      have hears := parse_layout fragment.encodable
      obtain ⟨reply, mid, asks, _, after, cost, alongside⟩ := exchange_reaches behind
        (layout (wrap codeResponse message.length count idx leg.session.upId chunk)) context
        leg.chunkReady
      rw [Leg.chunkReady_exchanges, callee, Peers.replies_more hears fragment] at after
      have rest : gathered ++ chunk ++ (next :: pieces).flatten = message := by
        rw [← whole, List.append_assoc]
        rfl
      obtain ⟨reply', mid', sends, has, after', cost', alongside'⟩ :=
        @ih (idx + 1) next (gathered ++ chunk)
        (some reply.normalise) mid (fun piece member => fine piece (List.mem_cons_of_mem _ member))
        (by rw [List.length_cons] at counted; omega) after rest
      refine ⟨reply', mid', ?_, has, after', ?_,
        ((Alongside.chunkReady leg).trans alongside).trans alongside'⟩
      · rw [sendChunks_cons fragment.encodable, Act.bind_of_ok asks]
        exact sends
      · rw [Leg.chunkReady_exchanges] at cost
        rw [Takes, cost', cost, List.length_cons]
        omega

/-! ## The server's record -/

/-- One ACK pulls one fragment. -/
theorem drain_pulls (behind : peers.Behind client) (context : AuthContext)
    {heard : List Bytes} {first lastPkt : EapTlsPacket} {rest : List EapTlsPacket} {leg : Leg}
    (more : lastPkt.moreFragments = true) (encodable : first.Encodable)
    (callee : peers.callee leg.exchanges = { heard := heard, rest := first :: rest }) :
    ∃ pulled : Leg, peers.callee pulled.exchanges = { heard := heard, rest := rest } ∧
      Takes leg 1 pulled ∧ Alongside leg.session pulled.session ∧
      ∀ fuel, drainUpstreamFragments client context (fuel + 1) lastPkt leg =
        (do
          match ← ingestDown first with
          | some tlsRecord => return some tlsRecord
          | none => drainUpstreamFragments client context fuel first) pulled := by
  have hears := parse_ack codeResponse leg.session.upId
  obtain ⟨reply, answered, has⟩ := behind.outcome
    (layout (ackPacket codeResponse leg.session.upId)) context leg.pullReady
  have after := peers.callee_exchanged client (layout (ackPacket codeResponse leg.session.upId))
    context leg.pullReady
  rw [Leg.pullReady_exchanges, callee,
    Peers.replies_next hears (ackPacket_isAck _ _) rfl] at has after
  obtain ⟨challenge, carries⟩ := has
  have parsed : parse reply.eapMessage.flatten = .ok first := by
    rw [carries, parse_layout encodable]
  refine ⟨_, after, ?_,
    (Alongside.pullReady leg).trans (Alongside.exchange client _ context _ reply),
    fun fuel => drain_challenge more answered challenge parsed⟩
  exact List.length_append.trans (congrArg (leg.exchanges.length + ·) List.length_singleton)

/-- **The drain gathers the server's record**, however long it takes. -/
theorem drain_gathers (behind : peers.Behind client) {heard : List Bytes}
    {rest : List EapTlsPacket} : ∀ {first : EapTlsPacket} {lastPkt : EapTlsPacket} {leg : Leg},
      lastPkt.moreFragments = true → InFragments (first :: rest) →
      peers.callee leg.exchanges = { heard := heard, rest := first :: rest } →
      (∀ packet ∈ first :: rest, ∀ n ∈ Reassembler.declared packet,
        n ≤ leg.session.downReasm.maxMessageLen) →
      (leg.session.downReasm.pending ++ joined (first :: rest)).length ≤
        leg.session.downReasm.maxMessageLen →
      ∃ leg' : Leg, peers.callee leg'.exchanges = { heard := heard } ∧
        Takes leg (rest.length + 1) leg' ∧ leg'.session.lanSide = leg.session.lanSide ∧
        leg'.session.downReasm.pending = [] ∧
        ∀ fuel, rest.length < fuel → drainUpstreamFragments client context fuel lastPkt leg =
          (.ok (some (leg.session.downReasm.pending ++ joined (first :: rest))), leg') := by
  induction rest with
  | nil =>
      intro first lastPkt leg more inFragments callee small room
      obtain ⟨fragment, _⟩ := inFragments
      obtain ⟨pulled, after, cost, alongside, step⟩ :=
        drain_pulls behind context more fragment.encodable callee
      rw [joined_cons, joined_nil, List.append_nil] at room ⊢
      rw [← alongside.downReasm] at small room ⊢
      have complete := Reassembler.ingest_last fragment.data fragment.more
        (not_refuses (small first List.mem_cons_self)) room
      refine ⟨⟨{ pulled.session with downReasm := pulled.session.downReasm.close first },
        pulled.exchanges, pulled.clock⟩, after, cost, ?_, Reassembler.pending_close _ _, ?_⟩
      · rw [← alongside.side]
        rfl
      · intro fuel enough
        obtain ⟨fuel, rfl⟩ := Nat.exists_eq_add_one.mpr enough
        rw [step fuel, Act.bind_of_ok (by rw [ingestDown_eq, complete])]
        rfl
  | cons next rest ih =>
      intro first lastPkt leg more inFragments callee small room
      obtain ⟨fragment, later⟩ := inFragments
      obtain ⟨pulled, after, cost, alongside, step⟩ :=
        drain_pulls behind context more fragment.encodable callee
      rw [joined_cons, ← List.append_assoc] at room ⊢
      rw [← alongside.downReasm] at small room ⊢
      have short : (pulled.session.downReasm.pending ++ first.tlsData).length ≤
          pulled.session.downReasm.maxMessageLen :=
        (List.prefix_append _ _).length_le.trans room
      have absorbed := Reassembler.ingest_more fragment.more
        (not_refuses (small first List.mem_cons_self)) short
      obtain ⟨leg', gone, cost', side, fresh, gathers⟩ := @ih next first
        ⟨{ pulled.session with downReasm := pulled.session.downReasm.extend first },
          pulled.exchanges,
          pulled.clock⟩ fragment.more later after
        (fun packet member => small packet (List.mem_cons_of_mem _ member)) room
      refine ⟨leg', gone, ?_, ?_, fresh, ?_⟩
      · rw [Takes] at cost cost' ⊢
        rw [cost', cost, List.length_cons]
        omega
      · rw [side, ← alongside.side]
        rfl
      · intro fuel enough
        obtain ⟨fuel, rfl⟩ := Nat.exists_eq_add_one.mpr (Nat.zero_lt_of_lt enough)
        rw [step fuel, Act.bind_of_ok (by rw [ingestDown_eq, absorbed])]
        exact gathers fuel (Nat.lt_of_succ_lt_succ enough)

/-- **A record of the server is gathered, and delivered.** -/
theorem reply_gathers (behind : peers.Behind client) {heard : List Bytes} {tlsRecord : Bytes}
    {first : EapTlsPacket} {rest : List EapTlsPacket} {leg : Leg} {reply : RadiusReply}
    (has : reply.Has (.packet first)) (inFragments : InFragments (first :: rest))
    (whole : joined (first :: rest) = tlsRecord)
    (trueLength : ∀ packet ∈ first :: rest, ∀ n ∈ Reassembler.declared packet, n = tlsRecord.length)
    (callee : peers.callee leg.exchanges = { heard := heard, rest := rest })
    (fresh : leg.session.downReasm.pending = [])
    (room : tlsRecord.length ≤ leg.session.downReasm.maxMessageLen) :
    ∃ mid : Leg, peers.callee mid.exchanges = { heard := heard } ∧ Takes leg rest.length mid ∧
      mid.session.lanSide = leg.session.lanSide ∧ mid.session.downReasm.pending = [] ∧
      ∀ fuel, rest.length ≤ fuel →
        handleUpstreamReply client fuel context (some reply.normalise) leg =
          deliverRecord tlsRecord mid := by
  obtain ⟨fragment, later⟩ := inFragments
  obtain ⟨accept, reject, eap, messages, parsed⟩ := has.brings fragment.encodable
  have small : ∀ packet ∈ first :: rest, ∀ n ∈ Reassembler.declared packet,
      n ≤ leg.session.downReasm.maxMessageLen := by
    intro packet member n declares
    rw [trueLength packet member n declares]
    exact room
  have accepted := @not_refuses leg.session.downReasm first (small first List.mem_cons_self)
  have all : leg.session.downReasm.pending ++ joined (first :: rest) = tlsRecord := by
    rw [fresh, whole]
    rfl
  rw [joined_cons, ← List.append_assoc] at all
  cases rest with
  | nil =>
      rw [joined_nil, List.append_nil] at all
      have complete := Reassembler.ingest_last fragment.data fragment.more accepted
        (by rw [all]; exact room)
      refine ⟨⟨{ leg.session with downReasm := leg.session.downReasm.close first }, leg.exchanges,
        leg.clock⟩, callee, rfl, rfl, Reassembler.pending_close _ _, ?_⟩
      intro fuel _
      rw [handleUpstreamReply_challenge accept reject messages parsed,
        Act.bind_of_ok (by rw [ingestDown_eq, complete]), all]
  | cons next rest =>
      have short : (leg.session.downReasm.pending ++ first.tlsData).length ≤
          leg.session.downReasm.maxMessageLen := by
        rw [← all] at room
        exact (List.prefix_append _ _).length_le.trans room
      have absorbed := Reassembler.ingest_more fragment.more accepted short
      obtain ⟨mid, gone, cost, side, fresh', gathers⟩ :=
        @drain_gathers peers client context behind heard rest
        next first
        ⟨{ leg.session with downReasm := leg.session.downReasm.extend first }, leg.exchanges,
          leg.clock⟩ fragment.more later callee
        (fun packet member => small packet (List.mem_cons_of_mem _ member))
        (by
          rw [Reassembler.pending_extend, all]
          exact room)
      refine ⟨mid, gone, cost, side, fresh', ?_⟩
      intro fuel enough
      have gathered := gathers fuel enough
      rw [Reassembler.pending_extend, all] at gathered
      rw [handleUpstreamReply_challenge accept reject messages parsed,
        Act.bind_of_ok (by rw [ingestDown_eq, absorbed])]
      exact Act.bind_of_ok gathered

/-- Pieces with data are no more than the octets in them. -/
theorem length_le_of_pieces {pieces : List Bytes} (some : ∀ piece ∈ pieces, piece ≠ []) :
    pieces.length ≤ pieces.flatten.length := by
  induction pieces with
  | nil => exact le_rfl
  | cons piece pieces ih =>
      have here := List.length_pos_iff.mpr (some piece List.mem_cons_self)
      have later := ih fun other member => some other (List.mem_cons_of_mem _ member)
      rw [List.flatten_cons, List.length_append, List.length_cons]
      omega

/-- **The record is cut**, the first piece goes out, and the others are queued. -/
theorem deliver_cuts {tlsRecord : Bytes} {leg : Leg} {heard : List Bytes}
    (size : 1 ≤ leg.session.downstreamFragmentSize ∧ leg.session.downstreamFragmentSize ≤ 65000)
    (nonempty : tlsRecord ≠ []) (length : tlsRecord.length < 2 ^ 32)
    (callee : peers.callee leg.exchanges = { heard := heard })
    (gathers : leg.session.upReasm.pending = []) (rests : leg.session.downReasm.pending = []) :
    ∃ outcome leg' packet pieces, deliverRecord tlsRecord leg = (.ok outcome, leg') ∧
      outcome.Conveys packet ∧ IsFragment packet (!pieces.isEmpty) ∧
      packet.tlsData ++ pieces.flatten = tlsRecord ∧ pieces.length < tlsRecord.length ∧
      leg'.exchanges = leg.exchanges ∧
      Cutting peers heard [] pieces leg'.session leg'.exchanges := by
  obtain ⟨pieces, cut⟩ :
      ∃ pieces, fragment tlsRecord leg.session.downstreamFragmentSize = .ok pieces :=
    ⟨_, fragment_eq size.1⟩
  have fine : ∀ chunk ∈ pieces, chunk ≠ [] ∧ chunk.length ≤ 65000 := by
    intro chunk member
    exact ⟨ne_nil_of_mem_fragment cut nonempty chunk member,
      (length_le_of_fragment cut chunk member).trans size.2⟩
  have whole := flatten_fragment cut
  have few := length_le_of_pieces fun chunk member => (fine chunk member).1
  cases pieces with
  | nil => exact absurd rfl (fragment_ne_nil cut)
  | cons chunk pieces =>
      have delivers := deliver_eq cut (fine chunk List.mem_cons_self).2 length
      have fragment := @isFragment_wrap codeRequest tlsRecord.length (pieces.length + 1) 0
        leg.session.nextDownId chunk (fun _ => length) (fine chunk List.mem_cons_self)
      refine ⟨_, _, _, pieces, delivers, ⟨rfl, parse_layout fragment.encodable⟩, ?_, whole, ?_, rfl,
        ?_⟩
      · cases pieces <;> exact fragment
      · rw [whole, List.length_cons] at few
        exact few
      · refine ⟨callee, gathers, rests, ⟨1, Nat.one_pos, delivered_downOutbox _ _ _ _, ?_⟩, ?_⟩
        · intro _
          exact Nat.add_comm _ _
        · exact fun piece member => fine piece (List.mem_cons_of_mem _ member)

/-- A verdict of the server is the outcome. -/
theorem reply_verdict {verdict : Verdict} {reply : RadiusReply} (has : reply.Has (.verdict verdict))
    (leg : Leg) :
    ∃ outcome leg', leg'.exchanges = leg.exchanges ∧ outcome.action.verdict = some verdict ∧
      ∀ fuel, handleUpstreamReply client fuel context (some reply.normalise) leg =
        (.ok outcome, leg') := by
  have code : reply.code = verdict.code := has
  cases verdict with
  | accept =>
      have accept : reply.normalise.accept = true := beq_iff_eq.mpr code
      refine ⟨_, _, ?_, ?_, fun fuel => by rw [handleUpstreamReply, if_pos accept]; rfl⟩
      · rfl
      · rfl
  | reject =>
      have accept : ¬ reply.normalise.accept = true := by
        show ¬ (reply.code == accessAccept) = true
        rw [code]
        decide
      have reject : reply.normalise.reject = true := beq_iff_eq.mpr code
      refine ⟨_, _, ?_, ?_, fun fuel => by
        rw [handleUpstreamReply, if_neg accept, if_pos reject]; rfl⟩
      · rfl
      · rfl

/-- An empty response is one chunk. -/
theorem chunkCount_zero (size : ℕ) : chunkCount size 0 = 1 := by
  have below : (0 + size - 1) / size ≤ 1 := by
    rcases Nat.eq_zero_or_pos size with rfl | positive
    · exact Nat.zero_le _
    · exact (Nat.div_eq_of_lt (by omega)).trans_le (Nat.zero_le _)
  exact max_eq_left below

/-- A message goes to the server in chunks, and the server's record is pulled at once. -/
def Peers.cuttingTariff (peers : Peers) (cfg : Config) : Tariff where
  more := 0
  ends := fun heard =>
    chunkCount cfg.upstream.fragmentSize (heard.getLastD []).length +
      (peers.answers heard).1.rest.length
  next := 0
  acks := fun _ => 0

/-- **What the server says to a message reaches the supplicant.** -/
theorem reply_tells (cfg : Config) (proper : peers.Proper) (behind : peers.Behind client)
    {heard : List Bytes} {leg : Leg} {reply : RadiusReply}
    (has : reply.Has (peers.answers heard).2)
    (callee : peers.callee leg.exchanges = (peers.answers heard).1)
    (gathers : leg.session.upReasm.pending = []) (rests : leg.session.downReasm.pending = [])
    (size : 1 ≤ leg.session.downstreamFragmentSize ∧ leg.session.downstreamFragmentSize ≤ 65000)
    (room : ∀ tlsRecord, peers.server heard = .record tlsRecord →
      tlsRecord.length ≤ leg.session.downReasm.maxMessageLen) :
    ∃ outcome leg', (∃ n, ∀ fuel, n ≤ fuel →
        handleUpstreamReply client fuel context (some reply.normalise) leg = (.ok outcome, leg')) ∧
      Takes leg (peers.answers heard).1.rest.length leg' ∧
      Tells peers (Cutting peers) (peers.cuttingTariff cfg) heard outcome leg' := by
  rcases answer : peers.server heard with tlsRecord | verdict
  · obtain ⟨nonempty, wraps⟩ := proper.down heard tlsRecord answer
    obtain ⟨first, rest, packets, answers⟩ := Peers.answers_record proper answer
    have inFragments := wraps.inFragments
    have whole := wraps.whole
    have trueLength := @Wraps.trueLength _ _ _ wraps
    rw [packets] at inFragments whole trueLength
    rw [answers] at has callee
    obtain ⟨mid, gone, cost, side, fresh, delivers⟩ :=
      @reply_gathers peers client context behind heard
      tlsRecord first rest leg reply has inFragments whole
      (fun packet member n declares => trueLength member declares) callee rests (room _ answer)
    have midSize : mid.session.downstreamFragmentSize = leg.session.downstreamFragmentSize := by
      have same := congrArg Session.downstreamFragmentSize side
      exact same
    have midUp : mid.session.upReasm = leg.session.upReasm := by
      have same := congrArg Session.upReasm side
      exact same
    obtain ⟨outcome, leg', packet, pieces, delivered, conveys, fragment, all, few, none, cutting⟩ :=
      @deliver_cuts peers tlsRecord mid heard (midSize ▸ size) nonempty wraps.length_lt gone
        (midUp ▸ gathers) fresh
    refine ⟨outcome, leg', ⟨rest.length, fun fuel enough => (delivers fuel enough).trans delivered⟩,
      ?_, ?_, ?_⟩
    · rw [Takes, none, answers]
      exact cost
    · intro verdict said
      cases answer.symm.trans said
    · intro other said
      cases answer.symm.trans said
      refine ⟨packet, pieces, conveys, fragment, all, ?_, rfl, cutting⟩
      rw [Peers.span, answer]
      exact few.trans_le (Nat.le_add_left _ _)
  · rw [Peers.answers_verdict answer] at has callee
    obtain ⟨outcome, leg', exchanges, said, handles⟩ :=
      @reply_verdict client context verdict reply has
      leg
    refine ⟨outcome, leg', ⟨0, fun fuel _ => handles fuel⟩, ?_, ?_, ?_⟩
    · rw [Takes, exchanges, Peers.answers_verdict answer]
      rfl
    · intro other said'
      cases answer.symm.trans said'
      refine ⟨said, ?_, rfl⟩
      rw [exchanges, callee]
    · intro tlsRecord said'
      cases answer.symm.trans said'

/-! ## The supplicant's packets -/

variable {env : Env}

/-- A fragment of the supplicant before the last is gathered, and gets an ACK. -/
theorem cutting_more (reassembling : env.cfg.sessionMode = .reassemble) (context : AuthContext)
    {leg : Leg} {heard : List Bytes} {gathered eapBytes : Bytes} {packet : EapTlsPacket}
    (underway : Unfinished env leg)
    (held : Cutting peers heard gathered [] leg.session leg.exchanges)
    (parsed : parse eapBytes = .ok packet) (fragment : IsFragment packet true)
    (small : ∀ n ∈ Reassembler.declared packet, n ≤ env.cfg.maxMessageLen)
    (room : (gathered ++ packet.tlsData).length ≤ env.cfg.maxMessageLen) :
    Yields env context eapBytes leg fun outcome leg' => Takes leg 0 leg' ∧
      ∃ ack, outcome.Conveys ack ∧ ack.isAck = true ∧
        Cutting peers heard (gathered ++ packet.tlsData) [] leg'.session leg'.exchanges := by
  have mode := underway.configured.mode.trans reassembling
  rw [← underway.configured.upLimit] at small room
  rw [← held.gathers] at room ⊢
  have absorbed := Reassembler.ingest_more fragment.more (not_refuses small) room
  refine ⟨ackOutcome (packet.identifier + 1),
    { leg with session := acked (arrived leg.session packet) (leg.session.upReasm.extend packet) },
    ⟨0, fun fuel _ => ?_⟩, rfl, ackPacket codeRequest (packet.identifier + 1), ⟨rfl, parse_ack _ _⟩,
    ackPacket_isAck _ _, ?_⟩
  · rw [route, if_pos (type_of_parse parsed), handle_data_eq mode parsed fragment.data]
    exact handleData_more absorbed
  · exact ⟨held.callee, Reassembler.pending_extend _ _, held.rests,
      ⟨held.queue.queue, held.queue.chunks⟩⟩

/-- An ACK of the supplicant gets the next piece of the record. -/
theorem cutting_next (reassembling : env.cfg.sessionMode = .reassemble) (context : AuthContext)
    {leg : Leg} {heard : List Bytes} {piece eapBytes : Bytes} {pieces : List Bytes}
    {ack : EapTlsPacket} (underway : Unfinished env leg)
    (held : Cutting peers heard [] (piece :: pieces) leg.session leg.exchanges)
    (parsed : parse eapBytes = .ok ack) (isAck : ack.isAck = true) :
    Yields env context eapBytes leg fun outcome leg' => Takes leg 0 leg' ∧
      ∃ packet, outcome.Conveys packet ∧ IsFragment packet (!pieces.isEmpty) ∧
        packet.tlsData = piece ∧ Cutting peers heard [] pieces leg'.session leg'.exchanges := by
  have mode := underway.configured.mode.trans reassembling
  obtain ⟨⟨idx, positive, queued, counted⟩, fine⟩ := held.queue
  have count := counted (List.cons_ne_nil _ _)
  rw [Session.queued_cons] at queued
  have waits : leg.session.downOutbox ≠ [] := by
    rw [queued]
    exact List.cons_ne_nil _ _
  have first : idx = 0 → (arrived leg.session ack).downTotal < 2 ^ 32 := by
    intro zero
    omega
  have here := fine piece List.mem_cons_self
  have packets : (arrived leg.session ack).releasePacket idx piece =
      wrap codeRequest leg.session.downTotal (idx + (pieces.length + 1)) idx (ack.identifier + 1)
        piece := by
    rw [← List.length_cons, ← count]
    rfl
  have fragment := @isFragment_wrap codeRequest leg.session.downTotal
    (idx + (pieces.length + 1)) idx
    (ack.identifier + 1) piece first here
  refine ⟨challengeOutcome ((arrived leg.session ack).releasePacket idx piece),
    { leg with session := (arrived leg.session ack).release idx }, ⟨0, fun fuel _ => ?_⟩, rfl, _,
    ⟨rfl, parse_layout (packets ▸ fragment.encodable)⟩, ?_, ?_, ?_⟩
  · rw [route, if_pos (type_of_parse parsed), handle_ack_eq mode parsed isAck]
    have releases := @handleAck_queued env.client fuel { leg with session := arrived leg.session ack }
      context ack waits
    exact releases.trans (sendNext_eq queued here.2 first)
  · have announces : decide (idx < idx + (pieces.length + 1) - 1) = !pieces.isEmpty := by
      cases pieces <;> simp
    rw [packets, ← announces]
    exact fragment
  · rfl
  · refine ⟨held.callee, held.gathers, held.rests, ⟨idx + 1, Nat.succ_pos _, ?_, fun _ => ?_⟩, ?_⟩
    · exact congrArg List.tail queued
    · rw [List.length_cons] at count
      exact count.trans (by omega)
    · exact fun chunk member => fine chunk (List.mem_cons_of_mem _ member)

/-- When the server has heard a message, its answer is handled to the end. -/
theorem cutting_tells (proper : peers.Proper) (behind : peers.Behind env.client)
    (valid : env.cfg.validate = .ok ()) {context : AuthContext} {leg mid : Leg} {heard : List Bytes}
    {eapBytes : Bytes} {reply : RadiusReply} (underway : Unfinished env leg)
    (rests : leg.session.downReasm.pending = [])
    (room : ∀ tlsRecord, peers.server heard = .record tlsRecord →
      tlsRecord.length ≤ env.cfg.maxMessageLen)
    (down : mid.session.downReasm = leg.session.downReasm)
    (size : mid.session.downstreamFragmentSize = leg.session.downstreamFragmentSize)
    (gathers : mid.session.upReasm.pending = []) (has : reply.Has (peers.answers heard).2)
    (after : peers.callee mid.exchanges = (peers.answers heard).1)
    (goes : ∀ fuel, route env fuel context eapBytes leg =
      handleUpstreamReply env.client fuel context (some reply.normalise) mid)
    (cost : Takes leg (chunkCount env.cfg.upstream.fragmentSize (heard.getLastD []).length) mid) :
    Yields env context eapBytes leg fun outcome leg' =>
      Takes leg ((peers.cuttingTariff env.cfg).ends heard) leg' ∧
        Tells peers (Cutting peers) (peers.cuttingTariff env.cfg) heard outcome leg' := by
  have accepted := (Config.accepted_of_validate valid).downstream
  rw [← underway.configured.downstreamFragmentSize, ← size] at accepted
  rw [← down] at rests
  rw [← underway.configured.downLimit, ← down] at room
  obtain ⟨outcome, leg', ⟨n, handles⟩, cost', tells⟩ :=
    @reply_tells peers env.client context env.cfg
    proper behind heard mid reply has after gathers rests accepted room
  refine ⟨outcome, leg', ⟨n, fun fuel enough => (goes fuel).trans (handles fuel enough)⟩, ?_, tells⟩
  rw [Takes] at cost cost' ⊢
  rw [cost', cost, Nat.add_assoc]
  rfl

/-- The last fragment of a record: its chunks go to the server, which says something to it. -/
theorem cutting_ends_record (proper : peers.Proper) (behind : peers.Behind env.client)
    (valid : env.cfg.validate = .ok ()) (reassembling : env.cfg.sessionMode = .reassemble)
    (context : AuthContext) {leg : Leg} {heard : List Bytes} {gathered message eapBytes : Bytes}
    {packet : EapTlsPacket} (underway : Unfinished env leg)
    (held : Cutting peers heard gathered [] leg.session leg.exchanges)
    (parsed : parse eapBytes = .ok packet) (ends : EndsMessage message gathered packet)
    (small : message.length ≤ env.cfg.maxMessageLen)
    (room : ∀ tlsRecord, peers.server (heard ++ [message]) = .record tlsRecord →
      tlsRecord.length ≤ env.cfg.maxMessageLen) (data : packet.isAck = false) :
    Yields env context eapBytes leg fun outcome leg' =>
      Takes leg ((peers.cuttingTariff env.cfg).ends (heard ++ [message])) leg' ∧
        Tells peers (Cutting peers) (peers.cuttingTariff env.cfg) (heard ++ [message]) outcome
          leg' := by
  have mode := underway.configured.mode.trans reassembling
  have limit := underway.configured.upLimit
  have whole : leg.session.upReasm.pending ++ packet.tlsData = message := by
    rw [held.gathers, ends.whole]
  have declares : ∀ n ∈ Reassembler.declared packet, n ≤ leg.session.upReasm.maxMessageLen := by
    intro n declares
    rw [ends.trueLength n declares, limit]
    exact small
  have complete := Reassembler.ingest_last data ends.final (not_refuses declares)
    (by rw [whole, limit]; exact small)
  rw [whole] at complete
  have sizes := (Config.accepted_of_validate valid).upstream
  rw [← underway.configured.upstreamFragmentSize] at sizes
  obtain ⟨pieces, cut⟩ : ∃ pieces, fragment message leg.session.upstreamFragmentSize = .ok pieces :=
    ⟨_, fragment_eq sizes.1⟩
  have fine : ∀ chunk ∈ pieces, chunk ≠ [] ∧ chunk.length ≤ 65000 := by
    intro chunk member
    exact ⟨ne_nil_of_mem_fragment cut (ends.data data) chunk member,
      (length_le_of_fragment cut chunk member).trans sizes.2⟩
  have all := flatten_fragment cut
  cases pieces with
  | nil => exact absurd rfl (fragment_ne_nil cut)
  | cons chunk pieces =>
      obtain ⟨reply, mid, sends, has, after, cost, alongside⟩ :=
        @sendChunks_reach peers env.client context
        behind message (pieces.length + 1) ends.length heard pieces 0 chunk [] none
        ⟨completed (arrived leg.session packet) (leg.session.upReasm.close packet) message,
          leg.exchanges, leg.clock⟩ fine (Nat.zero_add _) held.callee all
      have fresh : mid.session.upReasm.pending = [] := by
        rw [alongside.upReasm]
        exact Reassembler.pending_close _ _
      have down : mid.session.downReasm = leg.session.downReasm := alongside.downReasm
      have size : mid.session.downstreamFragmentSize = leg.session.downstreamFragmentSize :=
        alongside.downstreamFragmentSize
      apply cutting_tells proper behind valid underway held.rests room down size fresh has after
      · intro fuel
        rw [route, if_pos (type_of_parse parsed), handle_data_eq mode parsed data]
        have forwards := @handleData_complete env.client fuel
          { leg with session := arrived leg.session packet } context packet _ message complete
        have cuts := @forward_eq env.client fuel
          ⟨completed (arrived leg.session packet) (leg.session.upReasm.close packet) message,
            leg.exchanges, leg.clock⟩ context message _ cut
        exact forwards.trans (cuts.trans (Act.bind_of_ok sends))
      · have count := length_fragment cut
        rw [underway.configured.upstreamFragmentSize, List.length_cons] at count
        rw [List.getLastD_concat, chunkCount, ← count]
        exact cost

/-- An empty response: the server is polled, and says something to it. -/
theorem cutting_ends_poll (proper : peers.Proper) (behind : peers.Behind env.client)
    (valid : env.cfg.validate = .ok ()) (reassembling : env.cfg.sessionMode = .reassemble)
    (context : AuthContext) {leg : Leg} {heard : List Bytes} {gathered message eapBytes : Bytes}
    {packet : EapTlsPacket} (underway : Unfinished env leg)
    (held : Cutting peers heard gathered [] leg.session leg.exchanges)
    (parsed : parse eapBytes = .ok packet) (ends : EndsMessage message gathered packet)
    (room : ∀ tlsRecord, peers.server (heard ++ [message]) = .record tlsRecord →
      tlsRecord.length ≤ env.cfg.maxMessageLen) (data : packet.isAck = true) :
    Yields env context eapBytes leg fun outcome leg' =>
      Takes leg ((peers.cuttingTariff env.cfg).ends (heard ++ [message])) leg' ∧
        Tells peers (Cutting peers) (peers.cuttingTariff env.cfg) (heard ++ [message]) outcome
          leg' := by
  have mode := underway.configured.mode.trans reassembling
  obtain rfl := ends.fresh data
  obtain rfl : message = [] := by rw [← ends.whole, (fields_of_ack data).2.2.1]; rfl
  obtain ⟨_, _, released, _⟩ := held.queue.queue
  have hears := parse_ack codeResponse (arrived leg.session packet).upId
  obtain ⟨reply, mid, asks, has, after, cost, alongside⟩ := exchange_reaches behind
    (layout (ackPacket codeResponse (arrived leg.session packet).upId)) context
    (Leg.takeUpId { leg with session := arrived leg.session packet })
  have callee : peers.callee
      (Leg.takeUpId { leg with session := arrived leg.session packet }).exchanges =
        { heard := heard } := held.callee
  have poll :=
    (Utters.nothing rfl (ackPacket_isAck codeResponse (arrived leg.session packet).upId)).ends
  rw [callee, Peers.replies_ends hears poll rfl] at has after
  have whole := (Alongside.takeUpId (arrived leg.session packet)).trans alongside
  have down : mid.session.downReasm = leg.session.downReasm := whole.downReasm
  have size : mid.session.downstreamFragmentSize = leg.session.downstreamFragmentSize :=
    whole.downstreamFragmentSize
  have fresh : mid.session.upReasm.pending = [] := by
    rw [whole.upReasm]
    exact held.gathers
  apply cutting_tells proper behind valid underway held.rests room down size fresh has after
  · intro fuel
    rw [route, if_pos (type_of_parse parsed), handle_ack_eq mode parsed data]
    have polls := @handleAck_poll env.client fuel context packet
      { leg with session := arrived leg.session packet } released underway.unfinished
    exact polls.trans (Act.bind_of_ok asks)
  · rw [List.getLastD_concat, List.length_nil, chunkCount_zero]
    exact cost

/-- The end of a message gets what the server says to it. -/
theorem cutting_ends (proper : peers.Proper) (behind : peers.Behind env.client)
    (valid : env.cfg.validate = .ok ()) (reassembling : env.cfg.sessionMode = .reassemble)
    (context : AuthContext) {leg : Leg} {heard : List Bytes} {gathered message eapBytes : Bytes}
    {packet : EapTlsPacket} (underway : Unfinished env leg)
    (held : Cutting peers heard gathered [] leg.session leg.exchanges)
    (parsed : parse eapBytes = .ok packet) (ends : EndsMessage message gathered packet)
    (small : message.length ≤ env.cfg.maxMessageLen)
    (room : ∀ tlsRecord, peers.server (heard ++ [message]) = .record tlsRecord →
      tlsRecord.length ≤ env.cfg.maxMessageLen) :
    Yields env context eapBytes leg fun outcome leg' =>
      Takes leg ((peers.cuttingTariff env.cfg).ends (heard ++ [message])) leg' ∧
        Tells peers (Cutting peers) (peers.cuttingTariff env.cfg) (heard ++ [message]) outcome
          leg' := by
  cases data : packet.isAck with
  | false =>
      exact cutting_ends_record proper behind valid reassembling context underway held parsed ends
        small
        room data
  | true =>
      exact cutting_ends_poll proper behind valid reassembling context underway held parsed ends
        room data

/-- **Reassemble mode is faithful**, within the limit of the configuration. -/
theorem cutting_faithful (proper : peers.Proper) (behind : peers.Behind env.client)
    (valid : env.cfg.validate = .ok ()) (reassembling : env.cfg.sessionMode = .reassemble) :
    Faithful peers env env.cfg.maxMessageLen (Cutting peers) (peers.cuttingTariff env.cfg) where
  heard := by
    intro heard gathered pieces session exchanges held
    rw [held.callee]
  bare := by
    rintro heard gathered pieces exchanges session session' bare
      ⟨callee, gathers, rests, queue, fine⟩
    have up := congrArg (fun s => s.upReasm.pending) bare
    have down := congrArg (fun s => s.downReasm.pending) bare
    have outbox := congrArg Session.downOutbox bare
    have count := congrArg Session.downNchunks bare
    obtain ⟨idx, positive, queued, counted⟩ := queue
    exact ⟨callee, up.trans gathers, down.trans rests,
      ⟨idx, positive, outbox.trans queued, fun waits => count.trans (counted waits)⟩, fine⟩
  start := by
    intro context leg bare none
    obtain ⟨outcome, leg', routes, cost, conveys, same, alongside⟩ :=
      identity_routes proper behind context leg
    rw [none] at same
    have up := congrArg (fun s => s.upReasm.pending) bare
    have down := congrArg (fun s => s.downReasm.pending) bare
    have outbox := congrArg Session.downOutbox bare
    refine ⟨outcome, leg', routes, cost, peers.start, conveys, rfl, same, ?_, ?_,
      ⟨1, Nat.one_pos, ?_, ?_⟩, ?_⟩
    · rw [alongside.upReasm]
      exact up
    · rw [alongside.downReasm]
      exact down
    · exact alongside.downOutbox.trans outbox
    · exact fun waits => absurd rfl waits
    · exact fun chunk member => absurd member List.not_mem_nil
  more := by
    intro context leg heard gathered eapBytes packet underway held parsed fragment small room
    exact cutting_more reassembling context underway held parsed fragment small room
  ends := by
    intro context leg heard gathered message eapBytes packet underway held parsed ends small room
    exact cutting_ends proper behind valid reassembling context underway held parsed ends small room
  next := by
    intro context leg heard piece pieces eapBytes ack underway held parsed isAck
    exact cutting_next reassembling context underway held parsed isAck

end EapAccel
