import EapAccel.Mediator.Frames

/-!
# Opacity toward the server

A record of the supplicant reaches the server as it was. The supplicant divides the
record as it likes; each fragment but the last is ACKed locally and causes no exchange
(`collect_handle_more`). The last one sends a cut of the record upstream
(`sendChunks_sends`), followed at most by ACKs that pull the server's answer.

The TLS Message Length has four octets, so a record of `2 ^ 32` bytes or more cannot be
sent at all, whatever the configured maximum says.
-/

set_option autoImplicit false

namespace EapAccel.Mediator

open Foundations EapTls

variable {client : UpstreamClient} {fuel : ℕ} {context : AuthContext}

/-! ## Fragments that are absorbed -/

/-- One EAP packet of the supplicant, with the request that brought it. -/
abbrev Incoming := AuthContext × Bytes

/-- `handle_supplicant_eap` on an arrival. -/
def handle (client : UpstreamClient) (fuel : ℕ) (arrival : Incoming) : Act Raised Leg Outcome :=
  handleSupplicantEap client fuel arrival.1 arrival.2

/-- The arrivals carry these packets. -/
def Carry (arrivals : List Incoming) (packets : List EapTlsPacket) : Prop :=
  arrivals.map (fun arrival => parse arrival.2) = packets.map .ok

theorem carry_cons {arrivals : List Incoming} {packet : EapTlsPacket} {packets : List EapTlsPacket} :
    Carry arrivals (packet :: packets) ↔
      ∃ arrival rest, arrivals = arrival :: rest ∧ parse arrival.2 = .ok packet ∧
        Carry rest packets := by
  simp only [Carry, List.map_cons, List.map_eq_cons_iff]

theorem carry_concat {firsts : List Incoming} {final : Incoming} {init : List EapTlsPacket}
    {last : EapTlsPacket} :
    Carry (firsts ++ [final]) (init ++ [last]) ↔ Carry firsts init ∧ parse final.2 = .ok last := by
  simp only [Carry, List.map_append, List.map_singleton]
  refine ⟨fun same => ?_, fun ⟨same, parsed⟩ => by rw [same, parsed]⟩
  obtain ⟨first, parsed⟩ := List.append_inj' same rfl
  exact ⟨first, List.singleton_inj.mp parsed⟩

/-- The session after a fragment has been absorbed and ACKed. -/
def absorb (session : Session) (packet : EapTlsPacket) : Session :=
  acked (arrived session packet) (session.upReasm.extend packet)

@[simp] theorem absorb_upReasm (session : Session) (packet : EapTlsPacket) :
    (absorb session packet).upReasm = session.upReasm.extend packet := rfl

theorem absorb_configured {cfg : Config} {session : Session} (configured : session.Configured cfg)
    (packet : EapTlsPacket) : (absorb session packet).Configured cfg :=
  ⟨configured.mode, configured.upstreamFragmentSize, configured.downstreamFragmentSize,
    configured.upLimit, configured.downLimit⟩

/-- The session after a run of such fragments. -/
def absorbAll (session : Session) (packets : List EapTlsPacket) : Session :=
  packets.foldl absorb session

@[simp] theorem absorbAll_upReasm (packets : List EapTlsPacket) : ∀ session : Session,
    (absorbAll session packets).upReasm = session.upReasm.extendAll packets := by
  induction packets with
  | nil => exact fun _ => rfl
  | cons packet packets ih => exact fun session => ih _

@[simp] theorem absorbAll_mode (packets : List EapTlsPacket) : ∀ session : Session,
    (absorbAll session packets).mode = session.mode := by
  induction packets with
  | nil => exact fun _ => rfl
  | cons packet packets ih => exact fun session => ih _

@[simp] theorem absorbAll_upstreamFragmentSize (packets : List EapTlsPacket) :
    ∀ session : Session,
      (absorbAll session packets).upstreamFragmentSize = session.upstreamFragmentSize := by
  induction packets with
  | nil => exact fun _ => rfl
  | cons packet packets ih => exact fun session => ih _

theorem absorbAll_configured {cfg : Config} (packets : List EapTlsPacket) :
    ∀ {session : Session}, session.Configured cfg → (absorbAll session packets).Configured cfg := by
  induction packets with
  | nil => exact fun configured => configured
  | cons packet packets ih => exact fun configured => ih (absorb_configured configured packet)

/-- A fragment that is not the last is absorbed, and ACKed with the next Identifier. -/
theorem handle_more {leg : Leg} {arrival : Incoming} {packet : EapTlsPacket}
    (reassembling : leg.session.mode = .reassemble) (parsed : parse arrival.2 = .ok packet)
    (more : packet.moreFragments = true) (accepted : ¬ leg.session.upReasm.Refuses packet)
    (room : (leg.session.upReasm.pending ++ packet.tlsData).length ≤
      leg.session.upReasm.maxMessageLen) :
    handle client fuel arrival leg =
      (.ok (ackOutcome (packet.identifier + 1)),
        { leg with session := absorb leg.session packet }) := by
  rw [handle, handle_data_eq reassembling parsed (Reassembler.isAck_of_more more)]
  exact handleData_more (Reassembler.ingest_more more accepted room)

/-- **The fragments before the last are absorbed without any exchange.** -/
theorem collect_handle_more {init : List EapTlsPacket}
    (more : ∀ packet ∈ init, packet.moreFragments = true) :
    ∀ {leg : Leg} {arrivals : List Incoming}, Carry arrivals init →
      leg.session.mode = .reassemble →
      (∀ packet ∈ init, ∀ n ∈ Reassembler.declared packet,
        n ≤ leg.session.upReasm.maxMessageLen) →
      (leg.session.upReasm.pending ++ joined init).length ≤ leg.session.upReasm.maxMessageLen →
      Act.collect (handle client fuel) arrivals leg =
        (init.map fun packet => .ok (ackOutcome (packet.identifier + 1)),
          { leg with session := absorbAll leg.session init }) := by
  induction init with
  | nil =>
      intro leg arrivals carry _ _ _
      obtain rfl := List.map_eq_nil_iff.mp carry
      rfl
  | cons packet init ih =>
      intro leg arrivals carry reassembling small room
      obtain ⟨arrival, rest, rfl, parsed, carry⟩ := carry_cons.mp carry
      rw [joined_cons, ← List.append_assoc] at room
      have head := @handle_more client fuel _ _ _ reassembling parsed
        (more packet (by simp)) (not_refuses (small packet (by simp)))
        (by rw [List.length_append] at room; omega)
      exact Act.collect_cons head (ih (fun p member => more p (by simp [member])) carry reassembling
        (fun p member => small p (by simp [member])) room)

/-- The session when the last fragment of `record` has arrived. -/
def lastArrived (session : Session) (init : List EapTlsPacket) (last : EapTlsPacket)
    (record : Bytes) : Session :=
  completed (arrived (absorbAll session init) last) ((session.upReasm.extendAll init).close last)
    record

@[simp] theorem gathered_upstreamFragmentSize (session : Session) (init : List EapTlsPacket)
    (last : EapTlsPacket) (record : Bytes) :
    (lastArrived session init last record).upstreamFragmentSize = session.upstreamFragmentSize :=
  absorbAll_upstreamFragmentSize init session

theorem gathered_configured {cfg : Config} {session : Session}
    (configured : session.Configured cfg) (init : List EapTlsPacket) (last : EapTlsPacket)
    (record : Bytes) : (lastArrived session init last record).Configured cfg := by
  have absorbed := absorbAll_configured init configured
  refine ⟨absorbed.mode, absorbed.upstreamFragmentSize, absorbed.downstreamFragmentSize, ?_,
    absorbed.downLimit⟩
  rw [← absorbed.upLimit, absorbAll_upReasm]
  rfl

/-- **A division of a record is absorbed, and its last fragment forwards the record.** -/
theorem handle_division {leg : Leg} (reassembling : leg.session.mode = .reassemble)
    (fresh : leg.session.upReasm.pending = []) {record : Bytes}
    (room : record.length ≤ leg.session.upReasm.maxMessageLen) {init : List EapTlsPacket}
    {last : EapTlsPacket} (division : Division record init last) {firsts : List Incoming}
    {final : Incoming} (carry : Carry (firsts ++ [final]) (init ++ [last])) :
    Act.collect (handle client fuel) firsts leg =
        (init.map fun packet => .ok (ackOutcome (packet.identifier + 1)),
          { leg with session := absorbAll leg.session init }) ∧
      handle client fuel final { leg with session := absorbAll leg.session init } =
        forwardRecordUpstream client fuel final.1 record
          { leg with session := lastArrived leg.session init last record } := by
  obtain ⟨carry, parsed⟩ := carry_concat.mp carry
  have whole : joined init ++ last.tlsData = record := by simpa using division.whole
  have small : ∀ packet ∈ init ++ [last], ∀ n ∈ Reassembler.declared packet,
      n ≤ leg.session.upReasm.maxMessageLen := by
    intro packet member n declares
    rw [division.trueLength packet member n declares]
    exact room
  have accepted : ¬ (leg.session.upReasm.extendAll init).Refuses last := by
    refine not_refuses fun n declares => ?_
    rw [Reassembler.extendAll_maxMessageLen]
    exact small last (by simp) n declares
  have prefixLength : (joined init).length ≤ record.length := by
    rw [← whole, List.length_append]
    omega
  constructor
  · refine collect_handle_more division.more carry reassembling
      (fun packet member => small packet (by simp [member])) ?_
    rw [fresh, List.nil_append]
    exact prefixLength.trans room
  · have complete := Reassembler.ingest_last division.data division.final accepted
      (by simpa [fresh, whole] using room)
    rw [Reassembler.pending_extendAll, fresh, List.nil_append, whole] at complete
    have reassembling' : (absorbAll leg.session init).mode = .reassemble := by
      rw [absorbAll_mode, reassembling]
    rw [handle, handle_data_eq reassembling' parsed division.data]
    refine handleData_complete ?_
    rw [← complete, ← absorbAll_upReasm init leg.session]
    rfl

/-! ## The chunks of the record -/

/-- The server answers every EAP-TLS fragment that announces more with an empty
EAP-TLS Request. -/
def AcksChunks (client : UpstreamClient) : Prop :=
  ∀ exchanges request packet, parse request.eap = .ok packet → packet.moreFragments = true →
    ∃ reply ack, client.respond exchanges request = .ok reply ∧ reply.code = accessChallenge ∧
      parse reply.eapMessage.flatten = .ok ack ∧ ack.code = codeRequest ∧ ack.isAck = true

/-- Every one of these requests that announces more was answered. -/
def ChunksAnswered (new : List Exchange) : Prop :=
  ∀ exchange ∈ new, ∀ packet, parse exchange.request.eap = .ok packet →
    packet.moreFragments = true → exchange.Answered

/-- **The loop sends the wrapped chunks, one after the other**, all of them if it returns or
if only the exchange of the last one can fail. -/
theorem sendChunks_sends {total count : ℕ} (encodable : total < 2 ^ 32) :
    ∀ {pieces : List Bytes} {idx : ℕ} {reply : Option Reply} {leg : Leg},
      idx + pieces.length = count → (∀ chunk ∈ pieces, chunk.length ≤ 65000) →
      ∃ (identifiers : List UInt8) (sent : List EapTlsPacket) (new : List Exchange),
        identifiers.length = pieces.length ∧
        sent <+: wrapFrom codeResponse total count idx identifiers pieces ∧
        (sendChunks client context total count idx pieces reply leg).2.exchanges =
          leg.exchanges ++ new ∧
        new.map (fun exchange => parse exchange.request.eap) = sent.map .ok ∧
        (ChunksAnswered new ∨
            (∃ last, (sendChunks client context total count idx pieces reply leg).1 = .ok last) →
          sent = wrapFrom codeResponse total count idx identifiers pieces) := by
  intro pieces
  induction pieces with
  | nil =>
      intro idx reply leg _ _
      exact ⟨[], [], [], rfl, List.prefix_rfl, by simp [sendChunks], rfl, fun _ => rfl⟩
  | cons chunk rest ih =>
      intro idx reply leg counted short
      have fits : (wrap codeResponse total count idx leg.session.upId chunk).Encodable :=
        encodable_wrap (fun _ => encodable) (short chunk (by simp))
      have carries : parse ((leg.chunkReady).exchanged client
          (layout (wrap codeResponse total count idx leg.session.upId chunk)) context).request.eap =
            .ok (wrap codeResponse total count idx leg.session.upId chunk) := by
        rw [Leg.eap_exchanged, parse_layout fits]
      have grown := @Leg.sent_exchanges client leg.chunkReady
        (layout (wrap codeResponse total count idx leg.session.upId chunk)) context
      rw [sendChunks_cons fits]
      rcases outcome : leg.chunkReady.outcome client
        (layout (wrap codeResponse total count idx leg.session.upId chunk)) context with e | reply
      · rw [Act.bind_of_error (exchange_error outcome)]
        refine ⟨leg.session.upId :: List.replicate rest.length 0,
          [wrap codeResponse total count idx leg.session.upId chunk], _, by simp, ?_, grown,
          by rw [List.map_singleton, carries, List.map_singleton], ?_⟩
        · rw [wrapFrom_cons]
          exact ⟨_, rfl⟩
        · rintro (answered | ⟨_, returned⟩)
          · -- Only the exchange of the last chunk can fail.
            have last : rest = [] := by
              by_contra longer
              have : 0 < rest.length := List.length_pos_iff.mpr longer
              rw [List.length_cons] at counted
              obtain ⟨reply, answers⟩ := answered _ (List.mem_singleton_self _) _ carries
                (by simp only [wrap, described, decide_eq_true_eq]; omega)
              cases answers.symm.trans outcome
            subst last
            rfl
          · cases returned
      · rw [Act.bind_of_ok (exchange_ok outcome)]
        obtain ⟨identifiers, sent, new, enough, early, grown', parsed, all⟩ := @ih (idx + 1)
          (some reply.normalise) ((leg.chunkReady.sent client _ context).received reply)
          (by rw [List.length_cons] at counted; omega) (fun c member => short c (by simp [member]))
        refine ⟨leg.session.upId :: identifiers,
          wrap codeResponse total count idx leg.session.upId chunk :: sent,
          leg.chunkReady.exchanged client
            (layout (wrap codeResponse total count idx leg.session.upId chunk)) context :: new,
          by simp [enough], ?_, ?_, ?_, ?_⟩
        · rw [wrapFrom_cons]
          exact (List.prefix_cons_inj _).mpr early
        · rw [List.append_cons]
          exact grown'
        · rw [List.map_cons, List.map_cons, carries, parsed]
        · intro whole
          rw [wrapFrom_cons, all (whole.imp_left fun answered exchange member =>
            answered exchange (List.mem_cons_of_mem _ member))]

/-- **Forwarding a record sends a cut of it, and then at most ACKs**, unless the loop breaks
off before. -/
theorem forward_sends {record : Bytes} {leg : Leg}
    (size : 1 ≤ leg.session.upstreamFragmentSize ∧ leg.session.upstreamFragmentSize ≤ 65000)
    (encodable : record.length < 2 ^ 32) :
    ∃ (packets : List EapTlsPacket) (identifiers : List UInt8),
      CutOf record leg.session.upstreamFragmentSize packets ∧
      (∀ packet ∈ packets, packet.code = codeResponse) ∧
      (SentSince leg (packets ++ identifiers.map (ackPacket codeResponse))
          (forwardRecordUpstream client fuel context record leg).2 ∨
        ∃ sent new, sent <+: packets ∧
          (forwardRecordUpstream client fuel context record leg).2.exchanges =
            leg.exchanges ++ new ∧
          new.map (fun exchange => parse exchange.request.eap) = sent.map .ok ∧
          ¬ ChunksAnswered new) := by
  have cut := @fragment_eq record leg.session.upstreamFragmentSize size.1
  generalize hpieces : (if record = [] then [[]] else _) = pieces at cut
  have short : ∀ chunk ∈ pieces, chunk.length ≤ 65000 :=
    fun chunk member => (length_le_of_fragment cut chunk member).trans size.2
  obtain ⟨identifiers, sent, new, enough, early, grown, parsed, all⟩ :=
    @sendChunks_sends client context record.length pieces.length encodable pieces 0 none leg
      (by omega) short
  rw [forward_eq cut]
  have whole := @cutOf_wrapAll codeResponse _ _ _ cut _ enough
  refine ⟨wrapAll codeResponse record.length identifiers pieces, ?_⟩
  rcases loop : sendChunks client context record.length pieces.length 0 pieces none leg
    with ⟨e | reply, mid⟩
  · rw [loop] at grown all
    rw [Act.bind_of_error loop]
    refine ⟨[], whole, code_wrapAll, ?_⟩
    by_cases answered : ChunksAnswered new
    · rw [all (.inl answered)] at parsed
      rw [List.map_nil, List.append_nil]
      exact .inl ⟨new, grown, parsed⟩
    · exact .inr ⟨sent, new, early, grown, parsed, answered⟩
  · rw [loop] at grown all
    rw [Act.bind_of_ok loop]
    obtain ⟨pulls, pulled⟩ := (handleUpstreamReply_pulls mid context reply).ended (PullsSince.refl mid)
    rw [all (.inr ⟨_, rfl⟩)] at parsed
    have since : SentSince leg _ mid := ⟨new, grown, parsed⟩
    exact ⟨pulls, whole, code_wrapAll, .inl (since.append pulled)⟩

/-- A record of `2 ^ 32` octets or more is not sent: the length does not fit its field. -/
theorem forward_overflow {record : Bytes} (large : 2 ^ 32 ≤ record.length) {leg : Leg}
    (size : 1 ≤ leg.session.upstreamFragmentSize) :
    forwardRecordUpstream client fuel context record leg =
      (.error .overflowError, leg.takeUpId) := by
  rw [forward_eq (fragment_cut size record), sendChunks]
  refine Act.bind_of_error ?_
  rw [Act.bind_of_ok (echoUpstreamId_eq leg)]
  simp only [if_true, build_eq_overflow large]
  rfl

/-! ## What a receiver makes of it -/

/-- The records among the results of a reassembler. -/
def recordsOf (results : List (Except Raised (Option Bytes))) : List Bytes :=
  results.filterMap fun result =>
    match result with
    | .ok complete => complete
    | .error _ => none

/-- The records that a fresh reassembler makes of what was sent. -/
def recordsIn (limit : ℕ) (exchanges : List Exchange) : List Bytes :=
  recordsOf (Act.collect Reassembler.ingest
    (exchanges.filterMap fun exchange => (parse exchange.request.eap).toOption)
    { maxMessageLen := limit }).1

theorem recordsOf_replicate (n : ℕ) : recordsOf (List.replicate n (.ok none)) = [] := by
  simp [recordsOf]

theorem recordsOf_append (first rest : List (Except Raised (Option Bytes))) :
    recordsOf (first ++ rest) = recordsOf first ++ recordsOf rest :=
  List.filterMap_append

theorem recordsIn_nil (limit : ℕ) : recordsIn limit [] = [] := rfl

theorem recordsIn_of_sent {limit : ℕ} {new : List Exchange} {packets : List EapTlsPacket}
    (parsed : new.map (fun exchange => parse exchange.request.eap) = packets.map .ok) :
    recordsIn limit new =
      recordsOf (Act.collect Reassembler.ingest packets { maxMessageLen := limit }).1 := by
  have same : new.filterMap (fun exchange => (parse exchange.request.eap).toOption) = packets := by
    have mapped := congrArg (List.filterMap Except.toOption) parsed
    rw [List.filterMap_map, List.filterMap_map] at mapped
    rw [show packets = packets.filterMap (Except.toOption ∘ Except.ok (ε := Raised)) by
      simp [Function.comp_def, Except.toOption]]
    exact mapped
  rw [recordsIn, same]

/-- A whole cut of a record, and ACKs after it, make the record. -/
theorem recordsOf_cut {record : Bytes} {size limit : ℕ} {packets pulls : List EapTlsPacket}
    (cut : CutOf record size packets) (room : record.length ≤ limit)
    (acks : ∀ packet ∈ pulls, packet.isAck = true) :
    recordsOf (Act.collect Reassembler.ingest (packets ++ pulls) { maxMessageLen := limit }).1 =
      [record] := by
  rw [cut.collect_acks room acks, recordsOf_append, recordsOf_replicate, List.nil_append]
  show record :: recordsOf _ = _
  rw [recordsOf_replicate]

/-- A part of a cut makes the record or nothing. -/
theorem recordsOf_part {record : Bytes} {size limit : ℕ} {packets sent : List EapTlsPacket}
    (cut : CutOf record size packets) (room : record.length ≤ limit) (early : sent <+: packets) :
    ∀ r ∈ recordsOf (Act.collect Reassembler.ingest sent { maxMessageLen := limit }).1,
      r = record := by
  obtain ⟨rest, rfl⟩ := early
  have whole := @recordsOf_cut record size limit (sent ++ rest) [] cut room (by simp)
  rw [List.append_nil, Act.collect_append (Prod.ext rfl rfl) (Prod.ext rfl rfl),
    recordsOf_append] at whole
  intro r member
  have inside : r ∈ [record] := by
    rw [← whole]
    exact List.mem_append_left _ member
  exact List.mem_singleton.mp inside

/-- **Whatever forwarding a record sends makes that record or nothing**, and the record if
the chunks are answered. -/
theorem forward_records {record : Bytes} {leg : Leg} {limit : ℕ}
    (size : 1 ≤ leg.session.upstreamFragmentSize ∧ leg.session.upstreamFragmentSize ≤ 65000)
    (room : record.length ≤ limit) :
    ∃ new, (forwardRecordUpstream client fuel context record leg).2.exchanges =
        leg.exchanges ++ new ∧ (∀ r ∈ recordsIn limit new, r = record) ∧
      (ChunksAnswered new → record.length < 2 ^ 32 → recordsIn limit new = [record]) ∧
      (2 ^ 32 ≤ record.length → new = []) := by
  by_cases encodable : record.length < 2 ^ 32
  · obtain ⟨packets, identifiers, cut, _, sends⟩ :=
      @forward_sends client fuel context record leg size encodable
    have acks : ∀ packet ∈ identifiers.map (ackPacket codeResponse), packet.isAck = true := by
      intro packet member
      obtain ⟨identifier, _, rfl⟩ := List.mem_map.mp member
      exact ackPacket_isAck _ _
    rcases sends with ⟨new, grown, parsed⟩ | ⟨sent, new, early, grown, parsed, broken⟩
    · have records := (recordsIn_of_sent parsed).trans (recordsOf_cut cut room acks)
      refine ⟨new, grown, fun r member => ?_, fun _ _ => records, fun large => by omega⟩
      rw [records] at member
      exact List.mem_singleton.mp member
    · refine ⟨new, grown, fun r member => ?_, fun answered => absurd answered broken,
        fun large => by omega⟩
      rw [recordsIn_of_sent parsed] at member
      exact recordsOf_part cut room early r member
  · refine ⟨[], ?_, by simp [recordsIn_nil], fun _ small => absurd small encodable, fun _ => rfl⟩
    rw [@forward_overflow client fuel context record (by omega) leg size.1, List.append_nil]
    rfl

/-! ## On the wire -/

/-- The EAP-TLS packet that the server is sent in an exchange. -/
def packetSent (client : UpstreamClient) (exchange : Exchange) : Except Raised EapTlsPacket := do
  let packet ← client.wire exchange.request
  parse packet.eap

/-- Since `start`, the server was sent these packets. -/
def ReachedSince (client : UpstreamClient) (start : Leg) (packets : List EapTlsPacket)
    (leg : Leg) : Prop :=
  ∃ new, leg.exchanges = start.exchanges ++ new ∧ new.map (packetSent client) = packets.map .ok

/-- pyrad sends these requests as they are. -/
def SentAsAsked (client : UpstreamClient) (new : List Exchange) : Prop :=
  ∀ exchange ∈ new, client.wire exchange.request = .ok exchange.request

/-- pyrad sends the requests that were made between two states as they are. -/
def AllSent (client : UpstreamClient) (before after : List Exchange) : Prop :=
  SentAsAsked client (after.drop before.length)

theorem AllSent.split {before new after : List Exchange} (sent : AllSent client before after)
    (grows : before ++ new <+: after) :
    SentAsAsked client new ∧ AllSent client (before ++ new) after := by
  obtain ⟨later, rfl⟩ := grows
  rw [AllSent, List.append_assoc, List.drop_left] at sent
  rw [AllSent, List.drop_left]
  exact ⟨fun exchange member => sent exchange (List.mem_append_left _ member),
    fun exchange member => sent exchange (List.mem_append_right _ member)⟩

/-- The first of the requests is sent as it is, and so are the others. -/
theorem AllSent.cons {before after : List Exchange} {exchange : Exchange}
    (sent : AllSent client before after) (grows : before ++ [exchange] <+: after) :
    client.wire exchange.request = .ok exchange.request ∧
      AllSent client (before ++ [exchange]) after := by
  obtain ⟨now, later⟩ := sent.split grows
  exact ⟨now exchange (List.mem_singleton_self _), later⟩

/-- So are those that were made by an earlier state. -/
theorem AllSent.earlier {before after after' : List Exchange} (sent : AllSent client before after')
    (grows : after <+: after') : AllSent client before after := by
  intro exchange member
  obtain ⟨later, rfl⟩ := grows
  apply sent exchange
  rw [List.drop_append]
  exact List.mem_append_left _ member

/-- What is done afterwards undoes no request. -/
theorem AllSent.of_bind {α β : Type} {x : Act Raised Leg α} {f : α → Act Raised Leg β} {leg : Leg}
    {before : List Exchange} (sent : AllSent client before ((x >>= f) leg).2.exchanges)
    (keeps : ∀ before a, Act.Invariant (fun leg => before <+: leg.exchanges) (f a)) :
    AllSent client before (x leg).2.exchanges := by
  rcases ran : x leg with ⟨e | a, mid⟩
  · rw [Act.bind_of_error ran] at sent
    exact sent
  · rw [Act.bind_of_ok ran] at sent
    exact sent.earlier ((keeps mid.exchanges a).ended List.prefix_rfl)

/-- Where pyrad sends the requests as they are, the server is sent what it was asked to send. -/
theorem reachedSince_of_sent {start leg : Leg} {packets : List EapTlsPacket} {new : List Exchange}
    (grown : leg.exchanges = start.exchanges ++ new)
    (parsed : new.map (fun exchange => parse exchange.request.eap) = packets.map .ok)
    (asked : SentAsAsked client new) : ReachedSince client start packets leg := by
  refine ⟨new, grown, ?_⟩
  rw [← parsed]
  apply List.map_congr_left
  intro exchange member
  rw [packetSent, asked exchange member, Except.ok_bind]

/-- Where they reach the server as they are, a server that ACKs chunks answers them. -/
theorem chunksAnswered_of_acks (acks : AcksChunks client) {new : List Exchange}
    (asked : SentAsAsked client new)
    (outcomes : ∀ exchange ∈ new, ∃ before, exchange.outcome = client.answer before exchange.request) :
    ChunksAnswered new := by
  intro exchange member packet carries more
  obtain ⟨before, outcome⟩ := outcomes exchange member
  obtain ⟨reply, _, answers, _⟩ := acks before exchange.request packet carries more
  rw [UpstreamClient.answer_of_wire (asked exchange member), answers] at outcome
  exact ⟨reply, outcome⟩

/-- **Forwarding a record reaches the server**, where pyrad can send the requests as they are. -/
theorem forward_reaches {record : Bytes} {leg : Leg}
    (size : 1 ≤ leg.session.upstreamFragmentSize ∧ leg.session.upstreamFragmentSize ≤ 65000)
    (encodable : record.length < 2 ^ 32) (packs : client.Packs) (acks : AcksChunks client)
    (asked : AskedSince client leg (forwardRecordUpstream client fuel context record leg).2)
    (sendable : ∀ exchange ∈ (forwardRecordUpstream client fuel context record leg).2.exchanges.drop
      leg.exchanges.length, exchange.request.Sendable) :
    ∃ (packets : List EapTlsPacket) (identifiers : List UInt8),
      CutOf record leg.session.upstreamFragmentSize packets ∧
      (∀ packet ∈ packets, packet.code = codeResponse) ∧
      ReachedSince client leg (packets ++ identifiers.map (ackPacket codeResponse))
        (forwardRecordUpstream client fuel context record leg).2 := by
  obtain ⟨made, grown, outcomes⟩ := asked
  rw [grown, List.drop_left] at sendable
  have sends : SentAsAsked client made := fun exchange member => packs.wire (sendable exchange member)
  obtain ⟨packets, identifiers, cut, code, sent⟩ :=
    @forward_sends client fuel context record leg size encodable
  refine ⟨packets, identifiers, cut, code, ?_⟩
  rcases sent with ⟨new, grown', parsed⟩ | ⟨_, new, _, grown', _, broken⟩
  · obtain rfl : made = new := List.append_cancel_left (grown.symm.trans grown')
    exact reachedSince_of_sent grown parsed sends
  · obtain rfl : made = new := List.append_cancel_left (grown.symm.trans grown')
    exact absurd (chunksAnswered_of_acks acks sends outcomes) broken

/-! ## Opacity -/

/-- What the server receives of the fragments of `record`, and what the supplicant is
told meanwhile, when the arrivals `firsts` carry all fragments but the one in `final`. -/
structure ReachesServer (client : UpstreamClient) (fuel size limit : ℕ) (record : Bytes)
    (init : List EapTlsPacket) (firsts : List Incoming) (final : Incoming) (leg : Leg) : Prop where
  /-- Every fragment but the last is ACKed. -/
  acked : (Act.collect (handle client fuel) firsts leg).1 =
    init.map fun packet => .ok (ackOutcome (packet.identifier + 1))
  quiet : (Act.collect (handle client fuel) firsts leg).2.exchanges = leg.exchanges
  /-- The last fragment sends a cut of the record, and then at most ACKs. A fresh
  reassembler makes the record of it, on the last packet of the cut. -/
  sent : ∃ packets pulls : List EapTlsPacket,
    ReachedSince client leg (packets ++ pulls)
      (handle client fuel final (Act.collect (handle client fuel) firsts leg).2).2 ∧
    (∀ packet ∈ packets ++ pulls, packet.code = codeResponse) ∧
    CutOf record size packets ∧ (∀ packet ∈ pulls, packet.isAck = true) ∧
    (Act.collect Reassembler.ingest (packets ++ pulls) { maxMessageLen := limit }).1 =
      List.replicate (packets.length - 1) (.ok none) ++
        .ok (some record) :: List.replicate pulls.length (.ok none)

/-- The requests that the handling of the arrivals makes are such that pyrad has no reason to
change or to refuse them. -/
def MakesSendable (client : UpstreamClient) (fuel : ℕ) (firsts : List Incoming) (final : Incoming)
    (leg : Leg) : Prop :=
  ∀ exchange ∈ (handle client fuel final
      (Act.collect (handle client fuel) firsts leg).2).2.exchanges.drop leg.exchanges.length,
    exchange.request.Sendable

/-- **Opacity toward the server.** Whatever way the supplicant divides a record, and
whatever size the proxy cuts it to, the server gets the record, where pyrad can send the
requests as they are. -/
theorem record_reaches_server {cfg : Config} (valid : cfg.validate = .ok ()) {leg : Leg}
    (configured : leg.session.Configured cfg) (reassembling : leg.session.mode = .reassemble)
    (rest : leg.session.upReasm.state = .idle ∨ leg.session.upReasm.state = .complete)
    {record : Bytes} (room : record.length ≤ cfg.maxMessageLen)
    (encodable : record.length < 2 ^ 32) {init : List EapTlsPacket} {last : EapTlsPacket}
    (division : Division record init last) {firsts : List Incoming} {final : Incoming}
    (carry : Carry (firsts ++ [final]) (init ++ [last])) (packs : client.Packs)
    (sendable : MakesSendable client fuel firsts final leg) (acks : AcksChunks client) :
    ReachesServer client fuel cfg.upstream.fragmentSize cfg.maxMessageLen record init firsts final
      leg := by
  have fresh : leg.session.upReasm.pending = [] :=
    Reassembler.pending_of_not_inProgress (by rcases rest with h | h <;> simp [h])
  obtain ⟨absorbed, forwards⟩ := @handle_division client fuel leg reassembling fresh record
    (by rwa [configured.upLimit]) init last division firsts final carry
  have asked := @handleSupplicantEap_asked client fuel final.1 final.2
    { leg with session := absorbAll leg.session init }
  rw [MakesSendable, absorbed] at sendable
  refine ⟨by rw [absorbed], by rw [absorbed], ?_⟩
  rw [absorbed, forwards]
  rw [forwards] at sendable
  rw [← handle, forwards] at asked
  have upSize := (gathered_configured configured init last record).upstreamFragmentSize
  have upRange := (Config.accepted_of_validate valid).upstream
  rw [← upSize] at upRange
  obtain ⟨packets, identifiers, cut, code, reached⟩ := @forward_reaches client fuel final.1 record
    ⟨lastArrived leg.session init last record, leg.exchanges, leg.clock⟩ upRange encodable packs acks
    asked sendable
  have ack : ∀ packet ∈ identifiers.map (ackPacket codeResponse), packet.isAck = true := by
    intro packet member
    obtain ⟨identifier, _, rfl⟩ := List.mem_map.mp member
    exact ackPacket_isAck _ _
  refine ⟨packets, identifiers.map (ackPacket codeResponse), reached, ?_, upSize ▸ cut, ack,
    cut.collect_acks room ack⟩
  intro packet member
  rcases List.mem_append.mp member with chunk | pull
  · exact code packet chunk
  · obtain ⟨identifier, _, rfl⟩ := List.mem_map.mp pull
    rfl

/-! ## An instance -/

/-- A server that ACKs what announces more and accepts the rest. -/
def acceptingServer : UpstreamClient where
  encodeOctets := EncodesOctets.refuseHex
  requestPacket := fun request => refuseLarge request.encodedLength
  respond := fun _ request =>
    match parse request.eap with
    | .ok packet =>
        if packet.moreFragments then
          .ok { code := accessChallenge, state := none,
                eapMessage := [layout (ackPacket codeRequest (packet.identifier + 1))] }
        else .ok { code := accessAccept, state := none, eapMessage := [] }
    | .error e => .error e

theorem acceptingServer_acks : AcksChunks acceptingServer := by
  intro exchanges request packet parsed more
  have answers : acceptingServer.respond exchanges request =
      .ok { code := accessChallenge, state := none,
            eapMessage := [layout (ackPacket codeRequest (packet.identifier + 1))] } := by
    simp only [acceptingServer, parsed, more, if_true]
  refine ⟨_, ackPacket codeRequest (packet.identifier + 1), answers, rfl, ?_, rfl,
    ackPacket_isAck _ _⟩
  rw [List.flatten_singleton, parse_ack]

/-- The request attributes of a supplicant. -/
def sampleContext : AuthContext where
  username := "alice"
  callingStation := none
  calledStation := none

/-- A new session, and nothing exchanged so far. -/
def newLeg (cfg : Config) : Leg := ⟨Session.create 0 "new" cfg 0, [], 0⟩

/-- A fragment without a TLS Message Length. -/
def bareFragment (code identifier : UInt8) (tlsData : Bytes) (moreFragments : Bool) :
    EapTlsPacket :=
  described code identifier tlsData moreFragments none false

theorem parse_bareFragment {code identifier : UInt8} {tlsData : Bytes} {moreFragments : Bool}
    (short : tlsData.length ≤ 65000) :
    parse (layout (bareFragment code identifier tlsData moreFragments)) =
      .ok (bareFragment code identifier tlsData moreFragments) :=
  parse_layout ⟨rfl, Fits.of_length (by simp [bareFragment, described]) short⟩

/-- Records are cut to two octets toward the server. -/
def twoOctetChunks : Config := { Config.sample "reassemble" with upstream := { fragmentSize := 2 } }

/-- Five octets in two fragments of the supplicant, cut to at most two octets toward the
server. -/
theorem record_reaches_server_sample :
    ReachesServer acceptingServer 10 2 262144 [1, 2, 3, 4, 5]
      [bareFragment codeResponse 7 [1, 2, 3] true]
      [(sampleContext, layout (bareFragment codeResponse 7 [1, 2, 3] true))]
      (sampleContext, layout (bareFragment codeResponse 8 [4, 5] false)) (newLeg twoOctetChunks) := by
  have valid : twoOctetChunks.validate = .ok () := by decide
  have division : Division [1, 2, 3, 4, 5] [bareFragment codeResponse 7 [1, 2, 3] true]
      (bareFragment codeResponse 8 [4, 5] false) :=
    ⟨rfl, by decide, rfl, rfl, by decide⟩
  refine record_reaches_server valid (Session.configured_create _ _ _ _) rfl (.inl rfl)
    (by decide) (by decide) division ?_ (packs_of_refusing rfl fun _ => rfl) ?_ acceptingServer_acks
  · simp [Carry, parse_bareFragment]
  · unfold MakesSendable
    decide +kernel

/-! ## Records that are too long for the length field -/

section Large

variable {leg : Leg} (reassembling : leg.session.mode = .reassemble)
  (fresh : leg.session.upReasm.pending = []) {size limit : ℕ} {record : Bytes}
  (room : record.length ≤ leg.session.upReasm.maxMessageLen) (large : 2 ^ 32 ≤ record.length)
  {init : List EapTlsPacket} {last : EapTlsPacket} (division : Division record init last)
  {firsts : List Incoming} {final : Incoming} (carry : Carry (firsts ++ [final]) (init ++ [last]))
  (positive : 1 ≤ leg.session.upstreamFragmentSize)

include reassembling fresh room large division carry positive

/-- Nothing is sent for a record that is too long. -/
theorem quiet_of_large :
    (handle client fuel final (Act.collect (handle client fuel) firsts leg).2).2.exchanges =
      leg.exchanges := by
  obtain ⟨absorbed, forwards⟩ := @handle_division client fuel leg reassembling fresh record room
    init last division firsts final carry
  have size' : 1 ≤ (lastArrived leg.session init last record).upstreamFragmentSize := by
    rwa [gathered_upstreamFragmentSize]
  rw [absorbed, forwards, forward_overflow large size']
  rfl

theorem makesSendable_of_large : MakesSendable client fuel firsts final leg := by
  rw [MakesSendable, quiet_of_large reassembling fresh room large division carry positive,
    List.drop_length]
  intro exchange member
  cases member

theorem not_reachesServer_of_large :
    ¬ ReachesServer client fuel size limit record init firsts final leg := by
  rintro ⟨_, _, packets, pulls, ⟨new, grown, parsed⟩, _, cut, _⟩
  rw [quiet_of_large reassembling fresh room large division carry positive] at grown
  have none : new = [] := List.append_cancel_left ((List.append_nil _).trans grown).symm
  have nothing := congrArg List.length parsed
  have some := cut.count
  rw [none] at nothing
  simp only [List.map_nil, List.length_nil, List.length_map, List.length_append] at nothing
  omega

end Large

/-- Records of `2 ^ 32` octets are accepted. -/
def fourGib : Config := { Config.sample "reassemble" with maxMessageLen := 2 ^ 32 }

/-- A fragment of 2048 zeros. -/
def zeroFragment (code : UInt8) (moreFragments : Bool) : EapTlsPacket :=
  bareFragment code 0 (List.replicate 2048 0) moreFragments

theorem zeroFragment_tlsData (code : UInt8) (moreFragments : Bool) :
    (zeroFragment code moreFragments).tlsData = List.replicate 2048 0 := rfl

theorem joined_replicate (n : ℕ) (packet : EapTlsPacket) :
    joined (List.replicate n packet) = (List.replicate n packet.tlsData).flatten := by
  rw [joined, List.map_replicate]

theorem division_zeros (code : UInt8) (n : ℕ) :
    Division (List.replicate ((n + 1) * 2048) 0) (List.replicate n (zeroFragment code true))
      (zeroFragment code false) := by
  refine ⟨?_, ?_, rfl, rfl, ?_⟩
  · rw [joined_append, joined_replicate, zeroFragment_tlsData, List.flatten_replicate_replicate,
      joined_cons, joined_nil, List.append_nil, zeroFragment_tlsData, Nat.succ_mul,
      List.replicate_add]
  · exact fun packet member => by rw [List.eq_of_mem_replicate member]; rfl
  · intro packet member n declares
    have bare : ∃ more, packet = zeroFragment code more := by
      rcases List.mem_append.mp member with early | final
      · exact ⟨_, List.eq_of_mem_replicate early⟩
      · exact ⟨_, List.mem_singleton.mp final⟩
    obtain ⟨more, rfl⟩ := bare
    cases declares

theorem parse_zeroFragment (code : UInt8) (moreFragments : Bool) :
    parse (layout (zeroFragment code moreFragments)) = .ok (zeroFragment code moreFragments) :=
  parse_bareFragment (by rw [List.length_replicate]; decide)

/-- **A record of `2 ^ 32` octets, within the configured maximum, is not sent**: the
supplicant sends it in `2 ^ 21` fragments, to a server that would ACK every chunk. -/
theorem record_of_four_gib_not_sent :
    fourGib.validate = .ok () ∧ (newLeg fourGib).session.Configured fourGib ∧
      (newLeg fourGib).session.mode = .reassemble ∧
      (newLeg fourGib).session.upReasm.state = .idle ∧
      (List.replicate (2 ^ 32) (0 : UInt8)).length ≤ fourGib.maxMessageLen ∧
      Division (List.replicate (2 ^ 32) 0)
        (List.replicate (2 ^ 21 - 1) (zeroFragment codeResponse true))
        (zeroFragment codeResponse false) ∧
      AcksChunks acceptingServer ∧ acceptingServer.Packs ∧
      ∀ fuel, MakesSendable acceptingServer fuel
          (List.replicate (2 ^ 21 - 1) (sampleContext, layout (zeroFragment codeResponse true)))
          (sampleContext, layout (zeroFragment codeResponse false)) (newLeg fourGib) ∧
        ¬ ReachesServer acceptingServer fuel fourGib.upstream.fragmentSize
          fourGib.maxMessageLen (List.replicate (2 ^ 32) 0)
          (List.replicate (2 ^ 21 - 1) (zeroFragment codeResponse true))
          (List.replicate (2 ^ 21 - 1) (sampleContext, layout (zeroFragment codeResponse true)))
          (sampleContext, layout (zeroFragment codeResponse false)) (newLeg fourGib) := by
  have division := division_zeros codeResponse (2 ^ 21 - 1)
  rw [show (2 ^ 21 - 1 + 1) * 2048 = 2 ^ 32 by norm_num] at division
  have length : (List.replicate (2 ^ 32) (0 : UInt8)).length = 2 ^ 32 := List.length_replicate
  have carry : Carry
      (List.replicate (2 ^ 21 - 1) (sampleContext, layout (zeroFragment codeResponse true)) ++
      [(sampleContext, layout (zeroFragment codeResponse false))])
      (List.replicate (2 ^ 21 - 1) (zeroFragment codeResponse true) ++
        [zeroFragment codeResponse false]) := by
    rw [carry_concat, Carry, List.map_replicate, List.map_replicate, parse_zeroFragment,
      parse_zeroFragment]
    exact ⟨rfl, rfl⟩
  refine ⟨by decide, Session.configured_create _ _ _ _, rfl, rfl, length.le, division,
    acceptingServer_acks, packs_of_refusing rfl fun _ => rfl, fun fuel => ⟨?_, ?_⟩⟩
  · exact makesSendable_of_large rfl rfl length.le length.ge division carry (by decide)
  · exact not_reachesServer_of_large rfl rfl length.le length.ge division carry (by decide)

end EapAccel.Mediator
