import EapAccel.Mediator.Drain
import EapAccel.Mediator.Heard
import EapAccel.Opacity.ToSupplicant

/-!
# A record that is sent again

When the server does not answer, or its reply does not parse, the exception unwinds through
`handle_supplicant_eap` and nothing restores the reassemblers. The one of the supplicant's
fragments has closed its message, so the last fragment alone is the record when it is sent again
(`handle_again`). The other keeps what the failed handling has heard (`handle_breaks`), and the
server's next record is delivered behind it (`forward_trades`).
-/

set_option autoImplicit false

namespace EapAccel

open Foundations EapTls

/-- Nothing came back in an exchange, or what came back does not parse. -/
def Exchange.Fails (exchange : Exchange) (raised : Raised) : Prop :=
  exchange.outcome = .error raised ∨
    ∃ reply eap rest, exchange.outcome = .ok reply ∧ reply.normalise.verdict = none ∧
      reply.normalise.eapMessages = eap :: rest ∧ parse eap = .error raised

namespace Mediator

variable {client : UpstreamClient} {fuel : ℕ} {context : AuthContext}

/-! ## What a failed handling leaves -/

/-- Since `start` these exchanges were made, and what was heard of them is pending. -/
structure Absorbs (start : Leg) (new : List Exchange) (leg : Leg) : Prop where
  exchanges : leg.exchanges = start.exchanges ++ new
  pending : leg.session.downReasm.pending = start.session.downReasm.pending ++ joined (heard new)

/-- Since `start` exchanges were made, and the last of them did not fail. -/
def LastSound (start leg : Leg) : Prop :=
  ∃ new exchange, leg.exchanges = start.exchanges ++ (new ++ [exchange]) ∧
    ∀ raised, ¬ exchange.Fails raised

/-- What is left when a handling raises: what was heard, if an exchange failed. -/
def Leaves (start leg : Leg) : Prop := (∃ new, Absorbs start new leg) ∨ LastSound start leg

theorem Absorbs.of_view {start leg leg' : Leg} {new : List Exchange}
    (same : hearingView leg' = hearingView leg) (absorbs : Absorbs start new leg) :
    Absorbs start new leg' := by
  simp only [hearingView, Prod.mk.injEq] at same
  exact ⟨same.1.trans absorbs.exchanges, same.2 ▸ absorbs.pending⟩

theorem LastSound.of_exchanges {start leg leg' : Leg} (same : leg'.exchanges = leg.exchanges)
    (sound : LastSound start leg) : LastSound start leg' := by
  obtain ⟨new, exchange, grown, fine⟩ := sound
  exact ⟨new, exchange, same.trans grown, fine⟩

/-- An exchange was made, and its reply is not yet looked at. -/
structure Returned (start : Leg) (new : List Exchange) (exchange : Exchange)
    (answer : RadiusReply) (leg : Leg) : Prop where
  exchanges : leg.exchanges = start.exchanges ++ (new ++ [exchange])
  pending : leg.session.downReasm.pending = start.session.downReasm.pending ++ joined (heard new)
  heeded : exchange.heeded = true
  outcome : exchange.outcome = .ok answer

namespace Returned

variable {start leg : Leg} {new : List Exchange} {exchange : Exchange} {answer : RadiusReply}

/-- A reply that brings no packet. -/
theorem silent (returned : Returned start new exchange answer leg)
    (silent : exchange.packet = none) : Absorbs start (new ++ [exchange]) leg := by
  refine ⟨returned.exchanges, ?_⟩
  rw [heard_append, heard_of_silent silent, List.append_nil]
  exact returned.pending

/-- A reply that ends the authentication, or has no EAP packet or one that parses. -/
theorem sound (returned : Returned start new exchange answer leg)
    (fine : ∀ eap rest, answer.normalise.verdict = none →
      answer.normalise.eapMessages = eap :: rest → ∃ packet, parse eap = .ok packet) :
    LastSound start leg := by
  refine ⟨new, exchange, returned.exchanges, ?_⟩
  rintro raised (failed | ⟨other, eap, rest, same, verdict, carries, unparsed⟩)
  · rw [returned.outcome] at failed
    cases failed
  · rw [returned.outcome] at same
    cases same
    obtain ⟨packet, parsed⟩ := fine eap rest verdict carries
    rw [parsed] at unparsed
    cases unparsed

/-- A packet that is fed stays pending, unless it completes a record or is refused. -/
theorem ingest (returned : Returned start new exchange answer leg) {packet : EapTlsPacket}
    (brings : exchange.packet = some packet) (sound : LastSound start leg) :
    Act.Triple (fun l => l = leg) (ingestDown packet)
      (fun complete l => LastSound start l ∧ (complete = none → Absorbs start (new ++ [exchange]) l))
      (fun _ => LastSound start) := by
  intro l at_leg
  rw [at_leg, ingestDown_eq]
  rcases fed : Reassembler.ingest packet leg.session.downReasm with ⟨e | complete, after⟩
  · exact sound.of_exchanges rfl
  refine ⟨sound.of_exchanges rfl, ?_⟩
  rintro rfl
  refine ⟨returned.exchanges, ?_⟩
  have pending := Reassembler.pending_of_ingest fed
  rw [heard_append, heard_of_packet returned.heeded brings, joined_append, joined_cons,
    joined_nil, List.append_nil, ← List.append_assoc, ← returned.pending]
  exact pending

end Returned

/-- What is made of a reply that the drain has pulled. -/
theorem takePulled_leaves {start leg : Leg} {new : List Exchange} {exchange : Exchange}
    {answer : RadiusReply} (returned : Returned start new exchange answer leg) :
    Act.Triple (fun l => l = leg) (takePulled answer.normalise)
      (fun turn l => LastSound start l ∧
        ∀ packet, turn = .inl packet → Absorbs start (new ++ [exchange]) l)
      (fun _ => Leaves start) := by
  -- A verdict ends the drain.
  have ended : ∀ v, answer.normalise.verdict = some v → LastSound start leg := fun v verdict =>
    returned.sound fun eap rest none _ => by rw [verdict] at none; cases none
  rw [takePulled]
  refine Act.Triple.ite (fun accept => ?_) fun accept => ?_
  · rintro _ rfl
    exact ⟨(ended _ (Reply.verdict_of_accept accept)).of_exchanges rfl, by rintro _ ⟨⟩⟩
  refine Act.Triple.ite (fun reject => ?_) fun reject => ?_
  · rintro _ rfl
    exact ⟨(ended _ (Reply.verdict_of_reject accept reject)).of_exchanges rfl, by rintro _ ⟨⟩⟩
  have verdict := Reply.verdict_of_neither accept reject
  rcases carries : answer.normalise.eapMessages with _ | ⟨eap, rest⟩
  · rintro _ rfl
    refine ⟨returned.sound fun eap rest _ more => ?_, by rintro _ ⟨⟩⟩
    rw [carries] at more
    cases more
  obtain ⟨same, brings⟩ := packet_of_parse returned.outcome verdict carries
  dsimp only
  rcases parsed : parse eap with e | packet
  · rw [parsed] at brings
    rintro _ rfl
    exact .inl ⟨_, returned.silent brings⟩
  rw [parsed] at brings
  rw [Act.bind_lift_ok]
  have sound : LastSound start leg := by
    refine returned.sound fun other rest' _ more => ?_
    rw [carries] at more
    cases more
    exact ⟨packet, parsed⟩
  refine Act.Triple.bind (Act.Triple.conseq (returned.ingest brings sound) (fun _ => id)
    (fun _ _ => id) fun _ _ => .inr) fun done => ?_
  cases done with
  | some tlsRecord => exact Act.Triple.pure fun _ fed => ⟨fed.1, by rintro _ ⟨⟩⟩
  | none => exact Act.Triple.pure fun _ fed => ⟨fed.1, fun _ _ => fed.2 rfl⟩

/-- One turn of the drain. -/
theorem pull_leaves (start : Leg) (new : List Exchange) :
    Act.Triple (Absorbs start new) (pull client context)
      (fun turn leg => LastSound start leg ∧
        ∀ packet, turn = .inl packet → ∃ new, Absorbs start new leg)
      (fun _ => Leaves start) := by
  intro leg absorbs
  have heeded : (leg.pullReady.exchanged client (Leg.pullAck leg) context).heeded = !false :=
    heeded_of_build (by rw [Leg.eap_exchanged]; exact buildAck_eq_ok _ leg.session.upId)
  have grown : leg.exchanges ++ [leg.pullReady.exchanged client (Leg.pullAck leg) context] =
      start.exchanges ++ (new ++ [leg.pullReady.exchanged client (Leg.pullAck leg) context]) := by
    rw [absorbs.exchanges, List.append_assoc]
  rw [pull_eq]
  rcases outcome : leg.pullReady.outcome client (Leg.pullAck leg) context with e | answer
  · have silent : heard [leg.pullReady.exchanged client (Leg.pullAck leg) context] = [] :=
      heard_of_silent (by simp [Exchange.packet, Leg.exchanged, outcome])
    refine .inl ⟨_, grown, ?_⟩
    rw [heard_append, silent, List.append_nil, ← absorbs.pending]
    exact congrArg Reassembler.pending (takeUpId_downReasm leg.session)
  · have returned : Returned start new
        (leg.pullReady.exchanged client (Leg.pullAck leg) context) answer
        ((leg.pullReady.sent client (Leg.pullAck leg) context).received answer) := by
      refine ⟨grown, ?_, heeded, outcome⟩
      rw [received_downReasm]
      exact absorbs.pending
    exact Act.Triple.conseq (takePulled_leaves returned) (fun _ => id)
      (fun turn l ends => ⟨ends.1, fun packet more => ⟨_, ends.2 packet more⟩⟩) (fun _ _ => id) _ rfl

/-- **The drain.** -/
theorem drain_leaves (start : Leg) : ∀ (fuel : ℕ) (lastPkt : EapTlsPacket) (new : List Exchange),
    Act.Triple (fun leg => Absorbs start new leg ∧ LastSound start leg)
      (drainUpstreamFragments client context fuel lastPkt) (fun _ => LastSound start)
      (fun _ => Leaves start) := by
  intro fuel
  induction fuel with
  | zero =>
      intro lastPkt new
      rw [drainUpstreamFragments]
      refine Act.Triple.ite (fun _ => ?_) fun _ => ?_
      · exact Act.Triple.raise fun _ both => .inr both.2
      · exact fun _ both => both.2
  | succ fuel ih =>
      intro lastPkt new
      cases more : lastPkt.moreFragments with
      | false =>
          intro leg both
          rw [drain_last more]
          exact both.2
      | true =>
          rw [drain_succ more]
          refine Act.Triple.bind (Act.Triple.conseq (pull_leaves start new)
            (fun _ both => both.1) (fun _ _ => id) fun _ _ => id) fun turn => ?_
          cases turn with
          | inr returned => exact Act.Triple.pure fun _ ends => ends.1
          | inl packet =>
              rintro leg ⟨sound, goesOn⟩
              obtain ⟨further, absorbs⟩ := goesOn packet rfl
              exact ih packet further leg ⟨absorbs, sound⟩

/-! ## Handling a reply -/

theorem deliver_sound (start : Leg) (tlsRecord : Bytes) :
    Act.Triple (LastSound start) (deliverRecord tlsRecord) (fun _ => LastSound start)
      (fun _ => Leaves start) :=
  Act.Triple.conseq
    (((deliver_unqueued tlsRecord).weaken Leg.exchanges fun _ => rfl).invariant
      fun _ _ => LastSound.of_exchanges)
    (fun _ => id) (fun _ _ => id) fun _ _ => .inr

theorem Replied.returned {start leg : Leg} {new : List Exchange} {exchange : Exchange}
    {answer : RadiusReply} (replied : Replied start new exchange answer.normalise leg)
    (outcome : exchange.outcome = .ok answer) (nothing : heard new = []) :
    Returned start new exchange answer leg := by
  refine ⟨replied.exchanges, ?_, replied.heeded, outcome⟩
  rw [replied.fed, nothing]
  exact (List.append_nil _).symm

/-- **Handling the last reply.** -/
theorem handleUpstreamReply_leaves (start : Leg) (reply : Option Reply) :
    Act.Triple (LastReply start reply) (handleUpstreamReply client fuel context reply)
      (fun _ _ => True) (fun _ => Leaves start) := by
  cases reply with
  | none => exact Act.Triple.pure fun _ _ => trivial
  | some reply =>
      refine Act.Triple.of_states fun leg ⟨new, exchange, unheeded, replied⟩ => ?_
      obtain ⟨answer, outcome, rfl⟩ := replied.outcome
      have returned := replied.returned outcome (heard_of_unheeded unheeded)
      rw [handleUpstreamReply]
      refine Act.Triple.ite (fun _ => fun _ _ => trivial) fun accept => ?_
      refine Act.Triple.ite (fun _ => fun _ _ => trivial) fun reject => ?_
      have verdict := Reply.verdict_of_neither accept reject
      rcases carries : answer.normalise.eapMessages with _ | ⟨eap, rest⟩
      · exact Act.Triple.pure fun _ _ => trivial
      obtain ⟨same, brings⟩ := packet_of_parse outcome verdict carries
      dsimp only
      rcases parsed : parse eap with e | packet
      · rw [parsed] at brings
        rintro _ rfl
        exact .inl ⟨_, returned.silent brings⟩
      rw [parsed] at brings
      rw [Act.bind_lift_ok]
      have sound : LastSound start leg := by
        refine returned.sound fun other rest' _ more => ?_
        rw [carries] at more
        cases more
        exact ⟨packet, parsed⟩
      have delivers : ∀ tlsRecord, Act.Triple (LastSound start) (deliverRecord tlsRecord)
          (fun _ _ => True) (fun _ => Leaves start) := fun tlsRecord =>
        Act.Triple.conseq (deliver_sound start tlsRecord) (fun _ => id) (fun _ _ _ => trivial)
          fun _ _ => id
      refine Act.Triple.bind (Act.Triple.conseq (returned.ingest brings sound) (fun _ => id)
        (fun _ _ => id) fun _ _ => .inr) fun complete => ?_
      cases complete with
      | some tlsRecord => exact fun leg fed => delivers tlsRecord leg fed.1
      | none =>
          refine Act.Triple.bind (Act.Triple.conseq (drain_leaves start fuel packet _)
            (fun _ fed => ⟨fed.2 rfl, fed.1⟩) (fun _ _ => id) fun _ _ => id) fun complete => ?_
          cases complete with
          | some tlsRecord => exact delivers tlsRecord
          | none => exact Act.Triple.read_bind fun _ _ => fun _ _ => trivial

/-- **Forwarding a record.** -/
theorem forward_leaves (tlsRecord : Bytes) (leg : Leg) :
    Act.Triple (fun l => l = leg) (forwardRecordUpstream client fuel context tlsRecord)
      (fun _ _ => True) (fun _ => Leaves leg) := by
  have nothing : ∀ l, HearsNothing leg l → Leaves leg l := by
    rintro l ⟨new, hears, none⟩
    refine .inl ⟨new, hears.exchanges, ?_⟩
    rw [hears.fed, none]
    exact (List.append_nil _).symm
  refine Act.Triple.read_bind fun _ at_leg => ?_
  rw [at_leg]
  rcases cut : fragment tlsRecord leg.session.upstreamFragmentSize with e | pieces
  · rintro _ rfl
    exact nothing _ (Unheard.refl _).nothing
  rw [Act.bind_lift_ok]
  cases pieces with
  | nil => exact absurd rfl (fragment_ne_nil cut)
  | cons chunk rest =>
      have sends := Act.Triple.conseq (@sendChunks_hears client context leg tlsRecord.length
        (chunk :: rest).length rest 0 chunk none (by rw [List.length_cons, Nat.zero_add]))
          (fun _ => id) (fun _ _ => id) fun _ => nothing
      exact Act.Triple.at_state (Act.Triple.bind sends fun reply =>
        handleUpstreamReply_leaves leg reply) (Unheard.refl leg)

/-- A fragment that completes a record forwards it. -/
theorem handle_completes {leg : Leg} {eapBytes : Bytes} {packet : EapTlsPacket} {record : Bytes}
    {closed : Reassembler} (reassembling : leg.session.mode = .reassemble)
    (parsed : parse eapBytes = .ok packet)
    (completes : Reassembler.ingest packet leg.session.upReasm = (.ok (some record), closed)) :
    handleSupplicantEap client fuel context eapBytes leg =
      forwardRecordUpstream client fuel context record
        { leg with session := completed (arrived leg.session packet) closed record } := by
  have ends := Reassembler.ingest_ends packet leg.session.upReasm
  rw [completes] at ends
  exact (handle_data_eq reassembling parsed ends.1).trans (handleData_complete completes)

/-- **A handling that breaks off has closed the supplicant's message, and keeps what it heard
of the server's.** -/
theorem handle_breaks {leg : Leg} {eapBytes : Bytes} {packet : EapTlsPacket} {record : Bytes}
    (reassembling : leg.session.mode = .reassemble) (parsed : parse eapBytes = .ok packet)
    (completes : (Reassembler.ingest packet leg.session.upReasm).1 = .ok (some record))
    {raised : Raised}
    (raises : (handleSupplicantEap client fuel context eapBytes leg).1 = .error raised)
    {made : List Exchange} {exchange : Exchange}
    (grown : (handleSupplicantEap client fuel context eapBytes leg).2.exchanges =
      leg.exchanges ++ (made ++ [exchange])) (fails : ∃ raised, exchange.Fails raised) :
    (handleSupplicantEap client fuel context eapBytes leg).2.session.upReasm.state = .complete ∧
      (handleSupplicantEap client fuel context eapBytes leg).2.session.downReasm.pending =
        leg.session.downReasm.pending ++ joined (heard (made ++ [exchange])) := by
  rcases fed : Reassembler.ingest packet leg.session.upReasm with ⟨result, closed⟩
  rw [fed] at completes
  obtain rfl : result = .ok (some record) := completes
  have ends := Reassembler.ingest_ends packet leg.session.upReasm
  rw [fed] at ends
  have forwards := @handle_completes client fuel context leg eapBytes packet record closed
    reassembling parsed fed
  rw [forwards] at raises grown ⊢
  constructor
  · rw [forward_upReasm]
    exact ends.2.1
  · have leaves := @forward_leaves client fuel context record
      ⟨completed (arrived leg.session packet) closed record, leg.exchanges, leg.clock⟩ _ rfl
    rcases handled : forwardRecordUpstream client fuel context record
      ⟨completed (arrived leg.session packet) closed record, leg.exchanges, leg.clock⟩
        with ⟨e | outcome, after⟩
    · rw [handled] at leaves grown
      rcases leaves with ⟨new, absorbs⟩ | ⟨new, last, other, fine⟩
      · obtain rfl := List.append_cancel_left (grown.symm.trans absorbs.exchanges)
        exact absorbs.pending
      · have same := List.append_cancel_left (grown.symm.trans other)
        obtain ⟨_, here⟩ := List.append_inj' same rfl
        obtain rfl := List.singleton_inj.mp here
        obtain ⟨cause, fails⟩ := fails
        exact absurd fails (fine cause)
    · rw [handled] at raises
      cases raises

/-! ## A server that answers -/

/-- After the exchanges `before` the server, which is sent a cut of the record, answers its last
chunk with the packet `first` and the ACKs after it with the packets `rest`. -/
structure AnswersRecord (client : UpstreamClient) (before : List Exchange) (record : Bytes) (size : ℕ)
    (first : EapTlsPacket) (rest : List EapTlsPacket) : Prop where
  chunk : ∀ new packets request packet later,
    new.map (fun exchange => parse exchange.request.eap) = packets.map .ok →
      parse request.eap = .ok packet → CutOf record size (packets ++ packet :: later) →
        ∃ reply, client.respond (before ++ new) request = .ok reply
  last : ∀ new packets request packet,
    new.map (fun exchange => parse exchange.request.eap) = packets.map .ok →
      parse request.eap = .ok packet → CutOf record size (packets ++ [packet]) →
        ∃ reply, client.respond (before ++ new) request = .ok reply ∧
          reply.code = accessChallenge ∧ parse reply.eapMessage.flatten = .ok first
  supplies : ∀ new packets,
    new.map (fun exchange => parse exchange.request.eap) = packets.map .ok →
      CutOf record size packets → Supplies client (before ++ new) rest

/-- **The chunks are answered**, the last with the server's packet. -/
theorem sendChunks_answered {start : Leg} {record : Bytes} {size count : ℕ}
    {first : EapTlsPacket} {rest : List EapTlsPacket}
    (answers : AnswersRecord client start.exchanges record size first rest)
    (encodable : record.length < 2 ^ 32) :
    ∀ {pieces : List Bytes} {idx : ℕ} {chunk : Bytes} {reply : Option Reply} {leg : Leg}
      {sent : List EapTlsPacket}, (∀ piece ∈ chunk :: pieces, piece.length ≤ 65000) →
      SentSince start sent leg →
      AllSent client leg.exchanges (sendChunks client context record.length count idx
        (chunk :: pieces) reply leg).2.exchanges →
      (∀ identifiers : List UInt8, identifiers.length = pieces.length + 1 →
        CutOf record size
          (sent ++ wrapFrom codeResponse record.length count idx identifiers (chunk :: pieces))) →
      ∃ reply' mid,
        sendChunks client context record.length count idx (chunk :: pieces) reply leg =
          (.ok (some reply'), mid) ∧ Brings reply' first := by
  intro pieces
  induction pieces with
  | nil =>
      intro idx chunk reply leg sent short since sends cut
      have fits : (wrap codeResponse record.length count idx leg.session.upId chunk).Encodable :=
        encodable_wrap (fun _ => encodable) (short chunk (by simp))
      obtain ⟨new, grown, parsed⟩ := since
      obtain ⟨reply, answered, challenge, brings⟩ := answers.last new sent
        (leg.chunkReady.request client
          (layout (wrap codeResponse record.length count idx leg.session.upId chunk)) context)
        (wrap codeResponse record.length count idx leg.session.upId chunk) parsed
        (by rw [Leg.eap_request, parse_layout fits]) (cut [leg.session.upId] rfl)
      have outcome : leg.chunkReady.outcome client
          (layout (wrap codeResponse record.length count idx leg.session.upId chunk)) context =
            .ok reply := by
        rw [← grown] at answered
        exact (UpstreamClient.answer_of_wire (sends.cons (sendChunks_grows fits)).1 _).trans answered
      rw [sendChunks_cons fits, Act.bind_of_ok (exchange_ok outcome)]
      exact ⟨_, _, rfl, (normalise_challenge challenge).1, (normalise_challenge challenge).2, _,
        eapMessages_normalise brings, brings⟩
  | cons next pieces ih =>
      intro idx chunk reply leg sent short since sends cut
      have fits : (wrap codeResponse record.length count idx leg.session.upId chunk).Encodable :=
        encodable_wrap (fun _ => encodable) (short chunk (by simp))
      have carries : parse (leg.chunkReady.request client
          (layout (wrap codeResponse record.length count idx leg.session.upId chunk)) context).eap =
            .ok (wrap codeResponse record.length count idx leg.session.upId chunk) := by
        rw [Leg.eap_request, parse_layout fits]
      obtain ⟨new, grown, parsed⟩ := id since
      have whole := cut (leg.session.upId :: List.replicate (pieces.length + 1) 0) (by simp)
      rw [wrapFrom_cons] at whole
      obtain ⟨reply, answered⟩ := answers.chunk new sent _ _ _ parsed carries whole
      have outcome : leg.chunkReady.outcome client
          (layout (wrap codeResponse record.length count idx leg.session.upId chunk)) context =
            .ok reply := by
        rw [← grown] at answered
        exact (UpstreamClient.answer_of_wire (sends.cons (sendChunks_grows fits)).1 _).trans answered
      have later := (sends.cons (sendChunks_grows fits)).2
      rw [sendChunks_cons fits, Act.bind_of_ok (exchange_ok outcome)] at later ⊢
      refine @ih (idx + 1) next (some reply.normalise) _
        (sent ++ [wrap codeResponse record.length count idx leg.session.upId chunk])
        (fun piece member => short piece (by simp [member])) ?_ later ?_
      · refine since.append (SentSince.singleton (leg.chunkReady.sent_exchanges _ context) ?_)
        exact carries
      · intro identifiers enough
        have whole := cut (leg.session.upId :: identifiers) (by simp [enough])
        rwa [wrapFrom_cons, List.append_cons] at whole

theorem downSize_steps (size : ℕ) :
    ForwardSteps client (fun leg => leg.session.downstreamFragmentSize = size) where
  toPullSteps := pullSteps_of_supplicantSide fun _ _ side same =>
    (congrArg Session.downstreamFragmentSize side).trans same
  chunk := fun _ same => same
  send := fun eapPayload context => (exchange_supplicantSide eapPayload context).invariant
    fun _ _ side same => (congrArg Session.downstreamFragmentSize side).trans same
  deliver := fun tlsRecord =>
    ((deliver_unqueued tlsRecord).weaken (fun leg => leg.session.downstreamFragmentSize)
      fun _ => rfl).invariant fun _ _ => Eq.trans

/-- **Forwarding a record to a server that answers it** sends a cut of it, and brings the first
packet of the answer. -/
theorem forward_asks {leg : Leg} {record : Bytes} {first : EapTlsPacket} {rest : List EapTlsPacket}
    (size : 1 ≤ leg.session.upstreamFragmentSize ∧ leg.session.upstreamFragmentSize ≤ 65000)
    (encodable : record.length < 2 ^ 32)
    (answers : AnswersRecord client leg.exchanges record leg.session.upstreamFragmentSize first rest)
    (sends : AllSent client leg.exchanges
      (forwardRecordUpstream client fuel context record leg).2.exchanges) :
    ∃ packets reply mid, CutOf record leg.session.upstreamFragmentSize packets ∧
      SentSince leg packets mid ∧ Brings reply first ∧ Supplies client mid.exchanges rest ∧
      AllSent client mid.exchanges
        (handleUpstreamReply client fuel context (some reply) mid).2.exchanges ∧
      mid.session.downReasm = leg.session.downReasm ∧
      mid.session.downstreamFragmentSize = leg.session.downstreamFragmentSize ∧
      forwardRecordUpstream client fuel context record leg =
        handleUpstreamReply client fuel context (some reply) mid := by
  have cut := @fragment_eq record leg.session.upstreamFragmentSize size.1
  generalize (if record = [] then [[]] else _) = pieces at cut
  have short : ∀ chunk ∈ pieces, chunk.length ≤ 65000 :=
    fun chunk member => (length_le_of_fragment cut chunk member).trans size.2
  have whole : ∀ identifiers : List UInt8, identifiers.length = pieces.length →
      CutOf record leg.session.upstreamFragmentSize
        (wrapAll codeResponse record.length identifiers pieces) :=
    fun _ enough => cutOf_wrapAll cut enough
  cases pieces with
  | nil => exact absurd rfl (fragment_ne_nil cut)
  | cons chunk pieces =>
      have keeps : ∀ before reply, Act.Invariant (fun leg => before <+: leg.exchanges)
          (handleUpstreamReply client fuel context reply) := by
        intro before reply
        have steps := (since_steps client before).toForwardSteps
        exact steps.toPullSteps.handleUpstreamReply steps.deliver context reply
      rw [forward_eq cut] at sends ⊢
      obtain ⟨reply, mid, loop, brings⟩ := @sendChunks_answered client context leg record
        leg.session.upstreamFragmentSize (chunk :: pieces).length first rest answers encodable pieces
        0 chunk none leg [] short (SentSince.nil rfl) (sends.of_bind keeps) whole
      obtain ⟨identifiers, sent, asked, enough, _, grown, parsed, all⟩ := @sendChunks_sends client
        context record.length (chunk :: pieces).length encodable (chunk :: pieces) 0 none leg
        (Nat.zero_add _) short
      obtain rfl := all (.inr ⟨_, congrArg Prod.fst loop⟩)
      rw [loop] at grown
      rw [Act.bind_of_ok loop] at sends ⊢
      have later := (sends.split (grown ▸ (keeps mid.exchanges (some reply)).ended List.prefix_rfl)).2
      rw [← grown] at later
      have hears := (@sendChunks_hears client context leg record.length (chunk :: pieces).length
        pieces 0 chunk none (by rw [List.length_cons, Nat.zero_add])).returned (Unheard.refl leg) loop
      obtain ⟨new, exchange, unheeded, replied⟩ := hears
      have kept : (sendChunks client context record.length (chunk :: pieces).length 0
          (chunk :: pieces) none leg).2.session.downstreamFragmentSize =
            leg.session.downstreamFragmentSize :=
        ((downSize_steps _).sendChunks context _ _ _ _ _).ended rfl
      rw [loop] at kept
      have supplies := answers.supplies asked _ parsed (whole identifiers enough)
      rw [← grown] at supplies
      refine ⟨_, reply, mid, whole identifiers enough, ⟨asked, grown, parsed⟩, brings, supplies,
        later, ?_, kept, rfl⟩
      rw [replied.fed, heard_of_unheeded unheeded]
      rfl

/-! ## A record that does not fit -/

/-- A fragment that does not fit behind what is pending raises. -/
theorem ingestDown_exceeds {leg : Leg} {packet : EapTlsPacket} (data : packet.isAck = false)
    (large : leg.session.downReasm.maxMessageLen <
      (leg.session.downReasm.pending ++ packet.tlsData).length) :
    ∃ e after, ingestDown packet leg = (.error e, after) := by
  rw [ingestDown_eq]
  by_cases refused : leg.session.downReasm.Refuses packet
  · obtain ⟨rest, n, declares, above⟩ := refused
    rw [Reassembler.ingest_refused data rest declares above]
    exact ⟨_, _, rfl⟩
  · have exceeds : (leg.session.downReasm.extend packet).buffer.length >
        leg.session.downReasm.maxMessageLen := large
    rw [Reassembler.ingest_data data refused, if_pos exceeds]
    exact ⟨_, _, rfl⟩

/-- A fragment that announces more is refused, or does not fit, or is pending. -/
theorem ingestDown_more {leg : Leg} {packet : EapTlsPacket} (more : packet.moreFragments = true) :
    (∃ e after, ingestDown packet leg = (.error e, after)) ∨
      ingestDown packet leg = (.ok none, { leg with session :=
        { leg.session with downReasm := leg.session.downReasm.extend packet } }) := by
  have data := Reassembler.isAck_of_more more
  by_cases refused : leg.session.downReasm.Refuses packet
  · obtain ⟨rest, n, declares, above⟩ := refused
    rw [ingestDown_eq, Reassembler.ingest_refused data rest declares above]
    exact .inl ⟨_, _, rfl⟩
  by_cases room : (leg.session.downReasm.pending ++ packet.tlsData).length ≤
      leg.session.downReasm.maxMessageLen
  · rw [ingestDown_eq, Reassembler.ingest_more more refused room]
    exact .inr rfl
  · exact .inl (ingestDown_exceeds data (Nat.lt_of_not_le room))

/-- The drain raises when the record does not fit. -/
theorem drain_exceeds {last : EapTlsPacket} (data : last.isAck = false) :
    ∀ {init : List EapTlsPacket} {fuel : ℕ} {leg : Leg} {lastPkt : EapTlsPacket},
      lastPkt.moreFragments = true → Supplies client leg.exchanges (init ++ [last]) →
      AllSent client leg.exchanges
        (drainUpstreamFragments client context fuel lastPkt leg).2.exchanges →
      (∀ packet ∈ init, packet.moreFragments = true) →
      leg.session.downReasm.maxMessageLen <
        (leg.session.downReasm.pending ++ joined (init ++ [last])).length →
      ∃ e after, drainUpstreamFragments client context fuel lastPkt leg = (.error e, after) := by
  intro init
  induction init with
  | nil =>
      intro fuel leg lastPkt more supplies sends _ large
      cases fuel with
      | zero =>
          rw [drainUpstreamFragments, if_pos more]
          exact ⟨_, _, rfl⟩
      | succ fuel =>
          obtain ⟨pulled, _, _, same, _, step⟩ :=
            drain_supplied_step fuel context more supplies sends
          have exceeds : pulled.session.downReasm.maxMessageLen <
              (pulled.session.downReasm.pending ++ last.tlsData).length := by
            rw [same]
            simpa using large
          obtain ⟨e, after, raises⟩ := ingestDown_exceeds data exceeds
          exact ⟨e, after, step.trans (Act.bind_of_error raises)⟩
  | cons packet init ih =>
      intro fuel leg lastPkt more supplies sends continues large
      cases fuel with
      | zero =>
          rw [drainUpstreamFragments, if_pos more]
          exact ⟨_, _, rfl⟩
      | succ fuel =>
          obtain ⟨pulled, _, rest, same, later, step⟩ :=
            drain_supplied_step fuel context more supplies sends
          have announces := continues packet List.mem_cons_self
          rw [step] at later ⊢
          rcases @ingestDown_more pulled packet announces with ⟨e, after, raises⟩ | absorbs
          · exact ⟨e, after, Act.bind_of_error raises⟩
          · rw [Act.bind_of_ok absorbs] at later ⊢
            refine ih announces rest later
              (fun p member => continues p (List.mem_cons_of_mem _ member)) ?_
            rw [List.cons_append, joined_cons, ← List.append_assoc] at large
            show pulled.session.downReasm.maxMessageLen < _
            rw [Reassembler.pending_extend, same]
            exact large

/-- **A record of the server that does not fit behind what is pending is not delivered.** -/
theorem handleUpstreamReply_exceeds {record : Bytes} {init : List EapTlsPacket}
    {last first : EapTlsPacket} {rest : List EapTlsPacket} (division : Division record init last)
    (order : init ++ [last] = first :: rest) {leg : Leg}
    (large : leg.session.downReasm.maxMessageLen <
      (leg.session.downReasm.pending ++ record).length) {reply : Reply}
    (brings : Brings reply first) (supplies : Supplies client leg.exchanges rest)
    (sends : AllSent client leg.exchanges
      (handleUpstreamReply client fuel context (some reply) leg).2.exchanges) :
    ∃ e after, handleUpstreamReply client fuel context (some reply) leg = (.error e, after) := by
  obtain ⟨accept, reject, eap, carries, parsed⟩ := brings
  rw [handleUpstreamReply_challenge accept reject carries parsed] at sends ⊢
  cases init with
  | nil =>
      obtain ⟨rfl, rfl⟩ := List.cons.inj order
      have whole : last.tlsData = record := by simpa using division.whole
      obtain ⟨e, after, raises⟩ := ingestDown_exceeds division.data (whole ▸ large)
      exact ⟨e, after, Act.bind_of_error raises⟩
  | cons packet init =>
      obtain ⟨rfl, rfl⟩ := List.cons.inj order
      have whole : packet.tlsData ++ joined (init ++ [last]) = record := division.whole
      have announces := division.more packet List.mem_cons_self
      rcases @ingestDown_more leg packet announces with ⟨e, after, raises⟩ | absorbs
      · exact ⟨e, after, Act.bind_of_error raises⟩
      · rw [Act.bind_of_ok absorbs] at sends ⊢
        have drains := sends.of_bind fun before drained => by
          cases drained with
          | none => exact Act.Invariant.read_bind fun _ => Act.Invariant.pure _
          | some tlsRecord => exact keeps_since (keeps_deliver tlsRecord) before
        have exceeds : leg.session.downReasm.maxMessageLen <
            ((leg.session.downReasm.extend packet).pending ++ joined (init ++ [last])).length := by
          rw [Reassembler.pending_extend, List.append_assoc, whole]
          exact large
        obtain ⟨e, after, raises⟩ := @drain_exceeds client context last division.data init fuel
          { leg with session :=
            { leg.session with downReasm := leg.session.downReasm.extend packet } } packet announces
          supplies drains (fun p member => division.more p (List.mem_cons_of_mem _ member)) exceeds
        exact ⟨e, after, Act.bind_of_error raises⟩

/-! ## The record that is delivered -/

/-- The pieces of a record after the first are queued. -/
structure HoldsRest (session : Session) (record : Bytes) (pieces : List Bytes) : Prop where
  outbox : session.downOutbox = Session.queued 1 pieces
  total : session.downTotal = record.length
  count : session.downNchunks = pieces.length + 1

/-- The supplicant, which gets the packet `first` and ACKs every Request, gets the record. -/
structure DeliversRecord (client : UpstreamClient) (fuel size : ℕ) (record : Bytes)
    (first : EapTlsPacket) (leg : Leg) : Prop where
  decoded : parse (layout first) = .ok first
  requests : ∀ (arrivals : List Incoming) (acks : List EapTlsPacket), Carry arrivals acks →
    (∀ ack ∈ acks, ack.isAck = true) →
      acks.length + 1 = max 1 ((record.length + size - 1) / size) →
        ∃ later, (Act.collect (handle client fuel) arrivals leg).1 =
            later.map (fun request => .ok (challengeOutcome request)) ∧
          (∀ request ∈ later, parse (layout request) = .ok request) ∧
          (∀ request ∈ first :: later, request.code = codeRequest) ∧
          CutOf record size (first :: later)

/-- **Where the rest of a record is queued, the record is delivered.** -/
theorem delivers_of_holdsRest {leg : Leg} {record chunk : Bytes} {pieces : List Bytes} {size : ℕ}
    {identifier : UInt8} (cut : fragment record size = .ok (chunk :: pieces)) (small : size ≤ 65000)
    (encodable : record.length < 2 ^ 32) (reassembling : leg.session.mode = .reassemble)
    (holds : HoldsRest leg.session record pieces) :
    DeliversRecord client fuel size record
      (wrap codeRequest record.length (pieces.length + 1) 0 identifier chunk) leg := by
  have short : ∀ piece ∈ chunk :: pieces, piece.length ≤ 65000 :=
    fun piece member => (length_le_of_fragment cut piece member).trans small
  refine ⟨parse_layout (encodable_wrap (fun _ => encodable) (short chunk (by simp))), ?_⟩
  intro arrivals acks carry isAck each
  have number := length_fragment cut
  rw [← number, List.length_cons, Nat.add_right_cancel_iff] at each
  obtain ⟨_, _, _, released⟩ := @collect_release client fuel pieces acks arrivals 1 leg carry isAck
    each reassembling holds.outbox (fun piece member => short piece (by simp [member]))
    (by rw [holds.total]; exact encodable)
  have order : wrapAll codeRequest record.length (identifier :: acks.map (·.identifier + 1))
      (chunk :: pieces) = wrap codeRequest record.length (pieces.length + 1) 0 identifier chunk ::
        wrapFrom codeRequest record.length (pieces.length + 1) 1 (acks.map (·.identifier + 1)) pieces :=
    wrapFrom_cons _ _ _ _ _ _ _ _
  rw [holds.total, holds.count] at released
  refine ⟨_, congrArg Prod.fst released, fun request member => ?_, ?_, ?_⟩
  · have inside := List.mem_cons_of_mem
      (wrap codeRequest record.length (pieces.length + 1) 0 identifier chunk) member
    rw [← order] at inside
    exact parse_wrapAll encodable short request inside
  · rw [← order]
    exact code_wrapAll
  · rw [← order]
    exact cutOf_wrapAll cut (by simp [each])

/-- The first Request tells the length of the record that is delivered. -/
theorem DeliversRecord.length {size : ℕ} {record : Bytes} {first : EapTlsPacket} {leg : Leg}
    (delivers : DeliversRecord client fuel size record first leg) :
    first.tlsMessageLength = some record.length := by
  obtain ⟨later, _, _, _, cut⟩ := delivers.requests
    (List.replicate (max 1 ((record.length + size - 1) / size) - 1)
      (sampleContext, layout (ackPacket codeResponse 0)))
    (List.replicate (max 1 ((record.length + size - 1) / size) - 1) (ackPacket codeResponse 0))
    (by rw [Carry, List.map_replicate, List.map_replicate, parse_ack])
    (fun ack member => by rw [List.eq_of_mem_replicate member]; exact ackPacket_isAck _ _)
    (by rw [List.length_replicate]; omega)
  exact cut.length 0 first rfl

/-! ## Forwarding a record once more -/

/-- A record that is forwarded, and one that is delivered for it. -/
structure Trades (client : UpstreamClient) (context : AuthContext) (fuel : ℕ) (record answer : Bytes)
    (leg : Leg) : Prop where
  sent : ∃ packets pulls, CutOf record leg.session.upstreamFragmentSize packets ∧
    (∀ packet ∈ pulls, packet.isAck = true) ∧ SentSince leg (packets ++ pulls)
      (forwardRecordUpstream client fuel context record leg).2
  delivered : ∃ identifier chunk pieces,
    fragment answer leg.session.downstreamFragmentSize = .ok (chunk :: pieces) ∧
    (forwardRecordUpstream client fuel context record leg).1 =
      .ok (challengeOutcome (wrap codeRequest answer.length (pieces.length + 1) 0 identifier chunk)) ∧
    HoldsRest (forwardRecordUpstream client fuel context record leg).2.session answer pieces

/-- **The server's next record is delivered behind what is pending**, if both fit together. -/
theorem forward_trades {leg : Leg} {record answer : Bytes}
    (upSize : 1 ≤ leg.session.upstreamFragmentSize ∧ leg.session.upstreamFragmentSize ≤ 65000)
    (downSize : 1 ≤ leg.session.downstreamFragmentSize ∧ leg.session.downstreamFragmentSize ≤ 65000)
    (encodable : record.length < 2 ^ 32) {init : List EapTlsPacket} {last first : EapTlsPacket}
    {rest : List EapTlsPacket} (division : Division answer init last)
    (order : init ++ [last] = first :: rest)
    (answers : AnswersRecord client leg.exchanges record leg.session.upstreamFragmentSize first rest)
    (sends : AllSent client leg.exchanges
      (forwardRecordUpstream client fuel context record leg).2.exchanges)
    (enough : init.length ≤ fuel) :
    ((leg.session.downReasm.pending ++ answer).length ≤ leg.session.downReasm.maxMessageLen ∧
        (leg.session.downReasm.pending ++ answer).length < 2 ^ 32 ∧
        Trades client context fuel record (leg.session.downReasm.pending ++ answer) leg) ∨
      (¬ ((leg.session.downReasm.pending ++ answer).length ≤ leg.session.downReasm.maxMessageLen ∧
          (leg.session.downReasm.pending ++ answer).length < 2 ^ 32) ∧
        ∃ e after, forwardRecordUpstream client fuel context record leg = (.error e, after)) := by
  obtain ⟨packets, reply, mid, cut, asked, brings, supplies, later, same, size, forwards⟩ :=
    @forward_asks client fuel context leg record first rest upSize encodable answers sends
  rw [← same]
  by_cases room : (mid.session.downReasm.pending ++ answer).length ≤
      mid.session.downReasm.maxMessageLen
  · obtain ⟨identifiers, whole, _, pulled, side, handled⟩ := @handleUpstreamReply_supplied client
      fuel context answer init last first rest division order mid room reply brings supplies later
      enough
    have wholeSize : whole.session.downstreamFragmentSize = leg.session.downstreamFragmentSize :=
      (congrArg Session.downstreamFragmentSize side).trans size
    generalize mid.session.downReasm.pending ++ answer = next at room handled ⊢
    by_cases short : next.length < 2 ^ 32
    · refine .inl ⟨room, short, ?_⟩
      have again := @fragment_eq next leg.session.downstreamFragmentSize downSize.1
      generalize (if next = [] then [[]] else _) = pieces at again
      cases pieces with
      | nil => exact absurd rfl (fragment_ne_nil again)
      | cons chunk later =>
          have delivers := @deliver_eq whole next chunk later (wholeSize ▸ again)
            ((length_le_of_fragment again chunk (by simp)).trans downSize.2) short
          have all := forwards.trans (handled.trans delivers)
          constructor
          · refine ⟨packets, identifiers.map (ackPacket codeResponse), cut, ?_, ?_⟩
            · intro packet member
              obtain ⟨identifier, _, rfl⟩ := List.mem_map.mp member
              exact ackPacket_isAck _ _
            · rw [all]
              exact (asked.append pulled).of_exchanges rfl
          · refine ⟨_, chunk, later, again, congrArg Prod.fst all, ?_⟩
            rw [all]
            exact ⟨delivered_downOutbox _ _ _ _, rfl, rfl⟩
    · refine .inr ⟨fun fits => short fits.2, ?_⟩
      have raises := @deliver_overflow next (Nat.le_of_not_lt short) whole (wholeSize ▸ downSize.1)
      exact ⟨_, _, forwards.trans (handled.trans (Prod.ext raises rfl))⟩
  · obtain ⟨e, after, raises⟩ := @handleUpstreamReply_exceeds client fuel context answer init last
      first rest division order mid (Nat.lt_of_not_le room) reply brings supplies later
    exact .inr ⟨fun fits => room fits.1, e, after, forwards.trans raises⟩

/-- The session when a last fragment has come as a record of its own. -/
def byItself (session : Session) (packet : EapTlsPacket) : Session :=
  completed (arrived session packet) (session.upReasm.close packet) packet.tlsData

@[simp] theorem byItself_downReasm (session : Session) (packet : EapTlsPacket) :
    (byItself session packet).downReasm = session.downReasm := rfl

theorem byItself_configured {cfg : Config} {session : Session} (configured : session.Configured cfg)
    (packet : EapTlsPacket) : (byItself session packet).Configured cfg :=
  ⟨configured.mode, configured.upstreamFragmentSize, configured.downstreamFragmentSize,
    configured.upLimit, configured.downLimit⟩

/-- **A last fragment that comes once more** is refused, or is forwarded as a record. -/
theorem handle_again {leg : Leg} {eapBytes : Bytes} {packet : EapTlsPacket}
    (reassembling : leg.session.mode = .reassemble) (parsed : parse eapBytes = .ok packet)
    (data : packet.isAck = false) (last : packet.moreFragments = false)
    (closed : leg.session.upReasm.state = .complete)
    (short : packet.tlsData.length ≤ leg.session.upReasm.maxMessageLen) :
    ((∃ n ∈ Reassembler.declared packet, leg.session.upReasm.maxMessageLen < n) ∧
        ∃ e, (handleSupplicantEap client fuel context eapBytes leg).1 = .error e ∧
          (handleSupplicantEap client fuel context eapBytes leg).2.exchanges = leg.exchanges) ∨
      ((∀ n ∈ Reassembler.declared packet, n ≤ leg.session.upReasm.maxMessageLen) ∧
        handleSupplicantEap client fuel context eapBytes leg =
          forwardRecordUpstream client fuel context packet.tlsData
            { leg with session := byItself leg.session packet }) := by
  have rest : leg.session.upReasm.state ≠ .inProgress := by rw [closed]; decide
  have fresh := Reassembler.pending_of_not_inProgress rest
  by_cases large : ∃ n ∈ Reassembler.declared packet, leg.session.upReasm.maxMessageLen < n
  · obtain ⟨n, declares, above⟩ := id large
    refine .inl ⟨large, ?_⟩
    have raises := @handleData_raises client fuel
      ⟨arrived leg.session packet, leg.exchanges, leg.clock⟩ context packet _ _
      (Reassembler.ingest_refused data rest declares above)
    rw [(handle_data_eq reassembling parsed data).trans raises]
    exact ⟨_, rfl, rfl⟩
  · have small : ∀ n ∈ Reassembler.declared packet, n ≤ leg.session.upReasm.maxMessageLen :=
      fun n declares => Nat.le_of_not_lt fun above => large ⟨n, declares, above⟩
    have completes := @Reassembler.ingest_last leg.session.upReasm packet data last
      (not_refuses small) (by rw [fresh]; exact short)
    rw [fresh, List.nil_append] at completes
    exact .inr ⟨small, handle_completes reassembling parsed completes⟩

end Mediator
end EapAccel
