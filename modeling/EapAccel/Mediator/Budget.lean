import EapAccel.Foundations.Budget
import EapAccel.Mediator.Drain
import EapAccel.Mediator.Frames

/-!
# What the budget of the drain is spent on

The loop of `_drain_upstream_fragments` is the one loop of the proxy that need not end, and its
turns are what the budget of the model counts. With a larger budget the handling of a packet is the
same (`handleSupplicantEap_prolongs`). Where the budget is spent, the server has sent a fragment for
every turn: those with data fill the message up to its limit, and all others were empty
(`handleSupplicantEap_overruns`).
-/

set_option autoImplicit false

namespace EapAccel

open Foundations EapTls

namespace Mediator

variable {client : UpstreamClient} {context : AuthContext} {n m : ℕ}

/-! ## Larger budgets -/

theorem drain_prolongs : ∀ {n m : ℕ}, n ≤ m → ∀ packet, Act.Prolongs Raised.outOfFuel
    (drainUpstreamFragments client context n packet)
    (drainUpstreamFragments client context m packet) := by
  have last : ∀ n m packet, packet.moreFragments = false → Act.Prolongs Raised.outOfFuel
      (drainUpstreamFragments client context n packet)
      (drainUpstreamFragments client context m packet) := by
    intro n m packet last leg _
    rw [drain_last last, drain_last last]
  intro n
  induction n with
  | zero =>
      intro m _ packet
      cases more : packet.moreFragments with
      | false => exact last 0 m packet more
      | true =>
          apply Act.Prolongs.of_spent
          intro leg
          rw [drainUpstreamFragments, if_pos more]
          rfl
  | succ n ih =>
      intro m larger packet
      obtain ⟨m, rfl⟩ := Nat.exists_eq_succ_of_ne_zero (Nat.ne_zero_of_lt larger)
      cases more : packet.moreFragments with
      | false => exact last (n + 1) (m + 1) packet more
      | true =>
          rw [drain_succ more, drain_succ more]
          apply Act.Prolongs.continue_
          intro turn
          cases turn with
          | inl packet => exact ih (Nat.le_of_succ_le_succ larger) packet
          | inr returned => exact .refl _

theorem handleUpstreamReply_prolongs (larger : n ≤ m) (reply : Option Reply) :
    Act.Prolongs Raised.outOfFuel (handleUpstreamReply client n context reply)
      (handleUpstreamReply client m context reply) := by
  cases reply with
  | none => exact .refl _
  | some reply =>
      simp only [handleUpstreamReply]
      apply Act.Prolongs.ite (.refl _)
      apply Act.Prolongs.ite (.refl _)
      cases reply.eapMessages with
      | nil => exact .refl _
      | cons eap _ =>
          apply Act.Prolongs.continue_
          intro serverPkt
          apply Act.Prolongs.continue_
          intro complete
          cases complete with
          | some tlsRecord => exact .refl _
          | none =>
              apply Act.Prolongs.bind (drain_prolongs larger serverPkt)
              exact fun _ => .refl _

theorem forward_prolongs (larger : n ≤ m) (tlsRecord : Bytes) :
    Act.Prolongs Raised.outOfFuel (forwardRecordUpstream client n context tlsRecord)
      (forwardRecordUpstream client m context tlsRecord) := by
  apply Act.Prolongs.continue_
  intro leg
  apply Act.Prolongs.continue_
  intro pieces
  apply Act.Prolongs.continue_
  exact handleUpstreamReply_prolongs larger

theorem handleAck_prolongs (larger : n ≤ m) (packet : EapTlsPacket) :
    Act.Prolongs Raised.outOfFuel (handleAck client n context packet)
      (handleAck client m context packet) := by
  apply Act.Prolongs.continue_
  intro leg
  apply Act.Prolongs.ite (.refl _)
  apply Act.Prolongs.ite (.refl _)
  apply Act.Prolongs.ite (.refl _)
  apply Act.Prolongs.continue_
  intro upId
  apply Act.Prolongs.continue_
  intro ack
  apply Act.Prolongs.continue_
  exact fun reply => handleUpstreamReply_prolongs larger (some reply)

theorem handleData_prolongs (larger : n ≤ m) (packet : EapTlsPacket) :
    Act.Prolongs Raised.outOfFuel (handleData client n context packet)
      (handleData client m context packet) := by
  apply Act.Prolongs.continue_
  intro complete
  cases complete with
  | none => exact .refl _
  | some tlsRecord =>
      apply Act.Prolongs.continue_
      exact fun _ => forward_prolongs larger tlsRecord

/-- **A larger budget changes nothing** but the handling that spent its own. -/
theorem handleSupplicantEap_prolongs (larger : n ≤ m) (eapBytes : Bytes) :
    Act.Prolongs Raised.outOfFuel (handleSupplicantEap client n context eapBytes)
      (handleSupplicantEap client m context eapBytes) := by
  apply Act.Prolongs.continue_
  intro packet
  apply Act.Prolongs.continue_
  intro _
  apply Act.Prolongs.continue_
  intro leg
  apply Act.Prolongs.ite (.refl _)
  apply Act.Prolongs.continue_
  intro _
  exact Act.Prolongs.ite (handleAck_prolongs larger packet) (handleData_prolongs larger packet)

/-! ## Steps that spend no budget -/

theorem parse_fine (packet : Bytes) : parse packet ≠ .error .outOfFuel := by
  intro raised
  unfold parse at raised
  split at raised
  · simp only at raised
    split at raised
    · cases raised
    · split at raised
      · cases raised
      · split at raised
        · cases raised
        · split at raised <;> cases raised
  · cases raised

theorem intToBytes_fine (width n : ℕ) : intToBytes width n ≠ .error .outOfFuel := by
  intro raised
  unfold intToBytes at raised
  split at raised <;> cases raised

theorem build_fine (code identifier : UInt8) (tlsData : Bytes) (moreFragments : Bool)
    (tlsMessageLength : Option ℕ) (start : Bool) :
    build code identifier tlsData moreFragments tlsMessageLength start ≠ .error .outOfFuel := by
  unfold build
  cases tlsMessageLength with
  | none =>
      apply Except.bind_fine (Except.ok_fine [])
      intro messageLength
      exact Except.bind_fine (intToBytes_fine 2 _) fun length => Except.ok_fine _
  | some n =>
      apply Except.bind_fine (intToBytes_fine eapTlsMsglenLen n)
      intro messageLength
      exact Except.bind_fine (intToBytes_fine 2 _) fun length => Except.ok_fine _

theorem fragment_fine (tlsMessage : Bytes) (size : ℕ) :
    fragment tlsMessage size ≠ .error .outOfFuel := by
  intro raised
  unfold fragment at raised
  split at raised
  · cases raised
  · split at raised <;> cases raised

theorem ingest_fine (packet : EapTlsPacket) :
    Act.Fine Raised.outOfFuel (Reassembler.ingest packet) := by
  intro reassembler raised
  rcases ack : packet.isAck with _ | _
  · by_cases refused : reassembler.Refuses packet
    · obtain ⟨rest, n, declares, large⟩ := refused
      rw [Reassembler.ingest_refused ack rest declares large] at raised
      cases raised
    · rw [Reassembler.ingest_data ack refused] at raised
      split at raised
      · cases raised
      · split at raised <;> cases raised
  · rw [Reassembler.ingest_ack ack] at raised
    cases raised

theorem ingestUp_fine (packet : EapTlsPacket) : Act.Fine Raised.outOfFuel (ingestUp packet) := by
  intro leg
  rw [ingestUp_eq]
  exact ingest_fine packet leg.session.upReasm

theorem ingestDown_fine (packet : EapTlsPacket) : Act.Fine Raised.outOfFuel (ingestDown packet) := by
  intro leg
  rw [ingestDown_eq]
  exact ingest_fine packet leg.session.downReasm

theorem sendNext_fine (ackedId : Option UInt8) :
    Act.Fine Raised.outOfFuel (sendNextDownstreamFragment ackedId) := by
  apply Act.Fine.read_bind
  intro leg
  rcases leg.session.downOutbox with _ | ⟨⟨idx, chunk⟩, rest⟩
  · exact Act.Fine.pure _
  · apply Act.Fine.bind (Act.Fine.modify _)
    intro _
    apply Act.Fine.bind (Act.Fine.modify _)
    intro _
    apply Act.Fine.bind (Act.Fine.lift (build_fine _ _ _ _ _ _))
    intro eapFrag
    exact Act.Fine.bind (Act.Fine.modify _) fun _ => Act.Fine.pure _

theorem deliver_fine (tlsRecord : Bytes) : Act.Fine Raised.outOfFuel (deliverRecord tlsRecord) := by
  apply Act.Fine.bind (Act.Fine.modify _)
  intro _
  apply Act.Fine.read_bind
  intro leg
  apply Act.Fine.bind (Act.Fine.lift (fragment_fine _ _))
  intro pieces
  exact Act.Fine.bind (Act.Fine.modify _) fun _ => sendNext_fine none

theorem echo_fine : Act.Fine Raised.outOfFuel echoUpstreamId := by
  intro leg raised
  rw [echoUpstreamId_eq] at raised
  cases raised

/-- Asking the server comes to an end. -/
def Answering (client : UpstreamClient) : Prop :=
  ∀ before request, client.answer before request ≠ .error .outOfFuel

theorem exchange_fine (real : Answering client) (eapPayload : Bytes) :
    Act.Fine Raised.outOfFuel (exchange client eapPayload context) := by
  intro leg
  have answered := real leg.exchanges (leg.request client eapPayload context)
  rw [exchange_eq]
  rcases outcome : leg.outcome client eapPayload context with e | reply
  · intro raised
    cases raised
    exact answered outcome
  · intro raised
    cases raised

theorem pull_fine (real : Answering client) : Act.Fine Raised.outOfFuel (pull client context) := by
  apply Act.Fine.bind echo_fine
  intro ackId
  apply Act.Fine.bind (Act.Fine.lift (build_fine _ _ _ _ _ _))
  intro ack
  apply Act.Fine.bind (Act.Fine.modify _)
  intro _
  apply Act.Fine.bind (exchange_fine real ack)
  intro reply
  apply Act.Fine.ite (Act.Fine.bind (Act.Fine.modify _) fun _ => Act.Fine.pure _)
  apply Act.Fine.ite (Act.Fine.bind (Act.Fine.modify _) fun _ => Act.Fine.pure _)
  cases reply.eapMessages with
  | nil => exact Act.Fine.read_bind fun leg => Act.Fine.pure _
  | cons eap _ =>
      apply Act.Fine.bind (Act.Fine.lift (parse_fine eap))
      intro lastPkt
      apply Act.Fine.bind (ingestDown_fine lastPkt)
      intro done
      cases done with
      | some tlsRecord => exact Act.Fine.pure _
      | none => exact Act.Fine.pure _

/-! ## Turns -/

/-- The reply carries an empty fragment that announces more. -/
def CarriesEmpty (exchange : Exchange) : Prop :=
  ∃ packet, moreFragment exchange.outcome = some packet ∧ packet.tlsData = []

instance (exchange : Exchange) : Decidable (CarriesEmpty exchange) :=
  match carried : moreFragment exchange.outcome with
  | some packet =>
      decidable_of_iff (packet.tlsData = []) (by simp [CarriesEmpty, carried])
  | none => isFalse (by simp [CarriesEmpty, carried])

/-- How many replies carry an empty fragment that announces more. -/
def emptyReplies (exchanges : List Exchange) : ℕ :=
  exchanges.countP fun exchange => CarriesEmpty exchange

/-- The room for more data of the server's message. -/
def Leg.room (leg : Leg) : ℕ :=
  leg.session.downReasm.maxMessageLen - leg.session.downReasm.buffer.length

/-- A fragment that announces more and is taken leaves its message open, within the limit. -/
theorem open_of_taken {packet : EapTlsPacket} (more : packet.moreFragments = true)
    {reassembler : Reassembler} (taken : (Reassembler.ingest packet reassembler).1 = .ok none) :
    (Reassembler.ingest packet reassembler).2 = reassembler.extend packet ∧
      (reassembler.pending ++ packet.tlsData).length ≤ reassembler.maxMessageLen := by
  have data := Reassembler.isAck_of_more more
  by_cases refused : reassembler.Refuses packet
  · obtain ⟨rest, n, declares, large⟩ := refused
    rw [Reassembler.ingest_refused data rest declares large] at taken
    cases taken
  · rw [Reassembler.ingest_data data refused] at taken ⊢
    by_cases exceeds : (reassembler.extend packet).buffer.length > reassembler.maxMessageLen
    · rw [if_pos exceeds] at taken
      cases taken
    · rw [if_neg exceeds, if_pos more]
      exact ⟨rfl, Nat.not_lt.mp exceeds⟩

/-- **A turn that goes on** takes room, or an empty fragment. -/
theorem pull_goes_on {leg mid : Leg} {packet : EapTlsPacket}
    (inProgress : leg.session.downReasm.state = .inProgress)
    (more : packet.moreFragments = true) (turned : pull client context leg = (.ok (.inl packet), mid)) :
    mid.session.downReasm.state = .inProgress ∧ ∃ exchange,
      mid.exchanges = leg.exchanges ++ [exchange] ∧
        Leg.room mid + 1 ≤ Leg.room leg + emptyReplies [exchange] := by
  obtain ⟨grown, turns⟩ := @pull_cases client context leg
  obtain ⟨goes_on, reasm⟩ := turns packet more
  have here : (pull client context leg).1 = .ok (.inl packet) := by rw [turned]
  obtain ⟨carried, taken⟩ := goes_on.mp here
  obtain ⟨extended, room⟩ := open_of_taken more taken
  have after := (reasm here).trans extended
  rw [turned] at grown after
  simp only at grown after
  refine ⟨by rw [after]; rfl, _, grown, ?_⟩
  rw [buffer_of_inProgress inProgress, List.length_append] at room
  rw [Leg.room, Leg.room, after, Reassembler.extend_buffer, Reassembler.extend_maxMessageLen,
    buffer_of_inProgress inProgress, List.length_append, emptyReplies, List.countP_singleton]
  by_cases empty : packet.tlsData = []
  · have counts : CarriesEmpty (leg.pullReady.exchanged client (Leg.pullAck leg) context) :=
      ⟨packet, carried, empty⟩
    rw [if_pos (decide_eq_true counts), empty, List.length_nil]
    exact Nat.le_refl _
  · have positive := List.length_pos_iff.mpr empty
    omega

/-- **The drain spends its budget on data and on empty fragments.** -/
theorem drain_overruns (real : Answering client) : ∀ {fuel : ℕ} {packet : EapTlsPacket} {leg : Leg},
    (packet.moreFragments = true → leg.session.downReasm.state = .inProgress) →
      (drainUpstreamFragments client context fuel packet leg).1 = .error .outOfFuel →
        ∃ new, (drainUpstreamFragments client context fuel packet leg).2.exchanges =
          leg.exchanges ++ new ∧ fuel ≤ Leg.room leg + emptyReplies new := by
  intro fuel
  induction fuel with
  | zero =>
      intro packet leg _ raised
      refine ⟨[], ?_, Nat.zero_le _⟩
      rw [List.append_nil, drainUpstreamFragments]
      split <;> rfl
  | succ fuel ih =>
      intro packet leg opened raised
      cases more : packet.moreFragments with
      | false =>
          rw [drain_last more] at raised
          cases raised
      | true =>
          rw [drain_succ more] at raised ⊢
          rcases turned : pull client context leg with ⟨e | ⟨next | returned⟩, mid⟩
          · rw [Act.bind_of_error turned] at raised
            cases raised
            have fine := @pull_fine client context real leg
            rw [turned] at fine
            exact absurd rfl fine
          · rw [Act.bind_of_ok turned] at raised ⊢
            simp only at raised ⊢
            cases announced : next.moreFragments with
            | false =>
                rw [drain_last announced] at raised
                cases raised
            | true =>
                obtain ⟨inProgress, exchange, grown, spent⟩ :=
                  pull_goes_on (opened more) announced turned
                obtain ⟨new, ends, enough⟩ := ih (fun _ => inProgress) raised
                refine ⟨exchange :: new, ?_, ?_⟩
                · rw [ends, grown, List.append_assoc]
                  rfl
                · have both : emptyReplies (exchange :: new) =
                      emptyReplies [exchange] + emptyReplies new :=
                    @List.countP_append _ _ [exchange] new
                  omega
          · rw [Act.bind_of_ok turned] at raised
            cases raised

/-! ## Whole handlings -/

variable {base : List Exchange} {limit few : ℕ}

/-- Since these exchanges, with this limit for the server's messages. -/
def Since (base : List Exchange) (limit : ℕ) (leg : Leg) : Prop :=
  base <+: leg.exchanges ∧ leg.session.downReasm.maxMessageLen = limit

/-- If the budget was spent, more than `few` replies carried empty fragments. -/
def Overruns (base : List Exchange) (few : ℕ) (e : Raised) (leg : Leg) : Prop :=
  e = .outOfFuel → ∃ new, leg.exchanges = base ++ new ∧ few < emptyReplies new

theorem since_exchange (eapPayload : Bytes) :
    Act.Invariant (Since base limit) (exchange client eapPayload context) := by
  apply Act.Invariant.of_ended
  rintro leg ⟨before, same⟩
  constructor
  · rw [exchange_exchanges]
    exact before.trans (List.prefix_append _ _)
  · rw [exchange_eq]
    rcases leg.outcome client eapPayload context with e | reply
    · exact same
    · exact (congrArg Reassembler.maxMessageLen (learn_downReasm reply _)).trans same

theorem since_side (base : List Exchange) (limit : ℕ) : ∀ leg leg' : Leg,
    leg'.upstreamSide = leg.upstreamSide → Since base limit leg → Since base limit leg' := by
  rintro leg leg' same ⟨before, bound⟩
  have exchanges : leg'.exchanges = leg.exchanges := congrArg Prod.fst same
  have limits := congrArg (fun side => side.2.downReasm.maxMessageLen) same
  exact ⟨exchanges ▸ before, limits.trans bound⟩

theorem since_rule (client : UpstreamClient) (context : AuthContext) (base : List Exchange)
    (limit : ℕ) : MediateRule client context (fun _ => Since base limit) (fun _ => Since base limit)
      (Since base limit) (fun _ => Since base limit) (Since base limit) :=
  (exchangeRule_of_invariant (since_side base limit) since_exchange).mediateRule

theorem overruns_drain (real : Answering client) (packet : EapTlsPacket) :
    Act.Triple (fun leg => Since base limit leg ∧
        (packet.moreFragments = true → leg.session.downReasm.state = .inProgress))
      (drainUpstreamFragments client context (limit + few + 1) packet) (fun _ => Since base limit)
      (Overruns base few) := by
  rintro leg ⟨since, opened⟩
  have ended := ((since_rule client context base limit).drain (limit + few + 1) packet).ended since
  have spent := @drain_overruns client context real (limit + few + 1) packet leg opened
  rcases drained : drainUpstreamFragments client context (limit + few + 1) packet leg with
    ⟨e | complete, last⟩
  · rintro rfl
    rw [drained] at spent
    obtain ⟨new, grown, enough⟩ := spent rfl
    obtain ⟨before, same⟩ := since.1
    refine ⟨before ++ new, ?_, ?_⟩
    · rw [← List.append_assoc, same]
      exact grown
    · have room : Leg.room leg ≤ limit := (Nat.sub_le _ _).trans_eq since.2
      rw [emptyReplies, List.countP_append]
      rw [emptyReplies] at enough
      omega
  · rw [drained] at ended
    exact ended

/-- A fragment that is taken and announces more leaves its message open for the drain. -/
theorem since_ingest (packet : EapTlsPacket) :
    Act.Triple (Since base limit) (ingestDown packet)
      (fun complete leg => Since base limit leg ∧ (complete = none → packet.moreFragments = true →
        leg.session.downReasm.state = .inProgress)) (Overruns base few) := by
  intro leg since
  have bound := (Reassembler.ingest_maxMessageLen packet leg.session.downReasm).trans since.2
  have fine := ingest_fine packet leg.session.downReasm
  have opens : packet.moreFragments = true →
      (Reassembler.ingest packet leg.session.downReasm).1 = .ok none →
        (Reassembler.ingest packet leg.session.downReasm).2.state = .inProgress := by
    intro more taken
    rw [(open_of_taken more taken).1]
    rfl
  rw [ingestDown_eq]
  rcases fed : Reassembler.ingest packet leg.session.downReasm with ⟨e | complete, after⟩
  · rw [fed] at fine
    rintro rfl
    exact absurd rfl fine
  · rw [fed] at bound opens
    refine ⟨⟨since.1, bound⟩, ?_⟩
    rintro rfl more
    exact opens more rfl

theorem overruns_update {f : Session → Session}
    (same : ∀ s, (f s).downReasm.maxMessageLen = s.downReasm.maxMessageLen) :
    Act.Triple (Since base limit) (updateSession f) (fun _ => Since base limit)
      (Overruns base few) := fun leg since => ⟨since.1, (same leg.session).trans since.2⟩

/-- A computation that reads an outcome off the session. -/
theorem overruns_read (f : Leg → Outcome) : Act.Triple (Since base limit)
    (Act.read >>= fun leg : Leg => pure (f leg) : Act Raised Leg Outcome)
    (fun _ => Since base limit) (Overruns base few) :=
  Act.Triple.read_bind fun _ since => Act.Triple.pure fun _ same => same ▸ since

theorem overruns_reply (real : Answering client) (reply : Option Reply) :
    Act.Triple (Since base limit) (handleUpstreamReply client (limit + few + 1) context reply)
      (fun _ => Since base limit) (Overruns base few) := by
  have rule := since_rule client context base limit
  have delivers : ∀ tlsRecord, Act.Triple (Since base limit) (deliverRecord tlsRecord)
      (fun _ => Since base limit) (Overruns base few) := fun tlsRecord =>
    (deliver_fine tlsRecord).triple (rule.deliver tlsRecord)
  cases reply with
  | none => exact Act.Triple.pure fun _ => id
  | some reply =>
      rw [handleUpstreamReply]
      apply Act.Triple.ite
      · intro _
        exact Act.Triple.bind (Act.Triple.modify fun _ => id) fun _ => overruns_read _
      intro _
      apply Act.Triple.ite
      · intro _
        exact Act.Triple.bind (Act.Triple.modify fun _ => id) fun _ => overruns_read _
      intro _
      cases reply.eapMessages with
      | nil => exact Act.Triple.pure fun _ => id
      | cons eap _ =>
          apply Act.Triple.bind ((Act.Fine.lift (parse_fine eap)).triple (Act.Invariant.lift _))
          intro serverPkt
          apply Act.Triple.bind (since_ingest serverPkt)
          intro complete
          cases complete with
          | some tlsRecord =>
              exact (delivers tlsRecord).conseq (fun _ => And.left) (fun _ _ => id) fun _ _ => id
          | none =>
              apply Act.Triple.bind ((overruns_drain real serverPkt).conseq
                (fun _ both => ⟨both.1, both.2 rfl⟩) (fun _ _ => id) fun _ _ => id)
              intro complete
              cases complete with
              | some tlsRecord => exact delivers tlsRecord
              | none => exact overruns_read _

theorem sendChunks_fine (real : Answering client) (total count : ℕ) :
    ∀ (pieces : List Bytes) (idx : ℕ) (reply : Option Reply),
      Act.Fine Raised.outOfFuel (sendChunks client context total count idx pieces reply) := by
  intro pieces
  induction pieces with
  | nil => exact fun idx reply => Act.Fine.pure reply
  | cons chunk rest ih =>
      intro idx reply
      apply Act.Fine.bind echo_fine
      intro upId
      apply Act.Fine.bind (Act.Fine.lift (build_fine _ _ _ _ _ _))
      intro eapFrag
      apply Act.Fine.bind (Act.Fine.modify _)
      intro _
      apply Act.Fine.bind (exchange_fine real eapFrag)
      exact fun reply => ih (idx + 1) (some reply)

theorem since_chunks (total count : ℕ) (pieces : List Bytes) (idx : ℕ) (reply : Option Reply) :
    Act.Invariant (Since base limit) (sendChunks client context total count idx pieces reply) := by
  have same : GotLast (fun _ => Since base limit) (Since base limit) = fun _ => Since base limit := by
    funext reply
    cases reply <;> rfl
  have sends := (since_rule client context base limit).sendChunks total count pieces idx reply
  rwa [same] at sends

theorem overruns_forward (real : Answering client) (tlsRecord : Bytes) :
    Act.Triple (Since base limit)
      (forwardRecordUpstream client (limit + few + 1) context tlsRecord)
      (fun _ => Since base limit) (Overruns base few) := by
  apply Act.Triple.read_bind
  intro leg since
  apply Act.Triple.at_state _ since
  apply Act.Triple.bind ((Act.Fine.lift (fragment_fine _ _)).triple (Act.Invariant.lift _))
  intro pieces
  apply Act.Triple.bind
    ((sendChunks_fine real _ _ pieces 0 none).triple (since_chunks _ _ pieces 0 none))
  exact overruns_reply real

theorem overruns_ack (real : Answering client) (packet : EapTlsPacket) :
    Act.Triple (Since base limit) (handleAck client (limit + few + 1) context packet)
      (fun _ => Since base limit) (Overruns base few) := by
  have rule := since_rule client context base limit
  apply Act.Triple.read_bind
  intro leg since
  apply Act.Triple.at_state _ since
  apply Act.Triple.ite
  · exact fun _ => (sendNext_fine _).triple (rule.release _)
  intro _
  apply Act.Triple.ite
  · exact fun _ => Act.Triple.pure fun _ => id
  intro _
  apply Act.Triple.ite
  · exact fun _ => Act.Triple.pure fun _ => id
  intro _
  apply Act.Triple.bind (echo_fine.triple rule.echo)
  intro upId
  apply Act.Triple.bind ((Act.Fine.lift (build_fine _ _ _ _ _ _)).triple (Act.Invariant.lift _))
  intro ack
  apply Act.Triple.bind ((exchange_fine real ack).triple (since_exchange ack))
  exact fun reply => overruns_reply real (some reply)

theorem overruns_data (real : Answering client) (packet : EapTlsPacket) :
    Act.Triple (Since base limit) (handleData client (limit + few + 1) context packet)
      (fun _ => Since base limit) (Overruns base few) := by
  have rule := since_rule client context base limit
  apply Act.Triple.bind ((ingestUp_fine packet).triple (rule.ingestData packet))
  intro complete
  cases complete with
  | none =>
      apply Act.Triple.read_bind
      intro leg since
      apply Act.Triple.at_state _ since
      refine Act.Triple.bind (overruns_update ?_) fun _ => ?_
      · exact fun _ => rfl
      apply Act.Triple.bind ((Act.Fine.lift (build_fine _ _ _ _ _ _)).triple (Act.Invariant.lift _))
      exact fun _ => Act.Triple.pure fun _ => id
  | some tlsRecord =>
      refine Act.Triple.bind (overruns_update ?_) fun _ => overruns_forward real tlsRecord
      exact fun _ => rfl

theorem passthrough_fine (real : Answering client) (eapBytes : Bytes) :
    Act.Fine Raised.outOfFuel (passthroughUpstream client context eapBytes) := by
  apply Act.Fine.bind (Act.Fine.modify _)
  intro _
  apply Act.Fine.bind (exchange_fine real eapBytes)
  intro reply
  apply Act.Fine.ite (Act.Fine.bind (Act.Fine.modify _) fun _ => Act.Fine.pure _)
  apply Act.Fine.ite (Act.Fine.bind (Act.Fine.modify _) fun _ => Act.Fine.pure _)
  cases reply.eapMessages with
  | nil => exact Act.Fine.pure _
  | cons eap _ => exact Act.Fine.bind (Act.Fine.modify _) fun _ => Act.Fine.pure _

/-- **Handling a packet spends its budget on empty fragments alone.** -/
theorem handleSupplicantEap_overruns (real : Answering client) (eapBytes : Bytes) :
    Act.Triple (Since base limit)
      (handleSupplicantEap client (limit + few + 1) context eapBytes)
      (fun _ => Since base limit) (Overruns base few) := by
  apply Act.Triple.bind ((Act.Fine.lift (parse_fine eapBytes)).triple (Act.Invariant.lift _))
  intro packet
  refine Act.Triple.bind (overruns_update ?_) fun _ => ?_
  · exact fun _ => rfl
  apply Act.Triple.read_bind
  intro leg since
  apply Act.Triple.at_state _ since
  apply Act.Triple.ite
  · intro _
    apply (passthrough_fine real eapBytes).triple
    exact (relayRule_of_invariant (since_side base limit) since_exchange).passthroughUpstream eapBytes
  · intro _
    refine Act.Triple.bind (overruns_update ?_) fun _ => ?_
    · exact fun _ => rfl
    exact Act.Triple.ite (fun _ => overruns_ack real packet) fun _ => overruns_data real packet

end Mediator
end EapAccel
