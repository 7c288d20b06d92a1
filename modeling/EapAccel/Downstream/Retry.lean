import EapAccel.Downstream.Identifiers
import EapAccel.Opacity.Retry

/-!
# A request that is sent again

`serve_forever` swallows what the handling of a datagram raises and answers nothing, so the AP
sends the EAP packet again. By then the session has closed the supplicant's message, and keeps
what it has heard of the server's (`BreaksOff.leaves`).

`retried_iff` says when the handling of the second packet makes up for that of the first: when
the packet was the whole record, and no data of the server had been heard. Otherwise the tail of
the record is forwarded as a record (`tail_forwarded`), or the server's next record is delivered
behind the beginning of an older one.
-/

set_option autoImplicit false

namespace EapAccel.Downstream

open Foundations EapTls Mediator

variable {env : Env} {fuel : ℕ}

/-! ## A handling that breaks off -/

/-- A request whose handling asks the server has been noted. -/
theorem notes_of_asked {addr : String × ℕ} {request : ApRequest} {σ : Server}
    {made : List Exchange}
    (exchanges : (handled env fuel addr request σ).2.exchanges = σ.exchanges ++ made)
    (asked : made ≠ []) : notes env addr request σ = .ok () := by
  rcases handled_cases env fuel addr request σ with ⟨noted, _⟩ | ⟨_, _, ended⟩
  · exact noted
  · rw [ended, startOf_exchanges] at exchanges
    have none := List.append_cancel_left ((List.append_nil _).trans exchanges)
    exact absurd none.symm asked

/-- In the handling of a packet, which completes a record, an exchange with the server fails. -/
structure BreaksOff (env : Env) (fuel : ℕ) (datagram : Datagram) (request : ApRequest)
    (packet : EapTlsPacket) (tlsRecord : Bytes) (made : List Exchange) (σ : Server) : Prop where
  decoded : datagram.decoded = .ok request
  admitted : Admitted request
  parsed : parse request.eap = .ok packet
  completes : (Reassembler.ingest packet
    (startOf env datagram.addr request (σ.woken datagram)).session.upReasm).1 = .ok (some tlsRecord)
  exchanges : (handled env fuel datagram.addr request (σ.woken datagram)).2.exchanges =
    σ.exchanges ++ made
  raises : ∃ before exchange raised, made = before ++ [exchange] ∧ exchange.Fails raised ∧
    (handled env fuel datagram.addr request (σ.woken datagram)).1 = .error raised

/-- Its request has been noted. -/
theorem BreaksOff.noted {datagram : Datagram} {request : ApRequest} {packet : EapTlsPacket}
    {tlsRecord : Bytes} {made : List Exchange} {σ : Server}
    (breaks : BreaksOff env fuel datagram request packet tlsRecord made σ) :
    notes env datagram.addr request (σ.woken datagram) = .ok () := by
  obtain ⟨before, exchange, _, rfl, _⟩ := breaks.raises
  exact notes_of_asked breaks.exchanges (by simp)

/-- What is left of a message on either side when a handling has broken off. -/
structure Leftover (start : Session) (made : List Exchange) (session : Session) : Prop where
  closed : session.upReasm.state = .complete
  pending : session.downReasm.pending = start.downReasm.pending ++ joined (heard made)

theorem Leftover.of_unnamed {start session session' : Session} {made : List Exchange}
    (unnamed : session'.unnamed = session.unnamed) (leftover : Leftover start made session) :
    Leftover start made session' := by
  have up : session'.upReasm = session.upReasm := congrArg (·.upReasm) unnamed
  have down : session'.downReasm = session.downReasm := congrArg (·.downReasm) unnamed
  exact ⟨up ▸ leftover.closed, down ▸ leftover.pending⟩

theorem Leftover.noted {start session : Session} {made : List Exchange} (request : ApRequest)
    (leftover : Leftover start made session) : Leftover start made (notedSession request session) :=
  ⟨leftover.closed, leftover.pending⟩

/-- **A handling that breaks off is not answered**, and leaves the session with what it did. -/
theorem BreaksOff.leaves (reassembling : env.cfg.sessionMode = .reassemble) {σ σ' : Server}
    (regular : σ.Regular env) {datagram : Datagram} {request : ApRequest} {packet : EapTlsPacket}
    {tlsRecord : Bytes} {made : List Exchange}
    (breaks : BreaksOff env fuel datagram request packet tlsRecord made σ)
    (served : serve env fuel datagram σ = some σ') :
    σ'.replies = σ.replies ∧
      (found env datagram.addr request (σ.woken datagram)).1 < σ'.created ∧
      Leftover (startOf env datagram.addr request (σ.woken datagram)).session made
        (σ'.objects (found env datagram.addr request (σ.woken datagram)).1) := by
  obtain ⟨before, exchange, raised, rfl, fails, result⟩ := breaks.raises
  have woken := Regular.woken regular datagram
  have exchanges := breaks.exchanges
  rw [serve_admitted breaks.decoded breaks.admitted served]
  have silent : (handleRequest env fuel datagram.addr request (σ.woken datagram)).2.replies =
      σ.replies := handleRequest_silent result
  refine ⟨silent, (handleRequest_created woken.tabled datagram.addr request).2, ?_⟩
  refine Leftover.of_unnamed (handleRequest_own datagram.addr request (σ.woken datagram)) ?_
  have routed := @handled_of_parse env fuel datagram.addr request packet (σ.woken datagram)
    breaks.parsed breaks.noted
  have start : (startOf env datagram.addr request (σ.woken datagram)).exchanges = σ.exchanges :=
    startOf_exchanges datagram.addr request _
  rw [routed] at result exchanges ⊢
  rw [← start] at exchanges
  obtain ⟨closed, pending⟩ := handle_breaks ((startOf_mode woken _ _).trans reassembling)
    breaks.parsed breaks.completes result exchanges ⟨raised, fails⟩
  exact ⟨closed, pending⟩

/-! ## Other requests in between -/

/-- The datagram does not bring the session `ref` a request. -/
def Elsewhere (env : Env) (ref : ℕ) (datagram : Datagram) (σ : Server) : Prop :=
  ∀ request, datagram.decoded = .ok request → Admitted request →
    (found env datagram.addr request (σ.woken datagram)).1 ≠ ref

theorem serve_elsewhere {σ σ' : Server} {ref : ℕ} (there : ref < σ.created) {datagram : Datagram}
    (elsewhere : Elsewhere env ref datagram σ) (served : serve env fuel datagram σ = some σ') :
    (σ'.objects ref).unnamed = (σ.objects ref).unnamed := by
  rcases serve_cases served with rfl | ⟨request, decoded, admitted, rfl⟩
  · rfl
  · exact @handleRequest_other env fuel (σ.woken datagram) ref there _ _
      (Ne.symm (elsewhere request decoded admitted))

/-- **Requests of other sessions leave the session alone.** -/
theorem run_elsewhere {σ σ' : Server} {ref : ℕ} (regular : σ.Regular env) (there : ref < σ.created)
    {datagrams : List Datagram} (elsewhere : Along (serve env fuel) (Elsewhere env ref) datagrams σ)
    (ran : run env fuel datagrams σ = some σ') :
    σ'.Regular env ∧ ref < σ'.created ∧ (σ'.objects ref).unnamed = (σ.objects ref).unnamed := by
  have kept : ∀ datagram τ τ', Elsewhere env ref datagram τ →
      (τ.Regular env ∧ ref < τ.created ∧ (τ.objects ref).unnamed = (σ.objects ref).unnamed) →
        serve env fuel datagram τ = some τ' →
          τ'.Regular env ∧ ref < τ'.created ∧
            (τ'.objects ref).unnamed = (σ.objects ref).unnamed := by
    rintro datagram τ τ' elsewhere ⟨regular, there, same⟩ served
    exact ⟨Regular.serve regular served, there.trans_le (serve_created regular served),
      (serve_elsewhere there elsewhere served).trans same⟩
  exact elsewhere.keeps kept ⟨regular, there, rfl⟩ ran

/-! ## The packet that is sent again -/

/-- The datagram brings the session `ref` this EAP packet, in a request that can be noted. -/
structure Retransmits (env : Env) (ref : ℕ) (eapBytes : Bytes) (datagram : Datagram)
    (request : ApRequest) (σ : Server) : Prop where
  decoded : datagram.decoded = .ok request
  admitted : Admitted request
  same : request.eap = eapBytes
  found : (found env datagram.addr request (σ.woken datagram)).1 = ref
  noted : notes env datagram.addr request (σ.woken datagram) = .ok ()

/-- Exactly the record goes to the server, and the server's next record to the supplicant. -/
structure Recovers (env : Env) (fuel ref : ℕ) (tlsRecord answer : Bytes) (σ σ' : Server) :
    Prop where
  forwards : ∃ new, σ'.exchanges = σ.exchanges ++ new ∧
    recordsIn env.cfg.maxMessageLen new = [tlsRecord]
  delivers : ∃ first sent, σ'.replies = σ.replies ++ [sent] ∧ sent.session = ref ∧
    sent.reply.eap = layout first ∧
    DeliversRecord env.client fuel env.cfg.downstream.fragmentSize answer first (σ'.leg ref)

/-- What goes to the server makes that record, and no other. -/
theorem Recovers.forwarded {ref : ℕ} {tlsRecord answer : Bytes} {σ σ' : Server}
    (recovers : Recovers env fuel ref tlsRecord answer σ σ') :
    recordsIn env.cfg.maxMessageLen (σ'.exchanges.drop σ.exchanges.length) = [tlsRecord] := by
  obtain ⟨new, grown, records⟩ := recovers.forwards
  rw [grown, List.drop_left]
  exact records

/-- The packet is the whole record, it is no longer than it may declare, no data of the server
is left, and the server's next record is not too long. -/
structure Restartable (limit : ℕ) (packet : EapTlsPacket) (start : Session) (made : List Exchange)
    (answer : Bytes) : Prop where
  whole : start.upReasm.pending = []
  declared : ∀ n ∈ Reassembler.declared packet, n ≤ limit
  fresh : start.downReasm.pending = []
  unheard : ∀ heeded ∈ heard made, heeded.tlsData = []
  room : answer.length ≤ limit
  encodable : answer.length < 2 ^ 32

theorem not_recovers_of_error {ref : ℕ} {tlsRecord answer : Bytes} {σ : Server}
    {datagram : Datagram} {request : ApRequest} {e : Raised}
    (result : (handled env fuel datagram.addr request (σ.woken datagram)).1 = .error e) :
    ¬ Recovers env fuel ref tlsRecord answer σ
      (handleRequest env fuel datagram.addr request (σ.woken datagram)).2 := by
  intro recovers
  obtain ⟨first, sent, replies, _⟩ := recovers.delivers
  rw [handleRequest_silent result] at replies
  exact absurd (congrArg List.length replies) (by simp [Server.woken])

section Again

variable {σ : Server} {datagram : Datagram} {request : ApRequest} {leg : Leg}
  {tlsRecord answer next : Bytes}

/-- A request that trades the record for the next one. -/
theorem recovers_of_trades (valid : env.cfg.validate = .ok ())
    (reassembling : env.cfg.sessionMode = .reassemble) (regular : σ.Regular env)
    (forwards : handled env fuel datagram.addr request (σ.woken datagram) =
      forwardRecordUpstream env.client fuel request.context tlsRecord leg)
    (exchanges : leg.exchanges = σ.exchanges) (configured : leg.session.Configured env.cfg)
    (room : tlsRecord.length ≤ env.cfg.maxMessageLen) (encodable : answer.length < 2 ^ 32)
    (trades : Trades env.client request.context fuel tlsRecord answer leg) :
    Recovers env fuel (found env datagram.addr request (σ.woken datagram)).1 tlsRecord answer σ
      (handleRequest env fuel datagram.addr request (σ.woken datagram)).2 := by
  have own := @handleRequest_own env fuel datagram.addr request (σ.woken datagram)
  have after := @Regular.handleRequest env fuel _ (Regular.woken regular datagram)
    datagram.addr request
  constructor
  · obtain ⟨packets, pulls, cut, acks, new, grown, sent⟩ := trades.sent
    refine ⟨new, ?_, (recordsIn_of_sent sent).trans (recordsOf_cut cut room acks)⟩
    rw [handleRequest_exchanges, forwards, grown, exchanges]
  · obtain ⟨identifier, chunk, pieces, cut, result, holds⟩ := trades.delivered
    rw [configured.downstreamFragmentSize] at cut
    rw [← forwards] at result holds
    have downSize := (Config.accepted_of_validate valid).downstream.2
    have held : HoldsRest ((handleRequest env fuel datagram.addr request (σ.woken datagram)).2.objects
        (found env datagram.addr request (σ.woken datagram)).1) answer pieces :=
      ⟨(congrArg (·.downOutbox) own).trans holds.outbox, (congrArg (·.downTotal) own).trans holds.total,
        (congrArg (·.downNchunks) own).trans holds.count⟩
    have mode := congrArg Session.Settings.mode
      (after.settled (found env datagram.addr request (σ.woken datagram)).1)
    refine ⟨_, _, handleRequest_answers result, rfl, answer_eap _ _ _ _, ?_⟩
    exact delivers_of_holdsRest cut downSize encodable (mode.trans reassembling) held

/-- The first Request that the supplicant gets tells how long the record is that it gets. -/
theorem length_of_recovers {ref : ℕ}
    (forwards : handled env fuel datagram.addr request (σ.woken datagram) =
      forwardRecordUpstream env.client fuel request.context tlsRecord leg)
    (configured : leg.session.Configured env.cfg) (valid : env.cfg.validate = .ok ())
    (encodable : next.length < 2 ^ 32)
    (trades : Trades env.client request.context fuel tlsRecord next leg)
    (recovers : Recovers env fuel ref tlsRecord answer σ
      (handleRequest env fuel datagram.addr request (σ.woken datagram)).2) :
    next.length = answer.length := by
  obtain ⟨first, sent, replies, _, told, delivers⟩ := recovers.delivers
  obtain ⟨identifier, chunk, pieces, cut, result, _⟩ := trades.delivered
  rw [← forwards] at result
  rw [handleRequest_answers result] at replies
  obtain rfl := List.singleton_inj.mp (List.append_cancel_left replies)
  rw [answer_eap] at told
  have short := (length_le_of_fragment cut chunk List.mem_cons_self).trans
    (configured.downstreamFragmentSize ▸ (Config.accepted_of_validate valid).downstream.2)
  have same : first = wrap codeRequest next.length (pieces.length + 1) 0 identifier chunk := by
    have parsed := delivers.decoded
    rw [← told] at parsed
    have own := @parse_layout (wrap codeRequest next.length (pieces.length + 1) 0 identifier chunk)
      (encodable_wrap (fun _ => encodable) short)
    exact Except.ok.inj (parsed.symm.trans own)
  have length := delivers.length
  rw [same] at length
  exact Option.some.inj length

/-- A request that forwards another record. -/
theorem not_recovers_of_tail {ref : ℕ} {tail : Bytes}
    (forwards : handled env fuel datagram.addr request (σ.woken datagram) =
      forwardRecordUpstream env.client fuel request.context tail leg)
    (exchanges : leg.exchanges = σ.exchanges) (configured : leg.session.Configured env.cfg)
    (valid : env.cfg.validate = .ok ()) (room : tail.length ≤ env.cfg.maxMessageLen)
    (different : tlsRecord ≠ tail) :
    ¬ Recovers env fuel ref tlsRecord answer σ
      (handleRequest env fuel datagram.addr request (σ.woken datagram)).2 := by
  intro recovers
  obtain ⟨new, grown, records⟩ := recovers.forwards
  have upSize := configured.upstreamFragmentSize ▸ (Config.accepted_of_validate valid).upstream
  obtain ⟨sent, grown', only, _⟩ := @forward_records env.client fuel request.context tail leg
    env.cfg.maxMessageLen upSize room
  rw [handleRequest_exchanges, forwards, grown', exchanges] at grown
  obtain rfl := List.append_cancel_left grown
  exact different (only tlsRecord (by rw [records]; exact List.mem_singleton_self _))

end Again

/-- **The second handling.** -/
theorem recovers_iff (valid : env.cfg.validate = .ok ())
    (reassembling : env.cfg.sessionMode = .reassemble) {σ σ' : Server} (regular : σ.Regular env)
    {ref : ℕ} (there : ref < σ.created) {start : Session} {made : List Exchange}
    (leftover : Leftover start made (σ.objects ref)) {packet : EapTlsPacket} {tlsRecord : Bytes}
    (completes : (Reassembler.ingest packet start.upReasm).1 = .ok (some tlsRecord))
    (limit : start.upReasm.maxMessageLen = env.cfg.maxMessageLen)
    (encodable : tlsRecord.length < 2 ^ 32) {eapBytes : Bytes}
    (parsed : parse eapBytes = .ok packet) {datagram : Datagram} {request : ApRequest}
    (again : Retransmits env ref eapBytes datagram request σ)
    (served : serve env fuel datagram σ = some σ') {answer : Bytes} {init : List EapTlsPacket}
    {last first : EapTlsPacket} {rest : List EapTlsPacket} (division : Division answer init last)
    (order : init ++ [last] = first :: rest)
    (answers : AnswersRecord env.client σ.exchanges tlsRecord env.cfg.upstream.fragmentSize first rest)
    (sent : AllSent env.client σ.exchanges σ'.exchanges) (enough : init.length ≤ fuel) :
    Recovers env fuel ref tlsRecord answer σ σ' ↔
      Restartable env.cfg.maxMessageLen packet start made answer := by
  obtain ⟨decoded, admitted, rfl, here, noted⟩ := again
  obtain ⟨data, final, made_of, fits⟩ := Reassembler.record_of_ingest completes
  have short : packet.tlsData.length ≤ env.cfg.maxMessageLen := by
    rw [made_of, limit, List.length_append] at fits
    omega
  have configured := Session.configured_of_settings
    (startOf_settings (Regular.woken regular datagram) datagram.addr request)
  obtain ⟨closed, pending⟩ := @startOf_session env (σ.woken datagram) ref there _ _ here ▸
    leftover.noted request
  have exchanges : (startOf env datagram.addr request (σ.woken datagram)).exchanges =
      σ.exchanges := startOf_exchanges datagram.addr request _
  have routed := @handled_of_parse env fuel datagram.addr request packet (σ.woken datagram) parsed
    noted
  rw [serve_admitted decoded admitted served] at sent ⊢
  rw [handleRequest_exchanges, routed] at sent
  generalize startOf env datagram.addr request (σ.woken datagram) = leg at *
  have ready := byItself_configured configured packet
  rcases @handle_again env.client fuel request.context leg request.eap packet
    (configured.mode.trans reassembling) parsed data final closed
    (by rw [configured.upLimit]; exact short) with
    ⟨⟨n, declares, large⟩, e, raises, _⟩ | ⟨small, forwards⟩
  · refine iff_of_false (not_recovers_of_error (by rw [routed]; exact raises)) fun restartable => ?_
    rw [configured.upLimit] at large
    exact absurd (restartable.declared n declares) (Nat.not_le_of_lt large)
  rw [configured.upLimit] at small
  by_cases whole : start.upReasm.pending = []
  · rw [whole, List.nil_append] at made_of
    subst made_of
    rcases @forward_trades env.client fuel request.context
        ⟨byItself leg.session packet, leg.exchanges, leg.clock⟩ packet.tlsData answer
        (ready.upstreamFragmentSize ▸ (Config.accepted_of_validate valid).upstream)
        (ready.downstreamFragmentSize ▸ (Config.accepted_of_validate valid).downstream) encodable
        init last first rest division order
        (by rw [ready.upstreamFragmentSize]; exact exchanges ▸ answers)
        (by rw [← forwards]; exact exchanges ▸ sent) enough with
      ⟨room, brief, trades⟩ | ⟨tight, e, after, raises⟩
    · rw [byItself_downReasm, pending] at room brief trades
      constructor
      · intro recovers
        have same := length_of_recovers (routed.trans forwards) ready valid brief trades recovers
        rw [List.length_append, Nat.add_eq_right, List.length_eq_zero_iff,
          List.append_eq_nil_iff] at same
        rw [same.1, same.2] at room brief
        have room' : answer.length ≤ env.cfg.maxMessageLen := configured.downLimit ▸ room
        exact ⟨whole, small, same.1, joined_eq_nil_iff.mp same.2, room', brief⟩
      · intro restartable
        rw [restartable.fresh, joined_eq_nil_iff.mpr restartable.unheard, List.nil_append,
          List.nil_append] at trades
        rw [← here]
        exact recovers_of_trades valid reassembling regular (routed.trans forwards) exchanges ready
          short restartable.encodable trades
    · refine iff_of_false (not_recovers_of_error (by rw [routed, forwards, raises])) ?_
      intro restartable
      apply tight
      rw [byItself_downReasm, pending, restartable.fresh, joined_eq_nil_iff.mpr restartable.unheard]
      exact ⟨configured.downLimit ▸ restartable.room, restartable.encodable⟩
  · have different : tlsRecord ≠ packet.tlsData := fun same =>
      whole (List.append_left_eq_self.mp (made_of.symm.trans same))
    refine iff_of_false ?_ fun restartable => whole restartable.whole
    exact not_recovers_of_tail (routed.trans forwards) exchanges ready valid short different

/-- A record of `2 ^ 32` octets or more is not sent, so no exchange fails. -/
theorem BreaksOff.encodable (valid : env.cfg.validate = .ok ())
    (reassembling : env.cfg.sessionMode = .reassemble) {σ : Server} (regular : σ.Regular env)
    {datagram : Datagram} {request : ApRequest} {packet : EapTlsPacket} {tlsRecord : Bytes}
    {made : List Exchange}
    (breaks : BreaksOff env fuel datagram request packet tlsRecord made σ) :
    tlsRecord.length < 2 ^ 32 := by
  by_contra large
  obtain ⟨before, exchange, _, rfl, _⟩ := breaks.raises
  have woken := Regular.woken regular datagram
  have configured := Session.configured_of_settings
    (startOf_settings woken datagram.addr request)
  have exchanges := breaks.exchanges
  have start : (startOf env datagram.addr request (σ.woken datagram)).exchanges = σ.exchanges :=
    startOf_exchanges datagram.addr request _
  rw [handled_of_parse breaks.parsed breaks.noted,
    handle_completes ((startOf_mode woken _ _).trans reassembling)
      breaks.parsed (Prod.ext breaks.completes rfl),
    forward_overflow (Nat.le_of_not_lt large)] at exchanges
  · have none := List.append_cancel_left ((List.append_nil _).trans (start.symm.trans exchanges))
    exact absurd none (by simp)
  · show 1 ≤ (startOf env datagram.addr request (σ.woken datagram)).session.upstreamFragmentSize
    rw [configured.upstreamFragmentSize]
    exact (Config.accepted_of_validate valid).upstream.1

/-- **A packet that is sent again makes up for a handling that broke off exactly where the
session is restartable.** -/
theorem retried_iff (valid : env.cfg.validate = .ok ())
    (reassembling : env.cfg.sessionMode = .reassemble) {before : List Datagram} {σ : Server}
    (reached : run env fuel before (initial env) = some σ) {datagram : Datagram}
    {request : ApRequest} {packet : EapTlsPacket} {tlsRecord : Bytes} {made : List Exchange}
    (breaks : BreaksOff env fuel datagram request packet tlsRecord made σ) {σ₁ : Server}
    (served : serve env fuel datagram σ = some σ₁) {ref : ℕ}
    (here : (found env datagram.addr request (σ.woken datagram)).1 = ref)
    {between : List Datagram} (elsewhere : Along (serve env fuel) (Elsewhere env ref) between σ₁)
    {σ₂ : Server} (ran : run env fuel between σ₁ = some σ₂) {again : Datagram}
    {request' : ApRequest} (retransmits : Retransmits env ref request.eap again request' σ₂)
    {σ₃ : Server} (served' : serve env fuel again σ₂ = some σ₃) {answer : Bytes}
    {init : List EapTlsPacket} {last first : EapTlsPacket} {rest : List EapTlsPacket}
    (division : Division answer init last) (order : init ++ [last] = first :: rest)
    (answers : AnswersRecord env.client σ₂.exchanges tlsRecord env.cfg.upstream.fragmentSize first rest)
    (sent : AllSent env.client σ₂.exchanges σ₃.exchanges) (enough : init.length ≤ fuel) :
    σ₁.replies = σ.replies ∧
      (Recovers env fuel ref tlsRecord answer σ₂ σ₃ ↔
        Restartable env.cfg.maxMessageLen packet
          (startOf env datagram.addr request (σ.woken datagram)).session made answer) := by
  have regular := regular_of_run reached
  obtain ⟨silent, there, leftover⟩ := breaks.leaves reassembling regular served
  rw [here] at there leftover
  obtain ⟨regular', there', same⟩ := run_elsewhere (Regular.serve regular served) there elsewhere ran
  have configured := Session.configured_of_settings
    (startOf_settings (Regular.woken regular datagram) datagram.addr request)
  refine ⟨silent, ?_⟩
  exact recovers_iff valid reassembling regular' there' (leftover.of_unnamed same) breaks.completes
    configured.upLimit (breaks.encodable valid reassembling regular) breaks.parsed retransmits
    served' division order answers sent enough

/-! ## Two instances -/

/-- A record of one octet of the server. -/
def nextRecord : EapTlsPacket := bareFragment codeRequest 9 [9] false

/-- The server misses the first request, and answers the others with that record. -/
def missesFirst : Env where
  cfg := Config.sample "reassemble"
  respond := fun before _ =>
    if before = [] then .error .timeout
    else .ok { code := accessChallenge, state := none, eapMessage := [layout nextRecord] }
  token := fun n => [UInt8.ofNat n]

theorem missesFirst_lossless : missesFirst.Lossless := ⟨fun _ => rfl, fun _ => rfl, fun _ => rfl⟩

theorem missesFirst_answers {before : List Exchange} (some : before ≠ []) (tlsRecord : Bytes)
    (size : ℕ) : AnswersRecord missesFirst.client before tlsRecord size nextRecord [] := by
  have answered : ∀ new request, missesFirst.client.respond (before ++ new) request =
      .ok { code := accessChallenge, state := none, eapMessage := [layout nextRecord] } :=
    fun new request => if_neg fun empty => some (List.append_eq_nil_iff.mp empty).1
  refine ⟨fun new _ request _ _ _ _ _ => ⟨_, answered new request⟩,
    fun new _ request _ _ _ _ => ⟨_, answered new request, rfl, ?_⟩, fun new _ _ _ => ?_⟩
  · rw [List.flatten_singleton]
    exact parse_bareFragment (by decide)
  · intro new request ack packet none
    cases none

theorem nextRecord_division : Division [9] [] nextRecord :=
  ⟨rfl, by simp, rfl, rfl, by decide⟩

/-- A fragment of the supplicant with one octet. -/
def octetFragment (state : Option Bytes) (identifier flags octet : UInt8) : Datagram :=
  datagramOf (requestWith state [codeResponse, identifier, 0, 7, eapTypeTls, flags, octet])

/-- A record in one fragment is sent again. -/
theorem retried_sample :
    ∃ σ₁ σ₃, serve missesFirst 0 (octetFragment none 7 0 1) (initial missesFirst) = some σ₁ ∧
      serve missesFirst 0 (octetFragment none 7 0 1) σ₁ = some σ₃ ∧ σ₁.replies = [] ∧
        Recovers missesFirst 0 0 [1] [9] σ₁ σ₃ := by
  refine ⟨_, _, rfl, rfl, rfl, ?_⟩
  refine (@retried_iff missesFirst 0 (by decide) rfl [] _ rfl (octetFragment none 7 0 1) _ _ _ _
    ⟨rfl, by decide, rfl, rfl, rfl, [], _, .timeout, rfl, .inl rfl, rfl⟩ _ rfl 0 rfl [] trivial _ rfl
    (octetFragment none 7 0 1) _ ⟨rfl, by decide, rfl, rfl, rfl⟩ _ rfl [9] [] nextRecord nextRecord []
    nextRecord_division rfl (missesFirst_answers ?_ _ _)
    (fun exchange _ => missesFirst_lossless.wire_request exchange.request) le_rfl).2.mpr ?_
  · exact List.cons_ne_nil _ _
  · refine ⟨rfl, by decide, rfl, ?_, by decide, by decide⟩
    rw [heard_of_silent rfl]
    nofun

/-- The tail of a record in two fragments is forwarded as a record when it is sent again. -/
theorem tail_forwarded :
    missesFirst.cfg.validate = .ok () ∧ missesFirst.Lossless ∧
    ∃ σ σ₁ σ₃,
      run missesFirst 0 [octetFragment none 7 flagMoreFragments 1] (initial missesFirst) = some σ ∧
      serve missesFirst 0 (octetFragment (some [0]) 8 0 2) σ = some σ₁ ∧
      serve missesFirst 0 (octetFragment (some [0]) 8 0 2) σ₁ = some σ₃ ∧
      ∃ request packet made,
        BreaksOff missesFirst 0 (octetFragment (some [0]) 8 0 2) request packet [1, 2] made σ ∧
        Retransmits missesFirst 0 request.eap (octetFragment (some [0]) 8 0 2) request σ₁ ∧
        AnswersRecord missesFirst.client σ₁.exchanges [1, 2] missesFirst.cfg.upstream.fragmentSize
          nextRecord [] ∧
        Division [9] [] nextRecord ∧
        recordsIn missesFirst.cfg.maxMessageLen (σ₃.exchanges.drop σ₁.exchanges.length) = [[2]] ∧
        ¬ Recovers missesFirst 0 0 [1, 2] [9] σ₁ σ₃ := by
  refine ⟨by decide, missesFirst_lossless, _, _, _, rfl, rfl, rfl, _, _, _,
    ⟨rfl, by decide, rfl, rfl, rfl, [], _, .timeout, rfl, .inl rfl, rfl⟩,
    ⟨rfl, by decide, rfl, rfl, rfl⟩,
    missesFirst_answers ?_ _ _, nextRecord_division, ?_, ?_⟩
  · exact List.cons_ne_nil _ _
  · exact rfl
  · intro recovers
    exact absurd recovers.forwarded (by decide)

end EapAccel.Downstream
