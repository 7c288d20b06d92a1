import EapAccel.Downstream.Flights
import EapAccel.Downstream.Release

/-!
# The size of what is sent to the supplicant

A record of the server is cut for the supplicant into chunks of `downstream.fragment_size`
octets. The first goes out with ten octets of framing, the others with six. The Framed-MTU
that the AP advertised is kept for the requests to the server, and plays no part in it.

So the packets of a record fit the link of the AP where the fragment size, or the record, is
small enough for it (`fragments_fit_iff`), and only there (`framed_mtu_exceeded`).
-/

set_option autoImplicit false

namespace EapAccel

open Foundations EapTls

/-- The EAP packets that were sent for a session. -/
def Server.packetsTo (σ : Server) (ref : ℕ) : List Bytes :=
  (σ.replies.filter fun sent => sent.session = ref).map fun sent => sent.reply.eap

/-- The size of the packet in which a chunk is sent that is not the first of its record. -/
def chunkPacketLength (chunk : Bytes) : ℕ := 6 + chunk.length

/-- The sizes of the packets that are to follow the ACKs of a session. -/
def Session.waiting (session : Session) : List ℕ :=
  session.downOutbox.map fun entry => chunkPacketLength entry.2

namespace Mediator

variable {client : UpstreamClient} {fuel : ℕ} {context : AuthContext}

/-! ## One record -/

/-- What waits once the first packet of a record has been tried. -/
theorem deliver_waiting {leg : Leg} (positive : 0 < leg.session.downstreamFragmentSize)
    (tlsRecord : Bytes) :
    (deliverRecord tlsRecord leg).2.session.waiting =
      (chunks leg.session.downstreamFragmentSize
        (tlsRecord.drop leg.session.downstreamFragmentSize)).map chunkPacketLength := by
  have cut := fragment_cut positive tlsRecord
  have begins := @begin_eq ⟨leg.session.counted tlsRecord, leg.exchanges, leg.clock⟩ tlsRecord _ cut
  rw [deliverRecord_eq, begins]
  have outbox := congrArg Prod.snd (sendNext_outbox none
    ⟨(leg.session.counted tlsRecord).queue tlsRecord
      (tlsRecord.take leg.session.downstreamFragmentSize ::
        chunks leg.session.downstreamFragmentSize
          (tlsRecord.drop leg.session.downstreamFragmentSize)), leg.exchanges, leg.clock⟩)
  have framed_queued : ∀ (pieces : List Bytes) (idx : ℕ),
      (Session.queued idx pieces).map (fun entry => chunkPacketLength entry.2) =
        pieces.map chunkPacketLength := by
    intro pieces
    induction pieces with
    | nil => exact fun _ => rfl
    | cons chunk pieces ih =>
        intro idx
        rw [Session.queued_cons, List.map_cons, ih, List.map_cons]
  refine (congrArg (List.map fun entry => chunkPacketLength entry.2) outbox).trans ?_
  exact framed_queued _ 1

/-- **The first packet of a record** has ten octets of framing. There is none where four octets
do not hold the length of the record. -/
theorem deliver_first {leg : Leg} (positive : 0 < leg.session.downstreamFragmentSize)
    (small : leg.session.downstreamFragmentSize ≤ 65000) (tlsRecord : Bytes) :
    (2 ^ 32 ≤ tlsRecord.length ∧ ∃ e, (deliverRecord tlsRecord leg).1 = .error e) ∨
      (tlsRecord.length < 2 ^ 32 ∧ ∃ packet,
        (deliverRecord tlsRecord leg).1 = .ok (challengeOutcome packet) ∧
          (layout packet).length =
            10 + min leg.session.downstreamFragmentSize tlsRecord.length) := by
  by_cases large : 2 ^ 32 ≤ tlsRecord.length
  · exact .inl ⟨large, _, deliver_overflow large positive⟩
  · have cut := fragment_cut positive tlsRecord
    have short : (tlsRecord.take leg.session.downstreamFragmentSize).length ≤ 65000 :=
      (List.length_take_le _ _).trans small
    refine .inr ⟨Nat.lt_of_not_le large, _,
      congrArg Prod.fst (deliver_eq cut short (Nat.lt_of_not_le large)), ?_⟩
    rw [length_layout]
    show 6 + (lengthField (some tlsRecord.length)).length +
      (tlsRecord.take leg.session.downstreamFragmentSize).length = _
    rw [length_lengthField, List.length_take]
    rfl

/-- **An ACK sends the first chunk that waits**, with six octets of framing. -/
theorem handle_sends {leg : Leg} {eapBytes : Bytes} {ack : EapTlsPacket}
    (reassembling : leg.session.mode = .reassemble) (queued : leg.session.Queued)
    (waits : leg.session.downOutbox ≠ []) (parsed : parse eapBytes = .ok ack)
    (isAck : ack.isAck = true) :
    ∃ packet, (handleSupplicantEap client fuel context eapBytes leg).1 =
        .ok (challengeOutcome packet) ∧
      leg.session.waiting = (layout packet).length ::
        (handleSupplicantEap client fuel context eapBytes leg).2.session.waiting := by
  rcases queue : leg.session.downOutbox with _ | ⟨⟨idx, chunk⟩, rest⟩
  · exact absurd queue waits
  obtain ⟨later, short⟩ := queued.fits (idx, chunk) (queue ▸ List.mem_cons_self)
  have sends := @handle_ack_queued client fuel leg (context, eapBytes) ack idx chunk rest
    reassembling parsed isAck queue short fun first => absurd first later
  refine ⟨_, congrArg Prod.fst sends, ?_⟩
  have outbox : (handleSupplicantEap client fuel context eapBytes leg).2.session.downOutbox =
      rest :=
    (congrArg (fun handled => handled.2.session.downOutbox) sends).trans
      (congrArg List.tail queue)
  have size : (layout (wrap codeRequest leg.session.downTotal leg.session.downNchunks idx
      (ack.identifier + 1) chunk)).length = chunkPacketLength chunk := by
    rw [length_layout, wrap, if_neg later]
    rfl
  rw [Session.waiting, Session.waiting, queue, outbox, List.map_cons, size]

/-! ## What leaves the queue alone -/

/-- These fragments wait for the supplicant's ACKs. -/
def Waits (queue : List (ℕ × Bytes)) (leg : Leg) : Prop := leg.session.downOutbox = queue

variable {queue : List (ℕ × Bytes)}

theorem waits_of_side {s s' : Session} (same : s'.supplicantSide = s.supplicantSide)
    (waits : s.downOutbox = queue) : s'.downOutbox = queue :=
  (congrArg (fun side : Session => side.downOutbox) same).trans waits

theorem waits_pull (queue : List (ℕ × Bytes)) : PullSteps client (Waits queue) :=
  pullSteps_of_supplicantSide fun _ _ => waits_of_side

theorem exchange_waits (eapPayload : Bytes) :
    Act.Invariant (Waits queue) (exchange client eapPayload context) :=
  (exchange_supplicantSide eapPayload context).invariant fun _ _ => waits_of_side

theorem sendChunks_waits (total count : ℕ) {pieces : List Bytes} :
    ∀ {idx : ℕ} {reply : Option Reply},
      Act.Invariant (Waits queue) (sendChunks client context total count idx pieces reply) := by
  induction pieces with
  | nil => exact Act.Invariant.pure _
  | cons chunk rest ih =>
      intro idx reply
      rw [sendChunks]
      apply Act.Invariant.bind (@waits_pull client queue).echo
      intro upId
      apply Act.Invariant.bind (Act.Invariant.lift _)
      intro eapFrag
      apply Act.Invariant.bind fun _ waits => waits
      intro _
      exact Act.Invariant.bind (exchange_waits eapFrag) fun _ => ih

theorem gatherReply_waits (reply : Option Reply) :
    Act.Invariant (Waits queue) (gatherReply client fuel context reply) := by
  have ends : ∀ outcome : Leg → Outcome, Act.Invariant (Waits queue)
      ((do let leg ← Act.read; return .inl (outcome leg)) : Act Raised Leg (Outcome ⊕ Bytes)) :=
    fun _ => Act.Invariant.read_bind fun _ => Act.Invariant.pure _
  cases reply with
  | none => exact Act.Invariant.pure _
  | some reply =>
      rw [gatherReply]
      apply Act.Invariant.ite
      · exact Act.Invariant.bind (fun _ waits => waits) fun _ => ends _
      apply Act.Invariant.ite
      · exact Act.Invariant.bind (fun _ waits => waits) fun _ => ends _
      cases reply.eapMessages with
      | nil => exact Act.Invariant.pure _
      | cons eap _ =>
          apply Act.Invariant.bind (Act.Invariant.lift _)
          intro serverPkt
          apply Act.Invariant.bind ((@waits_pull client queue).ingest serverPkt)
          intro complete
          cases complete with
          | some tlsRecord => exact Act.Invariant.pure _
          | none =>
              apply Act.Invariant.bind ((waits_pull queue).drain context fuel serverPkt)
              intro complete
              cases complete with
              | some tlsRecord => exact Act.Invariant.pure _
              | none => exact ends _

theorem gatherForward_waits (tlsRecord : Bytes) :
    Act.Invariant (Waits queue) (gatherForward client fuel context tlsRecord) := by
  apply Act.Invariant.read_bind
  intro leg
  apply Act.Invariant.bind (Act.Invariant.lift _)
  intro pieces
  apply Act.Invariant.bind (sendChunks_waits _ _)
  intro reply
  exact gatherReply_waits reply

/-- An ACK for which nothing is queued. -/
theorem gatherAck_waits (packet : EapTlsPacket) :
    Act.Invariant (Waits []) (gatherAck client fuel context packet) := by
  refine Act.Triple.read_bind fun leg waits => Act.Triple.at_state ?_ waits
  refine Act.Triple.ite (fun queued => absurd waits queued) fun _ => ?_
  apply Act.Invariant.ite (Act.Invariant.pure _)
  apply Act.Invariant.ite (Act.Invariant.pure _)
  apply Act.Invariant.bind (@waits_pull client []).echo
  intro upId
  apply Act.Invariant.bind (Act.Invariant.lift _)
  intro ack
  exact Act.Invariant.bind (exchange_waits ack) fun reply => gatherReply_waits (some reply)

theorem gatherData_waits (packet : EapTlsPacket) :
    Act.Invariant (Waits queue) (gatherData client fuel context packet) := by
  apply Act.Invariant.bind (Act.Invariant.of_ended fun _ waits => waits)
  intro complete
  cases complete with
  | none =>
      apply Act.Invariant.read_bind
      intro leg
      apply Act.Invariant.bind fun _ waits => waits
      intro _
      exact Act.Invariant.bind (Act.Invariant.lift _) fun _ => Act.Invariant.pure _
  | some tlsRecord =>
      exact Act.Invariant.bind (fun _ waits => waits) fun _ => gatherForward_waits tlsRecord

/-- **A packet that is no ACK, or comes when nothing waits, leaves the queue alone**, as long as
the server's record has not been handed over. -/
theorem gatherSupplicantEap_waits {eapBytes : Bytes} {start : Leg}
    (reassembling : start.session.mode = .reassemble)
    (stays : ∀ ack, parse eapBytes = .ok ack → ack.isAck = true → start.session.downOutbox = []) :
    (gatherSupplicantEap client fuel context eapBytes start).2.session.downOutbox =
      start.session.downOutbox := by
  rcases parsed : parse eapBytes with e | packet
  · simp only [gatherSupplicantEap, parsed, Act.lift_error_bind]
  · rw [gatherSupplicantEap_of_parse reassembling parsed]
    by_cases isAck : packet.isAck = true
    · rw [if_pos isAck]
      have empty := stays packet parsed isAck
      have arrives : Waits [] { start with session := arrived start.session packet } := empty
      exact ((gatherAck_waits packet).ended arrives).trans empty.symm
    · rw [if_neg isAck]
      exact (gatherData_waits packet).ended rfl

end Mediator

namespace Downstream

open Mediator

variable {env : Env} {fuel : ℕ}

/-! ## One datagram -/

/-- The sizes of the packets that were sent for a session. -/
def sizesTo (ref : ℕ) (σ : Server) : List ℕ := (σ.packetsTo ref).map List.length

theorem sizesTo_same {σ σ' : Server} (same : σ'.replies = σ.replies) (ref : ℕ) :
    sizesTo ref σ' = sizesTo ref σ := by
  rw [sizesTo, Server.packetsTo, same, ← Server.packetsTo, ← sizesTo]

theorem sizesTo_concat {σ σ' : Server} {sent : BuiltReply}
    (grown : σ'.replies = σ.replies ++ [sent]) (ref : ℕ) :
    sizesTo ref σ' =
      sizesTo ref σ ++ if sent.session = ref then [sent.reply.eap.length] else [] := by
  rw [sizesTo, Server.packetsTo, grown, List.filter_append, List.map_append, List.map_append,
    ← Server.packetsTo, ← sizesTo]
  by_cases own : sent.session = ref
  · simp [own]
  · simp [own]

/-- What a request sends for its session. -/
theorem handleRequest_sizes {addr : String × ℕ} {request : ApRequest} {σ : Server}
    {packet : EapTlsPacket}
    (returned : (handled env fuel addr request σ).1 = .ok (challengeOutcome packet)) :
    sizesTo (found env addr request σ).1 (handleRequest env fuel addr request σ).2 =
      sizesTo (found env addr request σ).1 σ ++ [(layout packet).length] := by
  rw [sizesTo_concat (handleRequest_answers returned), answer_eap]
  exact congrArg _ (if_pos rfl)

theorem handleRequest_waiting (addr : String × ℕ) (request : ApRequest) (σ : Server) :
    ((handleRequest env fuel addr request σ).2.objects (found env addr request σ).1).waiting =
      (handled env fuel addr request σ).2.session.waiting := by
  rw [Session.waiting, handleRequest_downOutbox, afterHandling, Server.put_objects_self,
    ← Session.waiting]

/-- The sizes of the packets of a record, when `acks` ACKs have come for them. -/
def fragmentSizes (size acks : ℕ) (tlsRecord : Bytes) : List ℕ :=
  (if tlsRecord.length < 2 ^ 32 then [10 + min size tlsRecord.length] else []) ++
    ((chunks size (tlsRecord.drop size)).map chunkPacketLength).take acks

/-- A record that is handed over is cut for the supplicant. -/
theorem handled_of_record {addr : String × ℕ} {request : ApRequest} {σ : Server}
    {tlsRecord : Bytes} (hands : handedOver env fuel addr request σ = some tlsRecord) :
    ∃ mid, handled env fuel addr request σ = deliverRecord tlsRecord mid := by
  rw [handedOver] at hands
  rw [handled_eq_gather]
  generalize gathered env fuel addr request σ = ended at hands ⊢
  rcases ended with ⟨e | outcome | whole, mid⟩
  · cases hands
  · cases hands
  · cases hands
    exact ⟨mid, rfl⟩

/-- Else the handling ends where the gathering does. -/
theorem handled_of_nothing {addr : String × ℕ} {request : ApRequest} {σ : Server}
    (nothing : handedOver env fuel addr request σ = none) :
    (handled env fuel addr request σ).2 = (gathered env fuel addr request σ).2 := by
  rw [handedOver] at nothing
  rw [handled_eq_gather]
  generalize gathered env fuel addr request σ = ended at nothing ⊢
  rcases ended with ⟨e | outcome | whole, mid⟩
  · rfl
  · rfl
  · cases nothing

/-- **A request that brings in a record of the server** sends its first packet. -/
theorem handleRequest_hands (valid : env.cfg.validate = .ok ()) {σ : Server}
    (regular : σ.Regular env) {addr : String × ℕ} {request : ApRequest} {tlsRecord : Bytes}
    (hands : handedOver env fuel addr request σ = some tlsRecord) :
    sizesTo (found env addr request σ).1 (handleRequest env fuel addr request σ).2 =
        sizesTo (found env addr request σ).1 σ ++
          fragmentSizes env.cfg.downstream.fragmentSize 0 tlsRecord ∧
      ((handleRequest env fuel addr request σ).2.objects (found env addr request σ).1).waiting =
        (chunks env.cfg.downstream.fragmentSize
          (tlsRecord.drop env.cfg.downstream.fragmentSize)).map chunkPacketLength := by
  have bounds := (Config.accepted_of_validate valid).downstream
  obtain ⟨mid, handles⟩ := handled_of_record hands
  have size : mid.session.downstreamFragmentSize = env.cfg.downstream.fragmentSize := by
    have kept := congrArg (fun leg : Leg => leg.session.downstreamFragmentSize)
      (deliver_unqueued tlsRecord mid)
    have settings := Session.settings_of_identity
      (@handled_trail env fuel addr request σ).identity
    rw [startOf_settings regular, handles] at settings
    exact kept.symm.trans (congrArg Session.Settings.downstreamFragmentSize settings)
  have positive : 0 < mid.session.downstreamFragmentSize := size ▸ bounds.1
  constructor
  · have first := deliver_first positive (size ▸ bounds.2) tlsRecord
    rw [← handles, size] at first
    rw [fragmentSizes, List.take_zero, List.append_nil]
    rcases first with ⟨large, e, raised⟩ | ⟨short, packet, returned, length⟩
    · rw [if_neg (Nat.not_lt.mpr large), List.append_nil]
      exact sizesTo_same (handleRequest_silent raised) _
    · rw [if_pos short, handleRequest_sizes returned, length]
  · rw [handleRequest_waiting, handles, deliver_waiting positive, size]

/-- The record of the server that a datagram brings in for the session `ref`. -/
def recordFor (env : Env) (fuel ref : ℕ) (datagram : Datagram) (σ : Server) : Option Bytes :=
  match datagram.decoded with
  | .ok request =>
      if Admitted request ∧ (found env datagram.addr request (σ.woken datagram)).1 = ref then
        handedOver env fuel datagram.addr request (σ.woken datagram)
      else none
  | .error _ => none

/-- A datagram brings the session `ref` an ACK while fragments wait. -/
def acksFragment (env : Env) (ref : ℕ) (datagram : Datagram) (σ : Server) : Bool :=
  match datagram.decoded with
  | .ok request =>
      decide (ComesTo env ref datagram.addr request (σ.woken datagram) ∧
        (σ.objects ref).downOutbox ≠ []) && (parse request.eap).toOption.any (·.isAck)
  | .error _ => false

/-- The packets that were sent for a session from `σ` to `σ'`. -/
def sentTo (ref : ℕ) (σ σ' : Server) : List Bytes :=
  (σ'.packetsTo ref).drop (σ.packetsTo ref).length

theorem sentTo_sizes {ref : ℕ} {σ σ' : Server} {sizes : List ℕ}
    (grown : sizesTo ref σ' = sizesTo ref σ ++ sizes) :
    (sentTo ref σ σ').map List.length = sizes := by
  have count : (sizesTo ref σ).length = (σ.packetsTo ref).length := List.length_map _
  rw [sentTo, List.map_drop, ← sizesTo, grown, ← count, List.drop_left]

/-- A turn that brings in a record of the server. -/
theorem serve_hands (valid : env.cfg.validate = .ok ()) {σ σ' : Server} (regular : σ.Regular env)
    {ref : ℕ} {datagram : Datagram} {tlsRecord : Bytes}
    (hands : recordFor env fuel ref datagram σ = some tlsRecord)
    (served : serve env fuel datagram σ = some σ') :
    ref < σ'.created ∧
      (sentTo ref σ σ').map List.length =
        fragmentSizes env.cfg.downstream.fragmentSize 0 tlsRecord ∧
      (σ'.objects ref).waiting = (chunks env.cfg.downstream.fragmentSize
        (tlsRecord.drop env.cfg.downstream.fragmentSize)).map chunkPacketLength := by
  rw [recordFor] at hands
  rcases decoded : datagram.decoded with e | request
  all_goals rw [decoded] at hands
  · cases hands
  by_cases comes : Admitted request ∧ (found env datagram.addr request (σ.woken datagram)).1 = ref
  · have handed : handedOver env fuel datagram.addr request (σ.woken datagram) = some tlsRecord :=
      (if_pos comes).symm.trans hands
    obtain ⟨admitted, here⟩ := comes
    subst here
    have woken := Regular.woken regular datagram
    obtain ⟨sizes, waiting⟩ := handleRequest_hands valid woken handed
    have same := serve_admitted decoded admitted served
    subst same
    exact ⟨(handleRequest_created woken.tabled datagram.addr request).2, sentTo_sizes sizes, waiting⟩
  · exact absurd ((if_neg comes).symm.trans hands) nofun

/-- An ACK for the session, while fragments wait. -/
theorem handleRequest_sends (reassembling : env.cfg.sessionMode = .reassemble) {σ : Server}
    (regular : σ.Regular env) {ref : ℕ} (queued : (σ.objects ref).Queued) (there : ref < σ.created)
    {addr : String × ℕ} {request : ApRequest} (here : (found env addr request σ).1 = ref)
    (noted : notes env addr request σ = .ok ()) (waits : (σ.objects ref).downOutbox ≠ [])
    {ack : EapTlsPacket} (parsed : parse request.eap = .ok ack) (isAck : ack.isAck = true) :
    (sentTo ref σ (handleRequest env fuel addr request σ).2).map List.length ++
        ((handleRequest env fuel addr request σ).2.objects ref).waiting =
      (σ.objects ref).waiting := by
  have start := @startOf_session env σ ref there addr request here
  have outbox : (startOf env addr request σ).session.downOutbox = (σ.objects ref).downOutbox :=
    congrArg (·.downOutbox) start
  have size : (startOf env addr request σ).session.downstreamFragmentSize =
      (σ.objects ref).downstreamFragmentSize := congrArg (·.downstreamFragmentSize) start
  obtain ⟨packet, returned, sent⟩ :=
    @handle_sends env.client fuel request.context (startOf env addr request σ) request.eap ack
      ((startOf_mode regular addr request).trans reassembling)
      (Session.Queued.of_view (Prod.ext size outbox) queued) (outbox ▸ waits) parsed isAck
  rw [← handled_of_parse parsed noted] at returned sent
  have same : (startOf env addr request σ).session.waiting = (σ.objects ref).waiting := by
    rw [Session.waiting, outbox, ← Session.waiting]
  subst here
  rw [sentTo_sizes (handleRequest_sizes returned), handleRequest_waiting, ← same, sent]
  rfl

/-- A request that neither releases a fragment nor brings in a record leaves the queue alone. -/
theorem handleRequest_stays (reassembling : env.cfg.sessionMode = .reassemble) {σ : Server}
    (regular : σ.Regular env) {ref : ℕ} (there : ref < σ.created) {addr : String × ℕ}
    {request : ApRequest} (here : (found env addr request σ).1 = ref)
    (nothing : handedOver env fuel addr request σ = none)
    (stays : notes env addr request σ = .ok () → ∀ ack, parse request.eap = .ok ack →
      ack.isAck = true → (σ.objects ref).downOutbox = []) :
    ((handleRequest env fuel addr request σ).2.objects ref).waiting = (σ.objects ref).waiting := by
  have start := @startOf_session env σ ref there addr request here
  have outbox : (startOf env addr request σ).session.downOutbox = (σ.objects ref).downOutbox :=
    congrArg (·.downOutbox) start
  have gathers : (gathered env fuel addr request σ).2.session.downOutbox =
      (σ.objects ref).downOutbox := by
    refine @gathered_elim env fuel
      (fun ended => ended.2.session.downOutbox = (σ.objects ref).downOutbox) addr request σ
      (fun noted => ?_) fun _ => outbox
    rw [← outbox, gatherRoute]
    by_cases tls : request.eap[4]? = some eapTypeTls
    · rw [if_pos tls]
      apply gatherSupplicantEap_waits ((startOf_mode regular addr request).trans reassembling)
      exact fun ack parsed isAck => outbox.trans (stays noted ack parsed isAck)
    · rw [if_neg tls, map_eq_pure_bind]
      have passes : Act.Invariant (Waits (startOf env addr request σ).session.downOutbox)
          (passthroughNonTls env request.context request.eap) :=
        passthroughNonTls_keeps (fun _ _ waits => waits) (exchange_waits request.eap)
      exact (Act.Invariant.bind passes fun outcome => Act.Invariant.pure (Sum.inl outcome)).ended rfl
  subst here
  rw [handleRequest_waiting, handled_of_nothing nothing, Session.waiting, gathers, ← Session.waiting]

/-- **A turn that brings in no record sends the next fragment for an ACK**, and else leaves the
queue alone. -/
theorem serve_sends (reassembling : env.cfg.sessionMode = .reassemble) {σ σ' : Server}
    (regular : σ.Regular env) {ref : ℕ} (queued : (σ.objects ref).Queued) (there : ref < σ.created)
    {datagram : Datagram} (nothing : recordFor env fuel ref datagram σ = none)
    (served : serve env fuel datagram σ = some σ') :
    (if acksFragment env ref datagram σ then (sentTo ref σ σ').map List.length else []) ++
      (σ'.objects ref).waiting = (σ.objects ref).waiting := by
  by_cases comes : ∃ request, datagram.decoded = .ok request ∧ Admitted request
  · obtain ⟨request, decoded, admitted⟩ := comes
    have same := serve_admitted decoded admitted served
    subst same
    have woken := Regular.woken regular datagram
    by_cases here : (found env datagram.addr request (σ.woken datagram)).1 = ref
    · have unhanded : handedOver env fuel datagram.addr request (σ.woken datagram) = none := by
        rw [recordFor, decoded] at nothing
        exact (if_pos ⟨admitted, here⟩).symm.trans nothing
      have released : acksFragment env ref datagram σ = true ↔
          (notes env datagram.addr request (σ.woken datagram) = .ok () ∧
            (σ.objects ref).downOutbox ≠ []) ∧
          ∃ ack, parse request.eap = .ok ack ∧ ack.isAck = true := by
        simp only [acksFragment, ComesTo, decoded, admitted, here, Bool.and_eq_true,
          decide_eq_true_eq, true_and]
        apply and_congr_right'
        cases parse request.eap with
        | error e => simp [Except.toOption]
        | ok ack => simp [Except.toOption]
      by_cases releases : acksFragment env ref datagram σ = true
      · obtain ⟨⟨noted, waits⟩, ack, parsed, isAck⟩ := released.mp releases
        rw [if_pos releases]
        exact handleRequest_sends reassembling woken queued there here noted waits parsed isAck
      · rw [if_neg releases]
        apply handleRequest_stays reassembling woken there here unhanded
        intro noted ack parsed isAck
        by_contra waits
        exact releases (released.mpr ⟨⟨noted, waits⟩, ack, parsed, isAck⟩)
    · have elsewhere : ¬ acksFragment env ref datagram σ = true := by
        simp [acksFragment, ComesTo, decoded, here]
      have waiting := congrArg (fun s : Session => s.waiting)
        (@handleRequest_other env fuel (σ.woken datagram) ref there _ _ (Ne.symm here))
      rw [if_neg elsewhere]
      exact waiting
  · have ignored : ¬ acksFragment env ref datagram σ = true := by
      rw [acksFragment]
      rcases decoded : datagram.decoded with e | request
      · exact Bool.false_ne_true
      · have refused : ¬ Admitted request := fun admitted => comes ⟨request, decoded, admitted⟩
        simp [ComesTo, refused]
    rw [if_neg ignored, serve_dropped comes served]
    rfl

/-- The packets in which a run sends what waits for the session `ref`. -/
def laterFragments (env : Env) (fuel ref : ℕ) : List Datagram → Server → List Bytes
  | [], _ => []
  | datagram :: datagrams, σ =>
      match serve env fuel datagram σ with
      | some σ' =>
          (if acksFragment env ref datagram σ then sentTo ref σ σ' else []) ++
            laterFragments env fuel ref datagrams σ'
      | none => []

/-- **What a run sends of a record**, until the server's next one comes in. -/
theorem run_sends (valid : env.cfg.validate = .ok ())
    (reassembling : env.cfg.sessionMode = .reassemble) {ref : ℕ} {datagrams : List Datagram} :
    ∀ {before : List Datagram} {σ σ' : Server}, run env fuel before (initial env) = some σ →
      ref < σ.created →
      Along (serve env fuel) (fun datagram σ => recordFor env fuel ref datagram σ = none) datagrams σ →
      run env fuel datagrams σ = some σ' →
        (laterFragments env fuel ref datagrams σ).map List.length ++ (σ'.objects ref).waiting =
          (σ.objects ref).waiting := by
  induction datagrams with
  | nil =>
      intro before σ σ' _ _ _ ran
      cases ran
      rfl
  | cons datagram datagrams ih =>
      intro before σ σ' reached there nothing ran
      obtain ⟨mid, served, rest⟩ := Option.bind_eq_some_iff.mp ran
      have regular := regular_of_run reached
      have first := serve_sends reassembling regular ((queued_rule valid fuel).holds reached ref)
        there nothing.1 served
      have later := ih (runAll_concat reached served)
        (there.trans_le (serve_created regular served)) (nothing.2 mid served) rest
      rw [laterFragments, served, List.map_append, List.append_assoc, later, ← first]
      congr 1
      split
      · rfl
      · rfl

/-! ## The link of the AP -/

/-- A record that is cut to `size` fits a link of `mtu` octets, when `later` of its packets follow
the first. The first packet of a record whose length takes more than four octets is not sent. -/
def FitsLink (size mtu later : ℕ) (tlsRecord : Bytes) : Prop :=
  if tlsRecord.length < 2 ^ 32 then 10 + min size tlsRecord.length ≤ mtu
  else later = 0 ∨ 6 + size ≤ mtu

theorem fits_link_of_le {size mtu later : ℕ} {tlsRecord : Bytes}
    (short : tlsRecord.length < 2 ^ 32) (fits : 10 + min size tlsRecord.length ≤ mtu) :
    FitsLink size mtu later tlsRecord := by
  rw [FitsLink, if_pos short]
  exact fits

/-- The first packet of a record is the largest, where there is one. -/
theorem fragmentSizes_fit_iff {size : ℕ} (positive : 0 < size) (small : size ≤ 65000)
    (mtu later : ℕ) (tlsRecord : Bytes) :
    (∀ octets ∈ fragmentSizes size later tlsRecord, octets ≤ mtu) ↔
      FitsLink size mtu later tlsRecord := by
  rw [fragmentSizes, FitsLink]
  by_cases short : tlsRecord.length < 2 ^ 32
  · rw [if_pos short, if_pos short, List.singleton_append, List.forall_mem_cons]
    apply and_iff_left_of_imp
    intro first octets member
    obtain ⟨chunk, inRest, rfl⟩ := List.mem_map.mp (List.mem_of_mem_take member)
    have length := length_le_of_mem_chunks inRest
    have long : size < tlsRecord.length := by
      by_contra all
      rw [List.drop_eq_nil_of_le (Nat.le_of_not_lt all), chunks_nil positive] at inRest
      cases inRest
    rw [min_eq_left long.le] at first
    rw [chunkPacketLength]
    omega
  · rw [if_neg short, if_neg short, List.nil_append]
    have rest : tlsRecord.drop size ≠ [] := by
      rw [ne_eq, List.drop_eq_nil_iff]
      omega
    have first : ((tlsRecord.drop size).take size).length = size := by
      rw [List.length_take, List.length_drop]
      omega
    constructor
    · intro fit
      rcases later with _ | later
      · exact .inl rfl
      · rw [chunks_cut positive rest, List.map_cons, List.take_succ_cons, chunkPacketLength,
          first] at fit
        exact .inr (fit _ List.mem_cons_self)
    · rintro (rfl | fits) octets member
      · cases member
      · obtain ⟨chunk, inRest, rfl⟩ := List.mem_map.mp (List.mem_of_mem_take member)
        have length := length_le_of_mem_chunks inRest
        rw [chunkPacketLength]
        omega

/-- **What is sent of a record fits a link exactly if the configured size, or the record, is small
enough for it**, whatever the AP advertised. -/
theorem fragments_fit_iff (valid : env.cfg.validate = .ok ())
    (reassembling : env.cfg.sessionMode = .reassemble) {before : List Datagram} {σ : Server}
    (reached : run env fuel before (initial env) = some σ) {ref : ℕ} {opening : Datagram}
    {tlsRecord : Bytes} (hands : recordFor env fuel ref opening σ = some tlsRecord) {σ₁ : Server}
    (served : serve env fuel opening σ = some σ₁) {datagrams : List Datagram}
    (nothing : Along (serve env fuel) (fun datagram σ => recordFor env fuel ref datagram σ = none)
      datagrams σ₁) {σ₂ : Server} (ran : run env fuel datagrams σ₁ = some σ₂) (mtu : ℕ) :
    (∀ packet ∈ sentTo ref σ σ₁ ++ laterFragments env fuel ref datagrams σ₁, packet.length ≤ mtu) ↔
      FitsLink env.cfg.downstream.fragmentSize mtu (laterFragments env fuel ref datagrams σ₁).length
        tlsRecord := by
  have bounds := (Config.accepted_of_validate valid).downstream
  obtain ⟨there, first, waiting⟩ := serve_hands valid (regular_of_run reached) hands served
  have later := run_sends valid reassembling (runAll_concat reached served) there nothing ran
  generalize laterFragments env fuel ref datagrams σ₁ = fragments at later
  have taken : fragments.map List.length = (σ₁.objects ref).waiting.take fragments.length := by
    rw [← later, List.take_left' (List.length_map _)]
  have sizes : (sentTo ref σ σ₁ ++ fragments).map List.length =
      fragmentSizes env.cfg.downstream.fragmentSize fragments.length tlsRecord := by
    rw [List.map_append, first, taken, waiting, fragmentSizes, List.take_zero, List.append_nil,
      fragmentSizes]
  rw [← fragmentSizes_fit_iff bounds.1 bounds.2, ← sizes, List.forall_mem_map]

/-- A link of eleven octets has room for one octet of TLS data in the first packet. -/
theorem fragments_fit_sample :
    ∃ σ σ', serve cutting 0 (ackWith none 7) (initial cutting) = some σ ∧
      run cutting 0 [ackWith (some [0]) 8] σ = some σ' ∧
      ∀ packet ∈ sentTo 0 (initial cutting) σ ++
        laterFragments cutting 0 0 [ackWith (some [0]) 8] σ, packet.length ≤ 11 := by
  refine ⟨_, _, rfl, rfl, ?_⟩
  apply (@fragments_fit_iff cutting 0 (by decide) rfl [] _ rfl 0 (ackWith none 7) [1, 2, 3]
    (by decide +kernel) _ rfl [ackWith (some [0]) 8] ⟨by decide +kernel, fun _ _ => trivial⟩ _
    rfl 11).mpr
  exact @fits_link_of_le 1 11 _ [1, 2, 3] (by decide) (by decide)

/-- The server answers the supplicant's first TLS packet with a record of 60 octets. -/
def narrowLink : Env := answeringInTurn "reassemble" [emptyChallenge,
  { emptyChallenge with
    eapMessage := [[codeRequest, 9, 0, 66, eapTypeTls, 0] ++ List.replicate 60 0] }]

/-- The first request of a session, whose AP has a link of 64 octets. -/
def advertising : Datagram :=
  datagramOf { requestWith none [codeResponse, 7, 0, 6, 1, 97] with
    nasAttrs := [(.framedMtu, .ok (.integer 64))] }

/-- The supplicant's first TLS packet. -/
def firstTlsPacket : Datagram :=
  datagramOf (requestWith (some [0]) [codeResponse, 8, 0, 7, eapTypeTls, 0, 22])

/-- A packet of 70 octets is sent to an AP that advertised a Framed-MTU of 64. -/
theorem framed_mtu_exceeded :
    narrowLink.cfg.validate = .ok () ∧ narrowLink.cfg.sessionMode = .reassemble ∧
    ∃ σ σ', run narrowLink 0 [advertising] (initial narrowLink) = some σ ∧
      (σ.objects 0).apAttrs = [(.framedMtu, .integer 64)] ∧
      recordFor narrowLink 0 0 firstTlsPacket σ = some (List.replicate 60 0) ∧
      serve narrowLink 0 firstTlsPacket σ = some σ' ∧
      (sentTo 0 σ σ').map List.length = [70] ∧
      ¬ ∀ packet ∈ sentTo 0 σ σ', packet.length ≤ 64 := by
  have octets : ∀ {packets : List Bytes}, packets.map List.length = [70] →
      ¬ ∀ packet ∈ packets, packet.length ≤ 64 := by
    intro packets size fit
    have within : ∀ octets ∈ packets.map List.length, octets ≤ 64 := List.forall_mem_map.mpr fit
    rw [size] at within
    exact absurd (within 70 List.mem_cons_self) (by decide)
  exact ⟨by decide, rfl, _, _, rfl, rfl, by decide +kernel, rfl, by decide +kernel,
    octets (by decide +kernel)⟩

end Downstream
end EapAccel
