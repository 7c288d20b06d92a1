import EapAccel.Downstream.Identifiers
import EapAccel.Downstream.Terminal
import EapAccel.EapTls.Grammar

/-!
# Replies that keep the conversation going

Several outcomes of the mediator have no EAP packet, and an Access-Challenge without one leaves
the AP and the supplicant waiting. They are not reached in reassemble mode where every reply of
the server carries the EAP packet that its code asks for, and what the proxy sends and reports
goes out: `handleSupplicantEap_speaks` for one handling, `replies_alive` for the replies that are
built in a run, `conversations_alive` for what goes out. A session that has its verdict is
forgotten then, so nothing is asked of it again.
-/

set_option autoImplicit false

namespace EapAccel

open Foundations EapTls

/-- An EAP packet whose Length is its size. -/
structure Framed (eap : Bytes) : Prop where
  header : 4 ≤ eap.length
  length : declaredLen eap = eap.length

/-- The EAP code that goes with a RADIUS code. -/
structure CodesAgree (radius : UInt8) (eap : Bytes) : Prop where
  known : radius = accessChallenge ∨ radius = accessAccept ∨ radius = accessReject
  request : radius = accessChallenge → eap[0]? = some codeRequest
  success : radius = accessAccept → eap[0]? = some codeSuccess
  failure : radius = accessReject → eap[0]? = some codeFailure

/-- A reply of the server that carries an EAP packet as its code has it. -/
structure RadiusReply.Proper (reply : RadiusReply) : Prop where
  framed : Framed reply.eap
  codes : CodesAgree reply.code reply.eap

/-- An outcome with an EAP packet as its action has it. -/
def Outcome.Speaks (outcome : Outcome) : Prop :=
  ∃ eap, outcome.eapBytes = some eap ∧ Framed eap ∧ CodesAgree outcome.action.code eap

/-- What `build` writes is framed. -/
theorem framed_of_build {code identifier : UInt8} {tlsData : Bytes} {moreFragments : Bool}
    {tlsMessageLength : Option ℕ} {eap : Bytes}
    (built : build code identifier tlsData moreFragments tlsMessageLength false = .ok eap) :
    Framed eap := by
  have fits : 6 + (lengthField tlsMessageLength).length + tlsData.length < 256 ^ 2 :=
    (fits_of_build built).total
  rw [layout_of_build built]
  constructor
  · rw [length_layout]
    omega
  · rw [length_layout]
    exact BigEndian.ofBytes_toBytes fits

theorem codesAgree_request {eap : Bytes} (request : eap[0]? = some codeRequest) :
    CodesAgree accessChallenge eap := by
  refine ⟨.inl rfl, fun _ => request, ?_, ?_⟩
  · exact fun wrong => absurd wrong (by decide)
  · exact fun wrong => absurd wrong (by decide)

theorem codesAgree_success {eap : Bytes} (success : eap[0]? = some codeSuccess) :
    CodesAgree accessAccept eap := by
  refine ⟨.inr (.inl rfl), ?_, fun _ => success, ?_⟩
  · exact fun wrong => absurd wrong (by decide)
  · exact fun wrong => absurd wrong (by decide)

theorem codesAgree_failure {eap : Bytes} (failure : eap[0]? = some codeFailure) :
    CodesAgree accessReject eap := by
  refine ⟨.inr (.inr rfl), ?_, ?_, fun _ => failure⟩
  · exact fun wrong => absurd wrong (by decide)
  · exact fun wrong => absurd wrong (by decide)

/-- What `build` writes with the code of a Request can go to the supplicant. -/
theorem speaks_of_build {identifier : UInt8} {tlsData : Bytes} {moreFragments : Bool}
    {tlsMessageLength : Option ℕ} {eap : Bytes} {action : Action} {echoId : Option UInt8}
    (challenges : action.code = accessChallenge)
    (built : build codeRequest identifier tlsData moreFragments tlsMessageLength false = .ok eap) :
    ({ action := action, eapBytes := some eap, echoId := echoId } : Outcome).Speaks :=
  ⟨eap, rfl, framed_of_build built, challenges ▸ codesAgree_request (head_of_build built).1⟩

namespace Mediator

variable {client : UpstreamClient} {context : AuthContext} {fuel : ℕ}

/-- Whatever the computation does. -/
theorem any {α : Type} (x : Act Raised Leg α) :
    Act.Triple (fun _ => True) x (fun _ _ => True) (fun _ _ => True) := by
  intro leg _
  rcases x leg with ⟨_ | _, _⟩ <;> trivial

/-- The server's replies are proper. -/
def ProperServer (client : UpstreamClient) : Prop :=
  ∀ before request reply, client.respond before request = .ok reply → reply.Proper

/-- A reply of the server as it comes back from an exchange. -/
def GoodReply (reply : Reply) : Prop := ∃ answer : RadiusReply, answer.Proper ∧ reply = answer.normalise

theorem exchange_good (proper : ProperServer client) (eapPayload : Bytes) :
    Act.Triple (fun _ => True) (exchange client eapPayload context) (fun reply _ => GoodReply reply)
      (fun _ _ => True) := by
  intro leg _
  rw [exchange_eq]
  rcases outcome : leg.outcome client eapPayload context with e | answer
  · trivial
  · obtain ⟨packet, _, responded⟩ := UpstreamClient.sent_of_answer outcome
    exact ⟨answer, proper _ packet _ responded, rfl⟩

/-- A proper reply has its EAP packet in it. -/
theorem GoodReply.cases {reply : Reply} (good : GoodReply reply) :
    ∃ eap, reply.eapMessages = [eap] ∧ Framed eap ∧
      (reply.accept = true → eap[0]? = some codeSuccess) ∧
      (reply.reject = true → eap[0]? = some codeFailure) ∧
      (reply.accept = false → reply.reject = false → eap[0]? = some codeRequest) := by
  obtain ⟨answer, ⟨framed, codes⟩, rfl⟩ := good
  have present : answer.eapMessage.flatten ≠ [] := by
    intro empty
    have long := framed.header
    rw [RadiusReply.eap, empty] at long
    cases long
  have some : answer.eapMessage ≠ [] := by
    intro empty
    exact present (by rw [empty]; rfl)
  refine ⟨answer.eap, ?_, framed, ?_, ?_, ?_⟩
  · rw [RadiusReply.normalise, concatEapMessages, if_neg some, if_neg present]
    rfl
  · exact fun accept => codes.success (eq_of_beq accept)
  · exact fun reject => codes.failure (eq_of_beq reject)
  · intro accept reject
    rcases codes.known with challenge | accepts | rejects
    · exact codes.request challenge
    · exact absurd accepts (ne_of_beq_false accept)
    · exact absurd rejects (ne_of_beq_false reject)

/-! ## Verdicts -/

/-- Restamping leaves the code and the frame. -/
theorem speaks_restamped (session : Session) {eap : Bytes} {action : Action} (framed : Framed eap)
    (codes : CodesAgree action.code eap) (echoId : Option UInt8) :
    ({ action := action, eapBytes := restampTerminal session (some eap), echoId := echoId } :
      Outcome).Speaks := by
  obtain ⟨code, other, rest, rfl⟩ : ∃ code other rest, eap = code :: other :: rest := by
    rcases eap with _ | ⟨code, _ | ⟨other, rest⟩⟩
    · exact absurd framed.header (by decide)
    · exact absurd framed.header (by simp)
    · exact ⟨code, other, rest, rfl⟩
  cases last : session.downLastReqId with
  | none =>
      refine ⟨code :: other :: rest, ?_, framed, codes⟩
      simp only [restampTerminal, last]
  | some identifier =>
      refine ⟨code :: identifier :: rest, ?_, ⟨framed.header, framed.length⟩, ?_⟩
      · simp only [restampTerminal, last]
      · exact ⟨codes.known, codes.request, codes.success, codes.failure⟩

/-- The session has a verdict, and an EAP packet to go with it. -/
def Sealed (leg : Leg) : Prop :=
  (leg.session.result = some .accept ∧ (acceptOutcome leg.session).Speaks) ∨
    (leg.session.result = some .reject ∧ (rejectOutcome leg.session).Speaks)

theorem Sealed.speaks {leg : Leg} (holds : Sealed leg) : (storedOutcome leg.session).Speaks := by
  rw [storedOutcome]
  rcases holds with ⟨result, speaks⟩ | ⟨result, speaks⟩
  · rw [if_pos result]
    exact speaks
  · rw [if_neg (by rw [result]; decide)]
    exact speaks

theorem accepted_speaks (session : Session) {eap : Bytes} (framed : Framed eap)
    (success : eap[0]? = some codeSuccess) (stored : session.pendingSuccess = some eap) :
    (acceptOutcome session).Speaks := by
  rw [acceptOutcome, stored]
  exact @speaks_restamped session eap .accept framed (codesAgree_success success) _

theorem rejected_speaks (session : Session) {eap : Bytes} (framed : Framed eap)
    (failure : eap[0]? = some codeFailure) (stored : session.pendingFailure = some eap) :
    (rejectOutcome session).Speaks := by
  rw [rejectOutcome, stored]
  exact @speaks_restamped session eap .reject framed (codesAgree_failure failure) _

/-- Storing what came with a verdict. -/
theorem finish_sealed {reply : Reply} (good : GoodReply reply) :
    (reply.accept = true → Act.Triple (fun _ => True) (finishAccept reply.eapMessages.head?)
      (fun _ leg => leg.session.result = some .accept ∧ (acceptOutcome leg.session).Speaks)
      (fun _ _ => True)) ∧
    (reply.reject = true → Act.Triple (fun _ => True) (finishReject reply.eapMessages.head?)
      (fun _ leg => leg.session.result = some .reject ∧ (rejectOutcome leg.session).Speaks)
      (fun _ _ => True)) := by
  obtain ⟨eap, messages, framed, accepts, rejects, _⟩ := good.cases
  rw [messages]
  constructor
  · exact fun accept leg _ => ⟨rfl, accepted_speaks _ framed (accepts accept) rfl⟩
  · exact fun reject leg _ => ⟨rfl, rejected_speaks _ framed (rejects reject) rfl⟩

/-! ## Fragments for the supplicant -/

/-- **A queued fragment is a Request.** -/
theorem release_speaks (ackedId : Option UInt8) :
    Act.Triple (fun leg => leg.session.downOutbox ≠ []) (sendNextDownstreamFragment ackedId)
      (fun outcome _ => outcome.Speaks) (fun _ _ => True) := by
  intro leg queued
  rcases outbox : leg.session.downOutbox with _ | ⟨⟨idx, chunk⟩, rest⟩
  · exact absurd outbox queued
  simp only [sendNextDownstreamFragment, Act.read_bind, outbox, updateSession, Act.modify_bind]
  rcases built : build codeRequest leg.session.nextDownId chunk
    (idx < leg.session.downNchunks - 1) (if idx = 0 then some leg.session.downTotal else none)
      false with e | eapFrag
  · trivial
  · exact speaks_of_build rfl built

/-- **A record that is handed over begins with a Request.** -/
theorem deliver_speaks (tlsRecord : Bytes) :
    Act.Triple (fun _ => True) (deliverRecord tlsRecord) (fun outcome _ => outcome.Speaks)
      (fun _ _ => True) := by
  apply Act.Triple.bind (any _)
  intro _
  apply Act.Triple.read_bind
  intro leg _
  rcases cut : fragment tlsRecord leg.session.downstreamFragmentSize with e | pieces
  · exact fun _ _ => trivial
  rw [Act.bind_lift_ok]
  rintro _ rfl
  rw [updateSession, Act.modify_bind]
  apply release_speaks none
  intro empty
  exact fragment_ne_nil cut (List.zipIdx_eq_nil_iff.mp (List.map_eq_nil_iff.mp empty))

/-! ## The server's answer -/

/-- **Where the drain comes to no record, it has stored a verdict.** -/
theorem drain_seals (proper : ProperServer client) : ∀ (fuel : ℕ) (lastPkt : EapTlsPacket),
    Act.Triple (fun _ => True) (drainUpstreamFragments client context fuel lastPkt)
      (fun returned leg => returned = none → Sealed leg) (fun _ _ => True) := by
  intro fuel
  induction fuel with
  | zero =>
      intro lastPkt
      rw [drainUpstreamFragments]
      apply Act.Triple.ite
      · exact fun _ => Act.Triple.raise fun _ _ => trivial
      · exact fun _ => Act.Triple.read_bind fun leg _ => Act.Triple.pure fun _ _ none => by cases none
  | succ fuel ih =>
      intro lastPkt
      cases more : lastPkt.moreFragments with
      | false =>
          intro leg _
          rw [drain_last more leg]
          intro none
          cases none
      | true =>
          rw [drainUpstreamFragments, if_pos more]
          apply Act.Triple.bind (any _)
          intro ackId
          apply Act.Triple.bind (any _)
          intro ack
          apply Act.Triple.bind (any _)
          intro _
          apply Act.Triple.bind (exchange_good proper ack)
          intro reply
          apply Act.Triple.of_states
          intro leg good
          obtain ⟨accepts, rejects⟩ := finish_sealed good
          obtain ⟨eap, messages, _⟩ := good.cases
          apply Act.Triple.conseq _ (fun _ _ => trivial) (fun _ _ => id) (fun _ _ => id)
          apply Act.Triple.ite
          · intro accept
            apply Act.Triple.bind (accepts accept)
            exact fun _ => Act.Triple.pure fun _ stored _ => .inl stored
          intro _
          apply Act.Triple.ite
          · intro reject
            apply Act.Triple.bind (rejects reject)
            exact fun _ => Act.Triple.pure fun _ stored _ => .inr stored
          intro _
          rw [messages]
          apply Act.Triple.bind (any _)
          intro packet
          apply Act.Triple.bind (any _)
          intro done
          cases done with
          | some record => exact Act.Triple.pure fun _ _ none => by cases none
          | none => exact ih packet

/-- **Handling a reply** tells the supplicant something. -/
theorem handleUpstreamReply_speaks (proper : ProperServer client) {reply : Reply}
    (good : GoodReply reply) :
    Act.Triple (fun _ => True) (handleUpstreamReply client fuel context (some reply))
      (fun outcome _ => outcome.Speaks) (fun _ _ => True) := by
  obtain ⟨accepts, rejects⟩ := finish_sealed good
  obtain ⟨eap, messages, _⟩ := good.cases
  rw [handleUpstreamReply]
  apply Act.Triple.ite
  · intro accept
    apply Act.Triple.bind (accepts accept)
    exact fun _ => Act.Triple.read_bind fun leg stored => Act.Triple.pure fun _ _ => stored.2
  intro _
  apply Act.Triple.ite
  · intro reject
    apply Act.Triple.bind (rejects reject)
    exact fun _ => Act.Triple.read_bind fun leg stored => Act.Triple.pure fun _ _ => stored.2
  intro _
  rw [messages]
  apply Act.Triple.bind (any _)
  intro packet
  apply Act.Triple.bind (any _)
  intro complete
  cases complete with
  | some record => exact deliver_speaks record
  | none =>
      apply Act.Triple.bind (drain_seals proper fuel packet)
      intro drained
      cases drained with
      | some record =>
          exact Act.Triple.conseq (deliver_speaks record) (fun _ _ => trivial) (fun _ _ => id)
            (fun _ _ => id)
      | none =>
          apply Act.Triple.read_bind
          intro leg stored
          exact Act.Triple.pure fun _ _ => (stored rfl).speaks

/-! ## The supplicant's packets -/

/-- The reply to the last chunk of a record is a good one. -/
theorem sendChunks_good (proper : ProperServer client) (total count : ℕ) :
    ∀ (pieces : List Bytes) (idx : ℕ) (reply : Option Reply),
      (pieces = [] → ∃ last, reply = some last ∧ GoodReply last) →
        Act.Triple (fun _ => True) (sendChunks client context total count idx pieces reply)
          (fun reply _ => ∃ last, reply = some last ∧ GoodReply last) (fun _ _ => True) := by
  intro pieces
  induction pieces with
  | nil => exact fun idx reply good => Act.Triple.pure fun _ _ => good rfl
  | cons chunk rest ih =>
      intro idx reply _
      rw [sendChunks]
      apply Act.Triple.bind (any _)
      intro upId
      apply Act.Triple.bind (any _)
      intro eapFrag
      apply Act.Triple.bind (any _)
      intro _
      apply Act.Triple.bind (exchange_good proper eapFrag)
      intro reply
      apply Act.Triple.of_states
      intro leg good
      exact Act.Triple.at_state (ih (idx + 1) (some reply) fun _ => ⟨reply, rfl, good⟩) trivial

theorem forward_speaks (proper : ProperServer client) (tlsRecord : Bytes) :
    Act.Triple (fun _ => True) (forwardRecordUpstream client fuel context tlsRecord)
      (fun outcome _ => outcome.Speaks) (fun _ _ => True) := by
  apply Act.Triple.read_bind
  intro leg _
  rcases cut : fragment tlsRecord leg.session.upstreamFragmentSize with e | pieces
  · exact fun _ _ => trivial
  rw [Act.bind_lift_ok]
  apply Act.Triple.bind (Act.Triple.at_state (sendChunks_good proper _ _ pieces 0 none
    fun empty => absurd empty (fragment_ne_nil cut)) trivial)
  intro reply
  apply Act.Triple.of_states
  rintro after ⟨last, rfl, good⟩
  exact Act.Triple.at_state (handleUpstreamReply_speaks proper good) trivial

/-- An ACK in a session without a verdict. -/
theorem handleAck_speaks (proper : ProperServer client) (packet : EapTlsPacket) :
    Act.Triple (fun leg => leg.session.result = none) (handleAck client fuel context packet)
      (fun outcome _ => outcome.Speaks) (fun _ _ => True) := by
  apply Act.Triple.read_bind
  intro leg waiting
  apply Act.Triple.ite
  · exact fun queued => Act.Triple.at_state (release_speaks _) queued
  intro _
  rw [if_neg (by rw [waiting]; exact nofun), if_neg (by rw [waiting]; exact nofun)]
  apply Act.Triple.conseq _ (fun _ _ => trivial) (fun _ _ => id) (fun _ _ => id)
  apply Act.Triple.bind (any _)
  intro upId
  apply Act.Triple.bind (any _)
  intro ack
  apply Act.Triple.bind (exchange_good proper ack)
  intro reply
  apply Act.Triple.of_states
  intro after good
  exact Act.Triple.at_state (handleUpstreamReply_speaks proper good) trivial

theorem handleData_speaks (proper : ProperServer client) (packet : EapTlsPacket) :
    Act.Triple (fun _ => True) (handleData client fuel context packet)
      (fun outcome _ => outcome.Speaks) (fun _ _ => True) := by
  apply Act.Triple.bind (any _)
  intro complete
  cases complete with
  | none =>
      rintro leg _
      simp only [Act.read_bind, updateSession, Act.modify_bind, buildAck_eq_ok, Act.lift_ok_bind]
      exact speaks_of_build rfl (buildAck_eq_ok codeRequest _)
  | some record =>
      apply Act.Triple.bind (any _)
      exact fun _ => forward_speaks proper record

/-- **A packet of the supplicant in reassemble mode is answered with an EAP packet**, as long as
the session has no verdict. -/
theorem handleSupplicantEap_speaks (proper : ProperServer client) {eapBytes : Bytes} {leg leg' : Leg}
    {outcome : Outcome} (reassembling : leg.session.mode = .reassemble)
    (waiting : leg.session.result = none)
    (returned : handleSupplicantEap client fuel context eapBytes leg = (.ok outcome, leg')) :
    outcome.Speaks := by
  rcases parsed : parse eapBytes with e | packet
  · rw [handle_unparsed parsed] at returned
    cases returned
  cases ack : packet.isAck with
  | true =>
      rw [handle_ack_eq reassembling parsed ack] at returned
      exact @Act.Triple.returned _ _ _ _ _ _ _ (handleAck_speaks proper packet)
        { leg with session := arrived leg.session packet } _ _ waiting returned
  | false =>
      rw [handle_data_eq reassembling parsed ack] at returned
      exact (handleData_speaks proper packet).returned trivial returned

end Mediator

namespace Downstream

open Mediator

variable {env : Env} {fuel : ℕ}

theorem passthroughNonTls_speaks {context : AuthContext} (proper : ProperServer env.client)
    (eapBytes : Bytes) :
    Act.Triple (fun _ => True) (passthroughNonTls env context eapBytes)
      (fun outcome _ => outcome.Speaks) (fun _ _ => True) := by
  apply Act.Triple.bind (exchange_good proper eapBytes)
  intro reply
  apply Act.Triple.of_states
  intro leg good
  obtain ⟨eap, messages, framed, accepts, rejects, challenges⟩ := good.cases
  have head : reply.eapMessages.head? = some eap := by rw [messages]; rfl
  rw [head]
  apply Act.Triple.ite
  · intro accept leg' _
    exact ⟨eap, rfl, framed, codesAgree_success (accepts accept)⟩
  intro accept
  apply Act.Triple.ite
  · intro reject leg' _
    exact ⟨eap, rfl, framed, codesAgree_failure (rejects reject)⟩
  intro reject leg' _
  have request := challenges (Bool.eq_false_iff.mpr accept) (Bool.eq_false_iff.mpr reject)
  exact ⟨eap, rfl, framed, codesAgree_request request⟩

/-- **Every route answers with an EAP packet**, as long as the session has no verdict. -/
theorem route_speaks {context : AuthContext} (proper : ProperServer env.client) {eapBytes : Bytes}
    {leg leg' : Leg} {outcome : Outcome} (reassembling : leg.session.mode = .reassemble)
    (waiting : leg.session.result = none)
    (returned : route env fuel context eapBytes leg = (.ok outcome, leg')) : outcome.Speaks := by
  rw [route, Act.ite_apply] at returned
  by_cases tls : eapBytes[4]? = some eapTypeTls
  · rw [if_pos tls] at returned
    exact handleSupplicantEap_speaks proper reassembling waiting returned
  · rw [if_neg tls] at returned
    exact (passthroughNonTls_speaks proper eapBytes).returned trivial returned

/-! ## Sessions without a verdict -/

/-- A handling that hands over no verdict leaves the session without one. -/
theorem Handled.waiting {count : ℕ} {start leg : Leg} {result : Except Raised Outcome}
    (handled : Handled count start result leg) (waiting : start.session.result = none)
    (silent : ∀ outcome, result = .ok outcome → outcome.action.verdict = none) :
    leg.session.result = none := by
  cases result with
  | error e =>
      obtain ⟨_, mid, _, _, kept, _, _, _, kept'⟩ := handled
      exact kept'.trans (kept.trans waiting)
  | ok outcome =>
      rcases handled with ⟨_, mid, _, _, kept, delivered⟩ | ⟨same, _⟩
      · rw [Delivered, silent outcome rfl] at delivered
        obtain ⟨_, _, _, kept'⟩ := delivered
        exact kept'.trans (kept.trans waiting)
      · have kept : leg.session.result = start.session.result := congrArg (fun v => v.2.2) same
        exact kept.trans waiting

/-- The sessions in the table have no verdict. -/
def Undecided (σ : Server) : Prop := ∀ ref, σ.Live ref → (σ.objects ref).result = none

theorem startOf_waiting {σ : Server} (undecided : Undecided σ) (addr : String × ℕ)
    (request : ApRequest) : (startOf env addr request σ).session.result = none := by
  show ((found env addr request σ).2.objects (found env addr request σ).1).result = none
  rcases opened_cases σ env (sessionKey request addr request.eap) with ⟨lookup, same⟩ | ⟨new, grown⟩
  · rw [found, same]
    exact undecided _ ⟨_, mem_of_lookup lookup⟩
  · rw [found, grown, new]
    simp [Server.grow, Session.create]

/-- **One request leaves only sessions without a verdict in the table.** -/
theorem Undecided.handleRequest (delivers : Delivers env) {σ : Server} (regular : σ.Regular env)
    (undecided : Undecided σ) (addr : String × ℕ) (request : ApRequest) :
    Undecided (handleRequest env fuel addr request σ).2 := by
  intro ref live
  have unnamed := @handleRequest_unnamed env fuel addr request σ ref
  have of_unnamed : ∀ session : Session, session.unnamed.result = session.result := fun _ => rfl
  rw [← of_unnamed, unnamed, of_unnamed]
  by_cases here : ref = (found env addr request σ).1
  · rw [here] at live ⊢
    rw [afterHandling, Server.put_objects_self]
    apply Handled.waiting (handled_handled addr request σ) (startOf_waiting undecided addr request)
    intro outcome returned
    by_contra told
    obtain ⟨v, said⟩ := Option.ne_none_iff_exists'.mp told
    have concluded : (Downstream.handleRequest env fuel addr request σ).1 = .ok () := by
      rw [handleRequest_of_ok returned]
      exact conclude_returns delivers _ request outcome _
    exact handleRequest_drops regular.tabled returned said concluded live
  · rw [afterHandling, Server.put_objects_of_ne _ _ here]
    rcases handleRequest_live regular.tabled live with before | ⟨new, found_new⟩
    · rcases opened_objects σ env (sessionKey request addr request.eap) ref with old | ⟨same, _⟩
      · rw [found, old]
        exact undecided ref before
      · exact absurd same.symm here
    · exact absurd (new.trans found_new.symm) here

end Downstream

/-! ## Runs -/

/-- A reply to an AP that keeps the conversation going. -/
structure ApReply.Alive (reply : ApReply) : Prop where
  framed : Framed reply.eap
  codes : CodesAgree reply.code reply.eap
  stated : reply.code = accessChallenge → ∃ state, reply.state = some state

namespace Downstream

open Mediator

variable {env : Env} {fuel : ℕ}

/-- Whatever the handling of the datagram says has an EAP packet. -/
def SaysSomething (env : Env) (fuel : ℕ) (datagram : Datagram) (σ : Server) : Prop :=
  ∀ request outcome, datagram.decoded = .ok request → Admitted request →
    (handled env fuel datagram.addr request (σ.woken datagram)).1 = .ok outcome →
      outcome.eapBytes ≠ none

theorem handled_speaks (reassembling : env.cfg.sessionMode = .reassemble)
    (proper : ProperServer env.client) {σ : Server} (regular : σ.Regular env)
    (undecided : Undecided σ) {addr : String × ℕ} {request : ApRequest} {outcome : Outcome}
    (returned : (handled env fuel addr request σ).1 = .ok outcome) : outcome.Speaks := by
  have mode : (startOf env addr request σ).session.mode = .reassemble :=
    (startOf_mode regular addr request).trans reassembling
  exact route_speaks proper mode (startOf_waiting undecided addr request)
    ((handled_of_ok returned).symm.trans (Prod.ext returned rfl) :
      route env fuel request.context request.eap (startOf env addr request σ) =
        (.ok outcome, (handled env fuel addr request σ).2))

theorem withEap_state (eapBytes : Option Bytes) (reply : ApReply) :
    (withEap eapBytes reply).state = reply.state := by
  unfold withEap
  split <;> rfl

/-- The reply for an outcome with an EAP packet is alive. -/
theorem answer_alive {outcome : Outcome} (speaks : outcome.Speaks) (ref : ℕ) (request : ApRequest)
    (σ : Server) : (answer env ref request outcome σ).1.reply.Alive := by
  obtain ⟨eap, present, framed, codes⟩ := speaks
  have carries : (answer env ref request outcome σ).1.reply.eap = eap := by
    rw [answer_eap, present]
    rfl
  constructor
  · rw [carries]
    exact framed
  · rw [carries, answer_code]
    exact codes
  · rw [answer_code]
    intro challenge
    have open' : outcome.action.verdict = none := by
      cases action : outcome.action with
      | accept | reject =>
          rw [action] at challenge
          cases challenge
      | ack | challenge => rfl
    have state : (answer env ref request outcome σ).1.reply.state =
        (σ.addressed env ref outcome.action).1 := withEap_state _ _
    rw [state, Server.addressed, open']
    exact ⟨_, rfl⟩

/-- The replies that are built keep the conversation going, and something is said each time. -/
theorem replies_alive (reassembling : env.cfg.sessionMode = .reassemble)
    (proper : ProperServer env.client) (delivers : Delivers env) {datagrams : List Datagram}
    {σ : Server} (ran : run env fuel datagrams (initial env) = some σ) :
    (∀ built ∈ σ.replies, built.reply.Alive) ∧
      Along (serve env fuel) (SaysSomething env fuel) datagrams (initial env) := by
  have preserves : ∀ datagram (start after : Server), start.Regular env ∧ Undecided start →
      serve env fuel datagram start = some after → after.Regular env ∧ Undecided after := by
    rintro datagram start after ⟨regular, undecided⟩ served
    refine ⟨Regular.serve regular served, ?_⟩
    rcases serve_cases served with rfl | ⟨request, _, _, rfl⟩
    · exact undecided
    · exact Undecided.handleRequest delivers (Regular.woken regular datagram) undecided _ request
  have none_yet : Undecided (initial env) := by
    rintro ref ⟨key, member⟩
    cases member
  constructor
  · refine (@runAll_keeps _ _ _ (fun σ => (σ.Regular env ∧ Undecided σ) ∧
      ∀ built ∈ σ.replies, built.reply.Alive) ?_ _ _ _ ⟨⟨regular_initial env, none_yet⟩, ?_⟩ ran).2
    · rintro datagram start after ⟨holds, alive⟩ served
      refine ⟨preserves datagram start after holds served, ?_⟩
      rcases serve_cases served with rfl | ⟨request, _, _, rfl⟩
      · exact alive
      intro sent member
      rcases result : (handled env fuel datagram.addr request (start.woken datagram)).1
        with e | outcome
      · rw [handleRequest_silent result] at member
        exact alive sent member
      · rw [handleRequest_answers result] at member
        rcases List.mem_append.mp member with before | new
        · exact alive sent before
        · rw [List.mem_singleton.mp new]
          exact answer_alive (handled_speaks reassembling proper
            (Regular.woken holds.1 datagram) holds.2 result) _ request _
    · rintro sent ⟨⟩
  · refine @Along.imp _ _ _ (fun _ _ => True) (fun σ => σ.Regular env ∧ Undecided σ) _
      (fun datagram start after _ => preserves datagram start after) ?_ _ _
      (Along.of_forall (fun _ _ => trivial) datagrams (initial env)) ⟨regular_initial env, none_yet⟩
    intro datagram start _ holds request outcome _ _ returned
    obtain ⟨eap, present, _⟩ := handled_speaks reassembling proper
      (Regular.woken holds.1 datagram) holds.2 returned
    rw [present]
    exact Option.some_ne_none eap

/-- A reply that goes out with the EAP-Message attributes it was built with keeps the conversation
going, if the reply does. -/
theorem alive_of_wire {reply packet : ApReply} (alive : reply.Alive)
    (sent : env.wire reply = .ok packet)
    (verbatim : ∀ value ∈ reply.eapMessage, Verbatim env.encodeOctets value) : packet.Alive := by
  have eap : packet.eap = reply.eap := congrArg List.flatten (Env.eapMessage_of_wire sent verbatim)
  have code := Env.code_of_wire sent
  constructor
  · rw [eap]
    exact alive.framed
  · rw [eap, code]
    exact alive.codes
  · rw [code]
    intro challenge
    obtain ⟨state, carried⟩ := alive.stated challenge
    obtain ⟨encoded, _, _, _, states, _, _, _, rfl⟩ := Env.wire_cases sent
    rw [carried] at states
    obtain ⟨value, _, returned⟩ := Except.ok_of_bind states
    cases returned
    exact ⟨value, rfl⟩

/-- **Every reply keeps the conversation going**, in reassemble mode, where every reply of the
server carries one EAP packet as its code has it, and what the proxy sends and reports goes
out, the EAP-Message attributes as they are. -/
theorem conversations_alive (reassembling : env.cfg.sessionMode = .reassemble)
    (proper : ProperServer env.client) (delivers : Delivers env) {datagrams : List Datagram}
    {σ : Server} (ran : run env fuel datagrams (initial env) = some σ)
    (verbatim : ∀ built ∈ σ.replies, ∀ value ∈ built.reply.eapMessage,
      Verbatim env.encodeOctets value) :
    (∀ built ∈ σ.replies, ∀ before packet, env.send before built = .ok packet → packet.Alive) ∧
      Along (serve env fuel) (SaysSomething env fuel) datagrams (initial env) := by
  obtain ⟨alive, speaks⟩ := replies_alive reassembling proper delivers ran
  refine ⟨fun built member before packet sent => ?_, speaks⟩
  exact alive_of_wire (alive built member) (Env.wire_of_send sent).1 (verbatim built member)

/-- A challenge that carries a record of one octet. -/
def recordChallenge : RadiusReply where
  code := accessChallenge
  state := some [1]
  eapMessage := [[codeRequest, 9, 0, 7, eapTypeTls, 0, 5]]

/-- One client is challenged, gets a record and is accepted, and the next one is rejected. -/
def acceptsThenRejects : Env :=
  answeringInTurn "reassemble" [emptyChallenge, recordChallenge, acceptReply, rejectReply]

/-- What the two clients send: an identity, a record, an ACK, and the other identity. -/
def twoConversations : List Datagram :=
  [identityDatagram,
    datagramOf (requestWith (some [0]) [codeResponse, 8, 0, 7, eapTypeTls, 0, 3]),
    datagramOf (requestWith (some [0]) [codeResponse, 9, 0, 6, eapTypeTls, 0]),
    datagramOf (requestWith none [codeResponse, 9, 0, 6, 1, 98])]

theorem acceptsThenRejects_proper : ProperServer acceptsThenRejects.client := by
  have proper : ∀ reply ∈ [emptyChallenge, recordChallenge, acceptReply, rejectReply],
      reply.Proper := by
    intro reply member
    simp only [List.mem_cons, List.not_mem_nil, or_false] at member
    rcases member with rfl | rfl | rfl | rfl
    · exact ⟨⟨by decide, by decide⟩, codesAgree_request (by decide)⟩
    · exact ⟨⟨by decide, by decide⟩, codesAgree_request (by decide)⟩
    · exact ⟨⟨by decide, by decide⟩, codesAgree_success (by decide)⟩
    · exact ⟨⟨by decide, by decide⟩, codesAgree_failure (by decide)⟩
  intro before request reply answered
  apply proper reply
  have told : ([emptyChallenge, recordChallenge, acceptReply, rejectReply][before.length]?).elim
      (.error .timeout) .ok = (Except.ok reply : Except Raised RadiusReply) := answered
  cases given : [emptyChallenge, recordChallenge, acceptReply, rejectReply][before.length]? with
  | none =>
      rw [given] at told
      cases told
  | some other =>
      rw [given] at told
      cases told
      exact List.mem_of_getElem? given

theorem conversations_alive_sample :
    ∃ σ, run acceptsThenRejects 1 twoConversations (initial acceptsThenRejects) = some σ ∧
      σ.replies.map (·.reply.code) =
        [accessChallenge, accessChallenge, accessAccept, accessReject] ∧
      ∀ built ∈ σ.replies, ∀ before packet,
        acceptsThenRejects.send before built = .ok packet → packet.Alive := by
  refine ⟨_, rfl, rfl, ?_⟩
  exact (@conversations_alive acceptsThenRejects 1 rfl acceptsThenRejects_proper
    (answeringInTurn_delivers _ _) twoConversations _ rfl
    fun _ _ value _ => (answeringInTurn_lossless _ _).verbatim value).1

end Downstream
end EapAccel
