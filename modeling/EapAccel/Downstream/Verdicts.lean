import EapAccel.Downstream.Packing

/-!
# Verdicts toward the AP

An accept or a reject is sent to an AP for a session only after the server has answered a
request of that session with it (`sent_verdict_was_answered`). The invariant behind it
says of every session object that its result was brought by an exchange of its own, and
of every reply that its verdict was brought before it was sent (`Honest`).
-/

set_option autoImplicit false

namespace EapAccel.Downstream

open Foundations EapTls Mediator

variable {env : Env} {fuel : ℕ}

/-! ## One handling -/

/-- **A packet that is not EAP-TLS hands over what its one exchange brought.** -/
theorem passthroughNonTls_handles (context : AuthContext) (eapBytes : Bytes) (start : Leg) :
    Handles 0 (passthroughNonTls env context eapBytes) start := by
  refine handles_of_triple ?_
  refine Act.Triple.bind (exchange_answers start eapBytes context) fun reply => ?_
  refine Act.Triple.ite (fun accept => ?_) fun accept => ?_
  · rw [Reply.verdict_of_accept accept]
    refine Act.Triple.bind (finish_concludes start .accept (fun _ => rfl) (fun _ => rfl))
      fun _ => ?_
    exact Act.Triple.pure fun _ concluded => concluded
  refine Act.Triple.ite (fun reject => ?_) fun reject => ?_
  · rw [Reply.verdict_of_reject accept reject]
    refine Act.Triple.bind (finish_concludes start .reject (fun _ => rfl) (fun _ => rfl))
      fun _ => ?_
    exact Act.Triple.pure fun _ concluded => concluded
  · rw [Reply.verdict_of_neither accept reject]
    exact Act.Triple.pure fun _ waiting => waiting

/-- The exchanges that the handling of a packet makes before the one it looks at. -/
def unlookedAt (session : Session) (eapBytes : Bytes) : ℕ :=
  if eapBytes[4]? = some eapTypeTls ∧ session.mode = .reassemble then
    chunksBeforeLast session eapBytes
  else 0

/-- **Every route.** -/
theorem route_handled (context : AuthContext) (eapBytes : Bytes) (leg : Leg) :
    Handled (unlookedAt leg.session eapBytes) leg (route env fuel context eapBytes leg).1
      (route env fuel context eapBytes leg).2 := by
  by_cases tls : eapBytes[4]? = some eapTypeTls
  · rw [route, if_pos tls]
    cases mode : leg.session.mode with
    | reassemble =>
        rw [unlookedAt, if_pos ⟨tls, mode⟩]
        exact handleSupplicantEap_handled context eapBytes leg mode
    | passthrough =>
        rw [unlookedAt, if_neg (by rw [mode]; simp)]
        exact handleSupplicantEap_passthrough context eapBytes leg mode
  · rw [route, if_neg tls, unlookedAt, if_neg (fun both => tls both.1)]
    exact (passthroughNonTls_handles context eapBytes leg).handled rfl

/-- **Every request**, from the state in which its EAP packet is handled: a request that cannot be
noted is not routed. -/
theorem handling_handled (request : ApRequest) (leg : Leg) :
    Handled (unlookedAt (noted request leg).session request.eap) (noted request leg)
      (handling env fuel request leg).1 (handling env fuel request leg).2 := by
  rcases handling_cases env fuel request leg with ⟨_, routed⟩ | ⟨e, _, raised⟩
  · rw [routed]
    exact route_handled request.context request.eap (noted request leg)
  · rw [raised]
    exact Handled.of_error rfl e

/-- The handling of a request is justified from the state it starts in. -/
theorem handling_justified (request : ApRequest) (leg : Leg) :
    Justified (noted request leg) (handling env fuel request leg).1
      (handling env fuel request leg).2 :=
  (handling_handled request leg).justified

/-! ## No fabricated verdict -/

/-- The reply says `v` only if an exchange of its session had brought `v` by then. -/
def BuiltReply.Backed (exchanges : List Exchange) (sent : BuiltReply) : Prop :=
  sent.exchangesBefore ≤ exchanges.length ∧ ∀ v : Verdict, sent.reply.code = v.code →
    Brought (exchanges.take sent.exchangesBefore) sent.session v

/-- What holds of the server in every run. -/
structure Honest (σ : Server) : Prop where
  ident : ∀ ref, (σ.objects ref).ident = ref
  stored : ∀ ref v, (σ.objects ref).result = some v → Brought σ.exchanges ref v
  sent : ∀ sent ∈ σ.replies, BuiltReply.Backed σ.exchanges sent

theorem BuiltReply.Backed.mono {exchanges : List Exchange} {sent : BuiltReply}
    (backed : BuiltReply.Backed exchanges sent) (new : List Exchange) :
    BuiltReply.Backed (exchanges ++ new) sent := by
  obtain ⟨bound, verdict⟩ := backed
  refine ⟨by rw [List.length_append]; omega, fun v code => ?_⟩
  rw [List.take_append_of_le_length bound]
  exact verdict v code

theorem honest_initial (env : Env) : Honest (initial env) :=
  ⟨fun _ => rfl, by simp [initial, Session.create], by simp [initial]⟩

/-- A new session has no result. -/
theorem Honest.opened {σ : Server} (honest : Honest σ) (key : String) :
    Honest (σ.opened env key).2 := by
  rw [Server.opened]
  cases σ.table.lookup key with
  | some ref => exact honest
  | none =>
      refine ⟨fun ref => ?_, fun ref v => ?_, honest.sent⟩
      · by_cases here : ref = σ.created
        · subst here
          simp [Server.grow, Session.create]
        · simp only [Server.grow, Function.update_of_ne here]
          exact honest.ident ref
      · by_cases here : ref = σ.created
        · subst here
          simp [Server.grow, Session.create]
        · simp only [Server.grow, Function.update_of_ne here]
          exact honest.stored ref v

/-- A handling keeps the server honest. -/
theorem Honest.put {σ : Server} (honest : Honest σ) {ref : ℕ} {request : ApRequest}
    {result : Except Raised Outcome} {leg : Leg}
    (justified : Justified (noted request (σ.leg ref)) result leg) : Honest (σ.put ref leg) := by
  obtain ⟨⟨new, trail⟩, stored, _⟩ := justified
  have grown : (σ.put ref leg).exchanges = σ.exchanges ++ new := trail.exchanges
  refine ⟨fun other => ?_, fun other v => ?_, fun sent member => ?_⟩
  · by_cases here : other = ref
    · rw [here, Server.put_objects_self]
      exact trail.ident.trans (honest.ident ref)
    · rw [σ.put_objects_of_ne leg here]
      exact honest.ident other
  · rw [grown]
    by_cases here : other = ref
    · rw [here, Server.put_objects_self]
      intro result
      rcases stored v result with before | brought
      · exact (honest.stored ref v before).mono new
      · rw [← grown]
        exact honest.ident ref ▸ brought
    · rw [σ.put_objects_of_ne leg here]
      exact fun result => (honest.stored other v result).mono new
  · rw [grown]
    exact (honest.sent sent member).mono new

/-- The code of a reply says what the action says. -/
theorem Action.code_eq_iff {action : Action} {v : Verdict} :
    action.code = v.code ↔ action.verdict = some v := by
  cases action <;> cases v <;> decide

theorem Honest.of_work {σ σ' : Server} (honest : Honest σ) (work : σ'.work = σ.work)
    (sent : ∀ sent ∈ σ'.replies, BuiltReply.Backed σ.exchanges sent) : Honest σ' := by
  have exchanges : σ'.exchanges = σ.exchanges := congrArg (·.exchanges) work
  have objects : ∀ ref, (σ'.objects ref).unnamed = (σ.objects ref).unnamed :=
    fun ref => congrFun (congrArg (·.objects) work) ref
  refine ⟨fun ref => ?_, fun ref v result => ?_, fun reply member => ?_⟩
  · exact (congrArg Session.ident (objects ref)).trans (honest.ident ref)
  · rw [exchanges]
    exact honest.stored ref v ((congrArg Session.result (objects ref)).symm.trans result)
  · rw [exchanges]
    exact sent reply member

/-- Answering an outcome whose verdict is known keeps the server honest. -/
theorem Honest.conclude {σ : Server} (honest : Honest σ) (ref : ℕ) (request : ApRequest)
    {outcome : Outcome}
    (known : ∀ v, outcome.action.verdict = some v → Brought σ.exchanges ref v) :
    Honest (conclude env ref request outcome σ).2 := by
  refine honest.of_work (conclude_work ref request outcome σ) fun sent member => ?_
  rw [conclude_replies] at member
  rcases List.mem_append.mp member with early | last
  · exact honest.sent sent early
  · rw [List.mem_singleton.mp last]
    refine ⟨(answer_exchangesBefore ref request outcome σ).le, fun v code => ?_⟩
    rw [answer_exchangesBefore, List.take_length]
    refine known v (Action.code_eq_iff.mp ?_)
    rw [← code]
    exact (replyFor_code _ _ _).symm

/-- **One request keeps the server honest.** -/
theorem Honest.handleRequest {σ : Server} (honest : Honest σ) (addr : String × ℕ)
    (request : ApRequest) : Honest (handleRequest env fuel addr request σ).2 := by
  have opens : Honest (found env addr request σ).2 := honest.opened _
  have justified := @handling_justified env fuel request
    ((found env addr request σ).2.leg (found env addr request σ).1)
  have put : Honest (afterHandling env fuel addr request σ) := opens.put justified
  rcases result : (handled env fuel addr request σ).1 with e | outcome
  · rw [handleRequest_of_error result]
    exact put
  · rw [handleRequest_of_ok result]
    refine put.conclude _ request fun v said => ?_
    rcases justified.said outcome v result said with before | brought
    · obtain ⟨⟨new, trail⟩, _, _⟩ := justified
      have grown : (afterHandling env fuel addr request σ).exchanges =
          (found env addr request σ).2.exchanges ++ new := trail.exchanges
      rw [grown]
      exact (opens.stored _ v before).mono new
    · exact opens.ident (found env addr request σ).1 ▸ brought

/-- **One turn keeps the server honest.** -/
theorem Honest.serve {σ σ' : Server} (honest : Honest σ) {datagram : Datagram}
    (served : serve env fuel datagram σ = some σ') : Honest σ' := by
  have waiting : Honest (σ.woken datagram) := ⟨honest.ident, honest.stored, honest.sent⟩
  rcases serve_cases served with rfl | ⟨request, _, _, rfl⟩
  · exact waiting
  · exact waiting.handleRequest datagram.addr request

/-- **Every run keeps the server honest.** -/
theorem Honest.run {datagrams : List Datagram} {σ σ' : Server} (honest : Honest σ)
    (ran : run env fuel datagrams σ = some σ') : Honest σ' :=
  runAll_keeps (fun _ _ _ honest served => honest.serve served) honest ran

/-- **No fabricated verdict.** A reply that says `v` was sent only after the server had
answered a request of the same session with `v`. -/
theorem sent_verdict_was_answered {datagrams : List Datagram} {σ : Server}
    (ran : run env fuel datagrams (initial env) = some σ) {sent : BuiltReply}
    (member : sent ∈ σ.replies) {v : Verdict} (code : sent.reply.code = v.code) :
    ∃ exchange ∈ σ.exchanges.take sent.exchangesBefore, exchange.session = sent.session ∧
      ∃ reply, exchange.outcome = .ok reply ∧ reply.code = v.code := by
  obtain ⟨exchange, early, own, verdict⟩ :=
    (((honest_initial env).run ran).sent sent member).2 v code
  exact ⟨exchange, early, own, Exchange.verdict_eq_some.mp verdict⟩

/-- Surroundings in which the server answers every request with `reply`. -/
def answering (mode : String) (reply : RadiusReply) : Env where
  cfg := Config.sample mode
  respond := fun _ _ => .ok reply
  token := fun n => [UInt8.ofNat n]

/-- Surroundings in which the server gives these replies, one after the other, and then
falls silent. -/
def answeringInTurn (mode : String) (replies : List RadiusReply) : Env where
  cfg := Config.sample mode
  respond := fun before _ => (replies[before.length]?).elim (.error .timeout) .ok
  token := fun n => [UInt8.ofNat n]

theorem answering_lossless (mode : String) (reply : RadiusReply) : (answering mode reply).Lossless :=
  ⟨fun _ => rfl, fun _ => rfl, fun _ => rfl⟩

theorem answering_delivers (mode : String) (reply : RadiusReply) : Delivers (answering mode reply) :=
  ⟨(answering_lossless mode reply).sends fun _ _ => rfl, fun _ _ => rfl⟩

theorem answeringInTurn_lossless (mode : String) (replies : List RadiusReply) :
    (answeringInTurn mode replies).Lossless :=
  ⟨fun _ => rfl, fun _ => rfl, fun _ => rfl⟩

theorem answeringInTurn_delivers (mode : String) (replies : List RadiusReply) :
    Delivers (answeringInTurn mode replies) :=
  ⟨(answeringInTurn_lossless mode replies).sends fun _ _ => rfl, fun _ _ => rfl⟩

/-- An accept with an EAP-Success. -/
def acceptReply : RadiusReply where
  code := accessAccept
  state := none
  eapMessage := [[codeSuccess, 7, 0, 4]]

/-- A reject with an EAP-Failure. -/
def rejectReply : RadiusReply where
  code := accessReject
  state := none
  eapMessage := [[codeFailure, 7, 0, 4]]

/-- A challenge with an empty EAP-TLS Request. -/
def emptyChallenge : RadiusReply where
  code := accessChallenge
  state := some [1]
  eapMessage := [[codeRequest, 8, 0, 6, eapTypeTls, 0]]

/-- A request of an AP that carries an EAP packet. -/
def requestWith (state : Option Bytes) (eapBytes : Bytes) : ApRequest where
  code := accessRequest
  authenticator := []
  messageAuthenticator := true
  verifier := none
  userName := some "alice"
  callingStationId := none
  calledStationId := none
  state := state
  nasAttrs := []
  eapMessage := [eapBytes]

/-- A datagram with a request. -/
def datagramOf (request : ApRequest) : Datagram where
  addr := ("ap", 1024)
  receivedAt := 0
  decoded := .ok request

/-- The answer of `alice` to an EAP-Request Identity. -/
def identityDatagram : Datagram := datagramOf (requestWith none [codeResponse, 7, 0, 6, 1, 97])

/-- The server accepts the answer of `alice` to an EAP-Request Identity. -/
theorem sent_verdict_was_answered_sample :
    ∃ σ sent, run (answering "reassemble" acceptReply) 0
        [identityDatagram] (initial (answering "reassemble" acceptReply)) = some σ ∧
      sent ∈ σ.replies ∧ sent.reply.code = accessAccept ∧
      ∃ exchange ∈ σ.exchanges.take sent.exchangesBefore, exchange.session = sent.session ∧
        ∃ reply, exchange.outcome = .ok reply ∧ reply.code = accessAccept := by
  refine ⟨_, _, rfl, List.mem_singleton.mpr rfl, rfl, ?_⟩
  exact @sent_verdict_was_answered (answering "reassemble" acceptReply) 0
    [identityDatagram] _ rfl _ (List.mem_singleton.mpr rfl) .accept rfl

end EapAccel.Downstream
