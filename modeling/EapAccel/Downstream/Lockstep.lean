import EapAccel.Downstream.Origins
import EapAccel.Downstream.Packing

/-!
# The lock-step with the auth server

An EAP server accepts a Response only with the Identifier of its last Request, and RADIUS
requires the State of the last reply on the next request. `lastHeard` says what the server
said last, as the exchanges of one session record it. In reassemble mode every request to
the server follows it (`upstream_lockstep`): the State is kept in one place and the
Identifier in another, and both agree with the record between any two requests. What pyrad sends
for a request is in step with it, where it encodes the States of the server as they are.
-/

set_option autoImplicit false

namespace EapAccel

open Foundations EapTls

/-! ## What the server said last -/

/-- The Identifier of the EAP-Request that a reply carries. -/
def RadiusReply.requestId (reply : RadiusReply) : Option UInt8 :=
  match reply.eapMessage.flatten with
  | code :: identifier :: _ => if code = codeRequest then some identifier else none
  | _ => none

/-- The State of the last reply, and the Identifier of the last EAP-Request. -/
structure LastHeard where
  state : Option Bytes := none
  requestId : Option UInt8 := none
  deriving DecidableEq, Repr

/-- After one more exchange. Where no reply came, nothing new was heard. -/
def LastHeard.hear (heard : LastHeard) (exchange : Exchange) : LastHeard :=
  match exchange.outcome with
  | .ok reply => { state := reply.state, requestId := reply.requestId.or heard.requestId }
  | .error _ => heard

/-- What was heard last in these exchanges. -/
def lastHeard (exchanges : List Exchange) : LastHeard := exchanges.foldl LastHeard.hear {}

theorem lastHeard_concat (exchanges : List Exchange) (exchange : Exchange) :
    lastHeard (exchanges ++ [exchange]) = (lastHeard exchanges).hear exchange := by
  simp [lastHeard]

/-- The EAP packet is an EAP-Response with the Identifier of the server's last
EAP-Request, if there was one. -/
def Answers (requestId : Option UInt8) (eapPayload : Bytes) : Prop :=
  ∀ identifier, requestId = some identifier →
    eapPayload[0]? = some codeResponse ∧ eapPayload[1]? = some identifier

/-- The request has the State that the server gave last, and if its EAP packet is EAP-TLS,
it answers the server's last EAP-Request. -/
structure Follows (heard : LastHeard) (request : AccessRequest) : Prop where
  state : request.state = heard.state
  split : request.eapMessage = splitEapMessage request.eap
  answers : request.eap[4]? = some eapTypeTls → Answers heard.requestId request.eap

/-- Every exchange follows the ones before it. -/
def InStep (exchanges : List Exchange) : Prop :=
  ∀ before exchange after, exchanges = before ++ exchange :: after →
    Follows (lastHeard before) exchange.request

theorem inStep_nil : InStep [] := by
  intro before exchange after split
  simp at split

theorem InStep.concat {exchanges : List Exchange} (inStep : InStep exchanges)
    {exchange : Exchange} (follows : Follows (lastHeard exchanges) exchange.request) :
    InStep (exchanges ++ [exchange]) := by
  intro before here after split
  rcases List.eq_nil_or_concat after with rfl | ⟨after, last, rfl⟩
  · obtain ⟨rfl, same⟩ := List.append_inj' split rfl
    cases same
    exact follows
  · rw [List.concat_eq_append, ← List.cons_append, ← List.append_assoc] at split
    exact inStep before here after (List.append_inj' split rfl).1

/-! ## What is sent -/

/-- The State that was heard last came in a reply. -/
theorem replied_of_lastHeard {exchanges : List Exchange} {state : Bytes}
    (heard : (lastHeard exchanges).state = some state) :
    ∃ exchange ∈ exchanges, ∃ reply, exchange.outcome = .ok reply ∧ reply.state = some state := by
  induction exchanges using List.reverseRecOn with
  | nil => cases heard
  | append_singleton exchanges exchange ih =>
      rw [lastHeard_concat, LastHeard.hear] at heard
      rcases outcome : exchange.outcome with e | reply
      · rw [outcome] at heard
        obtain ⟨earlier, member, replied⟩ := ih heard
        exact ⟨earlier, List.mem_append_left _ member, replied⟩
      · rw [outcome] at heard
        exact ⟨exchange, List.mem_append_right _ List.mem_cons_self, reply, outcome, heard⟩

/-- What is sent for a request has the State that the server gave last; and if the EAP packet of
the request is EAP-TLS, what is sent answers the server's last EAP-Request. -/
structure KeepsStep (heard : LastHeard) (request sent : AccessRequest) : Prop where
  state : sent.state = heard.state
  answers : request.eap[4]? = some eapTypeTls → Answers heard.requestId sent.eap

/-- Everything that is sent follows what was heard before it. -/
def SentInStep (client : UpstreamClient) (exchanges : List Exchange) : Prop :=
  ∀ before exchange after sent, exchanges = before ++ exchange :: after →
    client.wire exchange.request = .ok sent → KeepsStep (lastHeard before) exchange.request sent

/-- pyrad encodes the States of the replies as they are. -/
def StatesVerbatim (encodeOctets : Bytes → Except Raised Bytes) (exchanges : List Exchange) :
    Prop :=
  ∀ exchange ∈ exchanges, ∀ reply, exchange.outcome = .ok reply →
    ∀ state ∈ reply.state, Verbatim encodeOctets state

/-- It does so where none of them starts with `0x`. -/
theorem statesVerbatim_of_plain {encodeOctets : Bytes → Except Raised Bytes}
    (encodes : EncodesOctets encodeOctets) {exchanges : List Exchange}
    (plain : ∀ exchange ∈ exchanges, ∀ reply ∈ exchange.outcome.toOption, ∀ state ∈ reply.state,
      ¬ hexPrefix <+: state) : StatesVerbatim encodeOctets exchanges :=
  fun exchange member reply outcome state given => encodes.plain state
    (plain exchange member reply (Except.mem_toOption.mpr outcome) state given)

/-- An EAP-Response is sent under its Identifier. -/
theorem answers_of_wire {client : UpstreamClient} (encodes : EncodesOctets client.encodeOctets)
    {request sent : AccessRequest} (split : request.eapMessage = splitEapMessage request.eap)
    {requestId : Option UInt8} (answers : Answers requestId request.eap)
    (wired : client.wire request = .ok sent) : Answers requestId sent.eap := by
  intro identifier heard
  obtain ⟨code, here⟩ := answers identifier heard
  have plain : ¬ hexPrefix <+: request.eap := by
    rintro ⟨rest, same⟩
    rw [← same] at code
    cases code
  obtain ⟨_, encoded, _, returned, rfl⟩ :=
    UpstreamClient.encode_cases (UpstreamClient.encode_of_wire wired)
  rw [split] at returned
  exact ⟨encodes.head_of_encoded plain returned (by decide) code,
    encodes.head_of_encoded plain returned (by decide) here⟩

/-- **Where every request is in step, so is what is sent.** -/
theorem InStep.sent {client : UpstreamClient} {exchanges : List Exchange}
    (inStep : InStep exchanges) (encodes : EncodesOctets client.encodeOctets)
    (states : StatesVerbatim client.encodeOctets exchanges) : SentInStep client exchanges := by
  rintro before exchange after sent rfl wired
  have follows := inStep before exchange after rfl
  constructor
  · rw [← follows.state]
    apply UpstreamClient.state_of_wire wired
    intro state given
    obtain ⟨earlier, member, reply, outcome, gave⟩ :=
      replied_of_lastHeard (follows.state.symm.trans given)
    exact states earlier (List.mem_append_left _ member) reply outcome state gave
  · exact fun tls => answers_of_wire encodes follows.split (follows.answers tls) wired

/-! ## What the session remembers of it -/

/-- The session remembers what was heard last, and its requests were in step. -/
structure Session.InLockstep (exchanges : List Exchange) (session : Session) : Prop where
  state : session.radiusState = (lastHeard (ownExchanges exchanges session.ident)).state
  requestId :
    session.upstreamLastEapReqId = (lastHeard (ownExchanges exchanges session.ident)).requestId
  inStep : InStep (ownExchanges exchanges session.ident)

theorem Session.InLockstep.of_side {exchanges : List Exchange} {session session' : Session}
    (same : session'.upstreamSide = session.upstreamSide) (lockstep : session.InLockstep exchanges) :
    session'.InLockstep exchanges := by
  have of : ∀ s : Session, s.InLockstep exchanges ↔ s.upstreamSide.InLockstep exchanges :=
    fun s => ⟨fun ⟨state, requestId, inStep⟩ => ⟨state, requestId, inStep⟩,
      fun ⟨state, requestId, inStep⟩ => ⟨state, requestId, inStep⟩⟩
  exact (of session').mpr (same ▸ (of session).mp lockstep)

/-- The session is in lock-step with the server. -/
def Leg.InLockstep (leg : Leg) : Prop := leg.session.InLockstep leg.exchanges

theorem Leg.InLockstep.of_side {leg leg' : Leg} (same : leg'.upstreamSide = leg.upstreamSide)
    (lockstep : leg.InLockstep) : leg'.InLockstep := by
  simp only [Leg.upstreamSide, Prod.mk.injEq] at same
  rw [Leg.InLockstep, same.1]
  exact Session.InLockstep.of_side same.2 lockstep

namespace Mediator

variable {client : UpstreamClient} {fuel : ℕ}

/-- In lock-step, and this Identifier answers the server's last EAP-Request. -/
def Echoing (identifier : UInt8) (leg : Leg) : Prop :=
  leg.InLockstep ∧ ∀ requestId, leg.session.upstreamLastEapReqId = some requestId →
    requestId = identifier

/-! ## One exchange -/

/-- What a session learns of the server's Identifier is what the exchange made heard. -/
theorem learn_upstreamLastEapReqId (reply : RadiusReply) (session : Session) :
    (UpstreamClient.learn reply session).upstreamLastEapReqId =
      reply.requestId.or session.upstreamLastEapReqId := by
  have accepted : ∀ s : Session,
      (if reply.code = accessAccept then
        { s with
          msMppeSendKey := reply.msMppeSendKey.or s.msMppeSendKey
          msMppeRecvKey := reply.msMppeRecvKey.or s.msMppeRecvKey }
      else s).upstreamLastEapReqId = s.upstreamLastEapReqId := by
    intro s
    split <;> rfl
  rw [UpstreamClient.learn, accepted, RadiusReply.requestId, concatEapMessages]
  by_cases absent : reply.eapMessage = []
  · simp [absent]
  by_cases empty : reply.eapMessage.flatten = []
  · simp [absent, empty]
  rw [if_neg absent, if_neg empty]
  rcases reply.eapMessage.flatten with _ | ⟨code, _ | ⟨identifier, rest⟩⟩
  · rfl
  · rfl
  · simp only
    split <;> rfl

/-- **An exchange keeps the lock-step**, if its packet, when it is EAP-TLS, answers the
server's last EAP-Request. -/
theorem exchange_inLockstep {eapPayload : Bytes} {leg : Leg} (context : AuthContext)
    (lockstep : leg.InLockstep)
    (answers : eapPayload[4]? = some eapTypeTls →
      Answers leg.session.upstreamLastEapReqId eapPayload) :
    (exchange client eapPayload context leg).2.InLockstep := by
  have own : (leg.exchanged client eapPayload context).session = leg.session.ident := rfl
  have follows : Follows (lastHeard (ownExchanges leg.exchanges leg.session.ident))
      (leg.exchanged client eapPayload context).request := by
    refine ⟨lockstep.state, ?_, ?_⟩
    · rw [Leg.eap_exchanged]
      rfl
    · rw [Leg.eap_exchanged, ← lockstep.requestId]
      exact answers
  have inStep := lockstep.inStep.concat follows
  rw [← ownExchanges_concat own] at inStep
  rw [exchange_eq]
  rcases outcome : leg.outcome client eapPayload context with e | reply
  · have heard : lastHeard (ownExchanges (leg.sent client eapPayload context).exchanges
        leg.session.ident) = lastHeard (ownExchanges leg.exchanges leg.session.ident) := by
      rw [Leg.sent_exchanges, ownExchanges_concat own, lastHeard_concat, LastHeard.hear]
      simp only [Leg.exchanged, outcome]
    refine ⟨?_, ?_, inStep⟩
    · show leg.session.radiusState = (lastHeard (ownExchanges _ leg.session.ident)).state
      rw [heard]
      exact lockstep.state
    · show leg.session.upstreamLastEapReqId = (lastHeard (ownExchanges _ leg.session.ident)).requestId
      rw [heard]
      exact lockstep.requestId
  · have heard : lastHeard (ownExchanges (leg.sent client eapPayload context).exchanges
        leg.session.ident) =
        { state := reply.state
          requestId := reply.requestId.or leg.session.upstreamLastEapReqId } := by
      rw [Leg.sent_exchanges, ownExchanges_concat own, lastHeard_concat, LastHeard.hear]
      simp only [Leg.exchanged, outcome, lockstep.requestId]
    have ident : ((leg.sent client eapPayload context).received reply).session.ident =
        leg.session.ident := learn_ident reply _
    refine ⟨?_, ?_, ?_⟩
    · rw [ident, Leg.received_exchanges, heard]
      rfl
    · rw [ident, Leg.received_exchanges, heard]
      exact learn_upstreamLastEapReqId reply _
    · rw [ident, Leg.received_exchanges]
      exact inStep

/-! ## Whole handlings -/

/-- What is built with an Identifier is an EAP-Response with that Identifier. -/
theorem answers_of_built {identifier : UInt8} {eapPayload : Bytes} {requestId : Option UInt8}
    (built : Built identifier eapPayload) (echoes : ∀ id, requestId = some id → id = identifier) :
    Answers requestId eapPayload := by
  obtain ⟨tlsData, moreFragments, tlsMessageLength, built⟩ := built
  intro id present
  rw [echoes id present]
  exact head_of_build built

theorem send_inLockstep {identifier : UInt8} {eapPayload : Bytes} (context : AuthContext)
    (built : Built identifier eapPayload) :
    Act.Triple (Echoing identifier) (exchange client eapPayload context)
      (fun _ => Leg.InLockstep) (fun _ => Leg.InLockstep) := by
  intro leg ⟨lockstep, echoes⟩
  have ended := @exchange_inLockstep client eapPayload leg context lockstep fun _ =>
    answers_of_built built echoes
  rcases sent : exchange client eapPayload context leg with ⟨e | reply, leg'⟩ <;>
    simpa only [sent] using ended

/-- **The steps of the mediator keep the lock-step.** -/
theorem lockstep_rule (client : UpstreamClient) (context : AuthContext) :
    ExchangeRule client context Echoing Leg.InLockstep where
  side := fun _ _ => Leg.InLockstep.of_side
  readySide := by
    rintro identifier leg leg' same ⟨lockstep, echoes⟩
    have requestId : leg'.session.upstreamLastEapReqId = leg.session.upstreamLastEapReqId :=
      congrArg (fun side => side.2.upstreamLastEapReqId) same
    exact ⟨lockstep.of_side same, fun id present => echoes id (requestId ▸ present)⟩
  echo := by
    intro leg lockstep
    refine ⟨lockstep, fun requestId present => ?_⟩
    rw [Session.upId, present, Option.getD_some]
  weaken := fun _ _ => And.left
  send := fun _ _ built => send_inLockstep context built

end Mediator

namespace Downstream

open Mediator

variable {env : Env} {fuel : ℕ}

/-- **Sessions are in lock-step with the server.** -/
theorem inLockstep_rule (env : Env) (fuel : ℕ) (reassembling : env.cfg.sessionMode = .reassemble) :
    ObjectRule env fuel (fun exchanges session => session.InLockstep exchanges) where
  created := by
    intro exchanges ref key now others
    have none : ownExchanges exchanges (Session.create ref key env.cfg now).ident = [] :=
      ownExchanges_eq_nil others
    refine ⟨?_, ?_, ?_⟩
    · rw [none]
      rfl
    · rw [none]
      rfl
    · rw [none]
      exact inStep_nil
  others := by
    intro exchanges new session others lockstep
    have same := @ownExchanges_append_others exchanges new session.ident others
    exact ⟨same ▸ lockstep.state, same ▸ lockstep.requestId, same ▸ lockstep.inStep⟩
  renamed := by
    intro exchanges session session' unnamed lockstep
    have of : ∀ s : Session, s.InLockstep exchanges ↔ s.unnamed.InLockstep exchanges :=
      fun s => ⟨fun ⟨state, requestId, inStep⟩ => ⟨state, requestId, inStep⟩,
        fun ⟨state, requestId, inStep⟩ => ⟨state, requestId, inStep⟩⟩
    exact (of session').mpr (unnamed ▸ (of session).mp lockstep)
  noted := fun _ _ _ ⟨state, requestId, inStep⟩ => ⟨state, requestId, inStep⟩
  handled := by
    intro context eapBytes leg settings lockstep
    have mode : leg.session.mode = .reassemble :=
      (congrArg Session.Settings.mode settings).trans reassembling
    by_cases tls : eapBytes[4]? = some eapTypeTls
    · rw [route, if_pos tls]
      exact (lockstep_rule env.client context).mediateRule.handleSupplicantEap eapBytes mode lockstep
        fun _ => @Leg.InLockstep.of_side leg _ rfl lockstep
    · rw [route, if_neg tls]
      refine (passthroughNonTls_keeps (fun _ leg => @Leg.InLockstep.of_side leg _ rfl) ?_).ended
        lockstep
      exact Act.Invariant.of_ended fun leg lockstep =>
        exchange_inLockstep context lockstep fun type => absurd type tls

/-- **Upstream lock-step.** In every run in reassemble mode, where pyrad encodes the States that
the server gives a session as they are, everything that is sent to the server for the session has
the State of the server's last reply in it, and every EAP-TLS packet that is sent, all of which the
mediator built, is a Response with the Identifier of the server's last EAP-Request. -/
theorem upstream_lockstep (reassembling : env.cfg.sessionMode = .reassemble)
    (encodes : EncodesOctets env.encodeOctets) {datagrams : List Datagram} {σ : Server}
    (ran : run env fuel datagrams (initial env) = some σ) (ref : ℕ)
    (states : StatesVerbatim env.encodeOctets (ownExchanges σ.exchanges ref)) :
    SentInStep env.client (ownExchanges σ.exchanges ref) := by
  have ident : (σ.objects ref).ident = ref :=
    congrArg Session.Settings.ident ((regular_of_run ran).settled ref)
  have lockstep := (inLockstep_rule env fuel reassembling).holds ran ref
  have inStep : InStep (ownExchanges σ.exchanges ref) := ident ▸ lockstep.inStep
  exact inStep.sent encodes states

/-- An Identity and then a record of three octets, each answered with a Request of
Identifier 8 and a State: the chunk that follows is sent with both. -/
theorem upstream_lockstep_sample :
    ∃ σ, run (answering "reassemble" emptyChallenge).refusing 0
        [identityDatagram, datagramOf (requestWith (some [0])
          [codeResponse, 9, 0, 9, eapTypeTls, 0, 1, 2, 3])]
        (initial (answering "reassemble" emptyChallenge).refusing) = some σ ∧
      SentInStep (answering "reassemble" emptyChallenge).refusing.client
        (ownExchanges σ.exchanges 0) ∧
      σ.exchanges.map (fun exchange => (answering "reassemble" emptyChallenge).refusing.client.wire
        exchange.request) = σ.exchanges.map (fun exchange => .ok exchange.request) ∧
      σ.exchanges.map (·.request.state) = [none, some [1]] ∧
      σ.exchanges.map (·.request.eap[1]?) = [some 7, some 8] := by
  refine ⟨_, rfl, ?_, by decide +kernel, rfl, rfl⟩
  refine @upstream_lockstep (answering "reassemble" emptyChallenge).refusing 0 rfl
    EncodesOctets.refuseHex_encodes [identityDatagram, datagramOf (requestWith (some [0])
      [codeResponse, 9, 0, 9, eapTypeTls, 0, 1, 2, 3])] _ rfl 0 ?_
  apply statesVerbatim_of_plain EncodesOctets.refuseHex_encodes
  decide +kernel

end Downstream
end EapAccel
