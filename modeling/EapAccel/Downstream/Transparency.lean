import EapAccel.Downstream.Reachable

/-!
# Passthrough mode

In passthrough mode the EAP packet of an AP's request should go upstream once, as it is, and
that of the reply should go to the AP as it is. The two routes differ in one case: an EAP packet
in an Access-Reject is handed on for a packet that is not EAP-TLS (`plainOutcome`) and dropped
for an EAP-TLS packet (`relayOutcome`). Besides, pyrad reads a piece of a packet that starts with
the ASCII text `0x` as hexadecimal. These are the only ways in which a request is not relayed
(`passthrough_transparent_iff`).
-/

set_option autoImplicit false

namespace EapAccel

open Foundations EapTls

namespace Mediator

variable {client : UpstreamClient} {fuel : ℕ}

/-- The outcome for the reply to an EAP-TLS packet in passthrough mode. -/
def relayOutcome (reply : Reply) : Outcome :=
  if reply.accept then { action := .accept, eapBytes := reply.eapMessages.head?, echoId := none }
  else if reply.reject then { action := .reject, eapBytes := none, echoId := none }
  else
    match reply.eapMessages with
    | eap :: _ => { action := .challenge, eapBytes := some eap, echoId := none }
    | [] => { action := .ack, eapBytes := none, echoId := none }

/-- The state when an EAP-TLS packet is about to be relayed. -/
def relayReady (leg : Leg) (packet : EapTlsPacket) : Leg :=
  { leg with session :=
    { relayed leg.session packet with
      up.fragmentsOut := (relayed leg.session packet).up.fragmentsOut + 1 } }

theorem relay_ok {leg : Leg} {context : AuthContext} {eapBytes : Bytes} {packet : EapTlsPacket}
    {reply : RadiusReply} (passing : leg.session.mode = .passthrough)
    (parsed : parse eapBytes = .ok packet)
    (answered : leg.outcome client eapBytes context = .ok reply) :
    ∃ leg', handleSupplicantEap client fuel context eapBytes leg =
        (.ok (relayOutcome reply.normalise), leg') ∧
      leg'.exchanges = leg.exchanges ++ [leg.exchanged client eapBytes context] := by
  have exchanged : exchange client eapBytes context (relayReady leg packet) =
      (.ok reply.normalise,
        ((relayReady leg packet).sent client eapBytes context).received reply) :=
    exchange_ok answered
  have relays : passthroughUpstream client context eapBytes
      { leg with session := relayed leg.session packet } =
        (exchange client eapBytes context >>= fun reply =>
          if reply.accept then do
            Act.modify fun leg => { leg with session := leg.session.finish .accept leg.clock }
            return { action := .accept, eapBytes := reply.eapMessages.head?, echoId := none }
          else if reply.reject then do
            Act.modify fun leg => { leg with session := leg.session.finish .reject leg.clock }
            return { action := .reject, eapBytes := none, echoId := none }
          else
            match reply.eapMessages with
            | eap :: _ => do
                updateSession fun s => { s with down.fragmentsOut := s.down.fragmentsOut + 1 }
                return { action := .challenge, eapBytes := some eap, echoId := none }
            | [] => return { action := .ack, eapBytes := none, echoId := none })
          (relayReady leg packet) := rfl
  rw [handle_passthrough_eq passing parsed, relays, Act.bind_of_ok exchanged, relayOutcome]
  by_cases accept : reply.normalise.accept = true
  · rw [if_pos accept, if_pos accept]
    exact ⟨_, rfl, rfl⟩
  · rw [if_neg accept, if_neg accept]
    by_cases reject : reply.normalise.reject = true
    · rw [if_pos reject, if_pos reject]
      exact ⟨_, rfl, rfl⟩
    · rw [if_neg reject, if_neg reject]
      cases reply.normalise.eapMessages with
      | nil => exact ⟨_, rfl, rfl⟩
      | cons eap _ => exact ⟨_, rfl, rfl⟩

end Mediator

namespace Downstream

open Mediator

variable {env : Env} {fuel : ℕ}

/-- The outcome for the reply to a packet that is not EAP-TLS. -/
def plainOutcome (reply : Reply) : Outcome where
  action := if reply.accept then .accept else if reply.reject then .reject else .challenge
  eapBytes := reply.eapMessages.head?
  echoId := none

theorem plain_ok {leg : Leg} {context : AuthContext} {eapBytes : Bytes} {reply : RadiusReply}
    (answered : leg.outcome env.client eapBytes context = .ok reply) :
    ∃ leg', passthroughNonTls env context eapBytes leg =
        (.ok (plainOutcome reply.normalise), leg') ∧
      leg'.exchanges = leg.exchanges ++ [leg.exchanged env.client eapBytes context] := by
  rw [passthroughNonTls, Act.bind_of_ok (exchange_ok answered), plainOutcome]
  by_cases accept : reply.normalise.accept = true
  · rw [if_pos accept, if_pos accept]
    exact ⟨_, rfl, rfl⟩
  · rw [if_neg accept, if_neg accept]
    by_cases reject : reply.normalise.reject = true
    · rw [if_pos reject, if_pos reject]
      exact ⟨_, rfl, rfl⟩
    · rw [if_neg reject, if_neg reject]
      exact ⟨_, rfl, rfl⟩

/-! ## The reply, joined and cut again -/

/-- The EAP packet that goes to the AP with an outcome, if any. -/
def carried (outcome : Outcome) : List Bytes := outcome.eapBytes.toList.filter (· ≠ [])

/-- **The reply for an outcome carries its EAP packet.** -/
theorem eapMessage_replyFor (session : Session) (state : Option Bytes) (outcome : Outcome) :
    (replyFor session state outcome).eapMessage = (carried outcome).flatMap splitEapMessage := by
  rw [replyFor, carried]
  rcases outcome.eapBytes with _ | _ | ⟨byte, rest⟩
  · rfl
  · rfl
  · simp [withEap]

theorem concat_eq_singleton {values : List Bytes} {eap : Bytes} (present : eap ≠ []) :
    concatEapMessages values = [eap] ↔ values.flatten = eap := by
  rw [concatEapMessages]
  constructor
  · intro same
    split at same
    next => cases same
    next =>
      split at same
      next => cases same
      next => exact List.singleton_injective same
  · rintro rfl
    rw [if_neg present, if_neg (fun none => present (by rw [none]; rfl))]

/-- The EAP packet of a reply is never empty. -/
theorem filter_concat (eapMessage : List Bytes) :
    (concatEapMessages eapMessage).head?.toList.filter (· ≠ []) = concatEapMessages eapMessage := by
  rw [concatEapMessages]
  by_cases none : eapMessage = []
  · rw [if_pos none]
    rfl
  · rw [if_neg none]
    by_cases empty : eapMessage.flatten = []
    · rw [if_pos empty]
      rfl
    · rw [if_neg empty]
      exact List.filter_cons_of_pos (decide_eq_true empty)

/-! ## One request -/

/-- The EAP packet of an AP's request goes upstream once, as it is, and the AP is sent what the
server answered. -/
structure Relayed (env : Env) (request : ApRequest) (σ σ' : Server) (exchange : Exchange)
    (packet : AccessRequest) (reply : RadiusReply) (built : BuiltReply) (out : ApReply) : Prop where
  once : σ'.exchanges = σ.exchanges ++ [exchange]
  goes : env.client.wire exchange.request = .ok packet
  payload : packet.eap = request.eap
  answered : exchange.outcome = .ok reply
  replied : σ'.replies = σ.replies ++ [built]
  answers : built.answers = request
  own : built.session = exchange.session
  comes : env.send σ.replies built = .ok out
  code : out.code = reply.code
  eap : concatEapMessages out.eapMessage = concatEapMessages reply.eapMessage

/-- The request in a datagram, if it is not dropped, is relayed. -/
def Transparent (env : Env) (fuel : ℕ) (datagram : Datagram) (σ : Server) : Prop :=
  ∀ request, datagram.decoded = .ok request → Admitted request →
    ∃ exchange packet reply built out, Relayed env request (σ.woken datagram)
      (handleRequest env fuel datagram.addr request (σ.woken datagram)).2 exchange packet reply
      built out

/-- What comes of the request that carries the EAP packet upstream. -/
def upstreamAnswer (env : Env) (addr : String × ℕ) (request : ApRequest) (σ : Server) :
    Except Raised RadiusReply :=
  (startOf env addr request σ).outcome env.client request.eap request.context

/-- The EAP packet parses if it is EAP-TLS, the server is asked and answers with an accept, a
reject or a challenge, and what is built for the AP gets out. -/
structure Conformant (env : Env) (fuel : ℕ) (datagram : Datagram) (σ : Server) : Prop where
  parses : ∀ request, datagram.decoded = .ok request → Admitted request →
    request.eap[4]? = some eapTypeTls → ∃ packet, parse request.eap = .ok packet
  answers : ∀ request, datagram.decoded = .ok request → Admitted request →
    ∃ reply, upstreamAnswer env datagram.addr request (σ.woken datagram) = .ok reply ∧
      (reply.code = accessAccept ∨ reply.code = accessReject ∨ reply.code = accessChallenge)
  getsOut : ∀ request, datagram.decoded = .ok request → Admitted request →
    ∀ built, (handleRequest env fuel datagram.addr request (σ.woken datagram)).2.replies =
      σ.replies ++ [built] → ∃ out, env.send σ.replies built = .ok out

/-- What keeps a request from being relayed. -/
inductive Spoiled (env : Env) (addr : String × ℕ) (request : ApRequest) (σ : Server) : Prop where
  /-- An attribute that is captured does not decode. -/
  | undecoded (e : Raised) (raises : notes env addr request σ = .error e)
  /-- A piece of its EAP packet starts with the ASCII text `0x`. -/
  | hexRequest (hex : HexPiece request.eap)
  /-- So does a piece of the EAP packet that answers it. -/
  | hexReply (reply : RadiusReply) (answered : upstreamAnswer env addr request σ = .ok reply)
      (hex : HexPiece reply.eapMessage.flatten)
  /-- It is an EAP-TLS packet, and is answered with a reject that carries an EAP packet. -/
  | rejected (reply : RadiusReply) (tls : request.eap[4]? = some eapTypeTls)
      (answered : upstreamAnswer env addr request σ = .ok reply)
      (reject : reply.code = accessReject) (present : concatEapMessages reply.eapMessage ≠ [])

/-- The request in a datagram, if it is not dropped, is kept from nothing. -/
def Unspoiled (env : Env) (datagram : Datagram) (σ : Server) : Prop :=
  ∀ request, datagram.decoded = .ok request → Admitted request →
    ¬ Spoiled env datagram.addr request (σ.woken datagram)

theorem relayOutcome_code {reply : RadiusReply}
    (code : reply.code = accessAccept ∨ reply.code = accessReject ∨
      reply.code = accessChallenge) :
    (relayOutcome reply.normalise).action.code = reply.code := by
  rw [relayOutcome]
  simp only [RadiusReply.normalise, beq_iff_eq]
  rcases code with code | code | code
  · rw [if_pos code, code]
    rfl
  · rw [if_neg (by rw [code]; decide), if_pos code, code]
    rfl
  · rw [if_neg (by rw [code]; decide), if_neg (by rw [code]; decide), code]
    cases concatEapMessages reply.eapMessage <;> rfl

theorem plainOutcome_code {reply : RadiusReply}
    (code : reply.code = accessAccept ∨ reply.code = accessReject ∨
      reply.code = accessChallenge) :
    (plainOutcome reply.normalise).action.code = reply.code := by
  simp only [plainOutcome, RadiusReply.normalise, beq_iff_eq]
  rcases code with code | code | code
  · rw [if_pos code, code]
    rfl
  · rw [if_neg (by rw [code]; decide), if_pos code, code]
    rfl
  · rw [if_neg (by rw [code]; decide), if_neg (by rw [code]; decide), code]
    rfl

/-- A relayed EAP-TLS packet gets the EAP packet of the reply, except with a reject. -/
theorem relayOutcome_carried (reply : RadiusReply) :
    carried (relayOutcome reply.normalise) =
      if reply.code = accessReject then [] else concatEapMessages reply.eapMessage := by
  have eapBytes : (relayOutcome reply.normalise).eapBytes =
      if reply.code = accessReject then none
      else (concatEapMessages reply.eapMessage).head? := by
    rw [relayOutcome]
    simp only [RadiusReply.normalise, beq_iff_eq]
    by_cases accept : reply.code = accessAccept
    · rw [if_pos accept, if_neg (by rw [accept]; decide)]
    · rw [if_neg accept]
      by_cases reject : reply.code = accessReject
      · rw [if_pos reject, if_pos reject]
      · rw [if_neg reject, if_neg reject]
        cases concatEapMessages reply.eapMessage <;> rfl
  rw [carried, eapBytes]
  by_cases reject : reply.code = accessReject
  · rw [if_pos reject, if_pos reject]
    rfl
  · rw [if_neg reject, if_neg reject]
    exact filter_concat reply.eapMessage

theorem plainOutcome_carried (reply : RadiusReply) :
    carried (plainOutcome reply.normalise) = concatEapMessages reply.eapMessage :=
  filter_concat reply.eapMessage

/-- What goes out for an outcome that carries the EAP packet of a reply is that packet, if no piece
of it starts with `0x`. -/
theorem out_iff (encodes : EncodesOctets env.encodeOctets) {session : Session}
    {state : Option Bytes} {outcome : Outcome} {out : ApReply} {eapMessage : List Bytes}
    (sent : env.wire (replyFor session state outcome) = .ok out)
    (kept : carried outcome = concatEapMessages eapMessage) :
    concatEapMessages out.eapMessage = concatEapMessages eapMessage ↔
      ¬ HexPiece eapMessage.flatten := by
  obtain ⟨_, _, _, encoded, _, _, _, returned, rfl⟩ := Env.wire_cases sent
  rw [eapMessage_replyFor, kept] at returned
  by_cases empty : eapMessage.flatten = []
  · have nothing : concatEapMessages eapMessage = [] := by
      rw [concatEapMessages, if_pos empty, ite_self]
    rw [nothing] at returned ⊢
    cases returned
    rw [empty]
    exact iff_of_true rfl (by decide)
  · have whole := (concat_eq_singleton empty).mpr rfl
    rw [whole, List.flatMap_singleton] at returned
    rw [whole, concat_eq_singleton empty]
    exact encodes.flatten_iff returned

/-- A handling that returns after one exchange relays the request, if the EAP packets go through
pyrad as they are and its outcome carries that of the reply. -/
theorem relayed_iff (encodes : EncodesOctets env.encodeOctets) {addr : String × ℕ}
    {request : ApRequest} {σ : Server} {outcome : Outcome} {reply : RadiusReply} {leg : Leg}
    (handles : handled env fuel addr request σ = (.ok outcome, leg))
    (grows : leg.exchanges = (startOf env addr request σ).exchanges ++
      [(startOf env addr request σ).exchanged env.client request.eap request.context])
    (answered : upstreamAnswer env addr request σ = .ok reply)
    (ident : (startOf env addr request σ).session.ident = (found env addr request σ).1)
    (code : outcome.action.code = reply.code)
    (getsOut : ∀ built, (handleRequest env fuel addr request σ).2.replies = σ.replies ++ [built] →
      ∃ out, env.send σ.replies built = .ok out)
    (carries : carried outcome = [] ∨ carried outcome = concatEapMessages reply.eapMessage) :
    (∃ exchange packet reply built out, Relayed env request σ
        (handleRequest env fuel addr request σ).2 exchange packet reply built out) ↔
      ¬ HexPiece request.eap ∧ ¬ HexPiece reply.eapMessage.flatten ∧
        carried outcome = concatEapMessages reply.eapMessage := by
  have returned : (handled env fuel addr request σ).1 = .ok outcome := by rw [handles]
  have once : (handleRequest env fuel addr request σ).2.exchanges = σ.exchanges ++
      [(startOf env addr request σ).exchanged env.client request.eap request.context] := by
    rw [handleRequest_exchanges, handles, grows, startOf_exchanges]
  have replies := handleRequest_answers returned
  obtain ⟨packet, goes, _⟩ := UpstreamClient.sent_of_answer answered
  have payload : packet.eap = request.eap ↔ ¬ HexPiece request.eap := by
    obtain ⟨_, encoded, _, encodedEap, rfl⟩ :=
      UpstreamClient.encode_cases (UpstreamClient.encode_of_wire goes)
    exact encodes.flatten_iff encodedEap
  obtain ⟨out, comes⟩ := getsOut _ replies
  have wired := (Env.wire_of_send comes).1
  constructor
  · rintro ⟨exchange, packet', reply', built, out', relayed⟩
    obtain rfl := List.singleton_injective (List.append_cancel_left (relayed.once.symm.trans once))
    obtain rfl := List.singleton_injective
      (List.append_cancel_left (relayed.replied.symm.trans replies))
    cases relayed.answered.symm.trans answered
    cases relayed.goes.symm.trans goes
    cases relayed.comes.symm.trans comes
    have kept : carried outcome = concatEapMessages reply.eapMessage := by
      rcases carries with nothing | whole
      · obtain ⟨_, _, _, encoded, _, _, _, encodedEap, rfl⟩ := Env.wire_cases wired
        have bare : (answer env (found env addr request σ).1 request outcome
            (afterHandling env fuel addr request σ)).1.reply.eapMessage = [] := by
          refine (eapMessage_replyFor _ _ _).trans ?_
          rw [nothing]
          rfl
        rw [bare] at encodedEap
        cases encodedEap
        rw [nothing, ← relayed.eap]
        rfl
      · exact whole
    exact ⟨payload.mp relayed.payload, (out_iff encodes wired kept).mp relayed.eap, kept⟩
  · rintro ⟨plain, plainReply, kept⟩
    refine ⟨_, packet, reply, _, out, once, goes, payload.mpr plain, answered, replies, rfl,
      ident.symm, comes, ?_, (out_iff encodes wired kept).mpr plainReply⟩
    rw [Env.code_of_wire wired, answer_code]
    exact code

/-- A request that cannot be noted is not relayed. -/
theorem not_relayed_of_undecoded {addr : String × ℕ} {request : ApRequest} {σ : Server}
    {e : Raised} (raises : notes env addr request σ = .error e) :
    ¬ ∃ exchange packet reply built out, Relayed env request σ
      (handleRequest env fuel addr request σ).2 exchange packet reply built out := by
  rintro ⟨exchange, packet, reply, built, out, relayed⟩
  have same : handled env fuel addr request σ = (.error e, startOf env addr request σ) :=
    handling_of_undecoded raises
  have once := relayed.once
  rw [handleRequest_exchanges, same, startOf_exchanges] at once
  simp at once

/-- **A request is relayed exactly when nothing keeps it from that.** -/
theorem each_relayed_iff (encodes : EncodesOctets env.encodeOctets)
    (passing : env.cfg.sessionMode = .passthrough) {datagram : Datagram} {σ : Server}
    (conformant : Conformant env fuel datagram σ) (regular : σ.Regular env) {request : ApRequest}
    (decoded : datagram.decoded = .ok request) (admitted : Admitted request) :
    (∃ exchange packet reply built out, Relayed env request (σ.woken datagram)
      (handleRequest env fuel datagram.addr request (σ.woken datagram)).2 exchange packet reply
      built out) ↔ ¬ Spoiled env datagram.addr request (σ.woken datagram) := by
  obtain ⟨reply, answered, code⟩ := conformant.answers request decoded admitted
  have getsOut := conformant.getsOut request decoded admitted
  have settings := startOf_settings (Regular.woken regular datagram) datagram.addr request
  have mode : (startOf env datagram.addr request (σ.woken datagram)).session.mode =
      .passthrough := (congrArg Session.Settings.mode settings).trans passing
  have ident := congrArg Session.Settings.ident settings
  rcases noted : notes env datagram.addr request (σ.woken datagram) with e | done
  · refine iff_of_false (not_relayed_of_undecoded noted) ?_
    exact fun spared => spared (.undecoded e noted)
  -- Apart from the reject, what keeps a request from being relayed is the same on both routes.
  have spoiled : Spoiled env datagram.addr request (σ.woken datagram) ↔
      HexPiece request.eap ∨ HexPiece reply.eapMessage.flatten ∨
        (request.eap[4]? = some eapTypeTls ∧ reply.code = accessReject ∧
          concatEapMessages reply.eapMessage ≠ []) := by
    constructor
    · rintro (⟨e, raises⟩ | ⟨hex⟩ | ⟨reply', answered', hex⟩ |
        ⟨reply', tls, answered', reject, present⟩)
      · cases noted.symm.trans raises
      · exact .inl hex
      · cases answered.symm.trans answered'
        exact .inr (.inl hex)
      · cases answered.symm.trans answered'
        exact .inr (.inr ⟨tls, reject, present⟩)
    · rintro (hex | hex | ⟨tls, reject, present⟩)
      · exact .hexRequest hex
      · exact .hexReply reply answered hex
      · exact .rejected reply tls answered reject present
  rw [spoiled, not_or, not_or]
  by_cases tls : request.eap[4]? = some eapTypeTls
  · obtain ⟨packet, parsed⟩ := conformant.parses request decoded admitted tls
    obtain ⟨leg, handles, grows⟩ := @relay_ok env.client fuel _ _ _ _ _ mode parsed answered
    have routes := (@handled_of_parse env fuel _ _ _ _ parsed noted).trans handles
    have carries := relayOutcome_carried reply
    refine (relayed_iff encodes routes grows answered ident (relayOutcome_code code) getsOut ?_).trans
      (and_congr_right fun _ => and_congr_right fun _ => ?_)
    · rw [carries]
      exact ite_eq_or_eq _ _ _
    · rw [carries]
      by_cases reject : reply.code = accessReject
      · simp [tls, reject, eq_comm]
      · simp [reject]
  · obtain ⟨leg, handles, grows⟩ := plain_ok answered
    have routes : handled env fuel datagram.addr request (σ.woken datagram) =
        (.ok (plainOutcome reply.normalise), leg) := by
      refine (@handling_of_captured env fuel request
        ((found env datagram.addr request (σ.woken datagram)).2.leg
          (found env datagram.addr request (σ.woken datagram)).1) noted).trans ?_
      rw [route, if_neg tls]
      exact handles
    have carries := plainOutcome_carried reply
    refine (relayed_iff encodes routes grows answered ident (plainOutcome_code code) getsOut
      (.inr carries)).trans (and_congr_right fun _ => and_congr_right fun _ => ?_)
    exact iff_of_true carries fun both => tls both.1

/-- A datagram is transparent exactly when nothing keeps its request from being relayed. -/
theorem transparent_iff (encodes : EncodesOctets env.encodeOctets)
    (passing : env.cfg.sessionMode = .passthrough) {datagram : Datagram} {σ : Server}
    (conformant : Conformant env fuel datagram σ) (regular : σ.Regular env) :
    Transparent env fuel datagram σ ↔ Unspoiled env datagram σ := by
  have each := fun {request : ApRequest} => @each_relayed_iff env fuel encodes passing datagram σ
    conformant regular request
  constructor
  · intro transparent request decoded admitted
    exact (each decoded admitted).mp (transparent request decoded admitted)
  · intro spared request decoded admitted
    exact (each decoded admitted).mpr (spared request decoded admitted)

/-- **A passthrough run relays every request exactly when** each of them is noted, no piece of an
EAP packet starts with the ASCII text `0x`, and no EAP-TLS packet is rejected with an EAP
packet. -/
theorem passthrough_transparent_iff {env : Env} {fuel : ℕ} (mode : env.cfg.mode = "passthrough")
    (encodes : EncodesOctets env.encodeOctets) {datagrams : List Datagram}
    (conformant : Along (serve env fuel) (Conformant env fuel) datagrams (initial env)) :
    Along (serve env fuel) (Transparent env fuel) datagrams (initial env) ↔
      Along (serve env fuel) (Unspoiled env) datagrams (initial env) := by
  have passing : env.cfg.sessionMode = .passthrough := by rw [Config.sessionMode, if_pos mode]
  exact Along.iff (fun _ _ _ regular served => Regular.serve regular served)
    (fun _ _ conformant regular => transparent_iff encodes passing conformant regular) conformant
    (regular_initial env)

/-- A datagram with an ACK of the supplicant. -/
def ackDatagram : Datagram := datagramOf (requestWith none [codeResponse, 7, 0, 6, eapTypeTls, 0])

/-- A passthrough proxy whose server gives one reply each time. -/
def relaying (reply : RadiusReply) : Env :=
  { answering "passthrough" reply with encodeOctets := EncodesOctets.refuseHex }

/-- A challenge comes through, for an identity and for an EAP-TLS packet. -/
theorem passthrough_transparent_sample :
    Along (serve (relaying emptyChallenge) 0) (Transparent (relaying emptyChallenge) 0)
      [identityDatagram, ackDatagram] (initial (relaying emptyChallenge)) := by
  have conformant : Along (serve (relaying emptyChallenge) 0)
      (Conformant (relaying emptyChallenge) 0) [identityDatagram, ackDatagram]
      (initial (relaying emptyChallenge)) := by
    refine ⟨⟨?_, ?_, ?_⟩, fun mid served => ⟨⟨?_, ?_, ?_⟩, fun _ _ => trivial⟩⟩
    · rintro request ⟨⟩ - ⟨⟩
    · rintro request ⟨⟩ -
      exact ⟨emptyChallenge, rfl, .inr (.inr rfl)⟩
    · rintro request ⟨⟩ - built replies
      cases replies
      exact ⟨_, rfl⟩
    · rintro request ⟨⟩ - -
      exact ⟨ackPacket codeResponse 7, rfl⟩
    · rintro request ⟨⟩ -
      cases served
      exact ⟨emptyChallenge, rfl, .inr (.inr rfl)⟩
    · rintro request ⟨⟩ - built replies
      cases served
      cases replies
      exact ⟨_, rfl⟩
  refine (passthrough_transparent_iff rfl EncodesOctets.refuseHex_encodes conformant).mpr
    ⟨?_, fun mid served => ⟨?_, fun _ _ => trivial⟩⟩
  · rintro request ⟨⟩ - (⟨e, raises⟩ | ⟨hex⟩ | ⟨reply, answered, hex⟩ | ⟨reply, tls, -, -, -⟩)
    · cases raises
    · exact absurd hex (by decide)
    · cases answered
      exact absurd hex (by decide)
    · cases tls
  · cases served
    rintro request ⟨⟩ - (⟨e, raises⟩ | ⟨hex⟩ | ⟨reply, answered, hex⟩ |
      ⟨reply, -, answered, reject, -⟩)
    · cases raises
    · exact absurd hex (by decide)
    · cases answered
      exact absurd hex (by decide)
    · cases answered
      cases reject

/-- The EAP-Failure of a reject does not come through. -/
theorem eapFailure_dropped :
    (relaying rejectReply).cfg.validate = .ok () ∧
    Along (serve (relaying rejectReply) 0) (Conformant (relaying rejectReply) 0) [ackDatagram]
      (initial (relaying rejectReply)) ∧
    ¬ Along (serve (relaying rejectReply) 0) (Transparent (relaying rejectReply) 0) [ackDatagram]
      (initial (relaying rejectReply)) := by
  have conformant : Conformant (relaying rejectReply) 0 ackDatagram
      (initial (relaying rejectReply)) := by
    constructor
    · rintro request ⟨⟩ - -
      exact ⟨ackPacket codeResponse 7, rfl⟩
    · rintro request ⟨⟩ -
      exact ⟨rejectReply, rfl, .inr (.inl rfl)⟩
    · rintro request ⟨⟩ - built replies
      cases replies
      exact ⟨_, rfl⟩
  refine ⟨by decide, ⟨conformant, fun _ _ => trivial⟩, fun transparent => ?_⟩
  have spared := (transparent_iff EncodesOctets.refuseHex_encodes rfl conformant
    (regular_initial _)).mp transparent.1
  exact spared _ rfl (by decide) (.rejected rejectReply rfl rfl rfl (by decide))

end Downstream
end EapAccel
