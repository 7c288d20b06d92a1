import EapAccel.Downstream.Origins

/-!
# Identifiers toward the supplicant

An EAP-Request must have another Identifier than the Response it follows, or the supplicant
takes it for a repetition; an EAP-Success or EAP-Failure must have that of the Response. The
proxy gets its EAP packets for the supplicant in three ways. It relays them as the server
sent them, it builds Requests with the Identifier after that of the Response, and it puts
the Identifier of the Response into what came with a verdict. `identifiers_disciplined` says
what follows for a server that keeps the discipline itself.

The stored verdict is restamped whatever packet came with it, so a Request that the server
puts into an Access-Accept gets the Identifier of the Response (`request_restamped`).
-/

set_option autoImplicit false

namespace EapAccel

open Foundations EapTls

/-! ## The discipline -/

/-- The EAP packet in a reply of the server. -/
def RadiusReply.eap (reply : RadiusReply) : Bytes := reply.eapMessage.flatten

/-- The EAP packet in a reply to the AP. -/
def ApReply.eap (reply : ApReply) : Bytes := reply.eapMessage.flatten

/-- An EAP-Success or an EAP-Failure. -/
def Terminal (eap : Bytes) : Prop :=
  eap[0]? = some codeSuccess ∨ eap[0]? = some codeFailure

instance (eap : Bytes) : Decidable (Terminal eap) := inferInstanceAs (Decidable (_ ∨ _))

/-- The server's EAP-Requests do not reuse the Identifier of the Response they answer, and
its EAP-Success or EAP-Failure echoes it. -/
structure Exchange.Disciplined (exchange : Exchange) : Prop where
  request : ∀ reply, exchange.outcome = .ok reply → reply.eap[0]? = some codeRequest →
    reply.eap[1]? ≠ exchange.request.eap[1]?
  terminal : ∀ reply, exchange.outcome = .ok reply → Terminal reply.eap →
    reply.eap[1]? = exchange.request.eap[1]?

/-- The server sent this EAP packet in the session, apart from its Identifier. -/
def Sent (exchanges : List Exchange) (ident : ℕ) (eap : Bytes) : Prop :=
  ∃ exchange ∈ exchanges, exchange.session = ident ∧
    ∃ reply, exchange.outcome = .ok reply ∧ reply.eap.eraseIdx 1 = eap.eraseIdx 1

/-! ## What the server brought -/

/-- An exchange with this packet for the session brought this EAP packet. -/
def AnsweredWith (exchanges : List Exchange) (ident : ℕ) (eapPayload eap : Bytes) : Prop :=
  ∃ exchange ∈ exchanges, exchange.session = ident ∧ exchange.request.eap = eapPayload ∧
    ∃ reply, exchange.outcome = .ok reply ∧ reply.eap = eap

/-- It was brought for a packet that has an Identifier. -/
def BringsEap (exchanges : List Exchange) (ident : ℕ) (eap : Bytes) : Prop :=
  ∃ eapPayload : Bytes, eapPayload[1]? ≠ none ∧ AnsweredWith exchanges ident eapPayload eap

theorem AnsweredWith.mono {exchanges new : List Exchange} {ident : ℕ} {eapPayload eap : Bytes}
    (brings : AnsweredWith exchanges ident eapPayload eap) :
    AnsweredWith (exchanges ++ new) ident eapPayload eap := by
  obtain ⟨exchange, member, rest⟩ := brings
  exact ⟨exchange, List.mem_append_left _ member, rest⟩

theorem BringsEap.mono {exchanges new : List Exchange} {ident : ℕ} {eap : Bytes}
    (brings : BringsEap exchanges ident eap) : BringsEap (exchanges ++ new) ident eap := by
  obtain ⟨eapPayload, present, brings⟩ := brings
  exact ⟨eapPayload, present, brings.mono⟩

/-- The EAP packets that a session has stored with a verdict were brought for it. -/
def Session.StoredBrought (exchanges : List Exchange) (session : Session) : Prop :=
  ∀ eap, session.pendingSuccess = some eap ∨ session.pendingFailure = some eap →
    BringsEap exchanges session.ident eap

/-- What a session has stored with a verdict. -/
def Session.stored (session : Session) : ℕ × Option Bytes × Option Bytes :=
  (session.ident, session.pendingSuccess, session.pendingFailure)

theorem Session.StoredBrought.of_stored {exchanges new : List Exchange} {session session' : Session}
    (same : session'.stored = session.stored) (brought : session.StoredBrought exchanges) :
    session'.StoredBrought (exchanges ++ new) := by
  simp only [Session.stored, Prod.mk.injEq] at same
  obtain ⟨ident, success, failure⟩ := same
  intro eap stored
  rw [success, failure] at stored
  rw [ident]
  exact (brought eap stored).mono

namespace Mediator

variable {client : UpstreamClient} {fuel : ℕ} {context : AuthContext}

/-- **What comes back in an exchange, the exchange brought.** -/
theorem exchange_brings (eapPayload : Bytes) (inv : Leg → Prop)
    (keeps : ∀ leg, inv leg → inv (exchange client eapPayload context leg).2) :
    Act.Triple inv (exchange client eapPayload context)
      (fun reply leg => inv leg ∧ ∀ eap, reply.eapMessages.head? = some eap →
        AnsweredWith leg.exchanges leg.session.ident eapPayload eap) (fun _ => inv) := by
  intro leg holds
  have kept := keeps leg holds
  rw [exchange_eq] at kept ⊢
  rcases outcome : leg.outcome client eapPayload context with e | reply
  · rw [outcome] at kept
    exact kept
  · rw [outcome] at kept
    refine ⟨kept, fun eap head => ?_⟩
    refine ⟨leg.exchanged client eapPayload context, ?_, ?_, leg.eap_exchanged _ _, reply, outcome,
      head_normalise head⟩
    · rw [Leg.received_exchanges, Leg.sent_exchanges]
      simp
    · exact (learn_ident reply (leg.sent client eapPayload context).session).symm

theorem learn_stored (reply : RadiusReply) (session : Session) :
    (UpstreamClient.learn reply session).stored = session.stored := by
  obtain ⟨learnt, sendKey, recvKey, writes⟩ := learn_writes reply
  rw [writes]
  rfl

/-! ## What is told of a reassembled packet -/

/-- The state after a packet with this Identifier has been noted, up to the next packet for
the supplicant. -/
structure Noted (identifier : UInt8) (leg : Leg) : Prop where
  lastReqId : leg.session.downLastReqId = some identifier
  nextId : leg.session.downNextId = identifier
  brought : leg.session.StoredBrought leg.exchanges

/-- Put an Identifier into an EAP packet. -/
def restamp (identifier : UInt8) : Bytes → Bytes
  | code :: _ :: rest => code :: identifier :: rest
  | eap => eap

/-- What an outcome has for the supplicant: nothing, a Request with the next Identifier, or
with a verdict a packet of the server with the Identifier restamped. -/
def Told (identifier : UInt8) (outcome : Outcome) (leg : Leg) : Prop :=
  ∀ eap, outcome.eapBytes = some eap →
    (outcome.action.verdict = none ∧ eap[0]? = some codeRequest ∧ eap[1]? = some (identifier + 1)) ∨
      (outcome.action.verdict ≠ none ∧
        ∃ stored, BringsEap leg.exchanges leg.session.ident stored ∧ eap = restamp identifier stored)

/-- The part of a session that `Noted` is about. -/
def notedView (leg : Leg) : List Exchange × (ℕ × Option Bytes × Option Bytes) × Option UInt8 × UInt8 :=
  (leg.exchanges, leg.session.stored, leg.session.downLastReqId, leg.session.downNextId)

theorem Noted.of_view {identifier : UInt8} {leg leg' : Leg} (same : notedView leg' = notedView leg)
    (noted : Noted identifier leg) : Noted identifier leg' := by
  simp only [notedView, Prod.mk.injEq] at same
  obtain ⟨exchanges, stored, lastReqId, nextId⟩ := same
  refine ⟨lastReqId.trans noted.lastReqId, nextId.trans noted.nextId, ?_⟩
  have brought := @Session.StoredBrought.of_stored leg.exchanges [] _ _ stored noted.brought
  rw [List.append_nil] at brought
  exact exchanges ▸ brought

theorem noted_invariant {α : Type} {x : Act Raised Leg α} (keeps : Act.Keeps notedView x)
    (identifier : UInt8) : Act.Invariant (Noted identifier) x :=
  keeps.invariant fun _ _ => Noted.of_view

/-- What restamping a stored packet tells. -/
theorem told_stored {identifier : UInt8} {leg : Leg} (noted : Noted identifier leg)
    {stored : Option Bytes}
    (brought : ∀ eap, stored = some eap → BringsEap leg.exchanges leg.session.ident eap)
    {outcome : Outcome} (verdict : outcome.action.verdict ≠ none)
    (restamped : outcome.eapBytes = restampTerminal leg.session stored) :
    Told identifier outcome leg := by
  intro eap present
  refine .inr ⟨verdict, ?_⟩
  rw [restamped] at present
  rcases stored with _ | stored
  · cases present
  · refine ⟨stored, brought stored rfl, ?_⟩
    rcases stored with _ | ⟨code, _ | ⟨other, rest⟩⟩
    · exact (Option.some.inj present).symm
    · exact (Option.some.inj present).symm
    · simp only [restampTerminal, noted.lastReqId] at present
      exact (Option.some.inj present).symm

/-- A released fragment has the next Identifier. -/
theorem release_told (identifier : UInt8) (ackedId : Option UInt8) :
    Act.Triple (Noted identifier) (sendNextDownstreamFragment ackedId)
      (fun outcome leg => Told identifier outcome leg ∧ leg.session.StoredBrought leg.exchanges)
      (fun _ leg => leg.session.StoredBrought leg.exchanges) := by
  intro leg noted
  have brought : ∀ session : Session, session.stored = leg.session.stored →
      session.StoredBrought leg.exchanges := fun session same => by
    have later := @Session.StoredBrought.of_stored leg.exchanges [] _ _ same noted.brought
    rwa [List.append_nil] at later
  simp only [sendNextDownstreamFragment, Act.read_bind]
  rcases leg.session.downOutbox with _ | ⟨⟨idx, chunk⟩, rest⟩
  · exact ⟨fun eap present => (by cases present), noted.brought⟩
  · simp only [updateSession, Act.modify_bind]
    rcases built : build codeRequest leg.session.nextDownId chunk
      (idx < leg.session.downNchunks - 1) (if idx = 0 then some leg.session.downTotal else none)
        false with e | eapFrag
    · exact brought _ rfl
    · refine ⟨fun eap present => .inl ⟨rfl, ?_⟩, brought _ rfl⟩
      cases present
      have head := head_of_build built
      rw [Session.nextDownId, noted.nextId] at head
      exact head

/-- After a reply: its EAP packet was brought. -/
def NotedReply (identifier : UInt8) (reply : Reply) (leg : Leg) : Prop :=
  Noted identifier leg ∧ ∀ eap, reply.eapMessages.head? = some eap →
    BringsEap leg.exchanges leg.session.ident eap

theorem exchange_noted {identifier : UInt8} (eapPayload : Bytes) {leg : Leg}
    (noted : Noted identifier leg) :
    Noted identifier (exchange client eapPayload context leg).2 := by
  have side := @exchange_supplicantSide client eapPayload context leg
  have lastReqId := congrArg (fun s => s.downLastReqId) side
  have nextId := congrArg (fun s => s.downNextId) side
  refine ⟨lastReqId.trans noted.lastReqId, nextId.trans noted.nextId, ?_⟩
  rw [exchange_eq]
  rcases leg.outcome client eapPayload context with e | reply
  · exact noted.brought.of_stored rfl
  · exact noted.brought.of_stored (learn_stored reply _)

theorem send_noted {identifier other : UInt8} {eapPayload : Bytes} (built : Built other eapPayload) :
    Act.Triple (Noted identifier) (exchange client eapPayload context)
      (NotedReply identifier) (fun _ => Noted identifier) := by
  obtain ⟨_, _, _, built⟩ := built
  have present : eapPayload[1]? ≠ none := by
    rw [(head_of_build built).2]
    exact Option.some_ne_none _
  refine Act.Triple.conseq (exchange_brings eapPayload (Noted identifier)
    fun leg => exchange_noted eapPayload) (fun _ => id) ?_ fun _ _ => id
  exact fun reply leg brings => ⟨brings.1, fun eap head => ⟨eapPayload, present, brings.2 eap head⟩⟩

/-- Storing what came with a verdict. -/
theorem finish_noted {identifier : UInt8} {reply : Reply} {f : Leg → Session}
    (same : ∀ leg, ((f leg).ident, (f leg).downLastReqId, (f leg).downNextId) =
      (leg.session.ident, leg.session.downLastReqId, leg.session.downNextId))
    (stored : ∀ leg eap, (f leg).pendingSuccess = some eap ∨ (f leg).pendingFailure = some eap →
      (leg.session.pendingSuccess = some eap ∨ leg.session.pendingFailure = some eap) ∨
        reply.eapMessages.head? = some eap) :
    Act.Triple (NotedReply identifier reply) (Act.modify fun leg => { leg with session := f leg })
      (fun _ => Noted identifier) (fun _ : Raised => Noted identifier) := by
  rintro leg ⟨noted, brings⟩
  have fields := same leg
  simp only [Prod.mk.injEq] at fields
  refine ⟨fields.2.1.trans noted.lastReqId, fields.2.2.trans noted.nextId, ?_⟩
  intro eap present
  show BringsEap leg.exchanges (f leg).ident eap
  rw [fields.1]
  rcases stored leg eap present with before | new
  · exact noted.brought eap before
  · exact brings eap new

/-- What is left after a raise. -/
theorem Noted.raised {α : Type} {identifier : UInt8} {x : Act Raised Leg α}
    (keeps : Act.Invariant (Noted identifier) x) :
    Act.Triple (Noted identifier) x (fun _ => Noted identifier)
      (fun _ leg => leg.session.StoredBrought leg.exchanges) :=
  Act.Triple.conseq keeps (fun _ => id) (fun _ _ => id) fun _ _ noted => noted.brought

theorem deliver_told (identifier : UInt8) (tlsRecord : Bytes) :
    Act.Triple (Noted identifier) (deliverRecord tlsRecord)
      (fun outcome leg => Told identifier outcome leg ∧ leg.session.StoredBrought leg.exchanges)
      (fun _ leg => leg.session.StoredBrought leg.exchanges) := by
  refine Act.Triple.bind (Noted.raised (noted_invariant (fun _ => rfl) identifier)) fun _ => ?_
  refine Act.Triple.read_bind fun leg noted => Act.Triple.at_state ?_ noted
  refine Act.Triple.bind (Noted.raised (Act.Invariant.lift _)) fun pieces => ?_
  refine Act.Triple.bind (Noted.raised (noted_invariant (fun _ => rfl) identifier)) fun _ => ?_
  exact release_told identifier none

/-- **A reassembled packet is answered with a Request of the next Identifier or with a
restamped verdict.** -/
theorem told_rule (client : UpstreamClient) (context : AuthContext) (identifier : UInt8) :
    MediateRule client context (fun _ => Noted identifier) (NotedReply identifier)
      (Noted identifier)
      (fun outcome leg => Told identifier outcome leg ∧ leg.session.StoredBrought leg.exchanges)
      (fun leg => leg.session.StoredBrought leg.exchanges) where
  echo := fun leg noted => by
    rw [echoUpstreamId_eq]
    refine Noted.of_view ?_ noted
    unfold Leg.takeUpId Session.takeUpId
    split <;> rfl
  weaken := fun _ _ => id
  count := fun _ => noted_invariant (fun _ => rfl) identifier
  pull := fun other => send_noted (built_ack other)
  pass := fun _ _ => And.left
  ingest := fun _ => noted_invariant (fun _ => rfl) identifier
  accept := fun reply => finish_noted (fun _ => rfl)
    fun leg eap stored => stored.elim .inr fun failure => .inl (.inr failure)
  reject := fun reply => finish_noted (fun _ => rfl)
    fun leg eap stored => stored.elim (fun success => .inl (.inl success)) .inr
  raise := fun _ noted => noted.brought
  deliver := deliver_told identifier
  accepted := fun leg noted => ⟨told_stored noted (fun eap stored =>
    noted.brought eap (.inl stored)) (Option.some_ne_none _) rfl, noted.brought⟩
  rejected := fun leg noted => ⟨told_stored noted (fun eap stored =>
    noted.brought eap (.inr stored)) (Option.some_ne_none _) rfl, noted.brought⟩
  nothing := fun action leg noted => ⟨fun eap present => (by cases present), noted.brought⟩
  chunk := fun _ => noted_invariant (fun _ => rfl) identifier
  send := fun _ _ built => send_noted built
  release := release_told identifier
  ingestData := fun _ => noted_invariant (fun _ => rfl) identifier
  acknowledge := by
    intro leg noted
    refine ⟨fun eap present => .inl ⟨rfl, ?_⟩, fun eap stored => noted.brought eap stored⟩
    cases present
    have next : leg.session.nextDownId = identifier + 1 := by
      rw [Session.nextDownId, noted.nextId]
    exact ⟨rfl, congrArg some next⟩
  gather := fun _ => noted_invariant (fun _ => rfl) identifier

theorem mediated_told {eapBytes : Bytes} {packet : EapTlsPacket} {leg : Leg}
    (reassembling : leg.session.mode = .reassemble) (parsed : parse eapBytes = .ok packet)
    (brought : leg.session.StoredBrought leg.exchanges) :
    Act.Triple (fun start => start = leg) (handleSupplicantEap client fuel context eapBytes)
      (fun outcome leg =>
        Told packet.identifier outcome leg ∧ leg.session.StoredBrought leg.exchanges)
      (fun _ leg => leg.session.StoredBrought leg.exchanges) :=
  (told_rule client context packet.identifier).mediates reassembling parsed ⟨rfl, rfl, brought⟩

/-! ## What is relayed -/

/-- An outcome has for the supplicant what the server sent in answer to this packet. -/
def HasAnswer (eapBytes : Bytes) (outcome : Outcome) (leg : Leg) : Prop :=
  ∀ eap, outcome.eapBytes = some eap → AnsweredWith leg.exchanges leg.session.ident eapBytes eap

/-- After the exchange of a packet, an outcome with the packet of the reply relays it. -/
theorem relayed_of_head {eapBytes : Bytes} {reply : Reply} {outcome : Outcome} {leg leg' : Leg}
    (brings : ∀ eap, reply.eapMessages.head? = some eap →
      AnsweredWith leg.exchanges leg.session.ident eapBytes eap)
    (same : (leg'.exchanges, leg'.session.ident) = (leg.exchanges, leg.session.ident))
    (head : ∀ eap, outcome.eapBytes = some eap → reply.eapMessages.head? = some eap) :
    HasAnswer eapBytes outcome leg' := by
  intro eap present
  simp only [Prod.mk.injEq] at same
  rw [same.1, same.2]
  exact brings eap (head eap present)

theorem exchange_relays (eapBytes : Bytes) :
    Act.Triple (fun _ => True) (exchange client eapBytes context)
      (fun reply leg => True ∧ ∀ eap, reply.eapMessages.head? = some eap →
        AnsweredWith leg.exchanges leg.session.ident eapBytes eap) (fun _ _ => True) :=
  exchange_brings eapBytes (fun _ => True) fun _ _ => trivial

/-- **In passthrough mode the server's packet is relayed.** -/
theorem passthroughUpstream_relays (eapBytes : Bytes) :
    Act.Triple (fun _ => True) (passthroughUpstream client context eapBytes) (HasAnswer eapBytes)
      (fun _ _ => True) := by
  have counted : Act.Invariant (fun _ => True)
      (updateSession fun s => { s with up.fragmentsOut := s.up.fragmentsOut + 1 }) :=
    fun _ _ => trivial
  refine Act.Triple.bind counted fun _ => ?_
  refine Act.Triple.bind (exchange_relays eapBytes) fun reply => ?_
  refine Act.Triple.ite (fun _ => ?_) fun _ => Act.Triple.ite (fun _ => ?_) fun _ => ?_
  · exact fun leg brings => relayed_of_head brings.2 rfl fun _ => id
  · exact fun leg brings => relayed_of_head brings.2 rfl fun _ present => (by cases present)
  · rcases messages : reply.eapMessages with _ | ⟨eap, rest⟩
    · exact fun leg brings eap present => (by cases present)
    · refine fun leg brings => @relayed_of_head eapBytes reply _ leg _ ?_ rfl ?_
      · rw [messages]
        exact brings.2
      · rw [messages]
        exact fun _ => id

end Mediator

namespace Downstream

open Mediator

variable {env : Env} {fuel : ℕ} {context : AuthContext}

/-- **Any other packet of the server is relayed.** -/
theorem passthroughNonTls_relays (eapBytes : Bytes) :
    Act.Triple (fun _ => True) (passthroughNonTls env context eapBytes) (HasAnswer eapBytes)
      (fun _ _ => True) := by
  refine Act.Triple.bind (exchange_relays eapBytes) fun reply => ?_
  refine Act.Triple.ite (fun _ => ?_) fun _ => Act.Triple.ite (fun _ => ?_) fun _ => ?_
  · exact fun leg brings => relayed_of_head brings.2 rfl fun _ => id
  · exact fun leg brings => relayed_of_head brings.2 rfl fun _ => id
  · exact fun leg brings => relayed_of_head brings.2 rfl fun _ => id

/-! ## What is stored -/

/-- **What a session has stored with a verdict was brought for it.** -/
theorem storedBrought_rule (env : Env) (fuel : ℕ) :
    ObjectRule env fuel fun exchanges session => session.StoredBrought exchanges where
  created := by
    intro exchanges ref key now _ eap stored
    rcases stored with success | failure
    · cases success
    · cases failure
  others := fun _ new session _ brought => brought.of_stored rfl
  renamed := by
    intro exchanges session session' unnamed brought
    have of : ∀ s : Session, s.StoredBrought exchanges ↔ s.unnamed.StoredBrought exchanges :=
      fun _ => Iff.rfl
    exact (of session').mpr (unnamed ▸ (of session).mp brought)
  noted := fun _ _ _ brought => brought
  handled := by
    intro context eapBytes leg _ brought
    have sends : ∀ eapPayload, Act.Invariant (fun leg => leg.session.StoredBrought leg.exchanges)
        (exchange env.client eapPayload context) := by
      intro eapPayload
      refine Act.Invariant.of_ended fun leg brought => ?_
      rw [exchange_eq]
      rcases leg.outcome env.client eapPayload context with e | reply
      · exact brought.of_stored rfl
      · exact brought.of_stored (learn_stored reply _)
    have finishes : ∀ verdict, Act.Invariant (fun leg => leg.session.StoredBrought leg.exchanges)
        (Act.modify fun leg => { leg with session := leg.session.finish verdict leg.clock } :
          Act Raised Leg Unit) := fun _ _ brought => brought
    by_cases tls : eapBytes[4]? = some eapTypeTls
    · rw [route, if_pos tls]
      rcases parsed : parse eapBytes with e | packet
      · rw [handle_unparsed parsed]
        exact brought
      cases mode : leg.session.mode with
      | passthrough =>
          rw [handle_passthrough_eq mode parsed]
          exact (RelayRule.passthroughUpstream
            ⟨fun _ brought => brought, sends, finishes, fun _ brought => brought⟩
            eapBytes).ended brought
      | reassemble =>
          have told := @mediated_told env.client fuel context eapBytes packet leg mode parsed brought
          exact (Act.Triple.conseq told (fun _ => id) (fun _ _ => And.right) fun _ _ => id).ended rfl
    · rw [route, if_neg tls]
      exact (passthroughNonTls_keeps finishes (sends eapBytes)).ended brought

/-! ## What the AP gets -/

theorem splitEap_withEap (eapBytes : Option Bytes) (reply : ApReply) (bare : reply.eapMessage = []) :
    (withEap eapBytes reply).eap = eapBytes.getD [] := by
  rcases eapBytes with _ | _ | ⟨byte, rest⟩
  · show reply.eapMessage.flatten = []
    rw [bare, List.flatten_nil]
  · show reply.eapMessage.flatten = []
    rw [bare, List.flatten_nil]
  · exact splitEapMessage_flatten (byte :: rest)

/-- The reply carries the EAP packet of the outcome. -/
theorem answer_eap (ref : ℕ) (request : ApRequest) (outcome : Outcome) (σ : Server) :
    (answer env ref request outcome σ).1.reply.eap = outcome.eapBytes.getD [] :=
  splitEap_withEap _ _ rfl

/-- **How the EAP packet of an outcome came about**: it was relayed, or it tells of a
reassembled packet. -/
theorem route_tells (eapBytes : Bytes) {leg leg' : Leg} {outcome : Outcome}
    (brought : leg.session.StoredBrought leg.exchanges)
    (returned : route env fuel context eapBytes leg = (.ok outcome, leg')) :
    HasAnswer eapBytes outcome leg' ∨
      (leg.session.mode = .reassemble ∧ eapBytes[4]? = some eapTypeTls ∧
        ∃ identifier, eapBytes[1]? = some identifier ∧ Told identifier outcome leg') := by
  by_cases tls : eapBytes[4]? = some eapTypeTls
  · rw [route, if_pos tls] at returned
    rcases parsed : parse eapBytes with e | packet
    · rw [handle_unparsed parsed] at returned
      cases returned
    cases mode : leg.session.mode with
    | passthrough =>
        rw [handle_passthrough_eq mode parsed] at returned
        exact .inl ((passthroughUpstream_relays eapBytes).returned trivial returned)
    | reassemble =>
        have told := (mediated_told mode parsed brought).returned rfl returned
        exact .inr ⟨rfl, tls, packet.identifier, identifier_of_parse parsed, told.1⟩
  · rw [route, if_neg tls] at returned
    exact .inl ((passthroughNonTls_relays eapBytes).returned trivial returned)

end Downstream

/-- The EAP packet in a reply to the AP: a Request has another Identifier than the Response
it answers, unless it stands in a verdict on a reassembled packet, and a Success or Failure
has that of the Response and is otherwise as the server sent it. -/
structure BuiltReply.Disciplined (mode : Mode) (exchanges : List Exchange) (sent : BuiltReply) :
    Prop where
  request : sent.reply.eap[0]? = some codeRequest →
    (mode = .reassemble → sent.answers.eap[4]? = some eapTypeTls →
      sent.reply.code = accessChallenge) →
    sent.reply.eap[1]? ≠ sent.answers.eap[1]?
  terminal : Terminal sent.reply.eap → sent.reply.eap[1]? = sent.answers.eap[1]? ∧
    Sent (exchanges.take sent.exchangesBefore) sent.session sent.reply.eap

namespace Downstream

open Mediator

variable {env : Env} {fuel : ℕ}

theorem next_ne (identifier : UInt8) : identifier + 1 ≠ identifier := by
  intro same
  have number := congrArg UInt8.toNat same
  rw [UInt8.toNat_add] at number
  have bound := identifier.toNat_lt
  simp only [UInt8.toNat_one] at number
  omega

/-- What the server brought for a packet keeps the discipline toward the sender of it. -/
theorem disciplined_of_brings {exchanges : List Exchange} {ident : ℕ} {eapPayload eap : Bytes}
    (disciplined : ∀ exchange ∈ exchanges, exchange.Disciplined)
    (brings : AnsweredWith exchanges ident eapPayload eap) :
    (eap[0]? = some codeRequest → eap[1]? ≠ eapPayload[1]?) ∧
      (Terminal eap → eap[1]? = eapPayload[1]? ∧ Sent exchanges ident eap) := by
  obtain ⟨exchange, member, own, rfl, reply, outcome, rfl⟩ := brings
  have keeps := disciplined exchange member
  refine ⟨keeps.request reply outcome, fun terminal => ⟨keeps.terminal reply outcome terminal, ?_⟩⟩
  exact ⟨exchange, member, own, reply, outcome, rfl⟩

/-- A Success or Failure with the Identifier restamped. -/
theorem terminal_restamp {exchanges : List Exchange} {ident : ℕ} {identifier : UInt8}
    {stored : Bytes} (disciplined : ∀ exchange ∈ exchanges, exchange.Disciplined)
    (brings : BringsEap exchanges ident stored) (terminal : Terminal (restamp identifier stored)) :
    (restamp identifier stored)[1]? = some identifier ∧
      Sent exchanges ident (restamp identifier stored) := by
  obtain ⟨eapPayload, present, brings⟩ := brings
  have keeps := (disciplined_of_brings disciplined brings).2
  rcases stored with _ | ⟨code, _ | ⟨other, rest⟩⟩
  · exact absurd terminal (by simp [restamp, Terminal])
  -- A Success of one octet would not echo the Identifier.
  · exact absurd (keeps terminal).1.symm present
  · have same : Terminal (code :: other :: rest) := terminal
    obtain ⟨exchange, member, own, reply, outcome, sent⟩ := (keeps same).2
    exact ⟨rfl, exchange, member, own, reply, outcome, sent⟩

/-- **Identifier discipline toward the supplicant.** In every run in either mode in which the
server keeps the discipline, every reply to an AP keeps it. -/
theorem identifiers_disciplined {datagrams : List Datagram} {σ : Server}
    (ran : run env fuel datagrams (initial env) = some σ)
    (disciplined : ∀ exchange ∈ σ.exchanges, exchange.Disciplined) {sent : BuiltReply}
    (member : sent ∈ σ.replies) : sent.Disciplined env.cfg.sessionMode σ.exchanges := by
  obtain ⟨origin⟩ := origin_of_sent ran member
  obtain ⟨past, start, reached, addr, request, outcome, returned, rfl, grows⟩ := origin
  have regular := regular_of_run reached
  have brought := (storedBrought_rule env fuel).starts regular
    (fun ref => (storedBrought_rule env fuel).holds reached ref) addr request
  have settled := startOf_settings regular addr request
  have ident : (handled env fuel addr request start).2.session.ident =
      (found env addr request start).1 := (handled_trail addr request start).ident.trans
    (congrArg Session.Settings.ident settled)
  have tells := @route_tells env fuel request.context request.eap (startOf env addr request start)
    (handled env fuel addr request start).2 outcome brought
    ((handled_of_ok returned).symm.trans (Prod.ext returned rfl))
  obtain ⟨later, rest⟩ := grows
  have early : ∀ exchange ∈ (handled env fuel addr request start).2.exchanges,
      exchange.Disciplined := fun exchange there =>
    disciplined exchange (rest ▸ List.mem_append_left _ there)
  have before : σ.exchanges.take (answer env (found env addr request start).1 request outcome
      (afterHandling env fuel addr request start)).1.exchangesBefore =
        (handled env fuel addr request start).2.exchanges := by
    rw [answer_exchangesBefore, ← rest]
    exact List.take_left
  have code := @answer_code env (found env addr request start).1 request outcome
    (afterHandling env fuel addr request start)
  have packet := @answer_eap env (found env addr request start).1 request outcome
    (afterHandling env fuel addr request start)
  rcases bytes : outcome.eapBytes with _ | eap
  · rw [bytes, Option.getD_none] at packet
    refine ⟨fun carried => ?_, fun carried => ?_⟩
    · rw [packet] at carried
      cases carried
    · rw [packet] at carried
      exact absurd carried (by simp [Terminal])
  rw [bytes, Option.getD_some] at packet
  refine ⟨?_, ?_⟩
  · rw [packet, code]
    intro carried inChallenge
    rcases tells with relayed | ⟨mode, tls, identifier, second, told⟩
    · exact (disciplined_of_brings early (relayed eap bytes)).1 carried
    · rcases told eap bytes with ⟨_, _, next⟩ | ⟨verdict, _⟩
      · show eap[1]? ≠ request.eap[1]?
        rw [next, second]
        exact fun same => next_ne identifier (Option.some.inj same)
      · have mode' : env.cfg.sessionMode = .reassemble :=
          (congrArg Session.Settings.mode settled).symm.trans mode
        refine absurd (inChallenge mode' tls) ?_
        cases action : outcome.action with
        | accept | reject => decide
        | ack | challenge => exact absurd (congrArg Action.verdict action) verdict
  · rw [packet, before]
    intro carried
    show eap[1]? = request.eap[1]? ∧
      Sent (handled env fuel addr request start).2.exchanges (found env addr request start).1 eap
    rw [← ident]
    rcases tells with relayed | ⟨_, _, identifier, second, told⟩
    · exact (disciplined_of_brings early (relayed eap bytes)).2 carried
    · rw [second]
      rcases told eap bytes with ⟨_, request, _⟩ | ⟨_, stored, brings, rfl⟩
      · rw [Terminal, request] at carried
        exact absurd carried (by decide)
      · exact terminal_restamp early brings carried

/-- An EAP-TLS packet of Identifier 7 without data. -/
def emptyResponse : Datagram :=
  datagramOf (requestWith none [codeResponse, 7, 0, 6, eapTypeTls, 0])

/-- The poll has Identifier 1, and the server's EAP-Success echoes it: the supplicant gets it
with Identifier 7. -/
theorem identifiers_disciplined_sample :
    ∃ σ sent, run (answering "reassemble" { acceptReply with eapMessage := [[codeSuccess, 1, 0, 4]] })
        0 [emptyResponse] (initial (answering "reassemble"
          { acceptReply with eapMessage := [[codeSuccess, 1, 0, 4]] })) = some σ ∧
      sent ∈ σ.replies ∧ sent.reply.eap = [codeSuccess, 7, 0, 4] ∧
      sent.Disciplined .reassemble σ.exchanges := by
  refine ⟨_, _, rfl, List.mem_singleton.mpr rfl, rfl, ?_⟩
  refine @identifiers_disciplined
    (answering "reassemble" { acceptReply with eapMessage := [[codeSuccess, 1, 0, 4]] }) 0
    [emptyResponse] _ rfl ?_ _ (List.mem_singleton.mpr rfl)
  intro exchange member
  rw [List.mem_singleton.mp member]
  refine ⟨fun reply answered request => ?_, fun reply answered _ => ?_⟩
  · cases answered
    cases request
  · cases answered
    rfl

/-- The server's Access-Accept carries an EAP-Request of Identifier 9, and the supplicant
gets it with the Identifier 7 of its Response. -/
theorem request_restamped :
    (answering "reassemble"
      { acceptReply with eapMessage := [[codeRequest, 9, 0, 5, 1]] }).cfg.validate = .ok () ∧
    ∃ σ sent, run (answering "reassemble"
        { acceptReply with eapMessage := [[codeRequest, 9, 0, 5, 1]] }) 0 [emptyResponse]
        (initial (answering "reassemble"
          { acceptReply with eapMessage := [[codeRequest, 9, 0, 5, 1]] })) = some σ ∧
      (∀ exchange ∈ σ.exchanges, exchange.Disciplined) ∧ sent ∈ σ.replies ∧
      sent.reply.eap[0]? = some codeRequest ∧ sent.reply.eap[1]? = sent.answers.eap[1]? := by
  refine ⟨by decide, _, _, rfl, ?_, List.mem_singleton.mpr rfl, rfl, rfl⟩
  intro exchange member
  rw [List.mem_singleton.mp member]
  refine ⟨fun reply answered _ => ?_, fun reply answered terminal => ?_⟩
  · cases answered
    decide
  · cases answered
    exact absurd terminal (by decide)

end Downstream
end EapAccel
