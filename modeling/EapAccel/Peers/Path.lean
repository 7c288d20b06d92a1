import EapAccel.Downstream.Endings
import EapAccel.Downstream.Freshness
import EapAccel.Downstream.Latent
import EapAccel.Downstream.Placement
import EapAccel.Peers.Machines

/-!
# Conversations through the proxy

The peers talk through the proxy: each packet of the supplicant comes in a request with the State of
the last reply, so it finds the session (`Forwards.retransmits`), and its outcome is the next reply
(`answered_of_routes`). Whatever the proxy does with the fragments, it is `Faithful` if at each
packet one can tell what it holds: the octets that the supplicant has sent of its message, and the
pieces of the server's record that the supplicant is yet to ask for.
-/

set_option autoImplicit false

namespace EapAccel

open Foundations EapTls Mediator Downstream

/-! ## What is said next -/

/-- The supplicant has got as far as this packet with its message: these octets are sent, and these
fragments are to follow. -/
inductive Utters (message : Bytes) : Bytes → EapTlsPacket → List EapTlsPacket → Prop where
  | nothing {packet : EapTlsPacket} (empty : message = []) (isAck : packet.isAck = true) :
      Utters message [] packet []
  | fragments {gathered : Bytes} {packet : EapTlsPacket} {rest : List EapTlsPacket}
      (inFragments : InFragments (packet :: rest))
      (whole : gathered ++ joined (packet :: rest) = message)
      (trueLength : ∀ fragment ∈ packet :: rest, ∀ n ∈ Reassembler.declared fragment,
        n = message.length)
      (length : message.length < 2 ^ 32) (nonempty : message ≠ []) :
      Utters message gathered packet rest

theorem IsFragment.under {packet : EapTlsPacket} {more : Bool} (fragment : IsFragment packet more)
    (identifier : UInt8) : IsFragment (packet.under identifier) more := by
  obtain ⟨⟨included, fits⟩, start, data, announces⟩ := fragment
  exact ⟨⟨included, fits⟩, start, data, announces⟩

namespace Utters

variable {message gathered : Bytes} {packet next : EapTlsPacket} {rest : List EapTlsPacket}

/-- The last packet of a message. -/
theorem ends (utters : Utters message gathered packet []) : EndsMessage message gathered packet := by
  cases utters with
  | nothing empty isAck =>
      obtain ⟨start, final, data, undeclared⟩ := fields_of_ack isAck
      constructor
      · exact start
      · exact final
      · rw [data, empty]
        rfl
      · exact fun _ => rfl
      · exact fun data => absurd (isAck.symm.trans data) (by decide)
      · rw [undeclared]
        exact fun n none => absurd none (by simp)
      · rw [empty]
        decide
  | fragments inFragments whole trueLength length nonempty =>
      obtain ⟨fragment, _⟩ := inFragments
      constructor
      · exact fragment.start
      · exact fragment.more
      · simpa using whole
      · exact fun isAck => absurd (isAck.symm.trans fragment.data) (by decide)
      · exact fun _ => nonempty
      · exact trueLength packet List.mem_cons_self
      · exact length

/-- A packet before the last. -/
theorem goesOn (utters : Utters message gathered packet (next :: rest)) (identifier : UInt8) :
    IsFragment packet true ∧ (gathered ++ packet.tlsData).length ≤ message.length ∧
      (∀ n ∈ Reassembler.declared packet, n = message.length) ∧
      Utters message (gathered ++ packet.tlsData) (next.under identifier) rest := by
  cases utters with
  | fragments inFragments whole trueLength length nonempty =>
      obtain ⟨fragment, following, later⟩ := inFragments
      have rest' : gathered ++ packet.tlsData ++ joined (next.under identifier :: rest) = message := by
        rw [← whole, joined_cons, joined_cons, joined_cons, List.append_assoc]
        rfl
      refine ⟨fragment, ?_, trueLength packet List.mem_cons_self, ?_⟩
      · rw [← rest']
        exact (List.prefix_append _ _).length_le
      · apply Utters.fragments ⟨following.under identifier, later⟩ rest' _ length nonempty
        intro other member n declares
        rcases List.mem_cons.mp member with rfl | member
        · exact trueLength next (by simp) n declares
        · exact trueLength other (by simp [member]) n declares

end Utters

/-! ## One exchange -/

/-- Nothing has become of what the session holds of records. -/
structure Alongside (start session : Session) : Prop where
  side : session.lanSide = start.lanSide
  downReasm : session.downReasm = start.downReasm

namespace Alongside

variable {start session : Session}

theorem trans {session' : Session} (first : Alongside start session)
    (second : Alongside session session') : Alongside start session' :=
  ⟨second.side.trans first.side, second.downReasm.trans first.downReasm⟩

theorem upReasm (alongside : Alongside start session) : session.upReasm = start.upReasm := by
  have same := congrArg Session.upReasm alongside.side
  exact same

theorem downstreamFragmentSize (alongside : Alongside start session) :
    session.downstreamFragmentSize = start.downstreamFragmentSize := by
  have same := congrArg Session.downstreamFragmentSize alongside.side
  exact same

theorem downOutbox (alongside : Alongside start session) :
    session.downOutbox = start.downOutbox := by
  have same := congrArg Session.downOutbox alongside.side
  exact same

theorem takeUpId (session : Session) : Alongside session session.takeUpId := by
  constructor
  · unfold Session.takeUpId
    split <;> rfl
  · exact takeUpId_downReasm session

theorem chunkReady (leg : Leg) : Alongside leg.session leg.chunkReady.session := by
  obtain ⟨side, downReasm⟩ := takeUpId leg.session
  exact ⟨side, downReasm⟩

theorem pullReady (leg : Leg) : Alongside leg.session leg.pullReady.session := by
  obtain ⟨side, downReasm⟩ := takeUpId leg.session
  exact ⟨side, downReasm⟩

theorem exchange (client : UpstreamClient) (eapPayload : Bytes) (context : AuthContext) (leg : Leg)
    (reply : RadiusReply) :
    Alongside leg.session ((leg.sent client eapPayload context).received reply).session := by
  obtain ⟨learnt, sendKey, recvKey, writes⟩ := learn_writes reply
  constructor
  · rw [Leg.received, writes]
    rfl
  · rw [Leg.received, writes]
    rfl

end Alongside

variable {peers : Peers} {client : UpstreamClient}

/-- **An exchange with the server**, in which it hears a packet. -/
theorem exchange_reaches (behind : peers.Behind client) (eapPayload : Bytes)
    (context : AuthContext) (leg : Leg) :
    ∃ (reply : RadiusReply) (mid : Leg),
      exchange client eapPayload context leg = (.ok reply.normalise, mid) ∧
      reply.Has (peers.replies eapPayload (peers.callee leg.exchanges)).2 ∧
      peers.callee mid.exchanges = (peers.replies eapPayload (peers.callee leg.exchanges)).1 ∧
      mid.exchanges.length = leg.exchanges.length + 1 ∧ Alongside leg.session mid.session := by
  obtain ⟨reply, answered, has⟩ := behind.outcome eapPayload context leg
  refine ⟨reply, (leg.sent client eapPayload context).received reply, exchange_ok answered, has, ?_,
    ?_, Alongside.exchange client eapPayload context leg reply⟩
  · rw [Leg.received_exchanges, Leg.sent_exchanges, peers.callee_exchanged]
  · rw [Leg.received_exchanges, Leg.sent_exchanges, List.length_append, List.length_singleton]

/-! ## One request -/

/-- The names and the forwarded values of the request fit attributes. -/
structure ApRequest.Fits (request : ApRequest) : Prop where
  userName : ∀ name ∈ request.userName, name.utf8ByteSize ≤ maxValueLength
  callingStationId : ∀ name ∈ request.callingStationId, name.utf8ByteSize ≤ maxValueLength
  calledStationId : ∀ name ∈ request.calledStationId, name.utf8ByteSize ≤ maxValueLength
  attributes : ∀ attr ∈ request.attributes, attr.1.valueLength attr.2 ≤ maxValueLength

instance (request : ApRequest) : Decidable request.Fits :=
  decidable_of_iff ((∀ name ∈ request.userName, name.utf8ByteSize ≤ maxValueLength) ∧
      (∀ name ∈ request.callingStationId, name.utf8ByteSize ≤ maxValueLength) ∧
      (∀ name ∈ request.calledStationId, name.utf8ByteSize ≤ maxValueLength) ∧
      ∀ attr ∈ request.attributes, attr.1.valueLength attr.2 ≤ maxValueLength)
    ⟨fun ⟨a, b, c, d⟩ => ⟨a, b, c, d⟩, fun ⟨a, b, c, d⟩ => ⟨a, b, c, d⟩⟩

namespace Downstream

variable {env : Env} {ref : ℕ}

/-- The routing of the packet has this outcome, however long it takes. -/
def Routes (env : Env) (context : AuthContext) (eapBytes : Bytes) (leg : Leg) (outcome : Outcome)
    (leg' : Leg) : Prop :=
  ∃ n, ∀ fuel, n ≤ fuel → route env fuel context eapBytes leg = (.ok outcome, leg')

/-- The handling of the datagram ends so, however long it takes. -/
def Served (env : Env) (datagram : Datagram) (σ σ' : Server) : Prop :=
  ∃ n, ∀ fuel, n ≤ fuel → serve env fuel datagram σ = some σ'

theorem Served.unique {datagram : Datagram} {σ σ₁ σ₂ : Server} (first : Served env datagram σ σ₁)
    (second : Served env datagram σ σ₂) : σ₁ = σ₂ := by
  obtain ⟨n, first⟩ := first
  obtain ⟨m, second⟩ := second
  have same := (first (max n m) (le_max_left _ _)).symm.trans (second (max n m) (le_max_right _ _))
  exact Option.some.inj same

/-- A session that gets a challenge is found by the State in it. -/
theorem conclude_stated {σ : Server} {ref : ℕ} (named : σ.Named) (found : σ.Found ref)
    (request : ApRequest) {outcome : Outcome} (open_ : outcome.action.verdict = none)
    (unfinished : (σ.objects ref).result = none) :
    ∃ state, (answer env ref request outcome σ).1.reply.state = some state ∧
      (conclude env ref request outcome σ).2.table.lookup ("st:" ++ hex state) = some ref := by
  have named' := @Named.addressed env σ named ref found outcome.action
  obtain ⟨key, member⟩ := @addressed_keeps_live env σ ref found outcome.action
  have result : ((σ.addressed env ref outcome.action).2.objects ref).result = none := by
    have works := congrArg Server.Work.objects (@addressed_work env ref outcome.action σ)
    have same := congrFun works ref
    exact (congrArg Session.result same).trans unfinished
  have stated : ∃ state, (σ.addressed env ref outcome.action).1 = some state ∧
      ((σ.addressed env ref outcome.action).2.objects ref).downstreamState = some state := by
    rw [Server.addressed, open_]
    simp only [Server.stamped]
    cases had : (σ.objects ref).downstreamState with
    | some state => exact ⟨state, rfl, had⟩
    | none =>
        refine ⟨env.token σ.minted, rfl, ?_⟩
        simp only [mint_eq found]
        split
        · simp only [Function.update_self]
        · simp only [Function.update_self]
  obtain ⟨state, told, stamped⟩ := stated
  have here := named'.named (key, ref) member state stamped
  have listed : (σ.addressed env ref outcome.action).2.table.lookup ("st:" ++ hex state) =
      some ref := by
    rw [← here]
    exact lookup_of_mem named'.distinct member
  refine ⟨state, (answer_state env ref request outcome σ).trans told, ?_⟩
  rw [conclude_eq]
  simp only
  cases env.send (answer env ref request outcome σ).2.replies
      (answer env ref request outcome σ).1 with
  | error e => exact listed
  | ok done =>
      have going : ¬ ((replied (answer env ref request outcome σ).1
          (answer env ref request outcome σ).2).objects ref).result.isSome := by
        show ¬ ((σ.addressed env ref outcome.action).2.objects ref).result.isSome
        rw [result]
        decide
      rw [reportAndDrop_eq, if_neg going]
      exact listed

/-- How a request has been handled: the reply, and the server after it. -/
structure AnsweredBy (env : Env) (ref : ℕ) (outcome : Outcome) (leg' : Leg) (sent : BuiltReply)
    (σ σ' : Server) : Prop where
  replies : σ'.replies = σ.replies ++ [sent]
  code : sent.reply.code = outcome.action.code
  eap : sent.reply.eap = outcome.eapBytes.getD []
  session : (σ'.atHand env ref).bare = leg'.session.bare
  exchanges : σ'.exchanges = leg'.exchanges
  regular : σ'.Regular env
  named : σ'.Named
  unfinished : outcome.action.verdict = none → (σ.atHand env ref).result = none →
    (σ'.atHand env ref).result = none ∧
      ∃ state, sent.reply.state = some state ∧ σ'.table.lookup ("st:" ++ hex state) = some ref

/-- Where the routing has an outcome, the handling of the datagram ends, with it. -/
theorem served_of_routes (genuine : Genuine env) {datagram : Datagram} {request : ApRequest}
    {σ : Server} (decoded : datagram.decoded = .ok request) (admitted : Admitted request)
    {outcome : Outcome} {leg' : Leg} {n : ℕ} (ends : ∀ fuel, n ≤ fuel →
      handled env fuel datagram.addr request (σ.woken datagram) = (.ok outcome, leg')) :
    Served env datagram σ (handleRequest env n datagram.addr request (σ.woken datagram)).2 := by
  have handles : ∀ fuel, n ≤ fuel →
      handleRequest env fuel datagram.addr request (σ.woken datagram) =
        conclude env (found env datagram.addr request (σ.woken datagram)).1 request outcome
          ((found env datagram.addr request (σ.woken datagram)).2.put
            (found env datagram.addr request (σ.woken datagram)).1 leg') := by
    intro fuel enough
    rw [handleRequest_of_ok (congrArg Prod.fst (ends fuel enough)), afterHandling, ends fuel enough]
  refine ⟨n, fun fuel enough => ?_⟩
  have whole : handleDatagram env fuel datagram (σ.woken datagram) =
      handleRequest env n datagram.addr request (σ.woken datagram) := by
    rw [handleDatagram, decoded, Act.bind_lift_ok, Act.ite_apply, if_pos admitted,
      handles fuel enough, handles n le_rfl]
  have fine : (handleDatagram env fuel datagram (σ.woken datagram)).1 ≠ .error .outOfFuel := by
    rw [whole, handles n le_rfl]
    exact conclude_raises genuine.sends genuine.reports _ request outcome _
  rw [← whole]
  exact if_neg fine

/-- A request that gets a challenge leaves its session unfinished, to be found by the State in it. -/
theorem stated_of_handled {n : ℕ} {addr : String × ℕ} {request : ApRequest} {σ : Server}
    (named : σ.Named) {outcome : Outcome} {leg' : Leg}
    (ends : handled env n addr request σ = (.ok outcome, leg'))
    (open_ : outcome.action.verdict = none)
    (unfinished : (startOf env addr request σ).session.result = none) :
    leg'.session.result = none ∧
      ∃ state, (answer env (found env addr request σ).1 request outcome
          (afterHandling env n addr request σ)).1.reply.state = some state ∧
        (handleRequest env n addr request σ).2.table.lookup ("st:" ++ hex state) =
          some (found env addr request σ).1 := by
  have handles := @handled_handled env n addr request σ
  rw [ends] at handles
  have result := Handled.unfinished handles open_ unfinished
  have put : (afterHandling env n addr request σ).Named :=
    Named.put (Named.opened named _) (handled_key addr request σ)
      (handled_downstreamState addr request σ)
  have own : (afterHandling env n addr request σ).Found (found env addr request σ).1 :=
    put_found (opened_found named.tabled _) (handled_key addr request σ)
  have left : ((afterHandling env n addr request σ).objects (found env addr request σ).1).result =
      none := by
    rw [afterHandling, Server.put_objects_self, ends]
    exact result
  rw [handleRequest_of_ok (congrArg Prod.fst ends)]
  exact ⟨result, conclude_stated put own request open_ left⟩

/-- **A packet is handled on the session at hand, and the outcome is the reply.** -/
theorem answered_of_routes (genuine : Genuine env) {eapBytes : Bytes} {datagram : Datagram}
    {request : ApRequest} {σ : Server} (regular : σ.Regular env) (named : σ.Named)
    (brings : Retransmits env ref eapBytes datagram request σ) :
    ∃ context leg, leg.session.bare = (σ.atHand env ref).bare ∧
      leg.session.Configured env.cfg ∧ leg.exchanges = σ.exchanges ∧
      ∀ outcome leg', Routes env context eapBytes leg outcome leg' →
        ∃ sent σ', Served env datagram σ σ' ∧ AnsweredBy env ref outcome leg' sent σ σ' := by
  have woken := Regular.woken regular datagram
  have waiting : (σ.woken datagram).Named := ⟨named.tabled, named.distinct, named.named⟩
  have bare := startOf_bare regular brings
  refine ⟨request.context, startOf env datagram.addr request (σ.woken datagram), bare,
    Session.configured_of_settings (startOf_settings woken datagram.addr request),
    startOf_exchanges _ _ _, ?_⟩
  rintro outcome leg' ⟨n, routes⟩
  obtain ⟨decoded, admitted, rfl, here, noted⟩ := brings
  have ends : ∀ fuel, n ≤ fuel →
      handled env fuel datagram.addr request (σ.woken datagram) = (.ok outcome, leg') :=
    fun fuel enough => (handled_of_notes noted).trans (routes fuel enough)
  have returned := congrArg Prod.fst (ends n le_rfl)
  have after :
      ((handleRequest env n datagram.addr request (σ.woken datagram)).2.atHand env ref).bare =
      leg'.session.bare := by
    have created := @handleRequest_created env n (σ.woken datagram) woken.tabled datagram.addr
      request
    have own := @handleRequest_own env n datagram.addr request (σ.woken datagram)
    rw [here] at created
    rw [here, ends n le_rfl] at own
    rw [atHand_of_lt created.2]
    exact bare_of_unnamed own
  refine ⟨(answer env (found env datagram.addr request (σ.woken datagram)).1 request outcome
      (afterHandling env n datagram.addr request (σ.woken datagram))).1,
    (handleRequest env n datagram.addr request (σ.woken datagram)).2,
    served_of_routes genuine decoded admitted ends, ?_⟩
  constructor
  · exact handleRequest_answers returned
  · exact answer_code _ _ _ _
  · exact answer_eap _ _ _ _
  · exact after
  · rw [handleRequest_exchanges, ends n le_rfl]
  · exact Regular.handleRequest woken datagram.addr request
  · exact Named.handleRequest waiting datagram.addr request
  · intro open_ unfinished
    obtain ⟨result, state, told, listed⟩ := stated_of_handled waiting (ends n le_rfl) open_
      ((congrArg Session.result bare).trans unfinished)
    rw [here] at listed
    exact ⟨(congrArg Session.result after).trans result, state, told, listed⟩

/-- The State of the last reply to the AP. -/
def lastState (σ : Server) : Option Bytes := σ.replies.getLast?.bind fun sent => sent.reply.state

/-- The AP forwards the supplicant's packet, with the State of the last reply. What else of the
request is forwarded decodes, and fits an attribute. -/
structure Forwards (eapBytes : Bytes) (datagram : Datagram) (request : ApRequest) (σ : Server) :
    Prop where
  decoded : datagram.decoded = .ok request
  admitted : Admitted request
  same : request.eap = eapBytes
  legible : request.Legible
  fits : request.Fits
  state : request.state = lastState σ

/-- **The State brings the packet to its session.** -/
theorem Forwards.retransmits {eapBytes : Bytes} {datagram : Datagram} {request : ApRequest}
    {σ : Server} (forwards : Forwards eapBytes datagram request σ) {state : Bytes}
    (last : lastState σ = some state) (listed : σ.table.lookup ("st:" ++ hex state) = some ref) :
    Retransmits env ref eapBytes datagram request σ := by
  have there : (σ.woken datagram).table.lookup ("st:" ++ hex state) = some ref := listed
  refine ⟨forwards.decoded, forwards.admitted, forwards.same, ?_,
    captured_of_legible forwards.legible _⟩
  rw [found_of_stated (forwards.state.trans last), opened_of_lookup there]

/-- The first packet opens the first session. -/
theorem Forwards.opens {eapBytes : Bytes} {datagram : Datagram} {request : ApRequest}
    (forwards : Forwards eapBytes datagram request (initial env)) :
    Retransmits env 0 eapBytes datagram request (initial env) := by
  refine ⟨forwards.decoded, forwards.admitted, forwards.same, ?_,
    captured_of_legible forwards.legible _⟩
  exact congrArg Prod.fst (@opened_of_none env ((initial env).woken datagram) _ rfl)

end Downstream

/-! ## What the proxy holds -/

/-- The outcome tells the supplicant this packet. -/
def Outcome.Conveys (outcome : Outcome) (packet : EapTlsPacket) : Prop :=
  outcome.action.verdict = none ∧ parse (outcome.eapBytes.getD []) = .ok packet

/-- After the server's messages so far, what the proxy holds of the supplicant's message and which
pieces of the server's record are left for the supplicant. -/
abbrev Holding := List Bytes → Bytes → List Bytes → Session → List Exchange → Prop

/-- The routing of the packet comes to an end, and this is so then. -/
def Yields (env : Env) (context : AuthContext) (eapBytes : Bytes) (leg : Leg)
    (after : Outcome → Leg → Prop) : Prop :=
  ∃ outcome leg', Routes env context eapBytes leg outcome leg' ∧ after outcome leg'

/-- At most so many pieces come of what the server says after these messages. -/
def Peers.span (peers : Peers) (heard : List Bytes) : ℕ :=
  (peers.wrapDown heard).length +
    match peers.server heard with
    | .record tlsRecord => tlsRecord.length
    | .verdict _ => 0

/-- How many requests to the server the supplicant's packets cost. -/
structure Tariff where
  /-- A fragment before the last. -/
  more : ℕ
  /-- The end of a message, when the server has heard these messages. -/
  ends : List Bytes → ℕ
  /-- An ACK. -/
  next : ℕ
  /-- All the ACKs for the record that the server says to these messages. -/
  acks : List Bytes → ℕ

/-- The outcome tells what the server says after these messages: its verdict, or the first piece
of its record. -/
structure Tells (peers : Peers) (holds : Holding) (tariff : Tariff) (heard : List Bytes)
    (outcome : Outcome) (leg : Leg) : Prop where
  verdict : ∀ verdict, peers.server heard = .verdict verdict →
    outcome.action.verdict = some verdict ∧ (peers.callee leg.exchanges).heard = heard ∧
      tariff.acks heard = 0
  record : ∀ tlsRecord, peers.server heard = .record tlsRecord →
    ∃ packet pieces, outcome.Conveys packet ∧ IsFragment packet (!pieces.isEmpty) ∧
      packet.tlsData ++ pieces.flatten = tlsRecord ∧ pieces.length < peers.span heard ∧
      pieces.length * tariff.next = tariff.acks heard ∧
      holds heard [] pieces leg.session leg.exchanges

/-- So many more requests have gone to the server. -/
def Takes (leg : Leg) (cost : ℕ) (leg' : Leg) : Prop :=
  leg'.exchanges.length = leg.exchanges.length + cost

/-- The leg is that of a session of this configuration without a verdict. -/
structure Unfinished (env : Env) (leg : Leg) : Prop where
  configured : leg.session.Configured env.cfg
  unfinished : leg.session.result = none

/-- Packet by packet, the proxy passes on what the peers say, at this tariff. -/
structure Faithful (peers : Peers) (env : Env) (limit : ℕ) (holds : Holding) (tariff : Tariff) :
    Prop where
  heard : ∀ {heard gathered pieces session exchanges},
    holds heard gathered pieces session exchanges → (peers.callee exchanges).heard = heard
  bare : ∀ {heard gathered pieces exchanges} {session session' : Session},
    session'.bare = session.bare → holds heard gathered pieces session exchanges →
      holds heard gathered pieces session' exchanges
  /-- The supplicant's first packet gets the Start. -/
  start : ∀ context leg, leg.session.bare = (Session.create 0 "" env.cfg 0).bare →
    leg.exchanges = [] →
      Yields env context peers.identity leg fun outcome leg' => Takes leg 1 leg' ∧
        ∃ packet, outcome.Conveys packet ∧ packet.start = true ∧
          holds [] [] [] leg'.session leg'.exchanges
  /-- A fragment of the supplicant before the last gets an ACK. -/
  more : ∀ context leg heard gathered eapBytes packet, Unfinished env leg →
    holds heard gathered [] leg.session leg.exchanges → parse eapBytes = .ok packet →
    IsFragment packet true → (∀ n ∈ Reassembler.declared packet, n ≤ limit) →
    (gathered ++ packet.tlsData).length ≤ limit →
      Yields env context eapBytes leg fun outcome leg' => Takes leg tariff.more leg' ∧
        ∃ ack, outcome.Conveys ack ∧ ack.isAck = true ∧
          holds heard (gathered ++ packet.tlsData) [] leg'.session leg'.exchanges
  /-- The end of a message gets what the server says to it. -/
  ends : ∀ context leg heard gathered message eapBytes packet, Unfinished env leg →
    holds heard gathered [] leg.session leg.exchanges → parse eapBytes = .ok packet →
    EndsMessage message gathered packet → message.length ≤ limit →
    (∀ tlsRecord, peers.server (heard ++ [message]) = .record tlsRecord →
      tlsRecord.length ≤ limit) →
      Yields env context eapBytes leg fun outcome leg' =>
        Takes leg (tariff.ends (heard ++ [message])) leg' ∧
          Tells peers holds tariff (heard ++ [message]) outcome leg'
  /-- An ACK gets the next piece of the server's record. -/
  next : ∀ context leg heard piece pieces eapBytes ack, Unfinished env leg →
    holds heard [] (piece :: pieces) leg.session leg.exchanges → parse eapBytes = .ok ack →
    ack.isAck = true →
      Yields env context eapBytes leg fun outcome leg' => Takes leg tariff.next leg' ∧
        ∃ packet, outcome.Conveys packet ∧ IsFragment packet (!pieces.isEmpty) ∧
          packet.tlsData = piece ∧ holds heard [] pieces leg'.session leg'.exchanges

/-! ## The supplicant gets a reply -/

namespace Peers

variable {peers : Peers}

theorem receives_verdict {caller : Caller} {reply : ApReply} {outcome : Outcome} {verdict : Verdict}
    (code : reply.code = outcome.action.code) (said : outcome.action.verdict = some verdict) :
    peers.receives caller [reply] = { caller with next := none, result := some verdict } := by
  have told := code.trans (Action.code_eq_iff.mpr said)
  cases verdict with
  | accept =>
      have accept : reply.code = accessAccept := told
      rw [receives, if_pos accept]
  | reject =>
      have reject : reply.code = accessReject := told
      have other : reply.code ≠ accessAccept := by rw [reject]; decide
      rw [receives, if_neg other, if_pos reject]

theorem receives_packet {caller : Caller} {reply : ApReply} {outcome : Outcome}
    {packet : EapTlsPacket} (code : reply.code = outcome.action.code)
    (eap : reply.eap = outcome.eapBytes.getD []) (conveys : outcome.Conveys packet) :
    peers.receives caller [reply] = peers.hears packet caller := by
  obtain ⟨open_, parsed⟩ := conveys
  have challenge : reply.code = accessChallenge := by
    rw [code]
    cases action : outcome.action with
    | accept => rw [action] at open_; cases open_
    | reject => rw [action] at open_; cases open_
    | ack => rfl
    | challenge => rfl
  have accept : reply.code ≠ accessAccept := by rw [challenge]; decide
  have reject : reply.code ≠ accessReject := by rw [challenge]; decide
  have read : parse reply.eapMessage.flatten = .ok packet := by
    rw [← parsed, ← eap]
    rfl
  simp only [receives, if_neg accept, if_neg reject, read]

theorem hears_start {packet : EapTlsPacket} (start : packet.start = true) (caller : Caller) :
    peers.hears packet caller = peers.say caller.heard packet.identifier := by
  rw [hears, if_pos start]

theorem hears_ack {packet first : EapTlsPacket} {rest : List EapTlsPacket}
    (isAck : packet.isAck = true) {caller : Caller} (waits : caller.rest = first :: rest) :
    peers.hears packet caller =
      { caller with next := some (layout (first.under packet.identifier)), rest := rest } := by
  have start : ¬ packet.start = true := by rw [(fields_of_ack isAck).1]; decide
  rw [hears, if_neg start, if_pos isAck, waits]

theorem hears_more {packet : EapTlsPacket} (fragment : IsFragment packet true) (caller : Caller) :
    peers.hears packet caller =
      { caller with
        next := some (layout (ackPacket codeResponse packet.identifier))
        gathered := caller.gathered ++ packet.tlsData } := by
  have start : ¬ packet.start = true := by rw [fragment.start]; decide
  have data : ¬ packet.isAck = true := by rw [fragment.data]; decide
  rw [hears, if_neg start, if_neg data, if_pos fragment.more]

theorem hears_last {packet : EapTlsPacket} (fragment : IsFragment packet false) (caller : Caller) :
    peers.hears packet caller =
      peers.say (caller.heard ++ [caller.gathered ++ packet.tlsData]) packet.identifier := by
  have start : ¬ packet.start = true := by rw [fragment.start]; decide
  have data : ¬ packet.isAck = true := by rw [fragment.data]; decide
  have more : ¬ packet.moreFragments = true := by rw [fragment.more]; decide
  rw [hears, if_neg start, if_neg data, if_neg more]

end Peers

end EapAccel
