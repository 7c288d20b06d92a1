import EapAccel.Downstream.Flights
import EapAccel.Downstream.Idleness
import EapAccel.Downstream.Retry
import EapAccel.Downstream.RoundTrips
import EapAccel.Foundations.Dialogue
import EapAccel.Mediator.Turns

/-!
# The latent leg does not see the supplicant's fragments

A supplicant sends packets and records, each record in fragments of its own choice, and ACKs
the fragments of the server before it sends the next. The proxy may be serving other sessions
all the while (`supplicantOn`). For the latent leg this is a dialogue in which records come and
go as a whole (`supplicantAlone`): there the ACKs for fragments with more to follow are nothing
(`supplicant_mimics`). So two runs with the same packets and records, whatever the fragments of
either side, end alike on the latent leg (`latent_leg_blind`).
-/

set_option autoImplicit false

namespace EapAccel

open Foundations EapTls

/-! ## The session of a supplicant -/

/-- A session without what the next request notes, and without its names. -/
def Session.bare (session : Session) : Session :=
  { session with
    ident := 0
    key := ""
    downstreamState := none
    apAttrs := []
    lastApAuthenticator := none
    startedAt := 0 }

/-- The session `ref`, as it is or as it will be created. -/
def Server.atHand (env : Env) (ref : ℕ) (σ : Server) : Session :=
  if ref < σ.created then σ.objects ref else Session.create ref "" env.cfg 0

/-- What the reply tells the supplicant of a record of the server. -/
def ApReply.fragment (reply : ApReply) : Option Bool :=
  if reply.code = accessChallenge then fragmentIn reply.eap else none

namespace Downstream

open Mediator

variable {env : Env} {fuel : ℕ} {ref : ℕ}

theorem bare_of_unnamed {session session' : Session} (same : session'.unnamed = session.unnamed) :
    session'.bare = session.bare := by
  have of : ∀ s : Session, s.bare = s.unnamed.bare := fun _ => rfl
  rw [of session', same, ← of session]

theorem atHand_of_lt {σ : Server} (there : ref < σ.created) : σ.atHand env ref = σ.objects ref :=
  if_pos there

/-- The reply tells what the outcome tells. -/
theorem answer_fragment (ref : ℕ) (request : ApRequest) (outcome : Outcome) (σ : Server) :
    (answer env ref request outcome σ).1.reply.fragment = outcome.fragment := by
  rw [ApReply.fragment, answer_code, answer_eap, Outcome.fragment]
  cases outcome.action with
  | accept => rfl
  | reject => rfl
  | ack => rfl
  | challenge => rfl

/-- **Requests of other sessions leave the session alone**, also one that is yet to be created. -/
theorem handleRequest_atHand {σ : Server} (regular : σ.Regular env) {addr : String × ℕ}
    {request : ApRequest} (elsewhere : (found env addr request σ).1 ≠ ref) :
    ((handleRequest env fuel addr request σ).2.atHand env ref).bare = (σ.atHand env ref).bare ∧
      ownExchanges (handleRequest env fuel addr request σ).2.exchanges ref =
        ownExchanges σ.exchanges ref := by
  constructor
  · by_cases there : ref < σ.created
    · have still := there.trans_le (@handleRequest_created env fuel σ regular.tabled addr request).1
      rw [atHand_of_lt there, atHand_of_lt still]
      exact bare_of_unnamed (handleRequest_other there elsewhere.symm)
    · have none : ¬ ref < (handleRequest env fuel addr request σ).2.created := by
        rw [handleRequest_created_eq]
        exact fun created => elsewhere (found_new created there).1
      rw [Server.atHand, Server.atHand, if_neg there, if_neg none]
  · rw [own_handleRequest regular, if_neg elsewhere.symm, List.append_nil]

/-- **The same for any number of requests.** -/
theorem run_elsewhere_atHand {σ σ' : Server} (regular : σ.Regular env) {datagrams : List Datagram}
    (elsewhere : Along (serve env fuel) (Elsewhere env ref) datagrams σ)
    (ran : run env fuel datagrams σ = some σ') :
    σ'.Regular env ∧ (σ'.atHand env ref).bare = (σ.atHand env ref).bare ∧
      ownExchanges σ'.exchanges ref = ownExchanges σ.exchanges ref := by
  have kept : ∀ datagram τ τ', Elsewhere env ref datagram τ →
      (τ.Regular env ∧ (τ.atHand env ref).bare = (σ.atHand env ref).bare ∧
        ownExchanges τ.exchanges ref = ownExchanges σ.exchanges ref) →
      serve env fuel datagram τ = some τ' →
        τ'.Regular env ∧ (τ'.atHand env ref).bare = (σ.atHand env ref).bare ∧
          ownExchanges τ'.exchanges ref = ownExchanges σ.exchanges ref := by
    rintro datagram τ τ' other ⟨regular, session, own⟩ served
    refine ⟨Regular.serve regular served, ?_⟩
    rcases serve_cases served with rfl | ⟨request, decoded, admitted, rfl⟩
    · exact ⟨session, own⟩
    · obtain ⟨session', own'⟩ := @handleRequest_atHand env fuel ref (τ.woken datagram)
        (Regular.woken regular datagram) datagram.addr request (other request decoded admitted)
      exact ⟨session'.trans session, own'.trans own⟩
  exact elsewhere.keeps kept ⟨regular, rfl, rfl⟩ ran

/-! ## A packet and its reply -/

/-- After requests of other sessions the supplicant's EAP packet is handled on the session
without an exception, and this is the reply. -/
def Receives (env : Env) (fuel ref : ℕ) (eapBytes : Bytes) (σ : Server) (reply : ApReply)
    (σ' : Server) : Prop :=
  ∃ between mid datagram request sent,
    Along (serve env fuel) (Elsewhere env ref) between σ ∧ run env fuel between σ = some mid ∧
      Retransmits env ref eapBytes datagram request mid ∧
        handleDatagram env fuel datagram (mid.woken datagram) = (.ok (), σ') ∧
          σ'.replies = mid.replies ++ [sent] ∧ sent.reply = reply

/-- On a leg with the session, the handling of the packet has this outcome. -/
structure Handling (env : Env) (fuel ref : ℕ) (eapBytes : Bytes) (σ : Server) (reply : ApReply)
    (σ' : Server) (context : AuthContext) (leg leg' : Leg) (outcome : Outcome) : Prop where
  handled : route env fuel context eapBytes leg = (.ok outcome, leg')
  mode : leg.session.mode = env.cfg.sessionMode
  session : leg.session.bare = (σ.atHand env ref).bare
  after : (σ'.atHand env ref).bare = leg'.session.bare
  object : σ'.atHand env ref = σ'.objects ref
  own : ownExchanges σ'.exchanges ref =
    ownExchanges σ.exchanges ref ++ leg'.exchanges.drop leg.exchanges.length
  reply : reply.fragment = outcome.fragment
  regular : σ'.Regular env

/-- A packet is handled on the session at hand. -/
theorem startOf_bare {eapBytes : Bytes} {datagram : Datagram} {request : ApRequest}
    {σ : Server} (regular : σ.Regular env)
    (brings : Retransmits env ref eapBytes datagram request σ) :
    (startOf env datagram.addr request (σ.woken datagram)).session.bare =
      (σ.atHand env ref).bare := by
  have here := brings.found
  by_cases there : ref < σ.created
  · have starts := @startOf_session env (σ.woken datagram) ref there datagram.addr request here
    rw [starts, atHand_of_lt there]
    rfl
  · have created := (@handleRequest_created env 0 (σ.woken datagram)
      (Regular.woken regular datagram).tabled datagram.addr request).2
    rw [handleRequest_created_eq, here] at created
    obtain ⟨_, new⟩ := found_new created there
    show (notedSession request ((found env datagram.addr request (σ.woken datagram)).2.objects
      (found env datagram.addr request (σ.woken datagram)).1)).bare = _
    rw [here, new, Server.atHand, if_neg there]
    rfl

/-- **A packet that is replied to is handled on a leg.** -/
theorem Receives.handling {eapBytes : Bytes} {σ σ' : Server} {reply : ApReply}
    (regular : σ.Regular env) (receives : Receives env fuel ref eapBytes σ reply σ') :
    ∃ context leg leg' outcome,
      Handling env fuel ref eapBytes σ reply σ' context leg leg' outcome := by
  obtain ⟨between, mid, datagram, request, sent, elsewhere, ran, brings, ends, replies, rfl⟩ :=
    receives
  obtain ⟨regular', session, own⟩ := run_elsewhere_atHand regular elsewhere ran
  have woken := Regular.woken regular' datagram
  have starts := startOf_bare regular' brings
  obtain ⟨decoded, admitted, rfl, here, _⟩ := brings
  rw [handleDatagram, decoded, Act.bind_lift_ok, Act.ite_apply, if_pos admitted] at ends
  rcases result : (handled env fuel datagram.addr request (mid.woken datagram)).1 with e | outcome
  · rw [handleRequest_of_error result] at ends
    cases ends
  have last : σ' = (handleRequest env fuel datagram.addr request (mid.woken datagram)).2 := by
    rw [ends]
  have created := @handleRequest_created env fuel (mid.woken datagram) woken.tabled datagram.addr
    request
  have after := @handleRequest_own env fuel datagram.addr request (mid.woken datagram)
  have grows := @own_handleRequest env fuel (mid.woken datagram) woken datagram.addr request ref
  have answers := handleRequest_answers result
  rw [here] at created after
  rw [if_pos here.symm] at grows
  rw [← last] at created after grows answers
  refine ⟨request.context, startOf env datagram.addr request (mid.woken datagram),
    (handled env fuel datagram.addr request (mid.woken datagram)).2, outcome, ?_⟩
  constructor
  · rw [← handled_of_ok result, ← result]
  · exact startOf_mode woken datagram.addr request
  · exact starts.trans session
  · rw [atHand_of_lt created.2]
    exact bare_of_unnamed after
  · exact atHand_of_lt created.2
  · rw [grows]
    exact congrArg (· ++ _) own
  · have same := List.append_cancel_left (replies.symm.trans answers)
    cases same
    exact answer_fragment _ _ _ _
  · rw [last]
    exact Regular.handleRequest woken datagram.addr request

/-! ## Beside a leg of its own -/

/-- What the session has said to the server. -/
def saidFor (ref : ℕ) (σ : Server) : List Said := (ownExchanges σ.exchanges ref).map Exchange.said

/-- The server answers the session by the EAP packets and the States alone. -/
def AnswersByCore (answer : List Core → Core → Except Raised RadiusReply) (ref : ℕ) (σ : Server) :
    Prop :=
  Converses (byCore answer) [] (saidFor ref σ)

/-- In a regular server, the session is answered by the EAP packets and the States alone. -/
def Sound (answer : List Core → Core → Except Raised RadiusReply) (env : Env) (ref : ℕ)
    (σ : Server) : Prop :=
  σ.Regular env → AnswersByCore answer ref σ

/-- The counter moves once for each exchange of the handling. -/
theorem Handling.trips {eapBytes : Bytes} {σ σ' : Server} {reply : ApReply} {context : AuthContext}
    {leg leg' : Leg} {outcome : Outcome} (reassembling : env.cfg.sessionMode = .reassemble)
    (handling : Handling env fuel ref eapBytes σ reply σ' context leg leg' outcome) :
    leg'.session.upstreamRoundTrips = leg.session.upstreamRoundTrips +
      (leg'.exchanges.drop leg.exchanges.length).length :=
  route_trips (handling.mode.trans reassembling) handling.handled

/-- The session beside a leg that has no other sessions: with the same latent part, and with
`pending` octets of a record of the supplicant. All its requests have been counted. -/
structure Mirrors (env : Env) (ref : ℕ) (pending : Bytes) (σ : Server) (own : Leg) : Prop where
  regular : σ.Regular env
  session : own.session.latent = (σ.atHand env ref).latent
  cores : own.cores 0 = coresOf (saidFor ref σ)
  pending : (σ.atHand env ref).upReasm.pending = pending
  object : σ.atHand env ref = σ.objects ref
  trips : (σ.atHand env ref).upstreamRoundTrips = (ownExchanges σ.exchanges ref).length

variable {answer : List Core → Core → Except Raised RadiusReply} {eapBytes pending : Bytes}
  {σ σ' : Server} {reply : ApReply} {context : AuthContext} {leg leg' own own' : Leg}
  {outcome : Outcome}

/-- What is read of the session while it is handled, is read of the session at hand. -/
theorem Handling.read {α : Type} (handling : Handling env fuel ref eapBytes σ reply σ' context leg
    leg' outcome) (f : Session → α) (reads : ∀ s, f s = f s.bare) :
    f leg.session = f (σ.atHand env ref) := by
  rw [reads leg.session, handling.session, ← reads]

theorem Handling.read_after {α : Type} (handling : Handling env fuel ref eapBytes σ reply σ' context
    leg leg' outcome) (f : Session → α) (reads : ∀ s, f s = f s.bare) :
    f (σ'.atHand env ref) = f leg'.session := by
  rw [reads (σ'.atHand env ref), handling.after, ← reads]

theorem Handling.said (handling : Handling env fuel ref eapBytes σ reply σ' context leg leg'
    outcome) : saidFor ref σ' = saidFor ref σ ++ leg'.saidSince leg.exchanges.length := by
  rw [saidFor, handling.own, List.map_append]
  rfl

theorem Handling.told (handling : Handling env fuel ref eapBytes σ reply σ' context leg leg'
    outcome) (sound : Sound answer env ref σ') :
    leg'.Told (byCore answer) (saidFor ref σ) leg.exchanges.length := by
  rw [Leg.Told, ← handling.said]
  exact sound handling.regular

/-- Where the server answers the longer conversation so, it answers the shorter one so. -/
theorem Receives.sound (receives : Receives env fuel ref eapBytes σ reply σ')
    (sound : Sound answer env ref σ') : Sound answer env ref σ := by
  intro regular
  obtain ⟨context, leg, leg', outcome, handling⟩ := receives.handling regular
  have answers := sound handling.regular
  rw [AnswersByCore, handling.said] at answers
  exact (converses_append.mp answers).1

/-- The leg of the handling shares its latent part with the leg of its own. -/
theorem Mirrors.shares (mirrors : Mirrors env ref pending σ own)
    (handling : Handling env fuel ref eapBytes σ reply σ' context leg leg' outcome) :
    Leg.Shares (saidFor ref σ) leg.exchanges.length leg.session.lanSide leg own where
  session := mirrors.session.trans (handling.read Session.latent fun _ => rfl).symm
  cores := by
    rw [mirrors.cores, Leg.cores, List.drop_length, List.map_nil, List.append_nil]
  since := le_rfl
  side := rfl

/-- Where the handling and the leg of its own end with one latent part, they go on beside each
other. -/
theorem Mirrors.after (reassembling : env.cfg.sessionMode = .reassemble)
    (mirrors : Mirrors env ref pending σ own)
    (handling : Handling env fuel ref eapBytes σ reply σ' context leg leg' outcome)
    (session : own'.session.latent = leg'.session.latent)
    (cores : own'.cores 0 = coresOf (saidFor ref σ) ++ leg'.cores leg.exchanges.length) :
    Mirrors env ref leg'.session.upReasm.pending σ' own' where
  regular := handling.regular
  session := session.trans (handling.read_after Session.latent fun _ => rfl).symm
  cores := by
    rw [cores, handling.said, coresOf, coresOf, List.map_append, Leg.saidSince, List.map_map]
    rfl
  pending := handling.read_after (fun s => s.upReasm.pending) fun _ => rfl
  object := handling.object
  trips := by
    have before := handling.read Session.upstreamRoundTrips fun _ => rfl
    have after := handling.read_after Session.upstreamRoundTrips fun _ => rfl
    rw [after, handling.trips reassembling, before, mirrors.trips, handling.own, List.length_append]

/-! ## One packet -/

/-- A packet of another EAP type goes to the server as it is. -/
def passOn (client : UpstreamClient) (context : AuthContext) (eapBytes : Bytes) :
    Act Raised Leg (Option Bool ⊕ Bytes) := do
  let reply ← exchange client eapBytes context
  if reply.accept then do
    Act.modify fun leg => { leg with session := leg.session.finish .accept leg.clock }
    return .inl none
  else if reply.reject then do
    Act.modify fun leg => { leg with session := leg.session.finish .reject leg.clock }
    return .inl none
  else
    return .inl (fragmentIn (reply.eapMessages.head?.getD []))

theorem passthroughNonTls_passes :
    gist <$> (Sum.inl <$> passthroughNonTls env context eapBytes) =
      passOn env.client context eapBytes := by
  rw [passthroughNonTls, passOn, Functor.map_map, map_eq_pure_bind, bind_assoc]
  congr 1
  funext reply
  by_cases accept : reply.accept = true
  · simp only [if_pos accept, bind_assoc, pure_bind]
    rfl
  by_cases reject : reply.reject = true
  · simp only [if_neg accept, if_pos reject, bind_assoc, pure_bind]
    rfl
  · simp only [if_neg accept, if_neg reject, pure_bind]
    rfl

/-- **A packet of another EAP type.** -/
theorem passOn_shares {base : List Said} {n : ℕ} {side : Session} {client : UpstreamClient}
    {context' : AuthContext} :
    SharesLatent answer base n side (passOn client context eapBytes)
      (passOn (coreClient answer) context' eapBytes) := by
  apply Act.Simulates.bind (exchange_shares eapBytes)
  intro reply
  apply Act.Simulates.ite
  · exact Act.Simulates.bind (finish_shares .accept) fun _ => Act.Simulates.pure _
  · apply Act.Simulates.ite
    · exact Act.Simulates.bind (finish_shares .reject) fun _ => Act.Simulates.pure _
    · exact Act.Simulates.pure _

/-- A turn ends beside a turn of the own leg. -/
structure Settles (env : Env) (ref : ℕ) (pending : Bytes) (reply : ApReply) (σ' : Server)
    (fragment : Option Bool) (own' : Leg) : Prop where
  mirrors : Mirrors env ref pending σ' own'
  abreast : ∀ knows : Supplicant,
    Abreast (σ'.atHand env ref) (knows.told reply.fragment) (knows.told fragment)

theorem Mirrors.settles (reassembling : env.cfg.sessionMode = .reassemble)
    (mirrors : Mirrors env ref pending σ own)
    (handling : Handling env fuel ref eapBytes σ reply σ' context leg leg' outcome)
    {start : Session} {fragment : Option Bool}
    (turned : Turned (saidFor ref σ) leg.exchanges.length start outcome fragment leg' own') :
    Settles env ref start.upReasm.pending reply σ' fragment own' where
  mirrors := turned.upReasm ▸ mirrors.after reassembling handling turned.session turned.cores
  abreast := by
    intro knows
    rw [handling.reply]
    exact Abreast.of_view (handling.read_after Session.downOutbox fun _ => rfl)
      (handling.read_after Session.downNchunks fun _ => rfl) (turned.abreast knows)

variable {context' : AuthContext}

/-- **A packet of another EAP type is passed on.** -/
theorem Mirrors.passes (reassembling : env.cfg.sessionMode = .reassemble)
    (mirrors : Mirrors env ref pending σ own)
    (receives : Receives env fuel ref eapBytes σ reply σ') (sound : Sound answer env ref σ')
    (other : eapBytes[4]? ≠ some eapTypeTls) (released : (σ.atHand env ref).downOutbox = []) :
    ∃ fragment own', (passOn (coreClient answer) context' eapBytes >>= hear) own =
      (.ok fragment, own') ∧ Settles env ref pending reply σ' fragment own' := by
  obtain ⟨context, leg, leg', outcome, handling⟩ := receives.handling mirrors.regular
  have routed := handling.handled
  rw [route, if_neg other, ← inl_handOver (passthroughNonTls env context eapBytes)] at routed
  have empty := (handling.read Session.downOutbox fun _ => rfl).trans released
  obtain ⟨fragment, own', hears, turned⟩ := hands_abreast (congrFun passthroughNonTls_passes leg)
    passOn_shares (mirrors.shares handling) empty routed (handling.told sound)
  have pending' := (handling.read (fun s => s.upReasm.pending) fun _ => rfl).trans mirrors.pending
  exact ⟨fragment, own', hears, pending' ▸ mirrors.settles reassembling handling turned⟩

section Mediated

variable {packet : EapTlsPacket}

/-- An EAP-TLS packet is handled by the mediator. -/
theorem Handling.mediated
    (handling : Handling env fuel ref eapBytes σ reply σ' context leg leg' outcome)
    (parsed : parse eapBytes = .ok packet) :
    handleSupplicantEap env.client fuel context eapBytes leg = (.ok outcome, leg') := by
  have routed := handling.handled
  rwa [route, if_pos (type_of_parse parsed)] at routed

/-- **An ACK for which nothing is queued polls the server.** -/
theorem Mirrors.polls (reassembling : env.cfg.sessionMode = .reassemble)
    (mirrors : Mirrors env ref pending σ own)
    (receives : Receives env fuel ref eapBytes σ reply σ') (sound : Sound answer env ref σ')
    (parsed : parse eapBytes = .ok packet) (isAck : packet.isAck = true)
    (released : (σ.atHand env ref).downOutbox = []) :
    ∃ fragment own', (poll (coreClient answer) fuel context' >>= hear) own =
      (.ok fragment, own') ∧ Settles env ref pending reply σ' fragment own' := by
  obtain ⟨context, leg, leg', outcome, handling⟩ := receives.handling mirrors.regular
  have empty := (handling.read Session.downOutbox fun _ => rfl).trans released
  obtain ⟨fragment, own', polls, turned⟩ := poll_abreast (handling.mode.trans reassembling) parsed
    isAck empty (mirrors.shares handling) (handling.mediated parsed) (handling.told sound)
  have pending' := (handling.read (fun s => s.upReasm.pending) fun _ => rfl).trans mirrors.pending
  exact ⟨fragment, own', polls, pending' ▸ mirrors.settles reassembling handling turned⟩

/-- **An ACK while fragments are queued** is nothing to the own leg. -/
theorem Mirrors.releases (reassembling : env.cfg.sessionMode = .reassemble)
    (mirrors : Mirrors env ref pending σ own)
    (receives : Receives env fuel ref eapBytes σ reply σ')
    (parsed : parse eapBytes = .ok packet) (isAck : packet.isAck = true)
    (waits : (σ.atHand env ref).downOutbox ≠ []) {knows knows' : Supplicant}
    (abreast : Abreast (σ.atHand env ref) knows knows') :
    Mirrors env ref pending σ' own ∧
      Abreast (σ'.atHand env ref) (knows.told reply.fragment) knows' := by
  obtain ⟨context, leg, leg', outcome, handling⟩ := receives.handling mirrors.regular
  have queue := handling.read Session.downOutbox fun _ => rfl
  have starts := Abreast.of_view queue (handling.read Session.downNchunks fun _ => rfl) abreast
  obtain ⟨latent, upReasm, exchanges, ends⟩ := release_abreast (handling.mode.trans reassembling)
    parsed isAck (queue ▸ waits) starts (handling.mediated parsed)
  have shares := mirrors.shares handling
  constructor
  · have after := @Mirrors.after env fuel ref eapBytes pending σ σ' reply context leg leg' own own
      outcome reassembling mirrors handling (shares.session.trans latent.symm) ?_
    · have pending' := handling.read (fun s => s.upReasm.pending) fun _ => rfl
      rw [upReasm, pending', mirrors.pending] at after
      exact after
    · rw [shares.cores, Leg.cores, Leg.cores, exchanges]
  · rw [handling.reply]
    exact Abreast.of_view (handling.read_after Session.downOutbox fun _ => rfl)
      (handling.read_after Session.downNchunks fun _ => rfl) ends

/-- **A fragment with more to follow** is nothing to the own leg, but for its octets. -/
theorem Mirrors.absorbs (reassembling : env.cfg.sessionMode = .reassemble)
    (mirrors : Mirrors env ref pending σ own)
    (receives : Receives env fuel ref eapBytes σ reply σ')
    (parsed : parse eapBytes = .ok packet) (more : packet.moreFragments = true)
    (released : (σ.atHand env ref).downOutbox = []) :
    Mirrors env ref (pending ++ packet.tlsData) σ' own ∧ (σ'.atHand env ref).downOutbox = [] := by
  obtain ⟨context, leg, leg', outcome, handling⟩ := receives.handling mirrors.regular
  obtain ⟨latent, exchanges, outbox, gathered⟩ := absorb_abreast
    (handling.mode.trans reassembling) parsed more (handling.mediated parsed)
  have shares := mirrors.shares handling
  constructor
  · have after := @Mirrors.after env fuel ref eapBytes pending σ σ' reply context leg leg' own own
      outcome reassembling mirrors handling (shares.session.trans latent.symm) ?_
    · have pending' := handling.read (fun s => s.upReasm.pending) fun _ => rfl
      rw [gathered, pending', mirrors.pending] at after
      exact after
    · rw [shares.cores, Leg.cores, Leg.cores, exchanges]
  · have empty := (handling.read Session.downOutbox fun _ => rfl).trans released
    exact (handling.read_after Session.downOutbox fun _ => rfl).trans (outbox.trans empty)

/-- **The last fragment of a record forwards it.** -/
theorem Mirrors.forwards (reassembling : env.cfg.sessionMode = .reassemble)
    (mirrors : Mirrors env ref pending σ own)
    (receives : Receives env fuel ref eapBytes σ reply σ') (sound : Sound answer env ref σ')
    (parsed : parse eapBytes = .ok packet) (data : packet.isAck = false)
    (final : packet.moreFragments = false) (released : (σ.atHand env ref).downOutbox = []) :
    ∃ fragment own', (Mediator.forwards (coreClient answer) fuel context'
        (pending ++ packet.tlsData) >>= hear) own = (.ok fragment, own') ∧
      Settles env ref [] reply σ' fragment own' := by
  obtain ⟨context, leg, leg', outcome, handling⟩ := receives.handling mirrors.regular
  have empty := (handling.read Session.downOutbox fun _ => rfl).trans released
  have pending' := (handling.read (fun s => s.upReasm.pending) fun _ => rfl).trans mirrors.pending
  obtain ⟨fragment, own', forwards, turned, complete⟩ :=
    forward_abreast (handling.mode.trans reassembling) parsed data final empty
      (mirrors.shares handling) (handling.mediated parsed) (handling.told sound)
  rw [pending'] at forwards
  refine ⟨fragment, own', forwards, ?_⟩
  have settles := mirrors.settles reassembling handling turned
  have idle := complete.trans_ne (by decide : ReassemblyState.complete ≠ .inProgress)
  rw [← turned.upReasm, Reassembler.pending_of_not_inProgress idle] at settles
  exact settles

end Mediated

/-! ## A whole record -/

/-- The packets are sent one after another, and each is replied to. -/
inductive SendsEach (env : Env) (fuel ref : ℕ) : List EapTlsPacket → Server → Server → Prop where
  | none {σ : Server} : SendsEach env fuel ref [] σ σ
  | next {eapBytes : Bytes} {packet : EapTlsPacket} {packets : List EapTlsPacket} {reply : ApReply}
      {σ mid σ' : Server} (parsed : parse eapBytes = .ok packet)
      (head : Receives env fuel ref eapBytes σ reply mid)
      (rest : SendsEach env fuel ref packets mid σ') : SendsEach env fuel ref (packet :: packets) σ σ'

/-- The supplicant sends a record in fragments of its choice; `reply` is the reply to the last. -/
def SendsRecord (env : Env) (fuel ref : ℕ) (tlsRecord : Bytes) (σ : Server) (reply : ApReply)
    (σ' : Server) : Prop :=
  ∃ init last mid eapBytes, Division tlsRecord init last ∧ SendsEach env fuel ref init σ mid ∧
    parse eapBytes = .ok last ∧ Receives env fuel ref eapBytes mid reply σ'

/-- **Fragments with more to follow are nothing to the own leg.** -/
theorem SendsEach.mirrors (reassembling : env.cfg.sessionMode = .reassemble)
    {packets : List EapTlsPacket} (sends : SendsEach env fuel ref packets σ σ') :
    ∀ {pending : Bytes}, Mirrors env ref pending σ own → (σ.atHand env ref).downOutbox = [] →
      (∀ packet ∈ packets, packet.moreFragments = true) →
        Mirrors env ref (pending ++ joined packets) σ' own ∧
          (σ'.atHand env ref).downOutbox = [] := by
  induction sends with
  | none =>
      intro pending mirrors released _
      rw [joined_nil, List.append_nil]
      exact ⟨mirrors, released⟩
  | next parsed head _ ih =>
      intro pending mirrors released more
      obtain ⟨mirrors', released'⟩ := mirrors.absorbs reassembling head parsed
        (more _ List.mem_cons_self) released
      rw [joined_cons, ← List.append_assoc]
      exact ih mirrors' released' fun packet member => more packet (List.mem_cons_of_mem _ member)

/-- **A record of the supplicant reaches the own leg as a whole.** -/
theorem Mirrors.sends (reassembling : env.cfg.sessionMode = .reassemble)
    (mirrors : Mirrors env ref [] σ own) {tlsRecord : Bytes}
    (sends : SendsRecord env fuel ref tlsRecord σ reply σ') (sound : Sound answer env ref σ')
    (released : (σ.atHand env ref).downOutbox = []) :
    ∃ fragment own', (Mediator.forwards (coreClient answer) fuel context' tlsRecord >>= hear) own =
      (.ok fragment, own') ∧ Settles env ref [] reply σ' fragment own' := by
  obtain ⟨init, last, mid, eapBytes, division, each, parsed, receives⟩ := sends
  obtain ⟨gathered, released'⟩ := each.mirrors reassembling mirrors released division.more
  obtain ⟨fragment, own', forwards, settles⟩ := gathered.forwards reassembling receives sound
    parsed division.data division.final released'
  have made : [] ++ joined init ++ last.tlsData = tlsRecord := by
    rw [← division.whole, joined_append, joined_cons, joined_nil, List.append_nil, List.nil_append]
  rw [made] at forwards
  exact ⟨fragment, own', forwards, settles⟩

/-! ## The supplicant's dialogue -/

/-- What a supplicant has to send next, ACKs apart: a packet of another EAP type, or a record. -/
inductive Move where
  | packet (eapBytes : Bytes)
  | record (tlsRecord : Bytes)
  deriving DecidableEq, Repr

/-- The supplicant has to ACK a fragment with more to follow, and the last one of the server's
records that it answers so. -/
def Owes (acksLast : ℕ → Bool) (knows : Supplicant) : Prop :=
  knows.asked = some true ∨ (knows.asked = some false ∧ acksLast knows.heard = true)

instance (acksLast : ℕ → Bool) (knows : Supplicant) : Decidable (Owes acksLast knows) :=
  inferInstanceAs (Decidable (_ ∨ _ ∧ _))

/-- The supplicant of the session `ref`. -/
def supplicantOn (env : Env) (fuel ref : ℕ) (acksLast : ℕ → Bool) :
    Party Supplicant Move Server where
  must := Owes acksLast
  move := fun move knows σ knows' σ' => ∃ reply, knows' = knows.told reply.fragment ∧
    match move with
    | .packet eapBytes =>
        eapBytes[4]? ≠ some eapTypeTls ∧ Receives env fuel ref eapBytes σ reply σ'
    | .record tlsRecord => SendsRecord env fuel ref tlsRecord σ reply σ'
  ack := fun knows σ knows' σ' => ∃ reply, knows' = knows.told reply.fragment ∧
    ∃ eapBytes ack, parse eapBytes = .ok ack ∧ ack.isAck = true ∧
      Receives env fuel ref eapBytes σ reply σ'

instance (acksLast : ℕ → Bool) (knows : Supplicant) :
    Decidable ((supplicantOn env fuel ref acksLast).must knows) :=
  inferInstanceAs (Decidable (Owes acksLast knows))

/-- An AP that says nothing of its client. -/
def nobody : AuthContext := ⟨"", none, none⟩

/-- What a move is on a leg of its own. -/
def moveAlone (answer : List Core → Core → Except Raised RadiusReply) (fuel : ℕ) :
    Move → Act Raised Leg (Option Bool)
  | .packet eapBytes => passOn (coreClient answer) nobody eapBytes >>= hear
  | .record tlsRecord => forwards (coreClient answer) fuel nobody tlsRecord >>= hear

/-- The supplicant of a leg of its own, where records are sent in one fragment. -/
def supplicantAlone (answer : List Core → Core → Except Raised RadiusReply) (fuel : ℕ)
    (acksLast : ℕ → Bool) : Party Supplicant Move Leg where
  must := Owes acksLast
  move := fun move knows own knows' own' => ∃ fragment, knows' = knows.told fragment ∧
    moveAlone answer fuel move own = (.ok fragment, own')
  ack := fun knows own knows' own' => ∃ fragment, knows' = knows.told fragment ∧
    (poll (coreClient answer) fuel nobody >>= hear) own = (.ok fragment, own')

theorem supplicantAlone_functional (fuel : ℕ) (acksLast : ℕ → Bool) :
    (supplicantAlone answer fuel acksLast).Functional := by
  constructor
  · rintro move knows own _ _ _ _ ⟨fragment, rfl, ends⟩ ⟨fragment', rfl, ends'⟩
    cases ends.symm.trans ends'
    exact ⟨rfl, rfl⟩
  · rintro knows own _ _ _ _ ⟨fragment, rfl, ends⟩ ⟨fragment', rfl, ends'⟩
    cases ends.symm.trans ends'
    exact ⟨rfl, rfl⟩

theorem SendsEach.sound {packets : List EapTlsPacket}
    (sends : SendsEach env fuel ref packets σ σ') :
    Sound answer env ref σ' → Sound answer env ref σ := by
  induction sends with
  | none => exact id
  | next _ head _ ih => exact fun sound => head.sound (ih sound)

/-- The server beside the leg of its own, while the supplicant knows so much on either. -/
def Beside (env : Env) (ref : ℕ) (knows : Supplicant) (σ : Server) (knows' : Supplicant)
    (own : Leg) : Prop :=
  Mirrors env ref [] σ own ∧ Abreast (σ.atHand env ref) knows knows'

theorem Settles.beside {fragment : Option Bool} (settles : Settles env ref [] reply σ' fragment own')
    (knows : Supplicant) :
    Beside env ref (knows.told reply.fragment) σ' (knows.told fragment) own' :=
  ⟨settles.mirrors, settles.abreast knows⟩

/-- Nothing is queued for a supplicant that owes no ACK. -/
theorem Abreast.of_free {acksLast : ℕ → Bool} {session : Session} {knows knows' : Supplicant}
    (abreast : Abreast session knows knows') (free : ¬ Owes acksLast knows) :
    session.downOutbox = [] ∧ knows' = knows := by
  cases abreast with
  | same released known => exact ⟨released, known⟩
  | behind _ _ _ _ asked _ => exact absurd (.inl asked) free

/-- **The latent leg follows the supplicant as if records came and went as a whole.** -/
theorem supplicant_mimics (reassembling : env.cfg.sessionMode = .reassemble)
    (answer : List Core → Core → Except Raised RadiusReply) (acksLast : ℕ → Bool) :
    Mimics (supplicantOn env fuel ref acksLast) (supplicantAlone answer fuel acksLast)
      (Sound answer env ref) (Beside env ref) where
  move := by
    rintro move knows σ _ σ' ⟨reply, rfl, moves⟩ sound
    cases move with
    | packet eapBytes => exact moves.2.sound sound
    | record tlsRecord =>
        obtain ⟨_, _, _, _, _, each, _, receives⟩ := moves
        exact each.sound (receives.sound sound)
  ack := by
    rintro knows σ _ σ' ⟨reply, rfl, _, _, _, _, receives⟩ sound
    exact receives.sound sound
  free := by
    rintro knows σ knows' own ⟨_, abreast⟩ free
    rwa [(Abreast.of_free abreast free).2]
  moves := by
    rintro move knows σ knows' own _ σ' ⟨mirrors, abreast⟩ free ⟨reply, rfl, moves⟩ sound
    obtain ⟨released, rfl⟩ := Abreast.of_free abreast free
    cases move with
    | packet eapBytes =>
        obtain ⟨other, receives⟩ := moves
        obtain ⟨fragment, own', passes, settles⟩ :=
          mirrors.passes reassembling receives sound other released
        exact ⟨_, own', ⟨fragment, rfl, passes⟩, settles.beside knows'⟩
    | record tlsRecord =>
        obtain ⟨fragment, own', forwards, settles⟩ :=
          mirrors.sends reassembling moves sound released
        exact ⟨_, own', ⟨fragment, rfl, forwards⟩, settles.beside knows'⟩
  acks := by
    rintro knows σ knows' own _ σ' ⟨mirrors, abreast⟩ owes ⟨reply, rfl, eapBytes, ack, parsed, isAck,
      receives⟩ sound
    by_cases released : (σ.atHand env ref).downOutbox = []
    · obtain rfl := abreast.of_released released
      obtain ⟨fragment, own', polls, settles⟩ :=
        mirrors.polls reassembling receives sound parsed isAck released
      exact .inr ⟨owes, _, own', ⟨fragment, rfl, polls⟩, settles.beside knows'⟩
    · exact .inl (mirrors.releases reassembling receives parsed isAck released abreast)

/-! ## Two runs -/

/-- The server answers a conversation by what it looks at in the requests, and what it looks at
is settled by the EAP packet and the State. Whatever else a request says is nothing to the
server, or always the same. -/
structure Responds {V : Type} (sight : AccessRequest → V) (view : Core → V)
    (answer : List V → V → Except Raised RadiusReply) (exchanges : List Exchange) : Prop where
  answers : Converses (bySight sight answer) [] (exchanges.map Exchange.said)
  sees : ∀ exchange ∈ exchanges, sight exchange.request = view exchange.request.core

/-- A server that sees no more than the EAP packets and the States answers by them. -/
theorem converses_byCore {V : Type} {sight : AccessRequest → V} {view : Core → V}
    {answer : List V → V → Except Raised RadiusReply} {said : List Said} :
    ∀ {earlier : List AccessRequest}, (∀ request ∈ earlier, sight request = view request.core) →
      (∀ one ∈ said, sight one.1 = view one.1.core) →
        Converses (bySight sight answer) earlier said →
          Converses (byCore fun before core => answer (before.map view) (view core)) earlier said := by
  induction said with
  | nil => exact fun _ _ _ => trivial
  | cons one said ih =>
      rintro earlier before seen ⟨answered, rest⟩
      have now := seen one List.mem_cons_self
      refine ⟨?_, ih ?_ (fun other member => seen other (List.mem_cons_of_mem _ member)) rest⟩
      · have past : earlier.map sight = (earlier.map AccessRequest.core).map view := by
          rw [List.map_map]
          exact List.map_congr_left before
        rw [answered, bySight, past, now]
        rfl
      · intro request member
        rcases List.mem_append.mp member with old | new
        · exact before request old
        · rw [List.mem_singleton.mp new]
          exact now

theorem Responds.sound {V : Type} {sight : AccessRequest → V} {view : Core → V}
    {answer : List V → V → Except Raised RadiusReply}
    (responds : Responds sight view answer (ownExchanges σ.exchanges ref)) :
    Sound (fun before core => answer (before.map view) (view core)) env ref σ := by
  intro _
  apply converses_byCore _ _ responds.answers
  · intro request member
    cases member
  · intro one member
    obtain ⟨exchange, there, rfl⟩ := List.mem_map.mp member
    exact responds.sees exchange there

/-- Before the first datagram the session is beside a leg with a session of its own. -/
theorem beside_initial {cfg : Config} {downstream : DownstreamConfig}
    (same : env.cfg = { cfg with downstream := downstream }) (ref : ℕ) :
    Beside env ref {} (initial env) {} ⟨Session.create 0 "" cfg 0, [], 0⟩ := by
  have new : (initial env).atHand env ref = Session.create ref "" env.cfg 0 :=
    if_neg (Nat.not_lt_zero ref)
  refine ⟨⟨regular_initial env, ?_, rfl, ?_, new, ?_⟩, .same ?_ rfl⟩
  · rw [new, same]
    rfl
  · rw [new]
    rfl
  · rw [new]
    rfl
  · rw [new]
    rfl

/-- What the latent leg has of the session is the same in both servers. -/
structure SameLatency (σ σ' : Server) (ref ref' : ℕ) : Prop where
  payloads : (ownExchanges σ'.exchanges ref').map (·.request.eap) =
    (ownExchanges σ.exchanges ref).map (·.request.eap)
  roundTrips : (σ'.objects ref').upstreamRoundTrips = (σ.objects ref).upstreamRoundTrips
  upBytes : (σ'.objects ref').up.bytesReassembled = (σ.objects ref).up.bytesReassembled
  downBytes : (σ'.objects ref').down.bytesReassembled = (σ.objects ref).down.bytesReassembled
  result : (σ'.objects ref').result = (σ.objects ref).result

/-- **Servers beside one leg have the same latency.** -/
theorem Mirrors.sameLatency {env' : Env} {ref' : ℕ} (mirrors : Mirrors env ref pending σ own)
    (mirrors' : Mirrors env' ref' pending σ' own) : SameLatency σ σ' ref ref' := by
  have latent : (σ'.objects ref').latent = (σ.objects ref).latent := by
    rw [← mirrors.object, ← mirrors'.object, ← mirrors.session, mirrors'.session]
  have said : coresOf (saidFor ref' σ') = coresOf (saidFor ref σ) :=
    mirrors'.cores.symm.trans mirrors.cores
  have payloads := congrArg (List.map Prod.fst) said
  simp only [coresOf, saidFor, List.map_map] at payloads
  have upBytes := congrArg (fun s => s.up.bytesReassembled) latent
  have downBytes := congrArg (fun s => s.down.bytesReassembled) latent
  have asked := congrArg List.length payloads
  rw [List.length_map, List.length_map] at asked
  have trips : (σ'.objects ref').upstreamRoundTrips = (σ.objects ref).upstreamRoundTrips := by
    rw [← mirrors.object, ← mirrors'.object, mirrors.trips, mirrors'.trips, asked]
  exact ⟨payloads, trips, upBytes, downBytes, congrArg (·.result) latent⟩

/-- **The latent leg does not see the supplicant's side.** Two runs in reassemble mode, with
configurations that differ in the downstream part alone, have the same supplicant's packets and
records and the same server. Whatever fragments the records are sent in and cut into, the same
EAP packets go to the server, and the counters of the latent leg and the results agree. -/
theorem latent_leg_blind {env env' : Env} (fuel : ℕ)
    (reassembling : env.cfg.sessionMode = .reassemble)
    (settings : env'.cfg = { env.cfg with downstream := env'.cfg.downstream })
    (acksLast : ℕ → Bool) (moves : List Move) {V : Type} (sight : AccessRequest → V)
    (view : Core → V) (answer : List V → V → Except Raised RadiusReply) {ref ref' : ℕ}
    {σ σ' : Server}
    (dialogue : Dialogue (supplicantOn env fuel ref acksLast) moves {} (initial env) σ)
    (dialogue' : Dialogue (supplicantOn env' fuel ref' acksLast) moves {} (initial env') σ')
    (responds : Responds sight view answer (ownExchanges σ.exchanges ref))
    (responds' : Responds sight view answer (ownExchanges σ'.exchanges ref')) :
    SameLatency σ σ' ref ref' := by
  have reassembling' : env'.cfg.sessionMode = .reassemble := by
    rw [settings]
    exact reassembling
  obtain ⟨own, _, _, alone, ends⟩ := (supplicant_mimics reassembling _ acksLast).dialogue
    dialogue responds.sound (@beside_initial env env.cfg env.cfg.downstream rfl ref)
  obtain ⟨own', _, _, alone', ends'⟩ := (supplicant_mimics reassembling' _ acksLast).dialogue
    dialogue' responds'.sound (beside_initial settings ref')
  obtain rfl := alone.unique (supplicantAlone_functional fuel acksLast) alone'
  exact ends.1.sameLatency ends'.1

/-! ## A record in one fragment, and in two -/

/-- What the server replies to the requests of an authentication, one after the other. -/
def inTurn : List RadiusReply :=
  [emptyChallenge, challengeCarrying [codeRequest, 9, 0, 9, eapTypeTls, 0, 1, 2, 3], acceptReply]

/-- Records are cut into chunks of 1000 octets. -/
def widely : Env := answeringInTurn "reassemble" inTurn

/-- Records are cut into chunks of two octets. -/
def narrowly : Env :=
  { widely with cfg := { widely.cfg with downstream := { fragmentSize := 2 } } }

/-- The server of both, which only counts the requests. -/
def counting (before : List Core) (_ : Core) : Except Raised RadiusReply :=
  (inTurn[before.length]?).elim (.error .timeout) .ok

/-- The answer of the supplicant to an EAP-Request Identity. -/
def ownIdentity : Bytes := [codeResponse, 7, 0, 6, 1, 97]

/-- An identity, and a record of three octets. -/
def oneRecord : List Move := [.packet ownIdentity, .record [4, 5, 6]]

/-- An ACK of the supplicant. -/
def ownAck : EapTlsPacket := bareFragment codeResponse 10 [] false

/-- The handling of an AP's request with this EAP packet. -/
def speak (env : Env) (state : Option Bytes) (eapBytes : Bytes) (σ : Server) :
    Except Raised Unit × Server :=
  handleDatagram env 0 (datagramOf (requestWith state eapBytes))
    (σ.woken (datagramOf (requestWith state eapBytes)))

/-- The session that the request finds, whether it is handled without an exception, and what the
supplicant is told. -/
def heardBack (env : Env) (state : Option Bytes) (eapBytes : Bytes) (σ : Server) :
    ℕ × Except Raised Unit × Option (Option Bool) :=
  let request := requestWith state eapBytes
  ((found env ("ap", 1024) request (σ.woken (datagramOf request))).1, (speak env state eapBytes σ).1,
    (speak env state eapBytes σ).2.replies.getLast?.map (·.reply.fragment))

theorem receives_of_speak {state : Option Bytes} {fragment : Option Bool}
    (heard : heardBack env state eapBytes σ = (ref, .ok (), some fragment)) :
    ∃ reply, reply.fragment = fragment ∧
      Receives env 0 ref eapBytes σ reply (speak env state eapBytes σ).2 := by
  simp only [heardBack, Prod.mk.injEq] at heard
  obtain ⟨here, returns, last⟩ := heard
  have whole : (requestWith state eapBytes).eap = eapBytes := by simp [ApRequest.eap, requestWith]
  have admitted : Admitted (requestWith state eapBytes) := ⟨rfl, List.cons_ne_nil _ _, rfl⟩
  have legible : (requestWith state eapBytes).Legible := rfl
  have ends : speak env state eapBytes σ =
      handleRequest env 0 ("ap", 1024) (requestWith state eapBytes)
        (σ.woken (datagramOf (requestWith state eapBytes))) := by
    rw [speak, handleDatagram, datagramOf, Act.bind_lift_ok, Act.ite_apply, if_pos admitted]
  rcases result : (handled env 0 ("ap", 1024) (requestWith state eapBytes)
    (σ.woken (datagramOf (requestWith state eapBytes)))).1 with e | outcome
  · rw [ends, handleRequest_of_error result] at returns
    cases returns
  · have replies := handleRequest_answers result
    rw [← ends] at replies
    rw [replies, List.getLast?_concat] at last
    refine ⟨_, Option.some.inj last, [], σ, _, _, _, trivial, rfl,
      ⟨rfl, admitted, whole, here, captured_of_legible legible _⟩, ?_, replies, rfl⟩
    exact Prod.ext returns rfl

/-- The state after the first session's EAP packets have been handled. -/
def spoken (env : Env) (packets : List (Option Bytes × Bytes)) : Server :=
  packets.foldl (fun σ packet => (speak env packet.1 packet.2 σ).2) (initial env)

/-- The packets of the supplicant, when the record goes in one fragment. -/
def inOne : List (Option Bytes × Bytes) :=
  [(none, ownIdentity),
    (some [0], layout (bareFragment codeResponse 9 [4, 5, 6] false)), (some [0], layout ownAck)]

/-- The packets of the supplicant, when the record goes in two. -/
def inTwo : List (Option Bytes × Bytes) :=
  [(none, ownIdentity),
    (some [0], layout (bareFragment codeResponse 8 [4, 5] true)),
    (some [0], layout (bareFragment codeResponse 9 [6] false)), (some [0], layout ownAck),
    (some [0], layout ownAck)]

/-- The server's record comes in one fragment, and is ACKed. -/
theorem widely_talks :
    Dialogue (supplicantOn widely 0 0 fun _ => true) oneRecord {} (initial widely)
      (spoken widely inOne) := by
  have division : Division [4, 5, 6] [] (bareFragment codeResponse 9 [4, 5, 6] false) :=
    ⟨rfl, by simp, rfl, rfl, by simp [bareFragment, described, Reassembler.declared]⟩
  obtain ⟨start, told, identity⟩ := @receives_of_speak widely 0 ownIdentity (initial widely) none none
    (by decide +kernel)
  obtain ⟨last, told', record⟩ := @receives_of_speak widely 0
    (layout (bareFragment codeResponse 9 [4, 5, 6] false)) (spoken widely (inOne.take 1)) (some [0])
    (some false) (by decide +kernel)
  obtain ⟨verdict, told'', poll⟩ := @receives_of_speak widely 0 (layout ownAck)
    (spoken widely (inOne.take 2)) (some [0]) none (by decide +kernel)
  refine .moves (by decide) ⟨start, rfl, by decide, identity⟩ ?_
  rw [told]
  refine .moves (by decide) ⟨last, rfl, [], _, _, _, division, .none,
    parse_bareFragment (by decide), record⟩ ?_
  rw [told']
  refine .acks (by decide) ⟨verdict, rfl, _, _, parse_bareFragment (by decide), rfl, poll⟩ ?_
  rw [told'']
  exact .ends (by decide)

/-- The server's record comes in two fragments, and both are ACKed. -/
theorem narrowly_talks :
    Dialogue (supplicantOn narrowly 0 0 fun _ => true) oneRecord {} (initial narrowly)
      (spoken narrowly inTwo) := by
  have division : Division [4, 5, 6] [bareFragment codeResponse 8 [4, 5] true]
      (bareFragment codeResponse 9 [6] false) :=
    ⟨rfl, by simp [bareFragment, described], rfl, rfl,
      by simp [bareFragment, described, Reassembler.declared]⟩
  obtain ⟨start, told, identity⟩ :=
    @receives_of_speak narrowly 0 ownIdentity (initial narrowly) none none
    (by decide +kernel)
  obtain ⟨_, _, more⟩ := @receives_of_speak narrowly 0
    (layout (bareFragment codeResponse 8 [4, 5] true)) (spoken narrowly (inTwo.take 1)) (some [0])
    none (by decide +kernel)
  obtain ⟨first, told', record⟩ := @receives_of_speak narrowly 0
    (layout (bareFragment codeResponse 9 [6] false)) (spoken narrowly (inTwo.take 2)) (some [0])
    (some true) (by decide +kernel)
  obtain ⟨last, told'', release⟩ := @receives_of_speak narrowly 0 (layout ownAck)
    (spoken narrowly (inTwo.take 3)) (some [0]) (some false) (by decide +kernel)
  obtain ⟨verdict, ended, poll⟩ := @receives_of_speak narrowly 0 (layout ownAck)
    (spoken narrowly (inTwo.take 4)) (some [0]) none (by decide +kernel)
  refine .moves (by decide) ⟨start, rfl, by decide, identity⟩ ?_
  rw [told]
  refine .moves (by decide) ⟨first, rfl, _, _, _, _, division,
    .next (parse_bareFragment (by decide)) more .none, parse_bareFragment (by decide), record⟩ ?_
  rw [told']
  refine .acks (by decide) ⟨last, rfl, _, _, parse_bareFragment (by decide), rfl, release⟩ ?_
  rw [told'']
  refine .acks (by decide) ⟨verdict, rfl, _, _, parse_bareFragment (by decide), rfl, poll⟩ ?_
  rw [ended]
  exact .ends (by decide)

/-- Three replies or five, the server hears the same. -/
theorem latent_leg_blind_sample :
    (spoken widely inOne).replies.length = 3 ∧ (spoken narrowly inTwo).replies.length = 5 ∧
      (ownExchanges (spoken widely inOne).exchanges 0).length = 3 ∧
      SameLatency (spoken widely inOne) (spoken narrowly inTwo) 0 0 := by
  refine ⟨by decide +kernel, by decide +kernel, by decide +kernel, ?_⟩
  apply @latent_leg_blind widely narrowly 0 rfl rfl _ oneRecord _ AccessRequest.core id counting 0 0
    _ _ widely_talks narrowly_talks
  · exact ⟨⟨by decide +kernel, by decide +kernel, by decide +kernel, trivial⟩, fun _ _ => rfl⟩
  · exact ⟨⟨by decide +kernel, by decide +kernel, by decide +kernel, trivial⟩, fun _ _ => rfl⟩

end Downstream
end EapAccel
