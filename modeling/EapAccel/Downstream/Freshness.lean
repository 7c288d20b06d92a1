import EapAccel.Downstream.Asking
import EapAccel.Downstream.Reaping

/-!
# Requests that find no session, or an old one

`_lookup_session` shares one `get_or_create` between the States that were minted and all
others. So a State that no session holds opens a session (`onlyContinues_iff`). A request
without a State is handled by a new session only if the table has no session left under its
synthetic key, or one that nothing has happened to (`startsFresh_iff`): a session whose first
request raised was neither rekeyed nor dropped.
-/

set_option autoImplicit false

namespace EapAccel.Downstream

open Foundations EapTls Mediator

variable {env : Env} {fuel : ℕ}

/-! ## Requests with a State -/

/-- A session in the table holds the State. -/
def Held (σ : Server) (state : Bytes) : Prop :=
  ∃ ref, σ.Live ref ∧ (σ.objects ref).downstreamState = some state

/-- Nothing is asked upstream, and no session is created. -/
structure NothingOpened (σ σ' : Server) : Prop where
  exchanges : σ'.exchanges = σ.exchanges
  created : σ'.created = σ.created

/-- Nothing is opened, nor is a verdict sent or a record written. -/
structure NothingComes (σ σ' : Server) : Prop extends NothingOpened σ σ' where
  reports : σ'.reports = σ.reports
  replies : ∀ sent ∈ σ'.replies, sent ∈ σ.replies ∨ sent.reply.code = accessChallenge

/-- The request goes no further than its session: an attribute that is captured does not decode, or
the packet asks the server nothing. -/
def StaysIn (session : Session) (request : ApRequest) : Prop :=
  captured request session = .ok () → ¬ Asks session request.eap

/-- A State that no session holds finds a session that keeps to itself: one that was opened
for this very State and got none of its own, and the request goes no further. -/
def FindsIdle (σ : Server) (state : Bytes) (request : ApRequest) : Prop :=
  ∃ ref, σ.table.lookup ("st:" ++ hex state) = some ref ∧ StaysIn (σ.objects ref) request

theorem found_of_stated {addr : String × ℕ} {request : ApRequest} {state : Bytes}
    (stated : request.state = some state) (σ : Server) :
    found env addr request σ = σ.opened env ("st:" ++ hex state) := by
  rw [found, sessionKey, stated]

/-- What a request opens, from what its State finds. -/
theorem nothingOpened_iff (valid : env.cfg.validate = .ok ()) {σ : Server}
    (regular : σ.Regular env) {addr : String × ℕ} {request : ApRequest} {state : Bytes}
    (stated : request.state = some state) :
    NothingOpened σ (handleRequest env fuel addr request σ).2 ↔ FindsIdle σ state request := by
  have quiet := @handleRequest_quiet_iff env fuel valid σ regular addr request
  have created := @handleRequest_created_eq env fuel addr request σ
  rw [GoesUp, notes, found_of_stated stated, not_and] at quiet
  rw [found_of_stated stated] at created
  cases lookup : σ.table.lookup ("st:" ++ hex state) with
  | none =>
      rw [opened_of_none lookup] at created
      constructor
      · rintro ⟨_, same⟩
        rw [created] at same
        exact absurd same (Nat.succ_ne_self _)
      · rintro ⟨ref, there, _⟩
        rw [lookup] at there
        cases there
  | some ref =>
      rw [opened_of_lookup lookup] at quiet created
      constructor
      · exact fun nothing => ⟨ref, lookup, quiet.mp nothing.exchanges⟩
      · rintro ⟨ref', there, silent⟩
        rw [lookup] at there
        cases there
        exact ⟨quiet.mpr silent, created⟩

/-- A handling without a verdict leaves an unfinished session unfinished. -/
theorem Handled.unfinished {count : ℕ} {start leg : Leg} {outcome : Outcome}
    (handled : Handled count start (.ok outcome) leg) (verdict : outcome.action.verdict = none)
    (unfinished : start.session.result = none) : leg.session.result = none := by
  rcases handled with ⟨_, mid, _, _, same, delivered⟩ | ⟨same, _⟩
  · rw [Delivered, verdict] at delivered
    obtain ⟨_, _, _, waits⟩ := delivered
    exact waits.trans (same.trans unfinished)
  · have result : leg.session.result = start.session.result := congrArg (fun v => v.2.2) same
    exact result.trans unfinished

/-- A handling that asks nothing hands over no verdict but the stored one. -/
theorem Handled.quiet {count : ℕ} {start leg : Leg} {outcome : Outcome}
    (handled : Handled count start (.ok outcome) leg) (quiet : leg.exchanges = start.exchanges)
    (unfinished : start.session.result = none) :
    outcome.action.verdict = none ∧ leg.session.result = none := by
  have justified := Handled.justified handled
  have verdict : outcome.action.verdict = none := by
    rcases handled with ⟨early, mid, trail, _, _, delivered⟩ | ⟨_, stored⟩
    · cases said : outcome.action.verdict with
      | none => rfl
      | some v =>
          rw [Delivered, said] at delivered
          obtain ⟨⟨new, last, later, _⟩, _⟩ := delivered
          have grown := (trail.append later).exchanges
          rw [quiet] at grown
          simp at grown
    · exact stored.trans unfinished
  exact ⟨verdict, Handled.unfinished handled verdict unfinished⟩

/-- Concluding for an unfinished session reports nothing. -/
theorem conclude_reports {σ : Server} {ref : ℕ} (unfinished : (σ.objects ref).result = none)
    (request : ApRequest) (outcome : Outcome) :
    (conclude env ref request outcome σ).2.reports = σ.reports := by
  have reports : (answer env ref request outcome σ).2.reports = σ.reports :=
    addressed_reports ref outcome.action σ
  have unnamed := congrFun (congrArg (·.objects) (@addressed_work env ref outcome.action σ)) ref
  have result : ((answer env ref request outcome σ).2.objects ref).result = none := by
    have same : ((σ.addressed env ref outcome.action).2.objects ref).result =
        (σ.objects ref).result := by
      simpa [Server.work, Session.unnamed] using congrArg Session.result unnamed
    exact same.trans unfinished
  rw [conclude_eq]
  simp only
  cases env.send (answer env ref request outcome σ).2.replies
      (answer env ref request outcome σ).1 with
  | error e => exact reports
  | ok done =>
      have going : ¬ ((replied (answer env ref request outcome σ).1
          (answer env ref request outcome σ).2).objects ref).result.isSome := by
        show ¬ ((answer env ref request outcome σ).2.objects ref).result.isSome
        rw [result]
        simp
      rw [reportAndDrop_eq, if_neg going]
      exact reports

/-- Where replies and reports get out, a request that opens nothing comes to nothing. -/
theorem nothingComes_of_idle (valid : env.cfg.validate = .ok ()) {σ : Server}
    (regular : σ.Regular env) (booked : σ.Booked) {addr : String × ℕ} {request : ApRequest}
    {state : Bytes} (stated : request.state = some state) (idle : FindsIdle σ state request) :
    NothingComes σ (handleRequest env fuel addr request σ).2 := by
  have nothing := (@nothingOpened_iff env fuel valid σ regular addr request state stated).mpr idle
  have handles := @handled_handled env fuel addr request σ
  obtain ⟨ref, lookup, _⟩ := idle
  have finds : found env addr request σ = (ref, σ) := by
    rw [found_of_stated stated, opened_of_lookup lookup]
  have unfinished : (startOf env addr request σ).session.result = none := by
    rw [startOf, finds]
    exact booked.unfinished _ (mem_of_lookup lookup)
  rcases result : (handled env fuel addr request σ).1 with e | outcome
  · refine ⟨nothing, ?_, ?_⟩
    · rw [handleRequest_of_error result, afterHandling, finds]
      rfl
    · rw [handleRequest_silent result]
      exact fun sent member => .inl member
  · rw [result] at handles
    have quiet : (handled env fuel addr request σ).2.exchanges =
        (startOf env addr request σ).exchanges := by
      rw [← handleRequest_exchanges, startOf_exchanges]
      exact nothing.exchanges
    obtain ⟨verdict, result'⟩ := Handled.quiet handles quiet unfinished
    refine ⟨nothing, ?_, ?_⟩
    · rw [handleRequest_of_ok result, conclude_reports]
      · rw [afterHandling, finds]
        rfl
      · rw [afterHandling, Server.put_objects_self]
        exact result'
    · rw [handleRequest_answers result]
      intro sent member
      rcases List.mem_append.mp member with old | new
      · exact .inl old
      · refine .inr ?_
        rw [List.mem_singleton.mp new, answer_code]
        cases action : outcome.action with
        | accept => rw [action] at verdict; cases verdict
        | reject => rw [action] at verdict; cases verdict
        | ack => rfl
        | challenge => rfl

/-- **A State that no session holds opens nothing exactly when it finds an idle session.**
In every reachable server and for every datagram whose request has a State. Where replies
and reports get out, nothing else comes of the request then. -/
theorem onlyContinues_iff (valid : env.cfg.validate = .ok ()) {datagrams : List Datagram}
    {σ : Server} (ran : run env fuel datagrams (initial env) = some σ) (datagram : Datagram)
    {request : ApRequest} {state : Bytes} (stated : request.state = some state) :
    ((¬ Held σ state → NothingOpened σ
          (handleRequest env fuel datagram.addr request (σ.woken datagram)).2) ↔
        Held σ state ∨ FindsIdle σ state request) ∧
      (Delivers env →
        ((¬ Held σ state → NothingComes σ
            (handleRequest env fuel datagram.addr request (σ.woken datagram)).2) ↔
          Held σ state ∨ FindsIdle σ state request)) := by
  obtain ⟨datagrams', reached⟩ := run_woken ran datagram
  have regular := regular_of_run reached
  have opened := @nothingOpened_iff env fuel valid _ regular datagram.addr request state stated
  have idle : FindsIdle (σ.woken datagram) state request ↔ FindsIdle σ state request :=
    Iff.rfl
  have same : NothingOpened σ
      (handleRequest env fuel datagram.addr request (σ.woken datagram)).2 ↔
        NothingOpened (σ.woken datagram)
          (handleRequest env fuel datagram.addr request (σ.woken datagram)).2 :=
    ⟨fun nothing => ⟨nothing.exchanges, nothing.created⟩, fun nothing =>
      ⟨nothing.exchanges, nothing.created⟩⟩
  refine ⟨by rw [same, opened, idle]; exact or_iff_not_imp_left.symm, fun out => ?_⟩
  have comes : NothingComes σ
      (handleRequest env fuel datagram.addr request (σ.woken datagram)).2 ↔
        FindsIdle σ state request := by
    refine ⟨fun nothing => opened.mp (same.mp nothing.toNothingOpened), fun finds => ?_⟩
    have nothing := @nothingComes_of_idle env fuel valid _ regular (booked_of_run out reached)
      datagram.addr request state stated finds
    exact ⟨⟨nothing.exchanges, nothing.created⟩, nothing.reports, nothing.replies⟩
  rw [comes]
  exact or_iff_not_imp_left.symm

/-- The request that continues the first session. -/
def continuation : ApRequest := requestWith (some [0]) [codeResponse, 8, 0, 6, 1, 97]

/-- The session that waits for it. -/
theorem onlyContinues_sample :
    ∃ σ, run (answering "reassemble" emptyChallenge) 0 [identityDatagram]
        (initial (answering "reassemble" emptyChallenge)) = some σ ∧ Held σ [0] ∧
      (¬ Held σ [0] → NothingOpened σ (handleRequest (answering "reassemble" emptyChallenge) 0
        ("ap", 1024) continuation (σ.woken (datagramOf continuation))).2) ∧
      (¬ Held σ [0] → NothingComes σ (handleRequest (answering "reassemble" emptyChallenge) 0
        ("ap", 1024) continuation (σ.woken (datagramOf continuation))).2) := by
  have held : ∀ σ, run (answering "reassemble" emptyChallenge) 0 [identityDatagram]
      (initial (answering "reassemble" emptyChallenge)) = some σ → Held σ [0] := by
    rintro σ ⟨⟩
    exact ⟨0, ⟨"st:00", List.mem_singleton.mpr rfl⟩, rfl⟩
  have iffs := @onlyContinues_iff (answering "reassemble" emptyChallenge) 0 (by decide)
    [identityDatagram] _ rfl (datagramOf continuation) continuation [0] rfl
  exact ⟨_, rfl, held _ rfl, iffs.1.mpr (.inl (held _ rfl)),
    (iffs.2 (answering_delivers _ _)).mpr (.inl (held _ rfl))⟩

/-- The server challenges, accepts, and rejects what comes after that. -/
def acceptingOnce : Env := answeringInTurn "reassemble" [emptyChallenge, acceptReply, rejectReply]

/-- The last request of an authentication is sent again after its accept: it opens a second
conversation, the AP is told a reject, and a second record is written. -/
theorem retransmission_opens_session :
    acceptingOnce.cfg.validate = .ok () ∧ Delivers acceptingOnce ∧
    ∃ σ σ', run acceptingOnce 0 [identityDatagram, datagramOf continuation]
        (initial acceptingOnce) = some σ ∧ ¬ Held σ [0] ∧
      serve acceptingOnce 0 (datagramOf continuation) σ = some σ' ∧ ¬ NothingOpened σ σ' ∧
      σ.replies.map (fun sent => sent.reply.code) = [accessChallenge, accessAccept] ∧
      σ'.replies.map (fun sent => sent.reply.code) =
        [accessChallenge, accessAccept, accessReject] ∧
      σ'.reports.map Prod.fst = [0, 1] := by
  refine ⟨by decide, answeringInTurn_delivers _ _, _, _, rfl, ?_, rfl, ?_, rfl, rfl, rfl⟩
  · rintro ⟨_, ⟨_, member⟩, _⟩
    cases member
  · intro nothing
    cases nothing.created

/-! ## Requests without a State -/

/-- The request is handled by a session in its initial state, which starts now. (The
authenticator of the last request is overwritten before anything is done with it.) -/
def StartsFresh (env : Env) (addr : String × ℕ) (request : ApRequest) (σ : Server) : Prop :=
  { (found env addr request σ).2.objects (found env addr request σ).1 with
      lastApAuthenticator := none } =
    Session.create (found env addr request σ).1 (sessionKey request addr request.eap) env.cfg σ.clock

/-- Nothing has happened to the session since it was created, which is right now: no packet
of it was parsed, nothing was asked upstream, and the AP sent no attributes. -/
structure Untouched (now : ℕ) (session : Session) : Prop where
  fragmentsIn : session.up.fragmentsIn = 0
  upstreamRoundTrips : session.upstreamRoundTrips = 0
  apAttrs : session.apAttrs = []
  startedAt : session.startedAt = now

/-- The session without its names and what was noted of the AP's request. -/
def unmarked (session : Session) : Session :=
  { session with key := "", downstreamState := none, lastApAuthenticator := none, apAttrs := [] }

/-- A session that was asked nothing, and asked nothing, is as it was created. -/
def AsCreated (env : Env) (_ : List Exchange) (session : Session) : Prop :=
  session.up.fragmentsIn = 0 → session.upstreamRoundTrips = 0 →
    unmarked session = Session.create session.ident "" env.cfg session.startedAt

theorem fragmentsIn_steps : SessionSteps (fun session => 0 < session.up.fragmentsIn) where
  side := fun _ _ side counted => by
    have same := congrArg (fun session => session.up.fragmentsIn) side
    exact lt_of_lt_of_eq counted same.symm
  queue := fun _ _ queue counted => by
    have same := congrArg (fun session => session.up.fragmentsIn) queue
    exact lt_of_lt_of_eq counted same.symm
  chunk := fun _ counted => counted
  arrive := fun _ _ _ => Nat.succ_pos _
  see := fun _ _ counted => counted
  ingestData := fun _ _ counted => counted
  acknowledge := fun _ _ counted => counted
  gather := fun _ _ counted => counted

/-- Every exchange is counted, unless pyrad refuses an attribute of it. -/
theorem exchange_counts (client : UpstreamClient) (eapPayload : Bytes) (context : AuthContext)
    (start : Session) :
    Act.Triple (fun leg => leg.session = start) (exchange client eapPayload context)
      (fun _ leg => 0 < leg.session.upstreamRoundTrips)
      (fun _ leg => leg.session = start ∨ 0 < leg.session.upstreamRoundTrips) := by
  intro leg here
  have counts : (leg.sent client eapPayload context).session.upstreamRoundTrips =
      leg.session.upstreamRoundTrips +
        if client.takes (leg.request client eapPayload context) then 1 else 0 := rfl
  rcases result : leg.outcome client eapPayload context with e | reply
  · rw [exchange_error result]
    cases taken : client.takes (leg.request client eapPayload context) with
    | true =>
        rw [taken] at counts
        exact .inr (counts.symm ▸ Nat.succ_pos _)
    | false =>
        refine .inl (Eq.trans ?_ here)
        show client.countTrip _ leg.session = leg.session
        rw [UpstreamClient.countTrip, taken]
        rfl
  · rw [exchange_ok result]
    rw [UpstreamClient.takes_of_answer result] at counts
    have learnt := learn_upstreamRoundTrips reply (leg.sent client eapPayload context).session
    have same : ((leg.sent client eapPayload context).received reply).session.upstreamRoundTrips =
        leg.session.upstreamRoundTrips + 1 := learnt.trans counts
    have counted : 0 < ((leg.sent client eapPayload context).received
        reply).session.upstreamRoundTrips := same ▸ Nat.succ_pos _
    exact counted

/-- A handling leaves the session as it is, or counts a packet, or a round trip. -/
theorem route_counts (context : AuthContext) (eapBytes : Bytes) (leg : Leg) :
    (route env fuel context eapBytes leg).2.session = leg.session ∨
      0 < (route env fuel context eapBytes leg).2.session.up.fragmentsIn ∨
      0 < (route env fuel context eapBytes leg).2.session.upstreamRoundTrips := by
  by_cases tls : eapBytes[4]? = some eapTypeTls
  · rw [route, if_pos tls]
    have steps := @SessionSteps.handleSteps env.client _ fragmentsIn_steps
    rcases parsed : parse eapBytes with e | packet
    · rw [handle_unparsed parsed]
      exact .inl rfl
    refine .inr (.inl ?_)
    cases mode : leg.session.mode with
    | passthrough =>
        rw [handle_passthrough_eq mode parsed]
        exact ((steps.relayRule context).passthroughUpstream eapBytes).ended (Nat.succ_pos _)
    | reassemble =>
        rcases ack : packet.isAck with _ | _
        · rw [handle_data_eq mode parsed ack]
          exact (steps.handleData context packet).ended (Nat.succ_pos _)
        · rw [handle_ack_eq mode parsed ack]
          exact (steps.handleAck context packet).ended (Nat.succ_pos _)
  · rw [route, if_neg tls]
    have counts : Act.Triple (fun leg' => leg'.session = leg.session)
        (passthroughNonTls env context eapBytes)
        (fun _ leg' => leg'.session = leg.session ∨ 0 < leg'.session.upstreamRoundTrips)
        (fun _ leg' => leg'.session = leg.session ∨ 0 < leg'.session.upstreamRoundTrips) := by
      apply Act.Triple.bind (exchange_counts env.client eapBytes context leg.session)
      intro reply
      apply Act.Triple.ite
      · intro _
        exact Act.Triple.bind (Act.Triple.modify fun _ counted => counted) fun _ =>
          Act.Triple.pure fun _ counted => .inr counted
      · intro _
        apply Act.Triple.ite
        · intro _
          exact Act.Triple.bind (Act.Triple.modify fun _ counted => counted) fun _ =>
            Act.Triple.pure fun _ counted => .inr counted
        · exact fun _ => Act.Triple.pure fun _ counted => .inr counted
    exact (counts.ended rfl).imp_right .inr

theorem asCreated_rule (env : Env) (fuel : ℕ) : ObjectRule env fuel (AsCreated env) where
  created := fun _ _ _ _ _ _ _ => rfl
  others := fun _ _ _ _ holds => holds
  renamed := by
    intro _ session session' same holds
    have of : ∀ s : Session, AsCreated env [] s ↔ AsCreated env [] s.unnamed := fun _ => Iff.rfl
    exact (of session').mpr (same ▸ (of session).mp holds)
  noted := fun _ _ _ holds => holds
  handled := by
    intro context eapBytes leg _ holds
    rcases @route_counts env fuel context eapBytes leg with same | counted | counted
    · rw [same]
      exact holds
    · exact fun fragmentsIn => absurd fragmentsIn counted.ne'
    · exact fun _ upstreamRoundTrips => absurd upstreamRoundTrips counted.ne'

/-- A synthetic key is not the key of a State. -/
theorem sessionKey_ne_state {request : ApRequest} (stateless : request.state = none)
    (addr : String × ℕ) (eapBytes state : Bytes) :
    sessionKey request addr eapBytes ≠ "st:" ++ hex state := by
  have synthetic : ∃ rest, sessionKey request addr eapBytes = "new:" ++ rest := by
    rw [sessionKey, stateless]
    cases request.callingStationId.filter (· ≠ "") with
    | some calling => exact ⟨calling, rfl⟩
    | none => exact ⟨_, by simp only [String.append_assoc]; rfl⟩
  obtain ⟨rest, key⟩ := synthetic
  intro same
  rw [key] at same
  have letters := congrArg String.toList same
  rw [String.toList_append, String.toList_append] at letters
  cases letters

/-- A session that a request without a State finds is as it was created, unless something
has happened to it. -/
theorem initial_of_untouched {datagrams : List Datagram} {σ : Server}
    (ran : run env fuel datagrams (initial env) = some σ) {addr : String × ℕ}
    {request : ApRequest} (stateless : request.state = none) {ref : ℕ}
    (lookup : σ.table.lookup (sessionKey request addr request.eap) = some ref)
    (untouched : Untouched σ.clock (σ.objects ref)) :
    { σ.objects ref with lastApAuthenticator := none } =
      Session.create ref (sessionKey request addr request.eap) env.cfg σ.clock := by
  have named := named_of_run ran
  have ident : (σ.objects ref).ident = ref :=
    congrArg Session.Settings.ident ((regular_of_run ran).settled ref)
  have own := (named.tabled _ (mem_of_lookup lookup)).2
  have unstated : (σ.objects ref).downstreamState = none := by
    rcases stated : (σ.objects ref).downstreamState with _ | state
    · rfl
    · have key := named.named _ (mem_of_lookup lookup) state stated
      exact absurd key (sessionKey_ne_state stateless addr request.eap state)
  have created := (asCreated_rule env fuel).holds ran ref untouched.fragmentsIn
    untouched.upstreamRoundTrips
  rw [ident, untouched.startedAt] at created
  have marks : ∀ s : Session, s.apAttrs = [] → s.downstreamState = none →
      { s with lastApAuthenticator := none } = { unmarked s with key := s.key } := by
    intro s apAttrs unstated
    simp only [unmarked, ← apAttrs, ← unstated]
  rw [marks _ untouched.apAttrs unstated, created, own]
  rfl

/-- A session that a request finds under its key, fresh or not. -/
theorem startsFresh_of_run {datagrams : List Datagram} {σ : Server}
    (ran : run env fuel datagrams (initial env) = some σ) (addr : String × ℕ)
    {request : ApRequest} (stateless : request.state = none) :
    StartsFresh env addr request σ ↔
      ∀ ref, σ.table.lookup (sessionKey request addr request.eap) = some ref →
        Untouched σ.clock (σ.objects ref) := by
  rw [StartsFresh, found]
  cases lookup : σ.table.lookup (sessionKey request addr request.eap) with
  | none =>
      rw [opened_of_none lookup]
      refine ⟨fun _ _ there => absurd there (by simp), fun _ => ?_⟩
      simp only [Server.grow, Function.update_self]
      rfl
  | some ref =>
      rw [opened_of_lookup lookup]
      constructor
      · rintro fresh _ ⟨⟩
        refine ⟨?_, ?_, ?_, ?_⟩
        · exact congrArg (fun session => session.up.fragmentsIn) fresh
        · exact congrArg Session.upstreamRoundTrips fresh
        · exact congrArg Session.apAttrs fresh
        · exact congrArg Session.startedAt fresh
      · intro untouched
        exact initial_of_untouched ran stateless lookup (untouched ref rfl)

/-- **A request without a State starts fresh exactly when no session was left under its
synthetic key**, or one that was created at this very moment and that nothing has happened
to. In every reachable server and for every datagram whose request has no State. -/
theorem startsFresh_iff {datagrams : List Datagram} {σ : Server}
    (ran : run env fuel datagrams (initial env) = some σ) (datagram : Datagram)
    {request : ApRequest} (stateless : request.state = none) :
    StartsFresh env datagram.addr request (σ.woken datagram) ↔
      ∀ ref, σ.table.lookup (sessionKey request datagram.addr request.eap) = some ref →
        Untouched (max σ.clock datagram.receivedAt) (σ.objects ref) := by
  obtain ⟨datagrams', reached⟩ := run_woken ran datagram
  exact startsFresh_of_run reached datagram.addr stateless

/-- A packet that announces EAP-TLS and ends there: the parser raises. -/
def cutShort : ApRequest := requestWith none [codeResponse, 7, 0, 5, eapTypeTls]

/-- A packet that cannot be parsed leaves its session under the synthetic key. A first request that
comes at the same time finds that session as new as one of its own. -/
theorem startsFresh_sample :
    ∃ σ, run (answering "reassemble" emptyChallenge) 0 [datagramOf cutShort]
        (initial (answering "reassemble" emptyChallenge)) = some σ ∧
      σ.table = [("new:ap:1024:7", 0)] ∧
      (found (answering "reassemble" emptyChallenge) identityDatagram.addr
        (requestWith none [codeResponse, 7, 0, 6, 1, 97]) (σ.woken identityDatagram)).1 = 0 ∧
      StartsFresh (answering "reassemble" emptyChallenge) identityDatagram.addr
        (requestWith none [codeResponse, 7, 0, 6, 1, 97]) (σ.woken identityDatagram) := by
  refine ⟨_, rfl, by decide +kernel, by decide +kernel, ?_⟩
  refine (@startsFresh_iff (answering "reassemble" emptyChallenge) 0 [datagramOf cutShort] _ rfl
    identityDatagram (requestWith none [codeResponse, 7, 0, 6, 1, 97]) rfl).mpr ?_
  intro ref lookup
  have here : ref = 0 := Option.some.inj (lookup.symm.trans (by decide +kernel))
  subst here
  exact ⟨rfl, rfl, rfl, rfl⟩

/-- The server does not answer in time. -/
def silent : Env := answeringInTurn "reassemble" []

/-- A first request from an AP at some address, with the NAS-IP-Address of that AP. -/
def roaming (address : String) (receivedAt : ℕ) : Datagram where
  addr := (address, 1024)
  receivedAt := receivedAt
  decoded := .ok {
    requestWith none [codeResponse, 7, 0, 6, 1, 97] with
    callingStationId := some "02-00-00-00-00-01"
    nasAttrs := [(.nasIpAddress, .ok (.text address))] }

/-- A client tries at one AP, where the server does not answer in time, and then at another
one: the second authentication gets the session of the first, with the attributes of the
first AP, its start and its round trip. -/
theorem leftover_session_found :
    silent.cfg.validate = .ok () ∧
    ∃ σ request, run silent 0 [roaming "10.0.0.1" 0] (initial silent) = some σ ∧
      (roaming "10.0.0.2" 1000).decoded = .ok request ∧ Admitted request ∧ request.state = none ∧
      ¬ StartsFresh silent ("10.0.0.2", 1024) request (σ.woken (roaming "10.0.0.2" 1000)) ∧
      (found silent ("10.0.0.2", 1024) request (σ.woken (roaming "10.0.0.2" 1000))).1 = 0 ∧
      (σ.objects 0).apAttrs = [(.nasIpAddress, .text "10.0.0.1")] ∧
      (σ.objects 0).upstreamRoundTrips = 1 ∧ (σ.objects 0).startedAt = 0 := by
  refine ⟨by decide, _, _, rfl, rfl, by decide, rfl, ?_, rfl, rfl, rfl, rfl⟩
  intro fresh
  cases congrArg Session.startedAt fresh

end EapAccel.Downstream
