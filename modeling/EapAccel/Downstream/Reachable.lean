import EapAccel.Downstream.Table
import EapAccel.Downstream.Verdicts

/-!
# Reachable servers

What holds of the server in every run, whatever the APs and the upstream do: the table is
in order, the sessions have their settings from the configuration, and every exchange
belongs to a session that exists (`Regular`).
-/

set_option autoImplicit false

namespace EapAccel

open Foundations EapTls

/-! ## Settings -/

/-- What a session is given when it is created, and keeps. -/
structure Session.Settings where
  ident : ℕ
  mode : Mode
  upstreamFragmentSize : ℕ
  downstreamFragmentSize : ℕ
  upLimit : ℕ
  downLimit : ℕ
  deriving DecidableEq, Repr

def Session.settings (session : Session) : Session.Settings where
  ident := session.ident
  mode := session.mode
  upstreamFragmentSize := session.upstreamFragmentSize
  downstreamFragmentSize := session.downstreamFragmentSize
  upLimit := session.upReasm.maxMessageLen
  downLimit := session.downReasm.maxMessageLen

/-- The settings of the session `ref` under a configuration. -/
def Config.settings (cfg : Config) (ref : ℕ) : Session.Settings where
  ident := ref
  mode := cfg.sessionMode
  upstreamFragmentSize := cfg.upstream.fragmentSize
  downstreamFragmentSize := cfg.downstream.fragmentSize
  upLimit := cfg.maxMessageLen
  downLimit := cfg.maxMessageLen

@[simp] theorem Session.settings_create (ref : ℕ) (key : String) (cfg : Config) (now : ℕ) :
    (Session.create ref key cfg now).settings = cfg.settings ref := rfl

theorem Session.configured_of_settings {session : Session} {cfg : Config} {ref : ℕ}
    (settled : session.settings = cfg.settings ref) : session.Configured cfg := by
  simp only [Session.settings, Config.settings, Session.Settings.mk.injEq] at settled
  obtain ⟨_, mode, up, down, upLimit, downLimit⟩ := settled
  exact ⟨mode, up, down, upLimit, downLimit⟩

theorem Session.settings_of_identity {session session' : Session}
    (identity : session'.identity = session.identity) : session'.settings = session.settings := by
  have of : ∀ s : Session, s.settings = s.identity.settings := fun _ => rfl
  rw [of session', of session, identity]

theorem Session.settings_of_unnamed {session session' : Session}
    (unnamed : session'.unnamed = session.unnamed) : session'.settings = session.settings := by
  have of : ∀ s : Session, s.settings = s.unnamed.settings := fun _ => rfl
  rw [of session', of session, unnamed]

namespace Downstream

open Mediator

variable {env : Env} {fuel : ℕ}

/-! ## The exchanges of a request -/

/-- The exchanges made since `start`. -/
def newExchanges (start leg : Leg) : List Exchange := leg.exchanges.drop start.exchanges.length

theorem newExchanges_of_grown {start leg : Leg} {new : List Exchange}
    (grown : leg.exchanges = start.exchanges ++ new) : newExchanges start leg = new := by
  rw [newExchanges, grown, List.drop_left]

/-- The state that the handling of a request starts in. -/
def startOf (env : Env) (addr : String × ℕ) (request : ApRequest) (σ : Server) : Leg :=
  noted request ((found env addr request σ).2.leg (found env addr request σ).1)

theorem handled_handled (addr : String × ℕ) (request : ApRequest) (σ : Server) :
    Handled (unlookedAt ((found env addr request σ).2.objects (found env addr request σ).1)
        request.eap)
      (startOf env addr request σ) (handled env fuel addr request σ).1
      (handled env fuel addr request σ).2 :=
  handling_handled request ((found env addr request σ).2.leg (found env addr request σ).1)

theorem startOf_exchanges (addr : String × ℕ) (request : ApRequest) (σ : Server) :
    (startOf env addr request σ).exchanges = σ.exchanges :=
  opened_exchanges σ _

/-- What noting a request on its session comes to. -/
def notes (env : Env) (addr : String × ℕ) (request : ApRequest) (σ : Server) : Except Raised Unit :=
  captured request ((found env addr request σ).2.objects (found env addr request σ).1)

/-- **A request is routed from there, or noting it raises.** -/
theorem handled_cases (env : Env) (fuel : ℕ) (addr : String × ℕ) (request : ApRequest)
    (σ : Server) :
    (notes env addr request σ = .ok () ∧ handled env fuel addr request σ =
      route env fuel request.context request.eap (startOf env addr request σ)) ∨
    ∃ e, notes env addr request σ = .error e ∧
      handled env fuel addr request σ = (.error e, startOf env addr request σ) :=
  handling_cases env fuel request
    ((found env addr request σ).2.leg (found env addr request σ).1)

/-- A handling that returns was routed. -/
theorem handled_of_ok {addr : String × ℕ} {request : ApRequest} {σ : Server} {outcome : Outcome}
    (returned : (handled env fuel addr request σ).1 = .ok outcome) :
    handled env fuel addr request σ =
      route env fuel request.context request.eap (startOf env addr request σ) :=
  handling_of_ok returned

/-- What holds after the routing, and of a request that cannot be noted, holds after the handling. -/
theorem handled_elim {post : Except Raised Outcome × Leg → Prop} {addr : String × ℕ}
    {request : ApRequest} {σ : Server}
    (routed : post (route env fuel request.context request.eap (startOf env addr request σ)))
    (unnoted : ∀ e, post (.error e, startOf env addr request σ)) :
    post (handled env fuel addr request σ) := by
  rcases handled_cases env fuel addr request σ with ⟨_, same⟩ | ⟨e, _, same⟩
  · rw [same]
    exact routed
  · rw [same]
    exact unnoted e

/-- What the routing preserves, the handling preserves. -/
theorem handled_ended {inv : Leg → Prop} {addr : String × ℕ} {request : ApRequest} {σ : Server}
    (routes : Act.Invariant inv (route env fuel request.context request.eap))
    (start : inv (startOf env addr request σ)) : inv (handled env fuel addr request σ).2 :=
  @handled_elim env fuel (fun ended => inv ended.2) addr request σ (routes.ended start)
    fun _ => start

/-- A request that can be noted is routed. -/
theorem handled_of_notes {addr : String × ℕ} {request : ApRequest} {σ : Server}
    (noted : notes env addr request σ = .ok ()) :
    handled env fuel addr request σ =
      route env fuel request.context request.eap (startOf env addr request σ) :=
  @handling_of_captured env fuel request ((found env addr request σ).2.leg (found env addr request σ).1)
    noted

/-- An EAP-TLS packet is handled by the mediator. -/
theorem handled_of_parse {addr : String × ℕ} {request : ApRequest} {packet : EapTlsPacket}
    {σ : Server} (parsed : parse request.eap = .ok packet)
    (noted : notes env addr request σ = .ok ()) :
    handled env fuel addr request σ = handleSupplicantEap env.client fuel request.context
      request.eap (startOf env addr request σ) := by
  rw [handled_of_notes noted, route, if_pos (type_of_parse parsed)]

/-- A session that exists is as it was when a request finds its own. -/
theorem found_objects {σ : Server} {ref : ℕ} (there : ref < σ.created) (addr : String × ℕ)
    (request : ApRequest) : (found env addr request σ).2.objects ref = σ.objects ref := by
  rcases opened_objects σ env (sessionKey request addr request.eap) ref with old | ⟨_, new, _⟩
  · exact old
  · exact absurd new there.ne

/-- A session that exists is only noted when the handling of a request for it starts. -/
theorem startOf_session {σ : Server} {ref : ℕ} (there : ref < σ.created) {addr : String × ℕ}
    {request : ApRequest} (here : (found env addr request σ).1 = ref) :
    (startOf env addr request σ).session = notedSession request (σ.objects ref) := by
  rw [← @found_objects env σ ref there addr request, ← here]
  rfl

/-- The session of a request is left as its handling leaves it, apart from its names. -/
theorem handleRequest_own (addr : String × ℕ) (request : ApRequest) (σ : Server) :
    ((handleRequest env fuel addr request σ).2.objects (found env addr request σ).1).unnamed =
      (handled env fuel addr request σ).2.session.unnamed := by
  rw [handleRequest_unnamed, afterHandling, Server.put_objects_self]

/-- The other sessions are left as they were, apart from their names. -/
theorem handleRequest_other {σ : Server} {ref : ℕ} (there : ref < σ.created) {addr : String × ℕ}
    {request : ApRequest} (other : ref ≠ (found env addr request σ).1) :
    ((handleRequest env fuel addr request σ).2.objects ref).unnamed = (σ.objects ref).unnamed := by
  rw [handleRequest_unnamed, afterHandling, Server.put_objects_of_ne _ _ other,
    found_objects there]

/-- The exchanges that the handling of a request makes. -/
theorem handled_trail (addr : String × ℕ) (request : ApRequest) (σ : Server) :
    Trail (startOf env addr request σ)
      (newExchanges (startOf env addr request σ) (handled env fuel addr request σ).2)
      (handled env fuel addr request σ).2 := by
  obtain ⟨new, trail⟩ := (@handled_handled env fuel addr request σ).justified.trail
  rw [newExchanges_of_grown trail.exchanges]
  exact trail

theorem handleRequest_grows (addr : String × ℕ) (request : ApRequest) (σ : Server) :
    (handleRequest env fuel addr request σ).2.exchanges = σ.exchanges ++
      newExchanges (startOf env addr request σ) (handled env fuel addr request σ).2 := by
  rw [handleRequest_exchanges, (handled_trail addr request σ).exchanges, startOf_exchanges]

/-- The handling keeps the key of its session. -/
theorem handled_key (addr : String × ℕ) (request : ApRequest) (σ : Server) :
    (handled env fuel addr request σ).2.session.key =
      ((found env addr request σ).2.objects (found env addr request σ).1).key := by
  have identity := (@handled_trail env fuel addr request σ).identity
  have same : (handled env fuel addr request σ).2.session.identity.key =
      (startOf env addr request σ).session.identity.key := by rw [identity]
  exact same

/-- The handling of a request leaves the State of its session alone. -/
theorem handled_downstreamState (addr : String × ℕ) (request : ApRequest) (σ : Server) :
    (handled env fuel addr request σ).2.session.downstreamState =
      ((found env addr request σ).2.objects (found env addr request σ).1).downstreamState := by
  have identity := (@handled_trail env fuel addr request σ).identity
  have same : (handled env fuel addr request σ).2.session.identity.downstreamState =
      (startOf env addr request σ).session.identity.downstreamState := by rw [identity]
  exact same

/-! ## What a request does to the table -/

/-- **The table stays in order.** -/
theorem handleRequest_tabled {σ : Server} (tabled : σ.Tabled) (addr : String × ℕ)
    (request : ApRequest) : (handleRequest env fuel addr request σ).2.Tabled := by
  have put : (afterHandling env fuel addr request σ).Tabled :=
    put_tabled (opened_tabled tabled _) (handled_key addr request σ)
  have found : (afterHandling env fuel addr request σ).Found (found env addr request σ).1 :=
    put_found (opened_found tabled _) (handled_key addr request σ)
  rcases result : (handled env fuel addr request σ).1 with e | outcome
  · rw [handleRequest_of_error result]
    exact put
  · rw [handleRequest_of_ok result]
    exact conclude_tabled put found request outcome

/-- **Sessions with a State stay under it.** -/
theorem Named.handleRequest {σ : Server} (named : σ.Named) (addr : String × ℕ)
    (request : ApRequest) : (handleRequest env fuel addr request σ).2.Named := by
  have put : (afterHandling env fuel addr request σ).Named :=
    Named.put (Named.opened named _) (handled_key addr request σ)
      (handled_downstreamState addr request σ)
  rcases result : (handled env fuel addr request σ).1 with e | outcome
  · rw [handleRequest_of_error result]
    exact put
  · rw [handleRequest_of_ok result]
    exact Named.conclude put
      (put_found (opened_found named.tabled _) (handled_key addr request σ)) request outcome

theorem Named.serve {σ σ' : Server} (named : σ.Named) {datagram : Datagram}
    (served : serve env fuel datagram σ = some σ') : σ'.Named := by
  have waiting : (σ.woken datagram).Named := ⟨named.tabled, named.distinct, named.named⟩
  rcases serve_cases served with rfl | ⟨request, _, _, rfl⟩
  · exact waiting
  · exact Named.handleRequest waiting datagram.addr request

/-- **In every reachable server a session with a State stands under it.** -/
theorem named_of_run {datagrams : List Datagram} {σ : Server}
    (ran : run env fuel datagrams (initial env) = some σ) : σ.Named :=
  runAll_keeps (fun _ _ _ named served => Named.serve named served) (named_initial env) ran

/-- A session that a request leaves in the table was there, or is its own new one. -/
theorem handleRequest_live {σ : Server} (tabled : σ.Tabled) {addr : String × ℕ}
    {request : ApRequest} {ref : ℕ} (live : (handleRequest env fuel addr request σ).2.Live ref) :
    σ.Live ref ∨ (ref = σ.created ∧ (found env addr request σ).1 = σ.created) := by
  have put : (afterHandling env fuel addr request σ).Tabled :=
    put_tabled (opened_tabled tabled _) (handled_key addr request σ)
  have found : (afterHandling env fuel addr request σ).Found (found env addr request σ).1 :=
    put_found (opened_found tabled _) (handled_key addr request σ)
  refine @opened_live env σ (sessionKey request addr request.eap) ref ?_
  rcases result : (handled env fuel addr request σ).1 with e | outcome
  · rw [handleRequest_of_error result] at live
    exact live
  · rw [handleRequest_of_ok result] at live
    have before : (afterHandling env fuel addr request σ).Live ref := conclude_live put found live
    exact before

/-- The objects that exist, and the one of the request, exist after it. -/
theorem handleRequest_created {σ : Server} (tabled : σ.Tabled) (addr : String × ℕ)
    (request : ApRequest) :
    σ.created ≤ (handleRequest env fuel addr request σ).2.created ∧
      (found env addr request σ).1 < (handleRequest env fuel addr request σ).2.created := by
  rw [handleRequest_created_eq]
  have there := (opened_tabled tabled _ _
    (mem_of_lookup (@opened_found env σ tabled (sessionKey request addr request.eap)))).1
  refine ⟨?_, there⟩
  rcases opened_cases σ env (sessionKey request addr request.eap) with ⟨_, same⟩ | ⟨_, grown⟩
  · rw [found, same]
  · rw [found, grown]
    exact Nat.le_succ _

/-! ## What every run preserves -/

end Downstream

/-- What holds of the server in every run. -/
structure Server.Regular (env : Env) (σ : Server) : Prop where
  tabled : σ.Tabled
  settled : ∀ ref, (σ.objects ref).settings = env.cfg.settings ref
  known : ∀ exchange ∈ σ.exchanges, exchange.session < σ.created

namespace Downstream

open Mediator

variable {env : Env} {fuel : ℕ}

theorem regular_initial (env : Env) : (initial env).Regular env :=
  ⟨tabled_initial env, fun _ => rfl, by simp [initial]⟩

theorem found_settled {σ : Server} (regular : σ.Regular env) (addr : String × ℕ)
    (request : ApRequest) (ref : ℕ) :
    ((found env addr request σ).2.objects ref).settings = env.cfg.settings ref := by
  rcases opened_objects σ env (sessionKey request addr request.eap) ref with old | ⟨_, _, new⟩
  · exact (congrArg Session.settings old).trans (regular.settled ref)
  · exact congrArg Session.settings new

theorem startOf_settings {σ : Server} (regular : σ.Regular env) (addr : String × ℕ)
    (request : ApRequest) :
    (startOf env addr request σ).session.settings =
      env.cfg.settings (found env addr request σ).1 :=
  found_settled regular addr request _

theorem startOf_mode {σ : Server} (regular : σ.Regular env) (addr : String × ℕ)
    (request : ApRequest) : (startOf env addr request σ).session.mode = env.cfg.sessionMode :=
  congrArg Session.Settings.mode (startOf_settings regular addr request)

/-- The exchanges of a request belong to the session it finds. -/
theorem handled_own {σ : Server} (regular : σ.Regular env) (addr : String × ℕ)
    (request : ApRequest) {exchange : Exchange}
    (member : exchange ∈ newExchanges (startOf env addr request σ)
      (handled env fuel addr request σ).2) :
    exchange.session = (found env addr request σ).1 := by
  have own := (handled_trail addr request σ).own exchange member
  have ident := congrArg Session.Settings.ident (startOf_settings regular addr request)
  exact own.trans ident

/-- **One request keeps the server regular.** -/
theorem Regular.handleRequest {σ : Server} (regular : σ.Regular env) (addr : String × ℕ)
    (request : ApRequest) : (handleRequest env fuel addr request σ).2.Regular env := by
  have put : ∀ ref, ((afterHandling env fuel addr request σ).objects ref).settings =
      env.cfg.settings ref := by
    intro ref
    by_cases here : ref = (found env addr request σ).1
    · rw [here, afterHandling, Server.put_objects_self,
        Session.settings_of_identity (handled_trail addr request σ).identity]
      exact startOf_settings regular addr request
    · rw [afterHandling, Server.put_objects_of_ne _ _ here]
      exact found_settled regular addr request ref
  have created := @handleRequest_created env fuel σ regular.tabled addr request
  refine ⟨handleRequest_tabled regular.tabled addr request, ?_, ?_⟩
  · intro ref
    exact (Session.settings_of_unnamed (handleRequest_unnamed addr request σ ref)).trans (put ref)
  · intro exchange member
    rw [handleRequest_grows] at member
    rcases List.mem_append.mp member with old | young
    · exact (regular.known exchange old).trans_le created.1
    · rw [handled_own regular addr request young]
      exact created.2

theorem Regular.woken {σ : Server} (regular : σ.Regular env) (datagram : Datagram) :
    (σ.woken datagram).Regular env :=
  ⟨regular.tabled, regular.settled, regular.known⟩

/-- **One turn keeps the server regular.** -/
theorem Regular.serve {σ σ' : Server} (regular : σ.Regular env) {datagram : Datagram}
    (served : serve env fuel datagram σ = some σ') : σ'.Regular env := by
  rcases serve_cases served with rfl | ⟨request, _, _, rfl⟩
  · exact Regular.woken regular datagram
  · exact Regular.handleRequest (Regular.woken regular datagram) datagram.addr request

theorem serve_created {σ σ' : Server} (regular : σ.Regular env) {datagram : Datagram}
    (served : serve env fuel datagram σ = some σ') : σ.created ≤ σ'.created := by
  rcases serve_cases served with rfl | ⟨request, _, _, rfl⟩
  · exact le_rfl
  · exact (handleRequest_created (Regular.woken regular datagram).tabled datagram.addr request).1

/-- **Every reachable server is regular.** -/
theorem regular_of_run {datagrams : List Datagram} {σ : Server}
    (ran : run env fuel datagrams (initial env) = some σ) : σ.Regular env :=
  runAll_keeps (fun _ _ _ regular served => Regular.serve regular served) (regular_initial env) ran

/-- A reachable server at the time of a datagram is reachable: pyrad may refuse a datagram. -/
theorem run_woken {datagrams : List Datagram} {σ : Server}
    (ran : run env fuel datagrams (initial env) = some σ) (datagram : Datagram) :
    ∃ datagrams', run env fuel datagrams' (initial env) = some (σ.woken datagram) :=
  ⟨datagrams ++ [{ datagram with decoded := .error (.other "PacketError") }], runAll_concat ran rfl⟩

/-! ## The rule of session objects -/

/-- What a property of a session and of the exchanges so far has to survive, apart from the
handling of a request: a new session has it, exchanges of other sessions do not touch it,
nor do the names of the session, and noting a request preserves it. -/
structure ObjectFrame (env : Env) (P : List Exchange → Session → Prop) : Prop where
  created : ∀ exchanges ref key now, (∀ exchange ∈ exchanges, exchange.session ≠ ref) →
    P exchanges (Session.create ref key env.cfg now)
  others : ∀ exchanges new session, (∀ exchange ∈ new, exchange.session ≠ session.ident) →
    P exchanges session → P (exchanges ++ new) session
  renamed : ∀ exchanges session session', session'.unnamed = session.unnamed →
    P exchanges session → P exchanges session'
  noted : ∀ exchanges request session, P exchanges session →
    P exchanges (notedSession request session)

/-- What makes such a property hold of every session in every run: handling a request
preserves it, too. -/
structure ObjectRule (env : Env) (fuel : ℕ) (P : List Exchange → Session → Prop) : Prop
    extends ObjectFrame env P where
  handled : ∀ context eapBytes leg, leg.session.settings = env.cfg.settings leg.session.ident →
    P leg.exchanges leg.session → P (route env fuel context eapBytes leg).2.exchanges
      (route env fuel context eapBytes leg).2.session

namespace ObjectFrame

variable {P : List Exchange → Session → Prop}

theorem initially (frame : ObjectFrame env P) (ref : ℕ) :
    P (initial env).exchanges ((initial env).objects ref) :=
  frame.created _ _ _ _ (by simp [initial])

theorem found (frame : ObjectFrame env P) {σ : Server} (regular : σ.Regular env)
    (all : ∀ ref, P σ.exchanges (σ.objects ref)) (addr : String × ℕ) (request : ApRequest)
    (ref : ℕ) : P σ.exchanges ((found env addr request σ).2.objects ref) := by
  rcases opened_objects σ env (sessionKey request addr request.eap) ref with
    old | ⟨_, fresh, new⟩
  · rw [Downstream.found, old]
    exact all ref
  · rw [Downstream.found, new]
    apply frame.created
    intro exchange member
    rw [fresh]
    exact (regular.known exchange member).ne

/-- The session of a request has the property when its handling starts. -/
theorem starts (frame : ObjectFrame env P) {σ : Server} (regular : σ.Regular env)
    (all : ∀ ref, P σ.exchanges (σ.objects ref)) (addr : String × ℕ) (request : ApRequest) :
    P (startOf env addr request σ).exchanges (startOf env addr request σ).session := by
  rw [startOf_exchanges]
  exact frame.noted _ request _ (frame.found regular all addr request _)

/-- What follows the handling of a request only renames its session. -/
theorem concluded (frame : ObjectFrame env P) {σ : Server} {addr : String × ℕ}
    {request : ApRequest} {ref : ℕ}
    (put : P (handleRequest env fuel addr request σ).2.exchanges
      ((afterHandling env fuel addr request σ).objects ref)) :
    P (handleRequest env fuel addr request σ).2.exchanges
      ((handleRequest env fuel addr request σ).2.objects ref) :=
  frame.renamed _ _ _ (handleRequest_unnamed addr request σ ref) put

/-- A request preserves the property of the sessions that it does not find. -/
theorem untouched (frame : ObjectFrame env P) {σ : Server} (regular : σ.Regular env)
    (all : ∀ ref, P σ.exchanges (σ.objects ref)) {addr : String × ℕ} {request : ApRequest}
    {ref : ℕ} (other : ref ≠ (Downstream.found env addr request σ).1) :
    P (handleRequest env fuel addr request σ).2.exchanges
      ((handleRequest env fuel addr request σ).2.objects ref) := by
  refine frame.concluded ?_
  rw [handleRequest_grows, afterHandling, Server.put_objects_of_ne _ _ other]
  refine frame.others _ _ _ ?_ (frame.found regular all addr request ref)
  intro exchange member
  have ident : ((Downstream.found env addr request σ).2.objects ref).ident = ref :=
    congrArg Session.Settings.ident (found_settled regular addr request ref)
  rw [handled_own regular addr request member, ident]
  exact Ne.symm other

/-- What holds when the handling ends, holds of the session of the request afterwards. -/
theorem touched (frame : ObjectFrame env P) {σ : Server} {addr : String × ℕ}
    {request : ApRequest} (ended : P (handled env fuel addr request σ).2.exchanges
      (handled env fuel addr request σ).2.session) :
    P (handleRequest env fuel addr request σ).2.exchanges
      ((handleRequest env fuel addr request σ).2.objects (Downstream.found env addr request σ).1) := by
  refine frame.concluded ?_
  rw [handleRequest_exchanges, afterHandling, Server.put_objects_self]
  exact ended

/-- **Where the handling of a request preserves the property, the request preserves it of
every session.** -/
theorem handleRequest (frame : ObjectFrame env P) {σ : Server} (regular : σ.Regular env)
    (all : ∀ ref, P σ.exchanges (σ.objects ref)) {addr : String × ℕ} {request : ApRequest}
    (ended : P (handled env fuel addr request σ).2.exchanges
      (handled env fuel addr request σ).2.session)
    (ref : ℕ) : P (handleRequest env fuel addr request σ).2.exchanges
      ((handleRequest env fuel addr request σ).2.objects ref) := by
  by_cases here : ref = (Downstream.found env addr request σ).1
  · rw [here]
    exact frame.touched ended
  · exact frame.untouched regular all here

end ObjectFrame

namespace ObjectRule

variable {P : List Exchange → Session → Prop}

/-- The session of a request has the property when its handling ends. -/
theorem ends (rule : ObjectRule env fuel P) {σ : Server} (regular : σ.Regular env)
    (all : ∀ ref, P σ.exchanges (σ.objects ref)) (addr : String × ℕ) (request : ApRequest) :
    P (Downstream.handled env fuel addr request σ).2.exchanges
      (Downstream.handled env fuel addr request σ).2.session := by
  have settled := startOf_settings regular addr request
  have ident := congrArg Session.Settings.ident settled
  have starts := rule.starts regular all addr request
  rcases handled_cases env fuel addr request σ with ⟨_, routed⟩ | ⟨e, _, raised⟩
  · rw [routed]
    refine rule.handled request.context request.eap (startOf env addr request σ) ?_ starts
    rw [settled]
    exact congrArg env.cfg.settings ident.symm
  · rw [raised]
    exact starts

/-- **The rule of session objects.** -/
theorem holds (rule : ObjectRule env fuel P) {datagrams : List Datagram} {σ : Server}
    (ran : run env fuel datagrams (initial env) = some σ) (ref : ℕ) :
    P σ.exchanges (σ.objects ref) := by
  have step : ∀ datagram σ σ', (σ.Regular env ∧ ∀ ref, P σ.exchanges (σ.objects ref)) →
      serve env fuel datagram σ = some σ' →
        σ'.Regular env ∧ ∀ ref, P σ'.exchanges (σ'.objects ref) := by
    rintro datagram σ σ' ⟨regular, all⟩ served
    refine ⟨Regular.serve regular served, ?_⟩
    rcases serve_cases served with rfl | ⟨request, _, _, rfl⟩
    · exact all
    · have regular := Regular.woken regular datagram
      exact rule.toObjectFrame.handleRequest regular all
        (rule.ends regular all datagram.addr request)
  exact (runAll_keeps step ⟨regular_initial env, rule.initially⟩ ran).2 ref

end ObjectRule

end Downstream
end EapAccel
