import EapAccel.Downstream.Reachable

/-!
# Where requests and replies come from

Every reply of a run was sent while some request was handled on a reachable server
(`origin_of_sent`), so what is known of one handling from a reachable server is known of
every reply. The requests to the server that one handling makes all have the same envelope:
the authenticator and the attributes of the session, and the names in the AP's request
(`handled_enveloped`).
-/

set_option autoImplicit false

namespace EapAccel

open Foundations EapTls

/-! ## The exchanges of one session -/

/-- The exchanges of one session. -/
def ownExchanges (exchanges : List Exchange) (ident : ℕ) : List Exchange :=
  exchanges.filter (·.session = ident)

theorem ownExchanges_concat {exchanges : List Exchange} {exchange : Exchange} {ident : ℕ}
    (own : exchange.session = ident) :
    ownExchanges (exchanges ++ [exchange]) ident = ownExchanges exchanges ident ++ [exchange] := by
  simp [ownExchanges, own]

theorem ownExchanges_eq_nil {exchanges : List Exchange} {ident : ℕ}
    (others : ∀ exchange ∈ exchanges, exchange.session ≠ ident) :
    ownExchanges exchanges ident = [] := by
  simpa [ownExchanges] using others

theorem ownExchanges_append_others {exchanges new : List Exchange} {ident : ℕ}
    (others : ∀ exchange ∈ new, exchange.session ≠ ident) :
    ownExchanges (exchanges ++ new) ident = ownExchanges exchanges ident := by
  rw [ownExchanges, List.filter_append]
  exact (congrArg _ (ownExchanges_eq_nil others)).trans (List.append_nil _)

/-! ## Envelopes -/

/-- A request to the server without what differs between the requests of one handling. -/
def AccessRequest.envelope (request : AccessRequest) : AccessRequest :=
  { request with state := none, eapMessage := [] }

/-- The envelope of the requests for a session, on behalf of an AP's request. -/
def UpstreamClient.envelope (client : UpstreamClient) (session : Session) (context : AuthContext) :
    AccessRequest :=
  (client.accessRequestFor session [] context none).envelope

/-- Since `start`, every exchange had the envelope of its session. -/
def Enveloped (client : UpstreamClient) (context : AuthContext) (start leg : Leg) : Prop :=
  leg.session.identity = start.session.identity ∧
    ∃ new, leg.exchanges = start.exchanges ++ new ∧
      ∀ exchange ∈ new, exchange.request.envelope = client.envelope start.session context

namespace Mediator

variable {client : UpstreamClient} {context : AuthContext}

/-- The envelope depends on what a handling does not change. -/
theorem envelope_of_identity {session session' : Session}
    (identity : session'.identity = session.identity) :
    client.envelope session' context = client.envelope session context := by
  have of : ∀ s : Session, client.envelope s context = client.envelope s.identity context :=
    fun _ => rfl
  rw [of session', of session, identity]

theorem enveloped_refl (start : Leg) : Enveloped client context start start :=
  ⟨rfl, [], (List.append_nil _).symm, by simp⟩

theorem enveloped_side (start leg leg' : Leg) (same : leg'.upstreamSide = leg.upstreamSide)
    (enveloped : Enveloped client context start leg) : Enveloped client context start leg' := by
  simp only [Leg.upstreamSide, Prod.mk.injEq] at same
  have of : ∀ s : Session, s.identity = s.upstreamSide.identity := fun _ => rfl
  refine ⟨?_, same.1 ▸ enveloped.2⟩
  rw [of leg'.session, same.2, ← of leg.session]
  exact enveloped.1

/-- **One more exchange has the envelope, too.** -/
theorem exchange_enveloped (start : Leg) (eapPayload : Bytes) :
    Act.Invariant (Enveloped client context start) (exchange client eapPayload context) := by
  refine Act.Invariant.of_ended fun leg ⟨identity, new, grown, enveloped⟩ => ?_
  have kept : (exchange client eapPayload context leg).2.session.identity =
      leg.session.identity := by
    rw [exchange_eq]
    rcases leg.outcome client eapPayload context with e | reply
    · rfl
    · exact learn_identity reply _
  refine ⟨kept.trans identity, new ++ [leg.exchanged client eapPayload context], ?_, ?_⟩
  · rw [exchange_exchanges, grown, List.append_assoc]
  · intro exchange member
    rcases List.mem_append.mp member with early | last
    · exact enveloped exchange early
    · rw [List.mem_singleton.mp last]
      exact envelope_of_identity identity

end Mediator

namespace Downstream

open Mediator

variable {env : Env} {fuel : ℕ} {context : AuthContext}

/-- The exchanges of a session after a request. -/
theorem own_handleRequest {σ : Server} (regular : σ.Regular env) (addr : String × ℕ)
    (request : ApRequest) (ref : ℕ) :
    ownExchanges (handleRequest env fuel addr request σ).2.exchanges ref =
      ownExchanges σ.exchanges ref ++
        if ref = (found env addr request σ).1 then
          newExchanges (startOf env addr request σ) (handled env fuel addr request σ).2
        else [] := by
  have own := fun exchange => @handled_own env fuel σ regular addr request exchange
  rw [handleRequest_grows, ownExchanges, List.filter_append]
  congr 1
  by_cases here : ref = (found env addr request σ).1
  · rw [if_pos here, List.filter_eq_self]
    intro exchange member
    simpa using (own exchange member).trans here.symm
  · rw [if_neg here, List.filter_eq_nil_iff]
    intro exchange member
    simpa [own exchange member] using Ne.symm here

/-! ## What a route keeps -/

/-- What its exchange and the end of the session preserve, is preserved for a packet that is
not EAP-TLS. -/
theorem passthroughNonTls_keeps {inv : Leg → Prop} {eapBytes : Bytes}
    (finish : ∀ verdict, Act.Invariant inv
      (Act.modify fun leg => { leg with session := leg.session.finish verdict leg.clock } :
        Act Raised Leg Unit))
    (send : Act.Invariant inv (exchange env.client eapBytes context)) :
    Act.Invariant inv (passthroughNonTls env context eapBytes) := by
  have finishes : ∀ (verdict : Verdict) (outcome : Outcome), Act.Invariant inv
      ((do
        Act.modify fun leg => { leg with session := leg.session.finish verdict leg.clock }
        return outcome) : Act Raised Leg Outcome) :=
    fun verdict _ => Act.Invariant.bind (finish verdict) fun _ => Act.Invariant.pure _
  refine Act.Invariant.bind send fun reply => ?_
  exact Act.Invariant.ite (finishes _ _) (Act.Invariant.ite (finishes _ _) (Act.Invariant.pure _))

/-- **What exchanges preserve, and nothing else touches, every route preserves.** -/
theorem route_of_exchange {inv : Leg → Prop}
    (side : ∀ leg leg' : Leg, leg'.upstreamSide = leg.upstreamSide → inv leg → inv leg')
    (send : ∀ eapPayload, Act.Invariant inv (exchange env.client eapPayload context))
    (eapBytes : Bytes) : Act.Invariant inv (route env fuel context eapBytes) := by
  rw [route]
  exact Act.Invariant.ite (handleSupplicantEap_of_exchange side send eapBytes)
    (passthroughNonTls_keeps (fun _ leg => side leg _ rfl) (send eapBytes))

/-- **The requests of one handling have one envelope.** -/
theorem handled_enveloped (addr : String × ℕ) (request : ApRequest) (σ : Server) :
    Enveloped env.client request.context (startOf env addr request σ)
      (handled env fuel addr request σ).2 :=
  handled_ended (route_of_exchange (enveloped_side _) (exchange_enveloped _) request.eap)
    (enveloped_refl _)

/-! ## Where replies come from -/

/-- The reply was sent for the outcome of a request, handled on a reachable server. -/
structure Origin (env : Env) (fuel : ℕ) (σ : Server) (sent : BuiltReply) where
  past : List Datagram
  start : Server
  reached : run env fuel past (initial env) = some start
  addr : String × ℕ
  request : ApRequest
  outcome : Outcome
  returned : (handled env fuel addr request start).1 = .ok outcome
  sent : sent = (answer env (found env addr request start).1 request outcome
    (afterHandling env fuel addr request start)).1
  grows : (handled env fuel addr request start).2.exchanges <+: σ.exchanges

/-- Later exchanges do not change where a reply comes from. -/
def Origin.later {σ σ' : Server} {sent : BuiltReply} (origin : Origin env fuel σ sent)
    (grows : σ.exchanges <+: σ'.exchanges) : Origin env fuel σ' sent :=
  { origin with grows := origin.grows.trans grows }

theorem serve_grows {datagram : Datagram} {σ σ' : Server}
    (served : serve env fuel datagram σ = some σ') : σ.exchanges <+: σ'.exchanges := by
  rcases serve_cases served with rfl | ⟨request, _, _, rfl⟩
  · exact List.prefix_rfl
  · exact ⟨_, (@handleRequest_grows env fuel datagram.addr request (σ.woken datagram)).symm⟩

theorem run_grows {datagrams : List Datagram} : ∀ {σ σ' : Server},
    run env fuel datagrams σ = some σ' → σ.exchanges <+: σ'.exchanges := by
  induction datagrams with
  | nil =>
      rintro σ σ' ⟨⟩
      exact List.prefix_rfl
  | cons datagram datagrams ih =>
      intro σ σ' ran
      obtain ⟨mid, served, ran⟩ := Option.bind_eq_some_iff.mp ran
      exact (serve_grows served).trans (ih ran)

theorem serve_replies {datagram : Datagram} {σ σ' : Server}
    (served : serve env fuel datagram σ = some σ') : σ.replies <+: σ'.replies := by
  rcases serve_cases served with rfl | ⟨request, _, _, rfl⟩
  · exact List.prefix_rfl
  · rcases result : (handled env fuel datagram.addr request (σ.woken datagram)).1 with e | outcome
    · exact handleRequest_silent result ▸ List.prefix_rfl
    · exact handleRequest_answers result ▸ List.prefix_append _ _

/-- **Every reply has an origin.** -/
theorem origin_of_sent {datagrams : List Datagram} {σ : Server}
    (ran : run env fuel datagrams (initial env) = some σ) {sent : BuiltReply}
    (member : sent ∈ σ.replies) : Nonempty (Origin env fuel σ sent) := by
  have step : ∀ datagram σ σ', ((∃ past, run env fuel past (initial env) = some σ) ∧
      ∀ sent ∈ σ.replies, Nonempty (Origin env fuel σ sent)) →
        serve env fuel datagram σ = some σ' →
          (∃ past, run env fuel past (initial env) = some σ') ∧
            ∀ sent ∈ σ'.replies, Nonempty (Origin env fuel σ' sent) := by
    rintro datagram σ σ' ⟨⟨past, reached⟩, origins⟩ served
    refine ⟨⟨past ++ [datagram], runAll_concat reached served⟩, fun sent member => ?_⟩
    · have old : sent ∈ σ.replies → Nonempty (Origin env fuel σ' sent) :=
        fun there => (origins sent there).map fun origin => origin.later (serve_grows served)
      rcases serve_cases served with rfl | ⟨request, _, _, rfl⟩
      · exact old member
      rcases result : (handled env fuel datagram.addr request (σ.woken datagram)).1 with e | outcome
      · rw [handleRequest_silent result] at member
        exact old member
      · rw [handleRequest_answers result] at member
        rcases List.mem_append.mp member with early | last
        · exact old early
        · obtain ⟨past', reached'⟩ := run_woken reached datagram
          exact ⟨{
            past := past'
            start := σ.woken datagram
            reached := reached'
            addr := datagram.addr
            request := request
            outcome := outcome
            returned := result
            sent := List.mem_singleton.mp last
            grows := ⟨[], by rw [List.append_nil, handleRequest_exchanges]⟩ }⟩
  exact (runAll_keeps step ⟨⟨[], rfl⟩, by simp [initial]⟩ ran).2 sent member

/-! ## What comes of every request -/

/-- Every exchange came back with what the client returns for it after the exchanges before it. -/
def AsReturned (client : UpstreamClient) (exchanges : List Exchange) : Prop :=
  ∀ before exchange after, exchanges = before ++ exchange :: after →
    exchange.outcome = client.answer before exchange.request

theorem AsReturned.concat {client : UpstreamClient} {exchanges : List Exchange} {exchange : Exchange}
    (returned : AsReturned client exchanges)
    (last : exchange.outcome = client.answer exchanges exchange.request) :
    AsReturned client (exchanges ++ [exchange]) := by
  intro before other after split
  rcases List.eq_nil_or_concat after with rfl | ⟨after, end_, rfl⟩
  · obtain ⟨rfl, same⟩ := List.append_inj' split rfl
    cases same
    exact last
  · rw [List.concat_eq_append, ← List.cons_append, ← List.append_assoc] at split
    exact returned before other after (List.append_inj' split rfl).1

/-- **Every exchange of a run came back with what the client returns for it.** -/
theorem asReturned_of_run {datagrams : List Datagram} {σ : Server}
    (ran : run env fuel datagrams (initial env) = some σ) : AsReturned env.client σ.exchanges := by
  have side : ∀ leg leg' : Leg, leg'.upstreamSide = leg.upstreamSide →
      AsReturned env.client leg.exchanges → AsReturned env.client leg'.exchanges := by
    intro leg leg' same returned
    have exchanges : leg'.exchanges = leg.exchanges := congrArg Prod.fst same
    rw [exchanges]
    exact returned
  have send : ∀ context eapPayload, Act.Invariant (fun leg => AsReturned env.client leg.exchanges)
      (exchange env.client eapPayload context) := by
    intro context eapPayload
    apply Act.Invariant.of_ended
    intro leg returned
    rw [exchange_exchanges]
    exact returned.concat rfl
  have step : ∀ datagram σ σ', AsReturned env.client σ.exchanges →
      serve env fuel datagram σ = some σ' → AsReturned env.client σ'.exchanges := by
    intro datagram σ σ' returned served
    rcases serve_cases served with rfl | ⟨request, _, _, rfl⟩
    · exact returned
    · have start : AsReturned env.client
          (startOf env datagram.addr request (σ.woken datagram)).exchanges := by
        rw [startOf_exchanges]
        exact returned
      rw [handleRequest_exchanges]
      exact handled_ended (route_of_exchange side (send request.context) request.eap) start
  apply runAll_keeps step ?_ ran
  intro before exchange after split
  cases before <;> cases split

end Downstream
end EapAccel
