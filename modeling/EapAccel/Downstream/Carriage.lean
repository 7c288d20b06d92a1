import EapAccel.Downstream.Endings
import EapAccel.Downstream.Packing
import EapAccel.Downstream.Placement
import EapAccel.Opacity.ToServer

/-!
# Where everything is carried as it is

What pyrad and the socket do shows in the requests and replies that are made, and in nothing else.
So a datagram is handled as where nothing is changed or refused (`Env.faultless`), if what the
server has made when the datagram has been handled is sent as it is (`serve_faultless`,
`serve_of_faultless`).
-/

set_option autoImplicit false

namespace EapAccel

open Foundations EapTls

/-! ## Two clients -/

/-- Two clients that may differ in what pyrad does. -/
structure UpstreamClient.Alike (client other : UpstreamClient) : Prop where
  framedMtuOverride : other.framedMtuOverride = client.framedMtuOverride
  stripFramedMtu : other.stripFramedMtu = client.stripFramedMtu
  respond : other.respond = client.respond
  elapsed : other.elapsed = client.elapsed

namespace Mediator

variable {client other : UpstreamClient} {α : Type}

/-- Both clients send the requests as they are. -/
def SentAlike (client other : UpstreamClient) (leg : Leg) : Prop :=
  SentAsAsked client leg.exchanges ∧ SentAsAsked other leg.exchanges

theorem SentAlike.earlier {leg leg' : Leg} (grows : leg.exchanges <+: leg'.exchanges)
    (sent : SentAlike client other leg') : SentAlike client other leg :=
  ⟨fun exchange member => sent.1 exchange (grows.subset member),
    fun exchange member => sent.2 exchange (grows.subset member)⟩

/-- What asks the server nothing does not depend on the client. -/
theorem alike_of_keeps {x : Act Raised Leg α} (keeps : Act.Keeps Leg.exchanges x) :
    Act.Simulates (SentAlike client other) Eq x x := by
  constructor
  · intro leg sent
    exact sent.earlier (keeps leg ▸ List.prefix_rfl)
  · rintro leg _ rfl _
    exact ⟨rfl, rfl⟩

/-- **A request that both clients send as it is gets the same reply.** -/
theorem exchange_alike (alike : client.Alike other) (eapPayload : Bytes) (context : AuthContext) :
    Act.Simulates (SentAlike client other) Eq (exchange client eapPayload context)
      (exchange other eapPayload context) := by
  constructor
  · intro leg sent
    apply sent.earlier
    rw [exchange_exchanges]
    exact List.prefix_append _ _
  · rintro leg _ rfl sent
    have last : leg.exchanged client eapPayload context ∈
        (exchange client eapPayload context leg).2.exchanges := by
      rw [exchange_exchanges]
      exact List.mem_append_right _ (List.mem_singleton_self _)
    have asked : client.wire (leg.request client eapPayload context) =
        .ok (leg.request client eapPayload context) := sent.1 _ last
    have asked' : other.wire (leg.request client eapPayload context) =
        .ok (leg.request client eapPayload context) := sent.2 _ last
    have request : leg.request other eapPayload context = leg.request client eapPayload context := by
      simp only [Leg.request, UpstreamClient.accessRequestFor, UpstreamClient.forwardedAttrs,
        alike.framedMtuOverride, alike.stripFramedMtu]
    have outcome : leg.outcome other eapPayload context = leg.outcome client eapPayload context := by
      rw [Leg.outcome, Leg.outcome, request, UpstreamClient.answer_of_wire asked,
        UpstreamClient.answer_of_wire asked', alike.respond]
    have sends : leg.sent other eapPayload context = leg.sent client eapPayload context := by
      have taken : other.countTrip (leg.request client eapPayload context) leg.session =
          client.countTrip (leg.request client eapPayload context) leg.session := by
        rw [UpstreamClient.countTrip, UpstreamClient.takes_of_wire asked',
          UpstreamClient.countTrip, UpstreamClient.takes_of_wire asked]
      have lasts : other.duration leg.exchanges (leg.request client eapPayload context) =
          client.duration leg.exchanges (leg.request client eapPayload context) := by
        rw [UpstreamClient.duration, asked', UpstreamClient.duration, asked, alike.elapsed]
      rw [Leg.sent, Leg.sent, Leg.exchanged, Leg.exchanged, request, outcome, taken, lasts]
    rw [exchange_eq, exchange_eq, outcome, sends]
    exact ⟨rfl, rfl⟩

/-- **The mediator does the same with both clients**, as long as they send its requests as they
are. -/
theorem alike_rule (alike : client.Alike other) :
    TwinRule (SentAlike client other) Eq client other where
  read := fun left right rest =>
    @Act.Simulates.read_bind _ _ _ _ _ _ _ (fun leg => leg.session.timeless)
      (fun leg => leg.session.timeless) _ _ (fun session => _) (fun session => _)
      (fun _ _ same => same ▸ rfl) left right rest
  update := fun _ => alike_of_keeps fun _ => rfl
  exchange := exchange_alike alike
  ingestUp := fun packet => alike_of_keeps fun leg => by rw [ingestUp_eq]
  ingestDown := fun packet => alike_of_keeps fun leg => by rw [ingestDown_eq]
  accept := fun _ => alike_of_keeps fun _ => rfl
  reject := fun _ => alike_of_keeps fun _ => rfl
  finish := fun _ => alike_of_keeps fun _ => rfl

end Mediator

/-! ## Two surroundings -/

/-- Two surroundings that may differ in what pyrad and the socket do. -/
structure Env.Alike (env other : Env) : Prop where
  cfg : other.cfg = env.cfg
  respond : other.respond = env.respond
  elapsed : other.elapsed = env.elapsed
  token : other.token = env.token
  report : other.report = env.report

theorem Env.Alike.client {env other : Env} (alike : env.Alike other) :
    env.client.Alike other.client where
  framedMtuOverride := congrArg (fun cfg : Config => cfg.upstream.framedMtu) alike.cfg
  stripFramedMtu := congrArg (fun cfg : Config => cfg.upstream.stripFramedMtu) alike.cfg
  respond := alike.respond
  elapsed := alike.elapsed

/-- What a server has made is carried as it is: pyrad sends the requests unchanged, and the replies
go out unchanged. -/
structure Server.Carried (env : Env) (σ : Server) : Prop where
  requests : Mediator.SentAsAsked env.client σ.exchanges
  replies : ∀ before built, before ++ [built] <+: σ.replies → env.send before built = .ok built.reply

namespace Downstream

open Mediator

variable {env other : Env} {fuel : ℕ} {σ σ' : Server}

theorem found_alike (alike : env.Alike other) (addr : String × ℕ) (request : ApRequest)
    (σ : Server) : found other addr request σ = found env addr request σ := by
  simp only [found, Server.opened, Server.grow, alike.cfg]

/-- A reply that goes out as it is in both surroundings is followed by the same report. -/
theorem conclude_alike (alike : env.Alike other) {ref : ℕ} {request : ApRequest} {outcome : Outcome}
    (sends : env.send σ.replies (answer env ref request outcome σ).1 =
      .ok (answer env ref request outcome σ).1.reply)
    (sends' : other.send σ.replies (answer env ref request outcome σ).1 =
      .ok (answer env ref request outcome σ).1.reply) :
    conclude other ref request outcome σ = conclude env ref request outcome σ := by
  have answers : answer other ref request outcome σ = answer env ref request outcome σ := by
    simp only [answer, Server.addressed, Server.stamped, Server.mint, alike.token]
  have reports : ∀ τ, reportAndDrop other ref τ = reportAndDrop env ref τ := by
    intro τ
    rw [reportAndDrop_eq, reportAndDrop_eq, alike.report]
  have same : (answer env ref request outcome σ).2.replies = σ.replies :=
    addressed_replies ref outcome.action σ
  rw [conclude_eq, conclude_eq, answers]
  simp only [same, sends, sends', reports]

/-- **A request is handled alike**, if what comes of it is carried as it is. -/
theorem handleRequest_alike (alike : env.Alike other) {addr : String × ℕ} {request : ApRequest}
    (carried : (handleRequest env fuel addr request σ).2.Carried env)
    (carried' : (handleRequest env fuel addr request σ).2.Carried other) :
    handleRequest other fuel addr request σ = handleRequest env fuel addr request σ := by
  have finds := found_alike alike addr request σ
  have sent : SentAlike env.client other.client (handled env fuel addr request σ).2 := by
    rw [SentAlike, ← handleRequest_exchanges]
    exact ⟨carried.requests, carried'.requests⟩
  obtain ⟨returned, left⟩ := (handling_twice (alike_rule alike.client) request).same _ _ rfl sent
  have handles : handled other fuel addr request σ = handled env fuel addr request σ := by
    rw [handled, finds]
    exact Prod.ext returned left.symm
  have after : afterHandling other fuel addr request σ = afterHandling env fuel addr request σ := by
    rw [afterHandling, finds, handles, ← afterHandling]
  rcases result : (handled env fuel addr request σ).1 with e | outcome
  · rw [handleRequest_of_error result, handleRequest_of_error (handles ▸ result), after]
  · have replies := handleRequest_answers result
    have before : (afterHandling env fuel addr request σ).replies = σ.replies := opened_replies σ _
    have made : (afterHandling env fuel addr request σ).replies ++
        [(answer env (found env addr request σ).1 request outcome
          (afterHandling env fuel addr request σ)).1] <+:
        (handleRequest env fuel addr request σ).2.replies := by
      rw [before]
      exact replies ▸ List.prefix_rfl
    rw [handleRequest_of_ok result, handleRequest_of_ok (handles ▸ result), after, finds]
    exact conclude_alike alike (carried.replies _ _ made) (carried'.replies _ _ made)

/-- **So is a datagram.** -/
theorem serve_alike (alike : env.Alike other) {datagram : Datagram}
    (served : serve env fuel datagram σ = some σ') (carried : σ'.Carried env)
    (carried' : σ'.Carried other) : serve other fuel datagram σ = some σ' := by
  have ended : (handleDatagram env fuel datagram (σ.woken datagram)).2 = σ' := by
    rw [serve] at served
    split at served
    · cases served
    · exact Option.some.inj served
  have same : handleDatagram other fuel datagram (σ.woken datagram) =
      handleDatagram env fuel datagram (σ.woken datagram) := by
    rcases decoded : datagram.decoded with e | request
    · rw [handleDatagram, handleDatagram, decoded]
      rfl
    · rw [handleDatagram, decoded, Act.bind_lift_ok, Act.ite_apply] at ended ⊢
      rw [handleDatagram, decoded, Act.bind_lift_ok, Act.ite_apply]
      by_cases admitted : Admitted request
      · rw [if_pos admitted] at ended
        rw [if_pos admitted, if_pos admitted]
        subst ended
        exact handleRequest_alike alike carried carried'
      · rw [if_neg admitted, if_neg admitted]
  rw [← served, serve, serve]
  exact congrArg (fun ended => if ended.1 = .error .outOfFuel then none else some ended.2) same

end Downstream

/-! ## Where nothing is changed or refused -/

/-- The surroundings with a pyrad and a socket that take everything as it is. -/
def Env.faultless (env : Env) : Env :=
  { env with
    encodeOctets := .ok
    requestPacket := fun _ => .ok ()
    replyPacket := fun _ => .ok ()
    transmit := fun _ _ => .ok () }

theorem Env.faultless_lossless (env : Env) : env.faultless.Lossless :=
  ⟨fun _ => rfl, fun _ => rfl, fun _ => rfl⟩

/-- There a server is always carried. -/
theorem Env.Lossless.carried {env : Env} (lossless : env.Lossless)
    (transmits : ∀ before built, env.transmit before built = .ok ()) (σ : Server) :
    σ.Carried env := by
  constructor
  · exact fun exchange _ => lossless.wire_request exchange.request
  · intro before built _
    rw [Env.send, lossless.wire, Except.ok_bind, transmits]
    rfl

namespace Downstream

variable {env : Env} {fuel : ℕ} {σ σ' : Server}

theorem Genuine.faultless (genuine : Genuine env) : Genuine env.faultless where
  answers := genuine.answers
  encodes := fun _ => by simp [Env.faultless]
  packsRequest := fun _ => by simp [Env.faultless]
  packsReply := fun _ => by simp [Env.faultless]
  transmits := fun _ _ => by simp [Env.faultless]
  reports := genuine.reports

/-- What is carried as it is could not have been handled otherwise. -/
theorem serve_faultless {datagram : Datagram} (served : serve env fuel datagram σ = some σ')
    (carried : σ'.Carried env) : serve env.faultless fuel datagram σ = some σ' :=
  @serve_alike env env.faultless fuel σ σ' ⟨rfl, rfl, rfl, rfl, rfl⟩ datagram served carried
    (env.faultless_lossless.carried (fun _ _ => rfl) σ')

theorem serve_of_faultless {datagram : Datagram}
    (served : serve env.faultless fuel datagram σ = some σ') (carried : σ'.Carried env) :
    serve env fuel datagram σ = some σ' :=
  @serve_alike env.faultless env fuel σ σ' ⟨rfl, rfl, rfl, rfl, rfl⟩ datagram served
    (env.faultless_lossless.carried (fun _ _ => rfl) σ') carried

end Downstream
end EapAccel
