import EapAccel.Downstream.Replay
import EapAccel.Mediator.Cost

/-!
# The price of a session

`session.upstream_round_trips` counts the requests to the server whose attributes pyrad took. In
reassemble mode it is the price of what the session asked: one exchange for each chunk of a
record and for each poll, one for each further reply of the server's answers, and one for each
packet of another EAP type (`upstream_cost`). Neither the fragments that the supplicant's records
came in nor those that the server's records left in are in the price.
-/

set_option autoImplicit false

namespace EapAccel

open Foundations EapTls

namespace Downstream

open Mediator

variable {env : Env} {fuel : ℕ} {context : AuthContext}

/-! ## The counter -/

/-- The exchanges that the counter counts: those with a request whose attributes pyrad took. -/
def trips (client : UpstreamClient) (exchanges : List Exchange) : ℕ :=
  exchanges.countP fun exchange => client.takes exchange.request

theorem trips_append (client : UpstreamClient) (exchanges new : List Exchange) :
    trips client (exchanges ++ new) = trips client exchanges + trips client new :=
  List.countP_append

theorem trips_of_taken {client : UpstreamClient} {new : List Exchange} (taken : Taken client new) :
    trips client new = new.length :=
  List.countP_eq_length.mpr taken

/-- The counter of a session is the number of its trips. -/
def Counted (client : UpstreamClient) (exchanges : List Exchange) (session : Session) : Prop :=
  session.upstreamRoundTrips = trips client (ownExchanges exchanges session.ident)

/-- Since `start` the counter has moved once for each trip. -/
def Tallies (client : UpstreamClient) (start leg : Leg) : Prop :=
  ∃ new, leg.exchanges = start.exchanges ++ new ∧
    leg.session.upstreamRoundTrips = start.session.upstreamRoundTrips + trips client new

theorem Tallies.refl (client : UpstreamClient) (leg : Leg) : Tallies client leg leg :=
  ⟨[], (List.append_nil _).symm, rfl⟩

theorem Tallies.of_side {client : UpstreamClient} {start leg leg' : Leg}
    (same : leg'.upstreamSide = leg.upstreamSide) (tallies : Tallies client start leg) :
    Tallies client start leg' := by
  have of : ∀ l : Leg, Tallies client start l ↔ ∃ new, l.upstreamSide.1 = start.exchanges ++ new ∧
      l.upstreamSide.2.upstreamRoundTrips = start.session.upstreamRoundTrips + trips client new :=
    fun _ => Iff.rfl
  rw [of, same, ← of]
  exact tallies

/-- An exchange is counted if it is a trip. -/
theorem exchange_tallies (eapPayload : Bytes) (start : Leg) :
    Act.Invariant (Tallies env.client start) (exchange env.client eapPayload context) := by
  apply Act.Invariant.of_ended
  rintro leg ⟨new, grown, counts⟩
  have sent : Tallies env.client start (leg.sent env.client eapPayload context) := by
    refine ⟨new ++ [leg.exchanged env.client eapPayload context], ?_, ?_⟩
    · rw [← List.append_assoc, ← grown]
      rfl
    · rw [trips_append, ← Nat.add_assoc, ← counts, trips, List.countP_singleton]
      rfl
  rw [exchange_eq]
  rcases leg.outcome env.client eapPayload context with e | reply
  · exact sent
  · obtain ⟨made, grown', counts'⟩ := sent
    exact ⟨made, grown', (learn_upstreamRoundTrips reply _).trans counts'⟩

/-- **So is every exchange of a handling.** -/
theorem route_tallies (eapBytes : Bytes) (start : Leg) :
    Tallies env.client start (route env fuel context eapBytes start).2 :=
  (route_of_exchange (fun _ _ same tallies => Tallies.of_side same tallies)
    (fun payload => exchange_tallies payload start) eapBytes).ended (Tallies.refl _ start)

theorem exchange_counted (eapPayload : Bytes) :
    Act.Invariant (fun leg => Counted env.client leg.exchanges leg.session)
      (exchange env.client eapPayload context) := by
  apply Act.Invariant.of_ended
  intro leg counted
  have own : ownExchanges (leg.exchanges ++ [leg.exchanged env.client eapPayload context])
      leg.session.ident =
        ownExchanges leg.exchanges leg.session.ident ++
          [leg.exchanged env.client eapPayload context] :=
    ownExchanges_concat rfl
  have sent : Counted env.client (leg.sent env.client eapPayload context).exchanges
      (leg.sent env.client eapPayload context).session := by
    show leg.session.upstreamRoundTrips + _ = trips env.client (ownExchanges (leg.exchanges ++
      [leg.exchanged env.client eapPayload context]) leg.session.ident)
    rw [own, trips_append, counted, trips, trips, List.countP_singleton]
    rfl
  rw [exchange_eq]
  rcases leg.outcome env.client eapPayload context with e | reply
  · exact sent
  · have ident := learn_ident reply (leg.sent env.client eapPayload context).session
    have counter := learn_upstreamRoundTrips reply (leg.sent env.client eapPayload context).session
    show (UpstreamClient.learn reply (leg.sent env.client eapPayload context).session
      ).upstreamRoundTrips = trips env.client (ownExchanges _ (UpstreamClient.learn reply _).ident)
    rw [counter, ident]
    exact sent

/-- **The counter of every session in every run.** -/
theorem counted_rule (env : Env) (fuel : ℕ) : ObjectRule env fuel (Counted env.client) where
  created := by
    intro exchanges ref key now others
    show 0 = trips env.client (ownExchanges exchanges ref)
    rw [ownExchanges_eq_nil others]
    rfl
  others := by
    intro exchanges new session others counted
    rw [Counted, ownExchanges_append_others others]
    exact counted
  renamed := by
    intro exchanges session session' same counted
    have of : ∀ s : Session, Counted env.client exchanges s =
      Counted env.client exchanges s.unnamed := fun _ => rfl
    rw [of, same, ← of]
    exact counted
  noted := fun _ _ _ counted => counted
  handled := by
    intro context eapBytes leg _ counted
    have side : ∀ leg leg' : Leg, leg'.upstreamSide = leg.upstreamSide →
        Counted env.client leg.exchanges leg.session →
          Counted env.client leg'.exchanges leg'.session := by
      intro leg leg' same counted
      have of : ∀ l : Leg, Counted env.client l.exchanges l.session =
        Counted env.client l.upstreamSide.1 l.upstreamSide.2 := fun _ => rfl
      rw [of, same, ← of]
      exact counted
    exact (route_of_exchange side exchange_counted eapBytes).ended counted

/-! ## What the handling of a request asks -/

/-- What a request asks of the server. -/
def askOfRequest (env : Env) (fuel : ℕ) (addr : String × ℕ) (request : ApRequest) (σ : Server) :
    Option Ask :=
  let start := startOf env addr request σ
  if request.eap[4]? = some eapTypeTls then
    match parse request.eap with
    | .ok packet =>
        askOf start.session packet (newExchanges start (handled env fuel addr request σ).2)
    | .error _ => none
  else some .passedOn

theorem passthroughNonTls_spends (eapBytes : Bytes) (start : Leg) :
    Act.Triple (fun leg => leg = start) (passthroughNonTls env context eapBytes)
      (fun _ => Made start fun new => Taken env.client new ∧ new.length = 1) (fun _ _ => True) := by
  apply Act.Triple.bind (exchange_replies eapBytes start)
  intro reply
  apply Act.Triple.of_states
  rintro leg ⟨made, _, grown, takes, _, _⟩
  have one : Made start (fun new => Taken env.client new ∧ new.length = 1) leg :=
    ⟨[made], grown, taken_nil.cons takes, rfl⟩
  have rest : ∀ x : Act Raised Leg Outcome, Act.Keeps Leg.exchanges x →
      Act.Triple (fun l => l = leg) x
        (fun _ => Made start fun new => Taken env.client new ∧ new.length = 1) (fun _ _ => True) :=
    fun x keeps => Act.Triple.at_state (made_triple keeps start _) one
  apply Act.Triple.ite
  · exact fun _ => rest _ fun _ => rfl
  · intro _
    apply Act.Triple.ite
    · exact fun _ => rest _ fun _ => rfl
    · exact fun _ => rest _ fun _ => rfl

/-- pyrad took the attributes of all requests of a handling that returns. -/
theorem route_taken {eapBytes : Bytes} {start leg : Leg} {outcome : Outcome}
    (reassembling : start.session.mode = .reassemble)
    (returned : route env fuel context eapBytes start = (.ok outcome, leg)) :
    Made start (Taken env.client) leg := by
  rw [route, Act.ite_apply] at returned
  by_cases tls : eapBytes[4]? = some eapTypeTls
  · rw [if_pos tls] at returned
    obtain ⟨_, _, new, grown, taken, _⟩ := handleSupplicantEap_spends reassembling returned
    exact ⟨new, grown, taken⟩
  · rw [if_neg tls] at returned
    obtain ⟨new, grown, taken, _⟩ :=
      (passthroughNonTls_spends eapBytes start).returned rfl returned
    exact ⟨new, grown, taken⟩

/-- The counter moves once for each exchange of a handling that returns. -/
theorem route_trips {eapBytes : Bytes} {start leg : Leg} {outcome : Outcome}
    (reassembling : start.session.mode = .reassemble)
    (returned : route env fuel context eapBytes start = (.ok outcome, leg)) :
    leg.session.upstreamRoundTrips = start.session.upstreamRoundTrips +
      (leg.exchanges.drop start.exchanges.length).length := by
  obtain ⟨new, grown, taken⟩ := route_taken reassembling returned
  obtain ⟨new', grown', counts⟩ := @route_tallies env fuel context eapBytes start
  rw [returned] at grown' counts
  obtain rfl := List.append_cancel_left (grown.symm.trans grown')
  rw [counts, trips_of_taken taken, grown, List.drop_left]

/-- **What a request that is handled without an exception costs.** -/
theorem handled_spends (reassembling : env.cfg.sessionMode = .reassemble) {σ : Server}
    (regular : σ.Regular env) {addr : String × ℕ} {request : ApRequest} {outcome : Outcome}
    (returned : (handled env fuel addr request σ).1 = .ok outcome) :
    trips env.client
        (newExchanges (startOf env addr request σ) (handled env fuel addr request σ).2) =
      spent (startOf env addr request σ).session (askOfRequest env fuel addr request σ) := by
  have mode : (startOf env addr request σ).session.mode = .reassemble :=
    (startOf_mode regular addr request).trans reassembling
  have handles : handled env fuel addr request σ =
      route env fuel request.context request.eap (startOf env addr request σ) :=
    handled_of_ok returned
  have ends : route env fuel request.context request.eap (startOf env addr request σ) =
      (.ok outcome, (handled env fuel addr request σ).2) := by
    rw [← handles, ← returned]
  rw [route, Act.ite_apply] at ends
  by_cases tls : request.eap[4]? = some eapTypeTls
  · rw [if_pos tls] at ends
    obtain ⟨packet, parsed, new, grown, taken, spends⟩ := handleSupplicantEap_spends mode ends
    simp only [askOfRequest, if_pos tls, parsed]
    rw [newExchanges_of_grown grown, trips_of_taken taken]
    exact spends
  · rw [if_neg tls] at ends
    obtain ⟨new, grown, taken, one⟩ :=
      (passthroughNonTls_spends request.eap (startOf env addr request σ)).returned rfl ends
    simp only [askOfRequest, if_neg tls]
    rw [newExchanges_of_grown grown, trips_of_taken taken]
    exact one

/-! ## What a run asks -/

/-- What a datagram asks for the session `ref`. -/
def askedBy (env : Env) (fuel ref : ℕ) (datagram : Datagram) (σ : Server) : Option Ask :=
  match datagram.decoded with
  | .ok request =>
      if Admitted request ∧ (found env datagram.addr request (σ.woken datagram)).1 = ref then
        askOfRequest env fuel datagram.addr request (σ.woken datagram)
      else none
  | .error _ => none

/-- What a run asks for the session `ref`. -/
def asked (env : Env) (fuel ref : ℕ) : List Datagram → Server → List Ask
  | [], _ => []
  | datagram :: datagrams, σ =>
      (askedBy env fuel ref datagram σ).toList ++
        match serve env fuel datagram σ with
        | some σ' => asked env fuel ref datagrams σ'
        | none => []

/-- The datagram, if it is handled for the session `ref`, is handled without an exception. -/
def ReturnsFor (env : Env) (fuel ref : ℕ) (datagram : Datagram) (σ : Server) : Prop :=
  ∀ request, datagram.decoded = .ok request → Admitted request →
    (found env datagram.addr request (σ.woken datagram)).1 = ref →
      ∃ outcome, (handled env fuel datagram.addr request (σ.woken datagram)).1 = .ok outcome

theorem serve_spends (reassembling : env.cfg.sessionMode = .reassemble) {σ σ' : Server}
    (regular : σ.Regular env) {ref : ℕ} {datagram : Datagram}
    (returns : ReturnsFor env fuel ref datagram σ) (served : serve env fuel datagram σ = some σ') :
    trips env.client (ownExchanges σ'.exchanges ref) =
      trips env.client (ownExchanges σ.exchanges ref) +
      ((askedBy env fuel ref datagram σ).toList.map (Ask.price env.cfg.upstream.fragmentSize)).sum := by
  rcases decoded : datagram.decoded with e | request
  · have nothing : askedBy env fuel ref datagram σ = none := by rw [askedBy, decoded]
    rcases serve_cases served with rfl | ⟨request, other, _, _⟩
    · rw [nothing]
      rfl
    · rw [decoded] at other
      cases other
  by_cases admitted : Admitted request
  · rw [serve_admitted decoded admitted served,
      own_handleRequest (Regular.woken regular datagram) datagram.addr request ref, trips_append]
    congr 1
    by_cases here : (found env datagram.addr request (σ.woken datagram)).1 = ref
    · have asks : askedBy env fuel ref datagram σ =
          askOfRequest env fuel datagram.addr request (σ.woken datagram) := by
        rw [askedBy, decoded]
        exact if_pos ⟨admitted, here⟩
      obtain ⟨outcome, returned⟩ := returns request decoded admitted here
      have woken := Regular.woken regular datagram
      have size := congrArg Session.Settings.upstreamFragmentSize
        (startOf_settings woken datagram.addr request)
      rw [if_pos here.symm, asks, handled_spends reassembling woken returned, spent]
      rw [show (startOf env datagram.addr request (σ.woken datagram)).session.upstreamFragmentSize =
        env.cfg.upstream.fragmentSize from size]
      cases askOfRequest env fuel datagram.addr request (σ.woken datagram) with
      | none => rfl
      | some ask => simp
    · have nothing : askedBy env fuel ref datagram σ = none := by
        rw [askedBy, decoded]
        exact if_neg fun both => here both.2
      rw [if_neg (Ne.symm here), nothing]
      rfl
  · have nothing : askedBy env fuel ref datagram σ = none := by
      rw [askedBy, decoded]
      exact if_neg fun both => admitted both.1
    rcases serve_cases served with rfl | ⟨other, same, passed, _⟩
    · rw [nothing]
      rfl
    · rw [decoded] at same
      cases same
      exact absurd passed admitted

/-- **The trips of a session in a run are the price of what it asked.** -/
theorem run_spends (reassembling : env.cfg.sessionMode = .reassemble) {ref : ℕ}
    {datagrams : List Datagram} : ∀ {σ σ' : Server}, σ.Regular env →
      Along (serve env fuel) (ReturnsFor env fuel ref) datagrams σ →
      run env fuel datagrams σ = some σ' →
        trips env.client (ownExchanges σ'.exchanges ref) =
          trips env.client (ownExchanges σ.exchanges ref) +
          ((asked env fuel ref datagrams σ).map (Ask.price env.cfg.upstream.fragmentSize)).sum := by
  induction datagrams with
  | nil =>
      intro σ σ' _ _ ran
      cases ran
      rfl
  | cons datagram datagrams ih =>
      intro σ σ' regular along ran
      obtain ⟨mid, served, rest⟩ := Option.bind_eq_some_iff.mp ran
      have first := serve_spends reassembling regular along.1 served
      have later := ih (Regular.serve regular served) (along.2 mid served) rest
      rw [later, first, asked, served, List.map_append, List.sum_append, Nat.add_assoc]

/-! ## The exact cost -/

/-- What the handling of a packet costs in reassemble mode, when these exchanges were made. -/
structure Costs (session : Session) (packet : EapTlsPacket) (new : List Exchange) : Prop where
  /-- A fragment that completes no record. -/
  fragment : packet.isAck = false → (Reassembler.ingest packet session.upReasm).1 = .ok none →
    new = []
  /-- An ACK that releases a queued fragment. -/
  release : packet.isAck = true → session.downOutbox ≠ [] → new = []
  /-- An ACK that is answered with the stored verdict. -/
  stored : packet.isAck = true → session.result.isSome = true → new = []
  /-- A fragment that completes a record: its chunks, and the rest of the answer to the last. -/
  record : ∀ record, packet.isAck = false →
    (Reassembler.ingest packet session.upReasm).1 = .ok (some record) →
      new.length = chunkCount session.upstreamFragmentSize record.length +
        (answerLength
          (outcomes (new.drop (chunkCount session.upstreamFragmentSize record.length - 1))) - 1)
  /-- An ACK that asks for more: the poll, and the rest of the answer to it. -/
  poll : packet.isAck = true → session.downOutbox = [] → session.result = none →
    new.length = 1 + (answerLength (outcomes new) - 1)

theorem costs_of_spent {session : Session} {packet : EapTlsPacket} {new : List Exchange}
    (spends : new.length = spent session (askOf session packet new)) :
    Costs session packet new := by
  have nothing : askOf session packet new = none → new = [] := by
    intro none
    rw [none] at spends
    exact List.eq_nil_of_length_eq_zero spends
  have quiet : packet.isAck = true →
      (session.downOutbox ≠ [] ∨ session.result.isSome = true) → new = [] := by
    intro ack answered
    apply nothing
    rw [askOf, if_pos ack, if_pos answered]
  constructor
  · intro data more
    apply nothing
    rw [askOf, data, more]
    rfl
  · exact fun ack queued => quiet ack (.inl queued)
  · exact fun ack result => quiet ack (.inr result)
  · intro record data complete
    rw [askOf, data, complete] at spends
    exact spends
  · intro ack released waiting
    rw [askOf, if_pos ack, if_neg (by simp [released, waiting])] at spends
    exact spends

/-- **The exact cost, in reassemble mode.** A packet of the supplicant that is handled without
an exception costs what `Costs` has, and in every run in which the requests of a session are
handled without an exception its counter is the price of what it asked. -/
theorem upstream_cost (env : Env) (fuel : ℕ) (reassembling : env.cfg.sessionMode = .reassemble) :
    (∀ context eapBytes outcome leg leg', leg.session.mode = .reassemble →
      handleSupplicantEap env.client fuel context eapBytes leg = (.ok outcome, leg') →
        ∃ packet new, parse eapBytes = .ok packet ∧ leg'.exchanges = leg.exchanges ++ new ∧
          Costs leg.session packet new) ∧
    ∀ datagrams σ ref, run env fuel datagrams (initial env) = some σ →
      Along (serve env fuel) (ReturnsFor env fuel ref) datagrams (initial env) →
        (σ.objects ref).upstreamRoundTrips =
          ((asked env fuel ref datagrams (initial env)).map
            (Ask.price env.cfg.upstream.fragmentSize)).sum := by
  constructor
  · intro context eapBytes outcome leg leg' mode returned
    obtain ⟨packet, parsed, new, grown, _, spends⟩ := handleSupplicantEap_spends mode returned
    exact ⟨packet, new, parsed, grown, costs_of_spent spends⟩
  · intro datagrams σ ref ran along
    have counted : (σ.objects ref).upstreamRoundTrips =
        trips env.client (ownExchanges σ.exchanges (σ.objects ref).ident) :=
      (counted_rule env fuel).holds ran ref
    have ident : (σ.objects ref).ident = ref :=
      congrArg Session.Settings.ident ((regular_of_run ran).settled ref)
    have spends := run_spends reassembling (regular_initial env) along ran
    rw [counted, ident, spends]
    exact Nat.zero_add _

/-- An identity, and a record of three octets that is answered in two fragments. -/
theorem upstream_cost_sample :
    ∃ σ, run twoFragments 1 [identityDatagram, datagramOf recordRequest] (initial twoFragments) =
        some σ ∧
      asked twoFragments 1 0 [identityDatagram, datagramOf recordRequest] (initial twoFragments) =
        [.passedOn, .record 3 2] ∧
      (σ.objects 0).upstreamRoundTrips = 3 := by
  have asks : asked twoFragments 1 0 [identityDatagram, datagramOf recordRequest]
      (initial twoFragments) = [.passedOn, .record 3 2] := rfl
  refine ⟨_, rfl, asks, ?_⟩
  have cost := (upstream_cost twoFragments 1 rfl).2 [identityDatagram, datagramOf recordRequest]
    _ 0 rfl ⟨?_, fun mid served => ⟨?_, fun _ _ => trivial⟩⟩
  · rw [cost, asks]
    rfl
  · rintro request ⟨⟩ _ _
    exact ⟨_, rfl⟩
  · cases served
    rintro request ⟨⟩ _ _
    exact ⟨_, rfl⟩

end Downstream
end EapAccel
