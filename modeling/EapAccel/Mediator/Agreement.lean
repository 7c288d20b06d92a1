import EapAccel.Mediator.Twins

/-!
# Handling a packet in two surroundings

A session is handled with an upstream leg that other sessions have used before it, and the
same session with an upstream leg of its own. Where the server answers the session's
requests as it would have answered them alone (`Converses`), both handlings return or
raise the same, send the same requests, and leave the same session, but for the object it
is and its times (`agrees_rule`).
-/

set_option autoImplicit false

namespace EapAccel

open Foundations EapTls

/-! ## Conversations -/

/-- A request to the server and what came back. -/
abbrev Said : Type := AccessRequest × Except Raised RadiusReply

/-- What an exchange says, without the session it was for. -/
def Exchange.said (exchange : Exchange) : Said := (exchange.request, exchange.outcome)

/-- After the requests so far, everything is answered by `answer`: a function of the
requests of the conversation alone. -/
def Converses (answer : List AccessRequest → AccessRequest → Except Raised RadiusReply) :
    List AccessRequest → List Said → Prop
  | _, [] => True
  | earlier, one :: rest =>
      one.2 = answer earlier one.1 ∧ Converses answer (earlier ++ [one.1]) rest

/-- What comes of a request when the server answers what pyrad sends for it. -/
def UpstreamClient.through (client : UpstreamClient)
    (answer : List AccessRequest → AccessRequest → Except Raised RadiusReply)
    (earlier : List AccessRequest) (request : AccessRequest) : Except Raised RadiusReply :=
  client.wire request >>= answer earlier

variable {answer : List AccessRequest → AccessRequest → Except Raised RadiusReply}

theorem converses_append {earlier : List AccessRequest} {first rest : List Said} :
    Converses answer earlier (first ++ rest) ↔
      Converses answer earlier first ∧ Converses answer (earlier ++ first.map Prod.fst) rest := by
  induction first generalizing earlier with
  | nil => simp [Converses]
  | cons one first ih => simp [Converses, ih, and_assoc]

/-- What was said since the first `n` exchanges. -/
def Leg.saidSince (n : ℕ) (leg : Leg) : List Said := (leg.exchanges.drop n).map Exchange.said

/-- What was said before, and what has been said since then, is one conversation. -/
def Leg.Told (answer : List AccessRequest → AccessRequest → Except Raised RadiusReply)
    (base : List Said) (n : ℕ) (leg : Leg) : Prop :=
  Converses answer [] (base ++ leg.saidSince n)

/-- Two legs with one session: in the first one it shares the exchanges with others, in the
second one they are its own. -/
structure Leg.Twin (base : List Said) (n : ℕ) (leg own : Leg) : Prop where
  session : own.session.timeless = leg.session.timeless
  said : own.exchanges.map Exchange.said = base ++ leg.saidSince n
  since : n ≤ leg.exchanges.length

/-- The client of a conversation alone, where `client` serves others, too. -/
structure UpstreamClient.Alone
    (answer : List AccessRequest → AccessRequest → Except Raised RadiusReply)
    (client own : UpstreamClient) : Prop where
  override : own.framedMtuOverride = client.framedMtuOverride
  strip : own.stripFramedMtu = client.stripFramedMtu
  encode : ∀ request, own.encode request = client.encode request
  answers : ∀ before request,
    own.answer before request = answer (before.map Exchange.request) request

namespace Mediator

variable {base : List Said} {n : ℕ} {client own : UpstreamClient} {α β : Type}

/-- From twin legs both handlings do the same. -/
abbrev Agrees (answer : List AccessRequest → AccessRequest → Except Raised RadiusReply)
    (base : List Said) (n : ℕ) (x y : Act Raised Leg α) : Prop :=
  Act.Simulates (Leg.Told answer base n) (Leg.Twin base n) x y

/-! ## The rules -/

/-- What is written to a session, and does not look at its times. -/
theorem agrees_modify {f : Leg → Leg} {g : Session → Session}
    (session : ∀ leg, (f leg).session.timeless = g leg.session.timeless)
    (exchanges : ∀ leg, (f leg).exchanges = leg.exchanges) :
    Agrees answer base n (Act.modify f) (Act.modify f) := by
  have saidSince : ∀ leg, (f leg).saidSince n = leg.saidSince n := by
    intro leg
    rw [Leg.saidSince, Leg.saidSince, exchanges]
  refine Act.Simulates.modify ?_ ?_
  · intro leg told
    rwa [Leg.Told, saidSince] at told
  · rintro leg leg' ⟨same, said, since⟩
    refine ⟨?_, ?_, ?_⟩
    · rw [session, session, same]
    · rw [exchanges, saidSince, said]
    · rwa [exchanges]

theorem agrees_update {f : Session → Session}
    (session : ∀ s, (f s).timeless = (f s.timeless).timeless) :
    Agrees answer base n (updateSession f) (updateSession f) :=
  @agrees_modify answer base n (fun leg => { leg with session := f leg.session })
    (fun s => (f s).timeless) (fun leg => session leg.session) fun _ => rfl

/-- What is read of a session, apart from its times. -/
theorem agrees_read {f g : Leg → Act Raised Leg α}
    (left : ∀ leg, f leg = f ⟨leg.session.timeless, [], 0⟩)
    (right : ∀ leg, g leg = g ⟨leg.session.timeless, [], 0⟩)
    (rest : ∀ session, Agrees answer base n (f ⟨session, [], 0⟩) (g ⟨session, [], 0⟩)) :
    Agrees answer base n (Act.read >>= f) (Act.read >>= g) :=
  Act.Simulates.read_bind (fun _ _ twin => twin.session) left right rest

/-! ## The upstream leg -/

/-- Twin legs send the same request. -/
theorem request_agrees (alone : UpstreamClient.Alone answer client own) {leg leg' : Leg}
    (same : leg'.session.timeless = leg.session.timeless) (eapPayload : Bytes)
    (context : AuthContext) :
    leg'.request own eapPayload context = leg.request client eapPayload context := by
  have settings : ∀ session, own.accessRequestFor session = client.accessRequestFor session := by
    intro session
    funext eapPayload context state
    simp only [UpstreamClient.accessRequestFor, UpstreamClient.forwardedAttrs, alone.override,
      alone.strip]
  have timeless : ∀ leg : Leg, leg.request client eapPayload context =
      Leg.request client ⟨leg.session.timeless, [], 0⟩ eapPayload context := fun _ => rfl
  calc leg'.request own eapPayload context
      = leg'.request client eapPayload context := by rw [Leg.request, settings]; rfl
    _ = leg.request client eapPayload context := by rw [timeless leg', timeless leg, same]

/-- The counter moves for both or for neither. -/
theorem countTrip_agrees (alone : UpstreamClient.Alone answer client own)
    {session session' : Session} (same : session'.timeless = session.timeless)
    (request : AccessRequest) :
    (own.countTrip request session').timeless = (client.countTrip request session).timeless := by
  have taken : own.countTrip request session' = client.countTrip request session' := by
    rw [UpstreamClient.countTrip, UpstreamClient.countTrip, UpstreamClient.takes,
      UpstreamClient.takes, alone.encode]
  rw [taken]
  exact congrArg (client.countTrip request) same

theorem learn_timeless (reply : RadiusReply) (session : Session) :
    (UpstreamClient.learn reply session).timeless =
      (UpstreamClient.learn reply session.timeless).timeless := by
  obtain ⟨learnt, sendKey, recvKey, writes⟩ := learn_writes reply
  rw [writes, writes]
  rfl

theorem saidSince_concat (leg : Leg) (exchange : Exchange) (since : n ≤ leg.exchanges.length) :
    ((leg.exchanges ++ [exchange]).drop n).map Exchange.said =
      leg.saidSince n ++ [exchange.said] := by
  rw [List.drop_append_of_le_length since, List.map_append]
  rfl

/-- What is one conversation with the last exchange is one without it. -/
theorem told_of_exchange {eapPayload : Bytes} {context : AuthContext} {leg : Leg}
    (told : (exchange client eapPayload context leg).2.Told answer base n) :
    leg.Told answer base n := by
  rw [Leg.Told, Leg.saidSince, exchange_exchanges, List.drop_append, List.map_append,
    ← List.append_assoc] at told
  exact (converses_append.mp told).1

/-- **An exchange.** -/
theorem exchange_agrees (alone : UpstreamClient.Alone answer client own) (eapPayload : Bytes)
    (context : AuthContext) :
    Agrees answer base n (exchange client eapPayload context)
      (exchange own eapPayload context) := by
  constructor
  · exact fun leg => told_of_exchange
  · rintro leg leg' twin told
    have request := request_agrees alone twin.session eapPayload context
    have said : (exchange client eapPayload context leg).2.saidSince n =
        leg.saidSince n ++ [(leg.exchanged client eapPayload context).said] := by
      rw [Leg.saidSince, exchange_exchanges]
      exact saidSince_concat leg _ twin.since
    have outcome : leg'.outcome own eapPayload context = leg.outcome client eapPayload context := by
      rw [Leg.Told, said, ← List.append_assoc] at told
      have last := (converses_append.mp told).2.1
      rw [Leg.outcome, alone.answers, request]
      refine Eq.trans ?_ last.symm
      rw [← twin.said, List.map_map, List.nil_append]
      rfl
    have sends : (leg.sent client eapPayload context).saidSince n =
        leg.saidSince n ++ [(leg.exchanged client eapPayload context).said] :=
      saidSince_concat leg _ twin.since
    have exchanged : (leg'.exchanged own eapPayload context).said =
        (leg.exchanged client eapPayload context).said := by
      simp only [Leg.exchanged, Exchange.said, request, outcome]
    have sent : Leg.Twin base n (leg.sent client eapPayload context)
        (leg'.sent own eapPayload context) := by
      refine ⟨?_, ?_, ?_⟩
      · rw [Leg.sent, Leg.sent, request]
        exact countTrip_agrees alone twin.session _
      · rw [Leg.sent_exchanges, List.map_append, List.map_singleton, twin.said, exchanged,
          sends, List.append_assoc]
      · rw [Leg.sent_exchanges, List.length_append]
        exact Nat.le_add_right_of_le twin.since
    rcases answered : leg.outcome client eapPayload context with e | reply
    · rw [exchange_error answered, exchange_error (outcome.trans answered)]
      exact ⟨rfl, sent⟩
    · rw [exchange_ok answered, exchange_ok (outcome.trans answered)]
      refine ⟨rfl, ?_, sent.said, sent.since⟩
      have learnt := congrArg (fun s => (UpstreamClient.learn reply s).timeless) sent.session
      simp only [← learn_timeless] at learnt
      exact congrArg (fun s : Session => { s with radiusState := reply.state }) learnt

theorem finishAccept_agrees (eap : Option Bytes) :
    Agrees answer base n (finishAccept eap) (finishAccept eap) :=
  @agrees_modify answer base n _
    (fun s => { s.timeless with result := some .accept, pendingSuccess := eap })
    (fun _ => rfl) fun _ => rfl

theorem finishReject_agrees (eap : Option Bytes) :
    Agrees answer base n (finishReject eap) (finishReject eap) :=
  @agrees_modify answer base n _
    (fun s => { s.timeless with result := some .reject, pendingFailure := eap })
    (fun _ => rfl) fun _ => rfl

theorem finish_agrees (verdict : Verdict) :
    Agrees answer base n
      (Act.modify fun leg => { leg with session := leg.session.finish verdict leg.clock })
      (Act.modify fun leg => { leg with session := leg.session.finish verdict leg.clock }) :=
  @agrees_modify answer base n _ (fun s => { s.timeless with result := some verdict })
    (fun _ => rfl) fun _ => rfl

/-! ## The supplicant's side -/

theorem ingestUp_agrees (packet : EapTlsPacket) :
    Agrees answer base n (ingestUp packet) (ingestUp packet) := by
  refine ⟨fun _ told => told, fun leg leg' twin _ => ?_⟩
  have timeless := congrArg Session.upReasm twin.session
  have reassembler : leg'.session.upReasm = leg.session.upReasm := timeless
  rw [ingestUp_eq, ingestUp_eq, reassembler]
  refine ⟨rfl, ?_, twin.said, twin.since⟩
  exact congrArg (fun s : Session =>
    { s with upReasm := (Reassembler.ingest packet leg.session.upReasm).2 }) twin.session

theorem ingestDown_agrees (packet : EapTlsPacket) :
    Agrees answer base n (ingestDown packet) (ingestDown packet) := by
  refine ⟨fun _ told => told, fun leg leg' twin _ => ?_⟩
  have timeless := congrArg Session.downReasm twin.session
  have reassembler : leg'.session.downReasm = leg.session.downReasm := timeless
  rw [ingestDown_eq, ingestDown_eq, reassembler]
  refine ⟨rfl, ?_, twin.said, twin.since⟩
  exact congrArg (fun s : Session =>
    { s with downReasm := (Reassembler.ingest packet leg.session.downReasm).2 }) twin.session

/-- **From twin legs the mediator does the same**, as long as the server answers the session as it
would have answered it alone. -/
theorem agrees_rule (alone : UpstreamClient.Alone answer client own) :
    TwinRule (Leg.Told answer base n) (Leg.Twin base n) client own where
  read := agrees_read
  update := agrees_update
  exchange := exchange_agrees alone
  ingestUp := ingestUp_agrees
  ingestDown := ingestDown_agrees
  accept := finishAccept_agrees
  reject := finishReject_agrees
  finish := finish_agrees

end Mediator

end EapAccel
