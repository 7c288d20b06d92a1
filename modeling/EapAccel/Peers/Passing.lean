import EapAccel.Downstream.Transparency
import EapAccel.Peers.Path

/-!
# Passthrough mode is faithful

In passthrough mode a packet of the supplicant goes to the server as it is, and the server's packet
to the supplicant. So the proxy holds nothing: what is sent of the message, and what is left of the
record, is with the server (`Passing`).
-/

set_option autoImplicit false

namespace EapAccel

open Foundations EapTls Mediator Downstream

/-- The server has these octets of the message, and the fragments with these pieces. -/
def Passing (peers : Peers) : Holding := fun heard gathered pieces _ exchanges =>
  ∃ rest, peers.callee exchanges = { heard := heard, gathered := gathered, rest := rest } ∧
    InFragments rest ∧ rest.map (·.tlsData) = pieces

theorem relayOutcome_conveys {reply : RadiusReply} {packet : EapTlsPacket}
    (has : reply.Has (.packet packet)) (encodable : packet.Encodable) :
    (relayOutcome reply.normalise).Conveys packet := by
  obtain ⟨accept, reject, eap, messages, parsed⟩ := has.brings encodable
  simp only [relayOutcome, accept, reject, messages, Bool.false_eq_true, if_false]
  exact ⟨rfl, parsed⟩

theorem relayOutcome_verdict {reply : RadiusReply} {verdict : Verdict}
    (has : reply.Has (.verdict verdict)) :
    (relayOutcome reply.normalise).action.verdict = some verdict := by
  have code : reply.code = verdict.code := has
  cases verdict with
  | accept =>
      have accept : reply.normalise.accept = true := beq_iff_eq.mpr code
      rw [relayOutcome, if_pos accept]
      rfl
  | reject =>
      have accept : ¬ reply.normalise.accept = true := by
        show ¬ (reply.code == accessAccept) = true
        rw [code]
        decide
      have reject : reply.normalise.reject = true := beq_iff_eq.mpr code
      rw [relayOutcome, if_neg accept, if_pos reject]
      rfl

variable {peers : Peers} {env : Env}

/-- Each packet goes to the server. -/
def Peers.passingTariff (peers : Peers) : Tariff where
  more := 1
  ends := fun _ => 1
  next := 1
  acks := fun heard => (peers.answers heard).1.rest.length

/-- The supplicant's first packet goes to the server in either mode. -/
theorem identity_routes (proper : peers.Proper) (behind : peers.Behind env.client)
    (context : AuthContext) (leg : Leg) :
    ∃ outcome leg', Routes env context peers.identity leg outcome leg' ∧ Takes leg 1 leg' ∧
      outcome.Conveys peers.start ∧ peers.callee leg'.exchanges = peers.callee leg.exchanges ∧
      Alongside leg.session leg'.session := by
  have other := proper.identity
  obtain ⟨reply, mid, asks, has, after, cost, alongside⟩ :=
    exchange_reaches behind peers.identity context leg
  rw [Peers.replies_other other] at has after
  obtain ⟨accept, reject, eap, messages, parsed⟩ := has.brings peers.start_encodable
  have passes : passthroughNonTls env context peers.identity leg =
      (.ok { action := .challenge, eapBytes := some eap, echoId := none }, mid) := by
    rw [passthroughNonTls, Act.bind_of_ok asks]
    simp only [accept, reject, messages, Bool.false_eq_true, if_false]
    rfl
  refine ⟨{ action := .challenge, eapBytes := some eap, echoId := none }, mid, ⟨0, fun fuel _ => ?_⟩,
    cost, ⟨rfl, parsed⟩, after, alongside⟩
  rw [route, if_neg other, passes]

/-- **An EAP-TLS packet goes to the server, and the server's reply comes back.** -/
theorem passing_routes (behind : peers.Behind env.client)
    (passing : env.cfg.sessionMode = .passthrough) {context : AuthContext} {leg : Leg}
    (underway : Unfinished env leg) {eapBytes : Bytes} {packet : EapTlsPacket}
    (parsed : parse eapBytes = .ok packet) :
    ∃ (reply : RadiusReply) (leg' : Leg),
      Routes env context eapBytes leg (relayOutcome reply.normalise) leg' ∧ Takes leg 1 leg' ∧
      reply.Has (peers.replies eapBytes (peers.callee leg.exchanges)).2 ∧
      peers.callee leg'.exchanges = (peers.replies eapBytes (peers.callee leg.exchanges)).1 := by
  have mode := underway.configured.mode.trans passing
  obtain ⟨reply, answered, has⟩ := behind.outcome eapBytes context leg
  obtain ⟨leg', handles, grown⟩ := @relay_ok env.client 0 _ _ _ _ _ mode parsed answered
  refine ⟨reply, leg', ⟨0, fun fuel _ => ?_⟩, ?_, has, ?_⟩
  · rw [route, if_pos (type_of_parse parsed), handle_passthrough_eq mode parsed]
    rwa [handle_passthrough_eq mode parsed] at handles
  · rw [Takes, grown, List.length_append, List.length_singleton]
  · rw [grown, peers.callee_exchanged]

/-- **Passthrough mode is faithful.** -/
theorem passing_faithful (proper : peers.Proper) (behind : peers.Behind env.client)
    (passing : env.cfg.sessionMode = .passthrough) (limit : ℕ) :
    Faithful peers env limit (Passing peers) peers.passingTariff where
  heard := by
    rintro heard gathered pieces session exchanges ⟨rest, same, _⟩
    rw [same]
  bare := fun _ held => held
  start := by
    intro context leg _ none
    obtain ⟨outcome, leg', routes, cost, conveys, same, _⟩ :=
      identity_routes proper behind context leg
    rw [none] at same
    exact ⟨outcome, leg', routes, cost, peers.start, conveys, rfl, [], same, trivial, rfl⟩
  more := by
    rintro context leg heard gathered eapBytes packet underway
      ⟨rest, same, inFragments, none⟩ parsed fragment _ _
    obtain ⟨reply, leg', routes, cost, has, after⟩ :=
      @passing_routes peers env behind passing context leg underway eapBytes packet parsed
    rw [Peers.replies_more parsed fragment] at after has
    rw [same] at after
    refine ⟨_, leg', routes, cost, _,
      relayOutcome_conveys has (Peers.ackPacket_encodable _ _), rfl, rest, after,
      inFragments, none⟩
  ends := by
    rintro context leg heard gathered message eapBytes packet underway
      ⟨rest, same, _, none⟩ parsed ends _ _
    obtain rfl := List.map_eq_nil_iff.mp none
    obtain ⟨reply, leg', routes, cost, has, after⟩ :=
      @passing_routes peers env behind passing context leg underway eapBytes packet parsed
    rw [same] at has after
    rw [Peers.replies_ends parsed ends rfl] at has after
    refine ⟨_, leg', routes, cost, ?_, ?_⟩
    · intro verdict answer
      rw [Peers.answers_verdict answer] at has after
      refine ⟨relayOutcome_verdict has, by rw [after], ?_⟩
      show (peers.answers (heard ++ [message])).1.rest.length = 0
      rw [Peers.answers_verdict answer]
      rfl
    · intro tlsRecord answer
      obtain ⟨first, rest, packets, answers⟩ := Peers.answers_record proper answer
      have wraps := (proper.down _ _ answer).2
      have inFragments := wraps.inFragments
      have whole := wraps.whole
      rw [packets] at inFragments whole
      obtain ⟨fragment, later⟩ := inFragments
      rw [answers] at has after
      refine ⟨first, rest.map (·.tlsData), relayOutcome_conveys has fragment.encodable,
        ?_, ?_, ?_, ?_, rest, after, later, rfl⟩
      · rw [List.isEmpty_map]
        exact fragment
      · exact whole
      · rw [List.length_map, Peers.span, packets, List.length_cons]
        omega
      · show (rest.map (·.tlsData)).length * 1 = (peers.answers (heard ++ [message])).1.rest.length
        rw [answers, List.length_map, Nat.mul_one]
  next := by
    rintro context leg heard piece pieces eapBytes ack underway
      ⟨rest, same, inFragments, data⟩ parsed isAck
    cases rest with
    | nil => cases data
    | cons first rest =>
        obtain ⟨rfl, rfl⟩ := List.cons.inj data
        obtain ⟨fragment, later⟩ := inFragments
        obtain ⟨reply, leg', routes, cost, has, after⟩ :=
          @passing_routes peers env behind passing context leg underway eapBytes ack parsed
        rw [same] at has after
        rw [Peers.replies_next parsed isAck rfl] at has after
        refine ⟨_, leg', routes, cost, first, relayOutcome_conveys has fragment.encodable,
          ?_, rfl, rest, after, later, rfl⟩
        cases rest <;> exact fragment

end EapAccel
