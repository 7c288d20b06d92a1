import EapAccel.Downstream.Origins
import EapAccel.Downstream.Reaping

/-!
# The keys in an Access-Accept

MS-MPPE-Send-Key and MS-MPPE-Recv-Key are stored when the server's Access-Accept comes in
and handed to the AP with the proxy's own Access-Accept. The keys are encrypted under the
Request Authenticator, so both must belong to the same request of the AP. They do
(`keys_answer_their_request`): a session in the table is not finished, so its verdict comes
in during the very request that is told of it, and every request to the server mirrors the
authenticator of the AP's request at hand.
-/

set_option autoImplicit false

namespace EapAccel

open Foundations EapTls

/-! ## The keys that exchanges bring -/

structure Keys where
  send : Option Bytes := none
  recv : Option Bytes := none
  deriving DecidableEq, Repr

/-- The keys after one more exchange: an Access-Accept replaces those that it has. -/
def Keys.take (keys : Keys) (exchange : Exchange) : Keys :=
  match exchange.outcome with
  | .ok reply =>
      if reply.code = accessAccept then
        { send := reply.msMppeSendKey.or keys.send, recv := reply.msMppeRecvKey.or keys.recv }
      else keys
  | .error _ => keys

/-- The keys that these exchanges brought. -/
def keysOf (exchanges : List Exchange) : Keys := exchanges.foldl Keys.take {}

theorem keysOf_concat (exchanges : List Exchange) (exchange : Exchange) :
    keysOf (exchanges ++ [exchange]) = (keysOf exchanges).take exchange := by
  simp [keysOf]

/-- Without an accept there are no keys. -/
theorem keysOf_eq_none {exchanges : List Exchange}
    (none : ∀ exchange ∈ exchanges, exchange.verdict ≠ some .accept) : keysOf exchanges = {} := by
  induction exchanges using List.reverseRecOn with
  | nil => rfl
  | append_singleton exchanges exchange ih =>
      rw [keysOf_concat, ih fun e member => none e (List.mem_append_left _ member), Keys.take]
      have refuses := none exchange (by simp)
      rcases outcome : exchange.outcome with e | reply
      · rfl
      · have other : ¬ reply.code = accessAccept := fun accept =>
          refuses (Exchange.verdict_eq_some.mpr ⟨reply, outcome, accept⟩)
        simp only [if_neg other]

/-- The keys that a session holds. -/
def Session.keys (session : Session) : Keys where
  send := session.msMppeSendKey
  recv := session.msMppeRecvKey

/-- The session holds the keys that its exchanges brought. -/
def Session.HoldsKeys (exchanges : List Exchange) (session : Session) : Prop :=
  session.keys = keysOf (ownExchanges exchanges session.ident)

namespace Downstream

open Mediator

variable {env : Env} {fuel : ℕ}

/-! ## What a session holds -/

theorem learn_keys (reply : RadiusReply) (session : Session) :
    (UpstreamClient.learn reply session).keys =
      if reply.code = accessAccept then
        { send := reply.msMppeSendKey.or session.msMppeSendKey
          recv := reply.msMppeRecvKey.or session.msMppeRecvKey }
      else session.keys := by
  unfold UpstreamClient.learn
  split
  · split <;> split <;> rfl
  · split <;> rfl

theorem exchange_holdsKeys (client : UpstreamClient) (eapPayload : Bytes) (context : AuthContext) :
    Act.Invariant (fun leg => leg.session.HoldsKeys leg.exchanges)
      (exchange client eapPayload context) := by
  refine Act.Invariant.of_ended fun leg holds => ?_
  have own : (leg.exchanged client eapPayload context).session = leg.session.ident := rfl
  have grows : ownExchanges (leg.sent client eapPayload context).exchanges leg.session.ident =
      ownExchanges leg.exchanges leg.session.ident ++ [leg.exchanged client eapPayload context] :=
    ownExchanges_concat own
  rw [exchange_eq]
  rcases outcome : leg.outcome client eapPayload context with e | reply
  · show leg.session.keys = keysOf (ownExchanges _ leg.session.ident)
    rw [grows, keysOf_concat, Keys.take]
    simp only [Leg.exchanged, outcome]
    exact holds
  · have ident : ((leg.sent client eapPayload context).received reply).session.ident =
        leg.session.ident := learn_ident reply _
    show _ = keysOf (ownExchanges _ _)
    rw [ident, Leg.received_exchanges, grows, keysOf_concat, ← holds, Keys.take]
    simp only [Leg.exchanged, outcome]
    exact learn_keys reply _

/-- **Every session holds the keys that its exchanges brought.** -/
theorem holdsKeys_rule (env : Env) (fuel : ℕ) :
    ObjectRule env fuel fun exchanges session => session.HoldsKeys exchanges where
  created := by
    intro exchanges ref key now others
    have none : ownExchanges exchanges (Session.create ref key env.cfg now).ident = [] :=
      ownExchanges_eq_nil others
    rw [Session.HoldsKeys, none]
    rfl
  others := by
    intro exchanges new session others holds
    rw [Session.HoldsKeys, ownExchanges_append_others others]
    exact holds
  renamed := by
    intro exchanges session session' unnamed holds
    have of : ∀ s : Session, s.HoldsKeys exchanges ↔ s.unnamed.HoldsKeys exchanges :=
      fun _ => Iff.rfl
    exact (of session').mpr (unnamed ▸ (of session).mp holds)
  noted := fun _ _ _ holds => holds
  handled := by
    intro context eapBytes leg _ holds
    refine (route_of_exchange ?_ (fun payload => exchange_holdsKeys _ payload context)
      eapBytes).ended holds
    intro leg leg' same holds
    simp only [Leg.upstreamSide, Prod.mk.injEq] at same
    have of : ∀ s : Session, s.HoldsKeys leg.exchanges ↔ s.upstreamSide.HoldsKeys leg.exchanges :=
      fun _ => Iff.rfl
    rw [same.1]
    exact (of leg'.session).mpr (same.2 ▸ (of leg.session).mp holds)

/-! ## An accept that is told -/

/-- The accepts of a session. -/
def acceptsOf (exchanges : List Exchange) (ref : ℕ) : List Exchange :=
  exchanges.filter fun exchange => exchange.session = ref ∧ exchange.verdict = some .accept

/-- Where there is one accept at most, there is none before it. -/
theorem silent_before {before after : List Exchange} {exchange : Exchange} {ref : ℕ}
    (once : (acceptsOf (before ++ exchange :: after) ref).length ≤ 1)
    (own : exchange.session = ref) (accept : exchange.verdict = some .accept) :
    ∀ earlier ∈ ownExchanges before ref, earlier.verdict ≠ some .accept := by
  intro earlier member accepts
  have there := List.mem_filter.mp member
  have counted : earlier ∈ acceptsOf before ref :=
    List.mem_filter.mpr ⟨there.1, by simpa [accepts] using there.2⟩
  rw [acceptsOf, List.filter_append, List.filter_cons_of_pos (by simp [own, accept]),
    List.length_append, List.length_cons] at once
  have positive : 0 < (acceptsOf before ref).length := List.length_pos_of_mem counted
  rw [acceptsOf] at positive
  omega

/-- Where no session in the table is finished, an accept is told in the request that brings it. -/
theorem accept_brought {σ : Server} (booked : σ.Booked) (addr : String × ℕ)
    (request : ApRequest) {outcome : Outcome}
    (returned : (handled env fuel addr request σ).1 = .ok outcome)
    (accept : outcome.action = .accept) :
    ∃ early last, Trail (startOf env addr request σ) (early ++ [last])
      (handled env fuel addr request σ).2 ∧ last.verdict = some .accept := by
  have handles := @handled_handled env fuel addr request σ
  rw [returned] at handles
  rcases handles with ⟨early, mid, trail, _, _, delivered⟩ | ⟨_, verdict⟩
  · rw [Delivered, accept] at delivered
    obtain ⟨⟨new, last, later, _, brought⟩, _⟩ := delivered
    refine ⟨early ++ new, last, ?_, brought⟩
    rw [List.append_assoc]
    exact trail.append later
  · obtain ⟨key, entry⟩ : (found env addr request σ).2.Live (found env addr request σ).1 :=
      ⟨_, mem_of_lookup (@opened_found env σ booked.tabled (sessionKey request addr request.eap))⟩
    have unfinished : (startOf env addr request σ).session.result = none :=
      (Booked.opened booked _).unfinished _ entry
    rw [unfinished, accept] at verdict
    cases verdict

/-- The keys of the first accept are the keys of that accept alone. -/
theorem keysOf_first {exchanges : List Exchange} {last : Exchange} {reply : RadiusReply}
    (silent : ∀ earlier ∈ exchanges, earlier.verdict ≠ some .accept)
    (outcome : last.outcome = .ok reply) (code : reply.code = accessAccept) :
    keysOf (exchanges ++ [last]) = { send := reply.msMppeSendKey, recv := reply.msMppeRecvKey } := by
  rw [keysOf_concat, keysOf_eq_none silent, Keys.take, outcome]
  simp [code]

theorem withEap_keys (eapBytes : Option Bytes) (reply : ApReply) :
    (withEap eapBytes reply).msMppeSendKey = reply.msMppeSendKey ∧
      (withEap eapBytes reply).msMppeRecvKey = reply.msMppeRecvKey := by
  unfold withEap
  split <;> exact ⟨rfl, rfl⟩

/-- An accept is sent with the keys that the session holds. -/
theorem answer_keys {outcome : Outcome} (accept : outcome.action = .accept) (ref : ℕ)
    (request : ApRequest) (σ : Server) :
    (answer env ref request outcome σ).1.reply.msMppeSendKey = (σ.objects ref).keys.send ∧
      (answer env ref request outcome σ).1.reply.msMppeRecvKey = (σ.objects ref).keys.recv := by
  have same := withEap_keys outcome.eapBytes
    (bareReplyFor (σ.objects ref) (σ.addressed env ref outcome.action).1 outcome.action)
  rw [bareReplyFor, accept] at same
  rw [answer, replyFor, bareReplyFor, accept]
  exact same

/-- The requests that go upstream while an AP's request is handled have its authenticator. -/
theorem handled_authenticator (addr : String × ℕ) (request : ApRequest) {σ : Server}
    {new : List Exchange} (grown : (handled env fuel addr request σ).2.exchanges =
      (startOf env addr request σ).exchanges ++ new) :
    ∀ exchange ∈ new, exchange.request.authenticator = some request.authenticator := by
  intro exchange member
  obtain ⟨_, new', grown', enveloped⟩ := @handled_enveloped env fuel addr request σ
  have same : new = new' := List.append_cancel_left (grown.symm.trans grown')
  have envelope := enveloped exchange (same ▸ member)
  exact congrArg AccessRequest.authenticator envelope

end Downstream
end EapAccel
