import EapAccel.Downstream.Origins
import EapAccel.Downstream.Verdicts
import EapAccel.Upstream.SendPacket

/-!
# The upstream leg in octets

A `Link` is the upstream leg down to the datagrams: what comes to the socket while a request is
out, and how pyrad verifies it. Over a link every reply that a run acts on is an authentic
datagram: it came in time, it decoded, and it verified for that very request; and so every
Access-Accept to an AP goes back to one (`accept_authentic`). What does not verify, whoever sends
it and whenever it comes, changes nothing in any run (`noise_changes_nothing`).
-/

set_option autoImplicit false

namespace EapAccel

open Foundations

/-! ## Links -/

/-- The upstream leg: what comes to the socket after a request, timed from when it is sent, and
pyrad's client for it. Both may depend on everything sent before. -/
structure Link where
  pyrad : Pyrad
  timeout : ℕ
  retries : ℕ
  verifyReply : List Exchange → AccessRequest → RadiusPacket → Bytes → Except Raised Bool
  arrivals : List Exchange → AccessRequest → List Arrival

namespace Link

variable (link : Link)

def client (before : List Exchange) (request : AccessRequest) : RetryingClient where
  pyrad := link.pyrad
  verifyReply := link.verifyReply before request
  timeout := link.timeout
  retries := link.retries

def socket (before : List Exchange) (request : AccessRequest) : Socket where
  now := 0
  arrivals := link.arrivals before request
  sent := 0

/-- What `SendPacket` returns for a request, as `send_eap` reads it. -/
def respond (before : List Exchange) (request : AccessRequest) : Except Raised RadiusReply :=
  RadiusPacket.reply link.pyrad <$>
    ((link.client before request).sendPacket (link.socket before request)).1

/-- How long that takes. -/
def elapsed (before : List Exchange) (request : AccessRequest) : ℕ :=
  ((link.client before request).sendPacket (link.socket before request)).2.now

end Link

/-- The surroundings with the upstream leg in octets. -/
def Env.over (env : Env) (link : Link) : Env :=
  { env with respond := link.respond, elapsed := link.elapsed }

/-- pyrad waits for replies, and they come in the order of their times. -/
structure Link.Sound (link : Link) : Prop where
  patient : 0 < link.timeout
  tries : 0 < link.retries
  ordered : ∀ before request, RetryingClient.InOrder (link.arrivals before request)

/-- An authentic reply to a request: a datagram that came in time, decoded and verified for it. -/
structure Link.Authentic (link : Link) (before : List Exchange) (request : AccessRequest)
    (reply : RadiusReply) (arrival : Arrival) (packet : RadiusPacket) : Prop where
  came : arrival ∈ link.arrivals before request
  early : arrival.time < link.retries * link.timeout
  decoded : Wire.decodePacketAllowLarge link.pyrad (RetryingClient.recv arrival) = .ok packet
  verified : link.verifyReply before request packet (RetryingClient.recv arrival) = .ok true
  read : packet.reply link.pyrad = reply

namespace Link

variable {link : Link}

theorem verified_of_readReply {client : RetryingClient} {rawreply : Bytes} {packet : RadiusPacket}
    (read : client.readReply rawreply = .ok (some packet)) :
    Wire.decodePacketAllowLarge client.pyrad rawreply = .ok packet ∧
      client.verifyReply packet rawreply = .ok true := by
  rw [RetryingClient.readReply] at read
  rcases decoded : Wire.decodePacketAllowLarge client.pyrad rawreply with e | reply
  · rw [decoded] at read
    simp only [Except.error_bind] at read
    split at read <;> cases read
  · rw [decoded] at read
    simp only [Except.ok_bind] at read
    rcases verdict : client.verifyReply reply rawreply with e | _ | _
    · rw [verdict] at read
      simp only [Except.error_bind] at read
      split at read <;> cases read
    · rw [verdict] at read
      cases read
    · rw [verdict] at read
      cases read
      exact ⟨rfl, verdict⟩

/-- A packet that is listened for came in time, and was read. -/
theorem heard_of_listen {client : RetryingClient} {socket : Socket} {packet : RadiusPacket}
    (heard : (client.listen socket).1 = .ok packet) :
    ∃ arrival ∈ socket.arrivals, arrival.time < client.deadline socket ∧
      client.readReply (RetryingClient.recv arrival) = .ok (some packet) := by
  rw [RetryingClient.listen] at heard
  rcases first : (socket.arrivals.filter fun arrival => arrival.time < client.deadline socket).findSome?
    client.verdictOn with _ | ⟨outcome, time⟩
  · rw [first] at heard
    cases heard
  · rw [first] at heard
    obtain rfl : outcome = .ok packet := heard
    obtain ⟨arrival, member, verdict⟩ := List.exists_of_findSome?_eq_some first
    obtain ⟨there, early⟩ := List.mem_filter.mp member
    refine ⟨arrival, there, of_decide_eq_true early, ?_⟩
    rw [RetryingClient.verdictOn] at verdict
    rcases read : client.readReply (RetryingClient.recv arrival) with e | _ | reply
    · rw [read] at verdict
      cases verdict
    · rw [read] at verdict
      cases verdict
    · rw [read] at verdict
      cases verdict
      rfl

/-- **What comes back over a link is authentic.** -/
theorem authentic_of_respond (sound : link.Sound) {before : List Exchange}
    {request : AccessRequest} {reply : RadiusReply}
    (answered : link.respond before request = .ok reply) :
    ∃ arrival packet, link.Authentic before request reply arrival packet := by
  have listens := @RetryingClient.sendPacket_eq_listen (link.client before request) sound.patient
    sound.tries (link.socket before request) (sound.ordered before request)
  rw [respond, congrArg Prod.fst listens] at answered
  rcases outcome : ((link.client before request).listen (link.socket before request)).1 with e | packet
  · rw [outcome] at answered
    cases answered
  · rw [outcome] at answered
    obtain ⟨arrival, came, early, read⟩ := heard_of_listen outcome
    obtain ⟨decoded, verified⟩ := verified_of_readReply read
    have deadline : (link.client before request).deadline (link.socket before request) =
        link.retries * link.timeout := Nat.zero_add _
    exact ⟨arrival, packet, came, deadline ▸ early, decoded, verified, Except.ok.inj answered⟩

end Link

namespace Downstream

open Mediator

variable {env : Env} {fuel : ℕ} {link : Link}

/-! ## Every reply of a run -/

/-- A reply to a request is authentic for what pyrad sent for the request. -/
def AuthenticallyAnswered (env : Env) (link : Link) (before : List Exchange) (exchange : Exchange)
    (reply : RadiusReply) : Prop :=
  ∃ sent arrival packet, env.client.wire exchange.request = .ok sent ∧
    link.Authentic before sent reply arrival packet

/-- **Replies are authentic.** Over a link, every reply that a run has taken in is a datagram that
came in time, decoded, and verified for its very request, as it was sent; and every Access-Accept or
Access-Reject to an AP goes back to an authentic one for a request of the same session. -/
theorem replies_authentic (env : Env) (fuel : ℕ) {link : Link} (sound : link.Sound)
    {datagrams : List Datagram} {σ : Server}
    (ran : run (env.over link) fuel datagrams (initial (env.over link)) = some σ) :
    (∀ before exchange after reply, σ.exchanges = before ++ exchange :: after →
      exchange.outcome = .ok reply → AuthenticallyAnswered env link before exchange reply) ∧
    ∀ sent ∈ σ.replies, ∀ v : Verdict, sent.reply.code = v.code →
      ∃ before exchange after reply,
        σ.exchanges.take sent.exchangesBefore = before ++ exchange :: after ∧
        exchange.session = sent.session ∧ reply.code = v.code ∧
        AuthenticallyAnswered env link before exchange reply := by
  have authentic : ∀ before exchange after reply, σ.exchanges = before ++ exchange :: after →
      exchange.outcome = .ok reply → AuthenticallyAnswered env link before exchange reply := by
    intro before exchange after reply split outcome
    obtain ⟨sent, wired, answered⟩ := UpstreamClient.sent_of_answer
      ((asReturned_of_run ran before exchange after split).symm.trans outcome)
    obtain ⟨arrival, packet, real⟩ := Link.authentic_of_respond sound answered
    exact ⟨sent, arrival, packet, wired, real⟩
  constructor
  · exact authentic
  · intro sent member v code
    obtain ⟨exchange, early, own, verdict⟩ :=
      (((honest_initial (env.over link)).run ran).sent sent member).2 v code
    obtain ⟨reply, outcome, same⟩ := Exchange.verdict_eq_some.mp verdict
    obtain ⟨before, after, split⟩ := List.append_of_mem early
    have whole : σ.exchanges =
        before ++ exchange :: (after ++ σ.exchanges.drop sent.exchangesBefore) := by
      rw [← List.cons_append, ← List.append_assoc, ← split, List.take_append_drop]
    have real := authentic before exchange _ reply whole outcome
    exact ⟨before, exchange, after, reply, split, own, same, real⟩

end Downstream

/-- A link on which something that is no RADIUS packet and an Access-Accept come for every
request. -/
def acceptLink : Link where
  pyrad := RetryingClient.identifying.pyrad
  timeout := 10
  retries := 3
  verifyReply := fun _ _ => RetryingClient.identifying.verifyReply
  arrivals := fun _ _ => [⟨0, []⟩, ⟨0, RetryingClient.bareAcceptOctets⟩]

theorem acceptLink_sound : acceptLink.Sound where
  patient := by decide
  tries := by decide
  ordered := by
    intro before request
    simp [RetryingClient.InOrder, acceptLink]

/-- The reply that comes back over it. -/
def acceptOnly : RadiusReply where
  code := accessAccept
  state := none
  eapMessage := []

/-- The surroundings in which every request is accepted, over that link. -/
theorem over_acceptLink :
    (Downstream.answering "reassemble" acceptOnly).over acceptLink =
      Downstream.answering "reassemble" acceptOnly := by
  have quiet : RetryingClient.identifying.readReply (RetryingClient.recv ⟨0, []⟩) = .ok none :=
    RetryingClient.readReply_of_refused _ rfl
  have read : RetryingClient.identifying.readReply
      (RetryingClient.recv ⟨0, RetryingClient.bareAcceptOctets⟩) =
        .ok (some RetryingClient.bareAccept) := RetryingClient.readReply_bareAccept
  have window : RetryingClient.identifying.awaitReply 10 0
      [⟨0, []⟩, ⟨0, RetryingClient.bareAcceptOctets⟩] =
        (.ok (some RetryingClient.bareAccept), 0, []) := by
    rw [RetryingClient.awaitReply, if_pos (by decide), if_pos (by decide), quiet]
    simp only
    rw [RetryingClient.awaitReply, if_pos (by decide), if_pos (by decide), read]
    rfl
  have sends : ∀ before request,
      (acceptLink.client before request).sendPacket (acceptLink.socket before request) =
        (.ok RetryingClient.bareAccept, ⟨0, [], 1⟩) := by
    intro before request
    have first : (acceptLink.client before request).window (acceptLink.socket before request) =
        (.ok (some RetryingClient.bareAccept), 0, []) := window
    refine (RetryingClient.attempts_succ 2 _).trans ?_
    rw [first]
    rfl
  have respond : acceptLink.respond = fun _ _ => .ok acceptOnly := by
    funext before request
    rw [Link.respond, sends]
    rfl
  have elapsed : acceptLink.elapsed = fun _ _ => 0 := by
    funext before request
    rw [Link.elapsed, sends]
  rw [Env.over, respond, elapsed]
  rfl

namespace Downstream

/-- `alice` is accepted over the link. -/
theorem replies_authentic_sample :
    ∃ σ sent, run ((answering "reassemble" acceptOnly).over acceptLink) 0 [identityDatagram]
        (initial ((answering "reassemble" acceptOnly).over acceptLink)) = some σ ∧
      sent ∈ σ.replies ∧ sent.reply.code = accessAccept ∧
      ∃ before exchange after reply,
        σ.exchanges.take sent.exchangesBefore = before ++ exchange :: after ∧
        exchange.session = sent.session ∧ reply.code = accessAccept ∧
        AuthenticallyAnswered (answering "reassemble" acceptOnly) acceptLink before exchange reply := by
  have ran : ∃ σ sent, run (answering "reassemble" acceptOnly) 0 [identityDatagram]
        (initial (answering "reassemble" acceptOnly)) = some σ ∧
      sent ∈ σ.replies ∧ sent.reply.code = accessAccept :=
    ⟨_, _, rfl, List.mem_singleton.mpr rfl, rfl⟩
  rw [← over_acceptLink] at ran
  obtain ⟨σ, sent, ran, member, code⟩ := ran
  exact ⟨σ, sent, ran, member, code,
    (replies_authentic (answering "reassemble" acceptOnly) 0 acceptLink_sound ran).2 sent member .accept
      code⟩

/-! ## Noise -/

end Downstream

/-- The link without the arrivals that `keep` says no of. -/
def Link.without (link : Link) (keep : List Exchange → AccessRequest → Arrival → Bool) : Link :=
  { link with arrivals := fun before request =>
      (link.arrivals before request).filter (keep before request) }

/-- What is left out is noise: pyrad refuses it, or it does not verify. -/
def Link.Noise (link : Link) (keep : List Exchange → AccessRequest → Arrival → Bool) : Prop :=
  ∀ before request, ∀ arrival ∈ link.arrivals before request,
    keep before request arrival = false →
      (link.client before request).readReply (RetryingClient.recv arrival) = .ok none

namespace Link

variable {link : Link} {keep : List Exchange → AccessRequest → Arrival → Bool}

/-- Leaving out what a search passes over anyway does not change what it finds. -/
theorem findSome?_filter_ignored {α β : Type} {f : α → Option β} {p : α → Bool} {l : List α}
    (ignored : ∀ a ∈ l, p a = false → f a = none) : (l.filter p).findSome? f = l.findSome? f := by
  induction l with
  | nil => rfl
  | cons a l ih =>
      rw [List.forall_mem_cons] at ignored
      rw [List.filter_cons, List.findSome?_cons]
      rcases kept : p a with _ | _
      · rw [if_neg (by decide), ignored.1 kept]
        exact ih ignored.2
      · rw [if_pos rfl, List.findSome?_cons, ih ignored.2]

/-- **A listener does not hear noise.** -/
theorem listen_without (noise : link.Noise keep) (before : List Exchange) (request : AccessRequest) :
    ((link.without keep).client before request).listen ((link.without keep).socket before request) =
      (link.client before request).listen (link.socket before request) := by
  have same : ((link.without keep).socket before request).arrivals =
      (link.socket before request).arrivals.filter (keep before request) := rfl
  have search : (((link.without keep).socket before request).arrivals.filter fun arrival =>
      arrival.time < (link.client before request).deadline (link.socket before request)).findSome?
        (link.client before request).verdictOn =
      ((link.socket before request).arrivals.filter fun arrival =>
      arrival.time < (link.client before request).deadline (link.socket before request)).findSome?
        (link.client before request).verdictOn := by
    rw [same, List.filter_filter]
    have swap : ((link.socket before request).arrivals.filter fun arrival =>
        decide (arrival.time < (link.client before request).deadline (link.socket before request)) &&
          keep before request arrival) =
        ((link.socket before request).arrivals.filter fun arrival =>
          arrival.time < (link.client before request).deadline (link.socket before request)).filter
            (keep before request) := by
      rw [List.filter_filter]
      congr 1
      funext arrival
      exact Bool.and_comm _ _
    rw [swap]
    apply findSome?_filter_ignored
    intro arrival member unkept
    exact RetryingClient.verdictOn_eq_none.mpr
      (noise before request arrival (List.mem_filter.mp member).1 unkept)
  rw [RetryingClient.listen, RetryingClient.listen, ← search]
  rfl

theorem Sound.without (sound : link.Sound) : (link.without keep).Sound where
  patient := sound.patient
  tries := sound.tries
  ordered := fun before request => (sound.ordered before request).filter _

theorem respond_without (sound : link.Sound) (noise : link.Noise keep) :
    (link.without keep).respond = link.respond ∧ (link.without keep).elapsed = link.elapsed := by
  have quiet : ∀ before request, _ := fun before request =>
    (@RetryingClient.sendPacket_eq_listen ((link.without keep).client before request) sound.patient
      sound.tries ((link.without keep).socket before request)
      (sound.without.ordered before request)).trans
      ((listen_without noise before request).trans
        (@RetryingClient.sendPacket_eq_listen (link.client before request) sound.patient sound.tries
          (link.socket before request) (sound.ordered before request)).symm)
  constructor
  · funext before request
    have outcome := (Prod.mk.inj (quiet before request)).1
    exact congrArg (RadiusPacket.reply link.pyrad <$> ·) outcome
  · funext before request
    have times := (Prod.mk.inj (quiet before request)).2
    exact (Prod.mk.inj times).1

end Link

namespace Downstream

variable {env : Env} {fuel : ℕ} {link : Link}

/-- **Noise changes nothing.** A run over a link is the run without the datagrams that pyrad
refuses or that do not verify, whoever sends them and whenever they come: the same replies to APs,
the same requests, the same sessions at the same times. -/
theorem noise_changes_nothing (env : Env) (fuel : ℕ) {link : Link} (sound : link.Sound)
    {keep : List Exchange → AccessRequest → Arrival → Bool} (noise : link.Noise keep)
    (datagrams : List Datagram) (σ : Server) :
    run (env.over (link.without keep)) fuel datagrams σ = run (env.over link) fuel datagrams σ := by
  obtain ⟨respond, elapsed⟩ := Link.respond_without sound noise
  have same : env.over (link.without keep) = env.over link := by
    rw [Env.over, respond, elapsed]
    rfl
  rw [same]

/-- What is no RADIUS packet is noise. -/
theorem noise_changes_nothing_sample :
    run ((answering "reassemble" acceptOnly).over (acceptLink.without fun _ _ arrival =>
        arrival.raw ≠ [])) 0 [identityDatagram] (initial (answering "reassemble" acceptOnly)) =
      run ((answering "reassemble" acceptOnly).over acceptLink) 0 [identityDatagram]
        (initial (answering "reassemble" acceptOnly)) := by
  apply noise_changes_nothing (answering "reassemble" acceptOnly) 0 acceptLink_sound
  intro before request arrival _ unkept
  have empty : arrival.raw = [] := by simpa using unkept
  rw [RetryingClient.recv, empty]
  exact RetryingClient.readReply_of_refused _ rfl

end Downstream
end EapAccel
