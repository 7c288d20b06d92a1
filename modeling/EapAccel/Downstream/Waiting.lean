import EapAccel.Downstream.Authentic
import EapAccel.Downstream.Durations
import EapAccel.Mediator.Demand

/-!
# How long a datagram waits

The proxy serves one datagram after another, and a datagram keeps it busy for as long as its
exchanges take. Of these there are no more than the longest record has chunks and the drain has
turns (`serve_demands`), and none takes longer than the retries of `_SendPacket`
(`elapsed_le`). So a batch of datagrams that are there when the server is free is done with in a
time that is linear in their number (`served_in_time`).
-/

set_option autoImplicit false

namespace EapAccel

open Foundations EapTls

/-- The most exchanges that a datagram can take. -/
def Env.demand (env : Env) (fuel : ℕ) : ℕ :=
  Mediator.demand env.cfg.upstream.fragmentSize env.cfg.maxMessageLen fuel

/-- **No exchange takes longer than the retries.** -/
theorem Link.elapsed_le {link : Link} (sound : link.Sound) (before : List Exchange)
    (request : AccessRequest) : link.elapsed before request ≤ link.retries * link.timeout := by
  rcases @RetryingClient.attempts_cases (link.client before request) sound.patient link.retries
    (link.socket before request) (sound.ordered before request) with out | ⟨arrival, decided⟩
  · exact (out.ends.trans (Nat.zero_add _)).le
  · have ends : link.elapsed before request = max 0 arrival.time := decided.ends
    have early : arrival.time < 0 + link.retries * link.timeout := decided.early
    omega

namespace Downstream

open Mediator

variable {env : Env} {fuel : ℕ}

/-! ## One datagram -/

theorem passthroughNonTls_atMost (context : AuthContext) (eapBytes : Bytes) :
    Act.AtMost requests 1 (passthroughNonTls env context eapBytes) := by
  apply Act.AtMost.bind (m := 0) (exchange_atMost eapBytes)
  intro reply
  apply Act.AtMost.ite (Act.AtMost.of_keeps fun _ => rfl)
  exact Act.AtMost.ite (Act.AtMost.of_keeps fun _ => rfl) (Act.AtMost.of_keeps fun _ => rfl)

/-- The handling of a request goes upstream no more often than that. -/
theorem handled_demands {σ : Server} (regular : σ.Regular env) (addr : String × ℕ)
    (request : ApRequest) :
    requests (handled env fuel addr request σ).2 ≤ σ.exchanges.length + env.demand fuel := by
  have configured := Session.configured_of_settings (startOf_settings regular addr request)
  have start : requests (startOf env addr request σ) = σ.exchanges.length :=
    congrArg List.length (startOf_exchanges addr request σ)
  rw [← start]
  apply @handled_elim env fuel (fun ended => requests ended.2 ≤ _ + env.demand fuel)
  swap
  · exact fun _ => Nat.le_add_right _ _
  rw [route, Act.ite_apply]
  by_cases tls : request.eap[4]? = some eapTypeTls
  · have demands := @handleSupplicantEap_demands env.client request.context fuel request.eap
      (startOf env addr request σ)
    rw [configured.upstreamFragmentSize, configured.upLimit] at demands
    rw [if_pos tls]
    exact demands
  · have once := @passthroughNonTls_atMost env request.context request.eap
      (startOf env addr request σ)
    have most := le_demand env.cfg.upstream.fragmentSize env.cfg.maxMessageLen fuel
    rw [if_neg tls, Env.demand]
    omega

/-- **A datagram takes no more exchanges than that**, whatever fails. -/
theorem serve_demands {σ σ' : Server} (regular : σ.Regular env) {datagram : Datagram}
    (served : serve env fuel datagram σ = some σ') :
    σ'.exchanges.length ≤ σ.exchanges.length + env.demand fuel := by
  rcases serve_cases served with rfl | ⟨request, _, _, rfl⟩
  · exact Nat.le_add_right _ _
  · rw [handleRequest_exchanges]
    exact handled_demands (Regular.woken regular datagram) datagram.addr request

/-- What pyrad refuses takes no time. -/
theorem lasts_le {most : ℕ} (quick : ∀ before request, env.elapsed before request ≤ most)
    (before : List Exchange) (exchange : Exchange) : env.client.lasts before exchange ≤ most := by
  rw [UpstreamClient.lasts, UpstreamClient.duration]
  cases env.client.wire exchange.request with
  | error e => exact Nat.zero_le _
  | ok packet => exact quick before packet

/-- So it keeps the server busy for no longer than these exchanges can take. -/
theorem serve_in_time {most : ℕ} (quick : ∀ before request, env.elapsed before request ≤ most)
    {σ σ' : Server} (regular : σ.Regular env) {datagram : Datagram}
    (served : serve env fuel datagram σ = some σ') :
    σ'.clock ≤ max σ.clock datagram.receivedAt + env.demand fuel * most := by
  obtain ⟨new, grown, clock⟩ := serve_clock served
  have count := serve_demands regular served
  rw [grown, List.length_append] at count
  have each : costs env.client.lasts (fun _ => True) σ.exchanges new ≤ new.length * most :=
    costs_le (lasts_le quick) _ _
  have all := each.trans (Nat.mul_le_mul_right most (Nat.le_of_add_le_add_left count))
  omega

/-! ## Batches -/

/-- **A batch is done with in time**: what is there at `t`, when the server is free. -/
theorem batch_in_time {most t : ℕ} (quick : ∀ before request, env.elapsed before request ≤ most)
    {batch : List Datagram} : ∀ {σ σ' : Server}, σ.Regular env → σ.clock ≤ t →
      (∀ datagram ∈ batch, datagram.receivedAt ≤ t) → run env fuel batch σ = some σ' →
        σ'.clock ≤ t + batch.length * (env.demand fuel * most) := by
  induction batch generalizing t with
  | nil =>
      intro σ σ' _ free _ ran
      cases ran
      exact free.trans (Nat.le_add_right _ _)
  | cons datagram batch ih =>
      intro σ σ' regular free there ran
      obtain ⟨mid, served, ran⟩ := Option.bind_eq_some_iff.mp ran
      rw [List.forall_mem_cons] at there
      have first := serve_in_time quick regular served
      have next : mid.clock ≤ t + env.demand fuel * most :=
        first.trans (Nat.add_le_add_right (max_le free there.1) _)
      have later := ih (Regular.serve regular served) next
        (fun datagram member => (there.2 datagram member).trans (Nat.le_add_right _ _)) ran
      rw [List.length_cons, Nat.succ_mul]
      omega

/-- A link over which nothing comes. -/
def deafLink : Link := { acceptLink with arrivals := fun _ _ => [] }

theorem deafLink_sound : deafLink.Sound where
  patient := acceptLink_sound.patient
  tries := acceptLink_sound.tries
  ordered := fun _ _ => List.Pairwise.nil

/-- Over it every request times out, after all its retries. -/
theorem over_deafLink (env : Env) :
    env.over deafLink =
      { env with respond := fun _ _ => .error .timeout, elapsed := fun _ _ => 30 } := by
  have sends : ∀ before request,
      (deafLink.client before request).sendPacket (deafLink.socket before request) =
        (.error .timeout, ⟨30, [], 3⟩) := fun _ _ => rfl
  have respond : deafLink.respond = fun _ _ => .error .timeout := by
    funext before request
    rw [Link.respond, sends]
    rfl
  have elapsed : deafLink.elapsed = fun _ _ => 30 := by
    funext before request
    rw [Link.elapsed, sends]
  rw [Env.over, respond, elapsed]

end Downstream
end EapAccel
