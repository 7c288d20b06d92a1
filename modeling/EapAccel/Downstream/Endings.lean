import EapAccel.Mediator.Budget
import EapAccel.Downstream.Reachable
import EapAccel.Downstream.Verdicts

/-!
# When the server comes to an end with a datagram

`serve_forever` handles one datagram after another, and hangs with the one whose handling does not
end. With a larger budget a run is the same run (`run_prolongs`). The server hangs on one thing
only: that the auth server goes on sending empty fragments with the M bit, whatever else comes and
fails (`hangs_on_empties`).
-/

set_option autoImplicit false

namespace EapAccel

open Foundations EapTls Mediator

namespace Downstream

variable {env : Env} {n m few : ℕ}

/-! ## Larger budgets -/

theorem route_prolongs (larger : n ≤ m) (context : AuthContext) (eapBytes : Bytes) :
    Act.Prolongs Raised.outOfFuel (route env n context eapBytes) (route env m context eapBytes) :=
  Act.Prolongs.ite (handleSupplicantEap_prolongs larger eapBytes) (.refl _)

theorem handleRequest_prolongs (larger : n ≤ m) (addr : String × ℕ) (request : ApRequest) :
    Act.Prolongs Raised.outOfFuel (handleRequest env n addr request)
      (handleRequest env m addr request) := by
  apply Act.Prolongs.continue_
  intro ref
  apply Act.Prolongs.continue_
  intro _
  apply Act.Prolongs.bind (Act.Prolongs.zoom (route_prolongs larger _ _))
  exact fun outcome => .refl _

/-- **With a larger budget a datagram is handled the same.** -/
theorem serve_prolongs (larger : n ≤ m) {datagram : Datagram} {σ σ' : Server}
    (served : serve env n datagram σ = some σ') : serve env m datagram σ = some σ' := by
  have prolongs : Act.Prolongs Raised.outOfFuel (handleDatagram env n datagram)
      (handleDatagram env m datagram) := by
    apply Act.Prolongs.continue_
    intro request
    exact Act.Prolongs.ite (handleRequest_prolongs larger datagram.addr request) (.refl _)
  rw [serve] at served
  split at served
  · cases served
  · next ended =>
      have same := prolongs _ ended
      rw [serve, same, if_neg ended]
      exact served

/-- **With a larger budget a run is the same run.** -/
theorem run_prolongs (larger : n ≤ m) {datagrams : List Datagram} {σ σ' : Server}
    (ran : run env n datagrams σ = some σ') : run env m datagrams σ = some σ' :=
  runAll_prolongs (fun _ _ _ => serve_prolongs larger) ran

/-! ## What it hangs on -/

/-- What the program calls returns or raises: asking the server, encoding and packing, sending and
reporting. -/
structure Genuine (env : Env) : Prop where
  answers : ∀ before request, env.respond before request ≠ .error .outOfFuel
  encodes : ∀ value, env.encodeOctets value ≠ .error .outOfFuel
  packsRequest : ∀ request, env.requestPacket request ≠ .error .outOfFuel
  packsReply : ∀ reply, env.replyPacket reply ≠ .error .outOfFuel
  transmits : ∀ before built, env.transmit before built ≠ .error .outOfFuel
  reports : ∀ before report, env.report before report ≠ .error .outOfFuel

theorem Genuine.answering (genuine : Genuine env) : Answering env.client := by
  intro before request
  have encodes : ∀ value, env.client.encodeOctets value ≠ .error .outOfFuel := genuine.encodes
  apply Except.bind_fine
  · apply Except.bind_fine
    · apply Except.bind_fine (Except.option_mapM_fine encodes _)
      intro state
      apply Except.bind_fine (Except.mapM_fine encodes _)
      exact fun eapMessage => Except.ok_fine _
    · intro packet
      exact Except.bind_fine (genuine.packsRequest packet) fun _ => Except.ok_fine _
  · exact fun packet => genuine.answers before packet

theorem Genuine.sends (genuine : Genuine env) (before : List BuiltReply) (built : BuiltReply) :
    env.send before built ≠ .error .outOfFuel := by
  apply Except.bind_fine
  · apply Except.bind_fine (Except.option_mapM_fine genuine.encodes _)
    intro state
    apply Except.bind_fine (Except.option_mapM_fine genuine.encodes _)
    intro sendKey
    apply Except.bind_fine (Except.option_mapM_fine genuine.encodes _)
    intro recvKey
    apply Except.bind_fine (Except.mapM_fine genuine.encodes _)
    intro eapMessage
    exact Except.bind_fine (genuine.packsReply _) fun _ => Except.ok_fine _
  · intro packet
    exact Except.bind_fine (genuine.transmits before built) fun _ => Except.ok_fine _

/-- pyrad's decoding of the datagram returns or raises, and so does its decoding of the attributes
that are captured. -/
structure Decodes (datagram : Datagram) : Prop where
  packet : datagram.decoded ≠ .error .outOfFuel
  attributes : ∀ request, datagram.decoded = .ok request → ∀ attr ∈ request.nasAttrs,
    attr.2 ≠ .error .outOfFuel

theorem capture_fine {request : ApRequest}
    (decodes : ∀ attr ∈ request.nasAttrs, attr.2 ≠ .error .outOfFuel) :
    ∀ names : List ForwardedAttr, (request.capture names).1 ≠ .error .outOfFuel := by
  intro names
  induction names with
  | nil => exact Except.ok_fine ()
  | cons name names ih =>
      rw [ApRequest.capture]
      rcases there : request.nasAttrs.lookup name with _ | (e | value)
      · exact ih
      · exact fun raised => decodes (name, .error e) (mem_of_lookup there)
          (by simpa using raised)
      · exact ih

/-- The budget for so many empty fragments. -/
def budget (cfg : Config) (few : ℕ) : ℕ := cfg.maxMessageLen + few + 1

/-- While the datagram is handled, the server sends more than `few` empty fragments with the M
bit. -/
def Flooded (env : Env) (few : ℕ) (datagram : Datagram) (σ : Server) : Prop :=
  ∃ new, (handleDatagram env (budget env.cfg few) datagram (σ.woken datagram)).2.exchanges =
    σ.exchanges ++ new ∧ few < emptyReplies new

theorem passthroughNonTls_fine (genuine : Genuine env) (context : AuthContext) (eapBytes : Bytes) :
    Act.Fine Raised.outOfFuel (passthroughNonTls env context eapBytes) := by
  apply Act.Fine.bind (exchange_fine genuine.answering eapBytes)
  intro reply
  apply Act.Fine.ite (Act.Fine.bind (Act.Fine.modify _) fun _ => Act.Fine.pure _)
  exact Act.Fine.ite (Act.Fine.bind (Act.Fine.modify _) fun _ => Act.Fine.pure _) (Act.Fine.pure _)

/-- The handling of a request ends, or it is flooded. -/
theorem handled_overruns (genuine : Genuine env) {σ : Server} (regular : σ.Regular env)
    (addr : String × ℕ) {request : ApRequest}
    (decodes : ∀ attr ∈ request.nasAttrs, attr.2 ≠ .error .outOfFuel)
    (spent : (handled env (budget env.cfg few) addr request σ).1 = .error .outOfFuel) :
    ∃ new, (handled env (budget env.cfg few) addr request σ).2.exchanges = σ.exchanges ++ new ∧
      few < emptyReplies new := by
  have limit := (Session.configured_of_settings (startOf_settings regular addr request)).downLimit
  have since : Since σ.exchanges env.cfg.maxMessageLen (startOf env addr request σ) :=
    ⟨(startOf_exchanges addr request σ).symm ▸ List.prefix_rfl, limit⟩
  have routed : handled env (budget env.cfg few) addr request σ =
      route env (budget env.cfg few) request.context request.eap (startOf env addr request σ) := by
    rcases handled_cases env (budget env.cfg few) addr request σ with ⟨_, same⟩ | ⟨e, raises, same⟩
    · exact same
    · rw [same] at spent
      cases spent
      rw [notes, captured] at raises
      split at raises
      · exact absurd raises (capture_fine decodes forwardedAttrNames)
      · cases raises
  rw [routed] at spent ⊢
  rw [route, Act.ite_apply] at spent ⊢
  by_cases tls : request.eap[4]? = some eapTypeTls
  · rw [if_pos tls] at spent ⊢
    have overruns := @handleSupplicantEap_overruns env.client request.context σ.exchanges
      env.cfg.maxMessageLen few genuine.answering request.eap _ since
    rcases ended : handleSupplicantEap env.client (env.cfg.maxMessageLen + few + 1) request.context
      request.eap (startOf env addr request σ) with ⟨e | outcome, leg⟩
    · rw [budget, ended] at spent ⊢
      rw [ended] at overruns
      cases spent
      exact overruns rfl
    · rw [budget, ended] at spent
      cases spent
  · rw [if_neg tls] at spent
    exact absurd spent (passthroughNonTls_fine genuine _ _ _)

/-- **The handling of a datagram ends, or it is flooded.** -/
theorem flooded_of_hanging (genuine : Genuine env) {σ : Server} (regular : σ.Regular env)
    {datagram : Datagram} (decodes : Decodes datagram)
    (hangs : serve env (budget env.cfg few) datagram σ = none) :
    Flooded env few datagram σ := by
  have spent : (handleDatagram env (budget env.cfg few) datagram (σ.woken datagram)).1 =
      .error .outOfFuel := by
    by_contra ended
    exact absurd ((if_neg ended).symm.trans hangs) (Option.some_ne_none _)
  rw [Flooded]
  rcases decoded : datagram.decoded with e | request
  · rw [handleDatagram, decoded] at spent
    cases spent
    exact absurd decoded decodes.packet
  · rw [handleDatagram, decoded, Act.bind_lift_ok, Act.ite_apply] at spent ⊢
    by_cases admitted : Admitted request
    · rw [if_pos admitted] at spent ⊢
      rw [handleRequest_exchanges]
      apply handled_overruns genuine (Regular.woken regular datagram) _
        (decodes.attributes request decoded)
      rcases result : (handled env (budget env.cfg few) datagram.addr request (σ.woken datagram)).1
        with e | outcome
      · rw [handleRequest_of_error result] at spent
        cases spent
        rfl
      · rw [handleRequest_of_ok result] at spent
        exact absurd spent (conclude_raises genuine.sends genuine.reports _ _ _ _)
    · rw [if_neg admitted] at spent
      cases spent

/-! ## Runs -/

/-- The run comes to an end. -/
def EndsIn (env : Env) (few : ℕ) (datagrams : List Datagram) (σ : Server) : Prop :=
  ∀ fuel ≥ budget env.cfg few, run env fuel datagrams (initial env) = some σ

/-- **The server hangs on empty fragments only.** -/
theorem hangs_on_empties (genuine : Genuine env) (few : ℕ) {datagrams : List Datagram}
    (decode : ∀ datagram ∈ datagrams, Decodes datagram) :
    (∃ σ, EndsIn env few datagrams σ) ∨
      ∃ before datagram after σ, datagrams = before ++ datagram :: after ∧
        EndsIn env few before σ ∧ Flooded env few datagram σ := by
  induction datagrams using List.reverseRecOn with
  | nil => exact .inl ⟨initial env, fun _ _ => rfl⟩
  | append_singleton datagrams datagram ih =>
      rcases ih fun other member => decode other (List.mem_append_left _ member) with
        ⟨σ, ends⟩ | ⟨before, flooding, after, σ, split, ends, flooded⟩
      · rcases served : serve env (budget env.cfg few) datagram σ with _ | σ'
        · refine .inr ⟨datagrams, datagram, [], σ, rfl, ends, ?_⟩
          have regular := regular_of_run (ends _ le_rfl)
          apply flooded_of_hanging genuine regular _ served
          exact decode datagram (by simp)
        · have ran := runAll_concat (ends _ le_rfl) served
          exact .inl ⟨σ', fun fuel enough => run_prolongs enough ran⟩
      · refine .inr ⟨before, flooding, after ++ [datagram], σ, ?_, ends, flooded⟩
        rw [split, List.append_assoc]
        rfl

/-- A server that sends empty fragments for ever, and a proxy that takes messages of three
octets. -/
def floodingServer : Env where
  cfg := { Config.sample "reassemble" with maxMessageLen := 3 }
  respond := fun _ _ => .ok
    { emptyChallenge with eapMessage := [[codeRequest, 8, 0, 6, eapTypeTls, flagMoreFragments]] }
  token := fun n => [UInt8.ofNat n]

theorem floodingServer_genuine : Genuine floodingServer where
  answers := fun _ _ => Except.ok_fine _
  encodes := fun _ => Except.ok_fine _
  packsRequest := fun _ => Except.ok_fine _
  packsReply := fun _ => Except.ok_fine _
  transmits := fun _ _ => Except.ok_fine _
  reports := fun _ _ => Except.ok_fine _

/-- An Identity, and a record. -/
def floodedDatagrams : List Datagram :=
  [identityDatagram,
    datagramOf (requestWith (some [0]) [codeResponse, 9, 0, 9, eapTypeTls, 0, 1, 2, 3])]

/-- The server goes on with its empty fragments until the turns are used up. -/
theorem hangs_on_empties_sample :
    ∃ before datagram after σ, floodedDatagrams = before ++ datagram :: after ∧
      EndsIn floodingServer 0 before σ ∧ Flooded floodingServer 0 datagram σ := by
  have decode : ∀ datagram ∈ floodedDatagrams, Decodes datagram := by
    intro datagram member
    constructor
    · intro raised
      rcases List.mem_pair.mp member with rfl | rfl <;> cases raised
    · intro request decoded attr there
      rcases List.mem_pair.mp member with rfl | rfl <;> cases decoded <;> cases there
  rcases hangs_on_empties floodingServer_genuine 0 decode with ⟨σ, ends⟩ | flooded
  · have spent : (run floodingServer (budget floodingServer.cfg 0) floodedDatagrams
        (initial floodingServer)).isNone := by decide +kernel
    rw [ends _ le_rfl] at spent
    cases spent
  · exact flooded

end Downstream
end EapAccel
