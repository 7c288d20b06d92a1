import EapAccel.Downstream.Identifiers
import EapAccel.Foundations.Succession
import EapAccel.Mediator.Queue
import EapAccel.Opacity.ToSupplicant

/-!
# What releases a queued fragment

A fragment of the server waits until the supplicant has ACKed the one before it, that is for an
ACK with the Identifier of the last Request. `handle_supplicant_eap` passes the Identifier of an
ACK on, but `_send_next_downstream_fragment` does not look at it: every ACK releases a fragment,
under the Identifier after its own (`serve_releases`).

`released_in_order_iff` says for which ACKs this goes well. When an ACK is repeated, two fragments
are sent under one Identifier, and the supplicant takes the second for a repetition of the first
(`repeated_ack_releases`).
-/

set_option autoImplicit false

namespace EapAccel

open Foundations EapTls

/-- The Identifiers of the EAP-Requests that were sent to the supplicant of a session. -/
def Server.requestIds (σ : Server) (ref : ℕ) : List UInt8 :=
  σ.replies.filterMap fun sent =>
    if sent.session = ref ∧ sent.reply.eap[0]? = some codeRequest then sent.reply.eap[1]? else none

/-- The Identifier of the last of them. -/
def Server.lastRequestId (σ : Server) (ref : ℕ) : Option UInt8 := (σ.requestIds ref).getLast?

namespace Mediator

variable {client : UpstreamClient} {fuel : ℕ} {context : AuthContext}

/-- **Any ACK releases the next fragment**, under the Identifier after that of the ACK. -/
theorem handle_releases {leg : Leg} {eapBytes : Bytes} {ack : EapTlsPacket}
    (reassembling : leg.session.mode = .reassemble) (queued : leg.session.Queued)
    (waits : leg.session.downOutbox ≠ []) (parsed : parse eapBytes = .ok ack)
    (isAck : ack.isAck = true) :
    ∃ packet : EapTlsPacket, packet.code = codeRequest ∧ packet.identifier = ack.identifier + 1 ∧
      (handleSupplicantEap client fuel context eapBytes leg).1 = .ok (challengeOutcome packet) ∧
      (handleSupplicantEap client fuel context eapBytes leg).2.session.downOutbox =
        leg.session.downOutbox.tail := by
  rcases queue : leg.session.downOutbox with _ | ⟨⟨idx, chunk⟩, rest⟩
  · exact absurd queue waits
  obtain ⟨later, short⟩ := queued.fits (idx, chunk) (queue ▸ List.mem_cons_self)
  have releases := @handle_ack_queued client fuel leg (context, eapBytes) ack idx chunk rest
    reassembling parsed isAck queue short fun first => absurd first later
  refine ⟨_, rfl, rfl, congrArg Prod.fst releases, ?_⟩
  have outbox := congrArg (fun handled => handled.2.session.downOutbox) releases
  exact outbox.trans (congrArg List.tail queue)

end Mediator

namespace Downstream

open Mediator

variable {env : Env} {fuel : ℕ}

/-- **What waits in the queue of a reachable session** fits into packets. -/
theorem queued_rule (valid : env.cfg.validate = .ok ()) (fuel : ℕ) :
    ObjectRule env fuel fun _ session => session.Queued where
  created := by
    intro _ ref key now _
    exact ⟨(Config.accepted_of_validate valid).downstream.2, fun entry member => by cases member⟩
  others := fun _ _ _ _ queued => queued
  renamed := by
    intro _ session session' unnamed queued
    have of : ∀ s : Session, s.Queued ↔ s.unnamed.Queued := fun _ =>
      ⟨Session.Queued.of_view rfl, Session.Queued.of_view rfl⟩
    exact (of session').mpr (unnamed ▸ (of session).mp queued)
  noted := fun _ _ _ => Session.Queued.of_view rfl
  handled := by
    intro context eapBytes leg _ queued
    rw [route]
    split
    · exact (queued_steps.handleSupplicantEap context eapBytes).ended queued
    · apply (passthroughNonTls_keeps ?_ (queued_steps.send eapBytes context)).ended queued
      exact (@queued_steps env.client).finish

/-! ## One datagram -/

/-- The packet of a request is handled for the session `ref`: the request is not dropped, it finds
this session, and it can be noted. -/
def ComesTo (env : Env) (ref : ℕ) (addr : String × ℕ) (request : ApRequest) (σ : Server) : Prop :=
  Admitted request ∧ (found env addr request σ).1 = ref ∧ notes env addr request σ = .ok ()

instance (env : Env) (ref : ℕ) (addr : String × ℕ) (request : ApRequest) (σ : Server) :
    Decidable (ComesTo env ref addr request σ) :=
  inferInstanceAs (Decidable (_ ∧ _ ∧ _))

/-- The Identifier of the packet that a datagram brings the session `ref`. -/
def ackFor (env : Env) (ref : ℕ) (datagram : Datagram) (σ : Server) : Option UInt8 :=
  match datagram.decoded with
  | .ok request =>
      if ComesTo env ref datagram.addr request (σ.woken datagram) then request.eap[1]? else none
  | .error _ => none

/-- What a datagram brings the session `ref` is an ACK, and comes while fragments wait. -/
def OnlyAcks (env : Env) (ref : ℕ) (datagram : Datagram) (σ : Server) : Prop :=
  ∀ request, datagram.decoded = .ok request →
    ComesTo env ref datagram.addr request (σ.woken datagram) →
      (∃ ack, parse request.eap = .ok ack ∧ ack.isAck = true) ∧ (σ.objects ref).downOutbox ≠ []

/-- What an ACK for the session `ref`, or none, does to its queue and its Requests. -/
structure Releases (ref : ℕ) (acked : Option UInt8) (σ σ' : Server) : Prop where
  waited : acked.isSome → (σ.objects ref).downOutbox ≠ []
  outbox : (σ'.objects ref).downOutbox =
    if acked.isSome then (σ.objects ref).downOutbox.tail else (σ.objects ref).downOutbox
  sent : σ'.requestIds ref = σ.requestIds ref ++ (acked.map (· + 1)).toList

theorem releases_nothing {ref : ℕ} {σ σ' : Server}
    (outbox : (σ'.objects ref).downOutbox = (σ.objects ref).downOutbox)
    (sent : σ'.requestIds ref = σ.requestIds ref) : Releases ref none σ σ' :=
  ⟨nofun, outbox, sent.trans (List.append_nil _).symm⟩

theorem requestIds_concat {σ σ' : Server} {sent : BuiltReply}
    (grown : σ'.replies = σ.replies ++ [sent]) (ref : ℕ) :
    σ'.requestIds ref = σ.requestIds ref ++
      (if sent.session = ref ∧ sent.reply.eap[0]? = some codeRequest then
        sent.reply.eap[1]? else none).toList := by
  rw [Server.requestIds, grown, List.filterMap_append]
  rfl

theorem handleRequest_downOutbox (addr : String × ℕ) (request : ApRequest) (σ : Server) (ref : ℕ) :
    ((handleRequest env fuel addr request σ).2.objects ref).downOutbox =
      ((afterHandling env fuel addr request σ).objects ref).downOutbox :=
  congrArg (·.downOutbox) (handleRequest_unnamed addr request σ ref)

/-- A request for another session. -/
theorem handleRequest_elsewhere {addr : String × ℕ} {request : ApRequest} {σ : Server} {ref : ℕ}
    (other : ref ≠ (found env addr request σ).1) :
    Releases ref none σ (handleRequest env fuel addr request σ).2 := by
  apply releases_nothing
  · rw [handleRequest_downOutbox, afterHandling, Server.put_objects_of_ne _ _ other]
    rcases opened_objects σ env (sessionKey request addr request.eap) ref with old | ⟨same, _⟩
    · exact congrArg (·.downOutbox) old
    · exact absurd same.symm other
  · rcases result : (handled env fuel addr request σ).1 with e | outcome
    · rw [Server.requestIds, handleRequest_silent result, Server.requestIds]
    · rw [requestIds_concat (handleRequest_answers result) ref]
      have elsewhere : (answer env (found env addr request σ).1 request outcome
          (afterHandling env fuel addr request σ)).1.session ≠ ref := Ne.symm other
      rw [if_neg fun both => elsewhere both.1]
      exact List.append_nil _

/-- An ACK for the session, while fragments wait. -/
theorem handleRequest_releases (reassembling : env.cfg.sessionMode = .reassemble) {σ : Server}
    (regular : σ.Regular env) {ref : ℕ} (queued : (σ.objects ref).Queued) (there : ref < σ.created)
    {addr : String × ℕ} {request : ApRequest} (here : (found env addr request σ).1 = ref)
    (noted : notes env addr request σ = .ok ()) (waits : (σ.objects ref).downOutbox ≠ [])
    {ack : EapTlsPacket} (parsed : parse request.eap = .ok ack) (isAck : ack.isAck = true) :
    Releases ref (some ack.identifier) σ (handleRequest env fuel addr request σ).2 := by
  have start := @startOf_session env σ ref there addr request here
  have outbox : (startOf env addr request σ).session.downOutbox = (σ.objects ref).downOutbox :=
    congrArg (·.downOutbox) start
  have size : (startOf env addr request σ).session.downstreamFragmentSize =
      (σ.objects ref).downstreamFragmentSize := congrArg (·.downstreamFragmentSize) start
  obtain ⟨packet, code, identifier, returned, released⟩ :=
    @handle_releases env.client fuel request.context (startOf env addr request σ) request.eap ack
      ((startOf_mode regular addr request).trans reassembling)
      (Session.Queued.of_view (Prod.ext size outbox) queued) (outbox ▸ waits) parsed isAck
  rw [← handled_of_parse parsed noted] at returned released
  refine ⟨fun _ => waits, ?_, ?_⟩
  · rw [handleRequest_downOutbox, afterHandling, ← here, Server.put_objects_self]
    rw [here, ← outbox]
    exact released
  · rw [requestIds_concat (handleRequest_answers returned) ref, answer_eap, if_pos]
    · exact congrArg (fun id => σ.requestIds ref ++ id.toList) (congrArg some identifier)
    · exact ⟨here, congrArg some code⟩

/-- A request for the session that cannot be noted. -/
theorem handleRequest_unnoted {σ : Server} {ref : ℕ} (there : ref < σ.created) {addr : String × ℕ}
    {request : ApRequest} (here : (found env addr request σ).1 = ref)
    (unnoted : notes env addr request σ ≠ .ok ()) :
    Releases ref none σ (handleRequest env fuel addr request σ).2 := by
  have start := @startOf_session env σ ref there addr request here
  rcases handled_cases env fuel addr request σ with ⟨noted, _⟩ | ⟨e, _, raised⟩
  · exact absurd noted unnoted
  have failed : (handled env fuel addr request σ).1 = .error e := congrArg Prod.fst raised
  apply releases_nothing
  · rw [handleRequest_downOutbox, afterHandling, ← here, Server.put_objects_self, raised, here]
    exact congrArg (·.downOutbox) start
  · rw [Server.requestIds, handleRequest_silent failed, Server.requestIds]

/-- Where only ACKs come for a session, a turn brings it nothing, or an ACK while fragments
wait. -/
theorem onlyAcks_cases {σ σ' : Server} {ref : ℕ} {datagram : Datagram}
    (only : OnlyAcks env ref datagram σ) (served : serve env fuel datagram σ = some σ') :
    (ackFor env ref datagram σ = none ∧ (σ' = σ.woken datagram ∨ ∃ request,
      (ref ≠ (found env datagram.addr request (σ.woken datagram)).1 ∨
        (found env datagram.addr request (σ.woken datagram)).1 = ref ∧
          notes env datagram.addr request (σ.woken datagram) ≠ .ok ()) ∧
        σ' = (handleRequest env fuel datagram.addr request (σ.woken datagram)).2)) ∨
    ∃ request ack, ComesTo env ref datagram.addr request (σ.woken datagram) ∧
      parse request.eap = .ok ack ∧ ack.isAck = true ∧ (σ.objects ref).downOutbox ≠ [] ∧
      ackFor env ref datagram σ = some ack.identifier ∧
      σ' = (handleRequest env fuel datagram.addr request (σ.woken datagram)).2 := by
  by_cases handles : ∃ request, datagram.decoded = .ok request ∧ Admitted request
  · obtain ⟨request, decoded, admitted⟩ := handles
    have same := serve_admitted decoded admitted served
    by_cases comes : ComesTo env ref datagram.addr request (σ.woken datagram)
    · obtain ⟨⟨ack, parsed, isAck⟩, waits⟩ := only request decoded comes
      have acked : ackFor env ref datagram σ = some ack.identifier := by
        rw [ackFor, decoded]
        exact (if_pos comes).trans (identifier_of_parse parsed)
      exact .inr ⟨request, ack, comes, parsed, isAck, waits, acked, same⟩
    · have none : ackFor env ref datagram σ = none := by
        rw [ackFor, decoded]
        exact if_neg comes
      refine .inl ⟨none, .inr ⟨request, ?_, same⟩⟩
      by_cases here : (found env datagram.addr request (σ.woken datagram)).1 = ref
      · exact .inr ⟨here, fun noted => comes ⟨admitted, here, noted⟩⟩
      · exact .inl (Ne.symm here)
  · have none : ackFor env ref datagram σ = none := by
      rw [ackFor]
      rcases decoded : datagram.decoded with e | request
      · rfl
      · exact if_neg fun comes => handles ⟨request, decoded, comes.1⟩
    exact .inl ⟨none, .inl (serve_dropped handles served)⟩

/-- **Every ACK for the session releases a fragment**, and nothing else reaches its queue. -/
theorem serve_releases (reassembling : env.cfg.sessionMode = .reassemble) {σ σ' : Server}
    (regular : σ.Regular env) {ref : ℕ} (queued : (σ.objects ref).Queued) (there : ref < σ.created)
    {datagram : Datagram} (only : OnlyAcks env ref datagram σ)
    (served : serve env fuel datagram σ = some σ') :
    Releases ref (ackFor env ref datagram σ) σ σ' := by
  rcases onlyAcks_cases only served with
    ⟨none, rfl | ⟨request, other | ⟨here, unnoted⟩, rfl⟩⟩ |
    ⟨request, ack, ⟨_, here, noted⟩, parsed, isAck, waits, acked, rfl⟩
  · rw [none]
    exact releases_nothing rfl rfl
  · have elsewhere := @handleRequest_elsewhere env fuel _ _ _ ref other
    rw [none]
    exact ⟨elsewhere.waited, elsewhere.outbox, elsewhere.sent⟩
  · have dropped := @handleRequest_unnoted env fuel (σ.woken datagram) ref there _ _ here unnoted
    rw [none]
    exact ⟨dropped.waited, dropped.outbox, dropped.sent⟩
  · have released := @handleRequest_releases env fuel reassembling _
      (Regular.woken regular datagram) ref queued there _ _ here noted waits _ parsed isAck
    rw [acked]
    exact ⟨released.waited, released.outbox, released.sent⟩

/-! ## Sequences of ACKs -/

/-- The Identifiers of the ACKs that a run brings the session `ref`. -/
def acksFor (env : Env) (fuel ref : ℕ) : List Datagram → Server → List UInt8
  | [], _ => []
  | datagram :: datagrams, σ =>
      (ackFor env ref datagram σ).toList ++
        match serve env fuel datagram σ with
        | some σ' => acksFor env fuel ref datagrams σ'
        | none => []

/-- A fragment for the session `ref` is taken from its queue only for an ACK with the Identifier
of its last Request. -/
def ReleasedByItsAck (env : Env) (fuel ref : ℕ) (datagram : Datagram) (σ : Server) : Prop :=
  ∀ σ', serve env fuel datagram σ = some σ' →
    (σ'.objects ref).downOutbox ≠ (σ.objects ref).downOutbox →
      ∃ identifier, ackFor env ref datagram σ = some identifier ∧
        σ.lastRequestId ref = some identifier

theorem Releases.last {ref : ℕ} {acked : Option UInt8} {σ σ' : Server}
    (releases : Releases ref acked σ σ') :
    σ'.lastRequestId ref = (acked.map (· + 1)).or (σ.lastRequestId ref) := by
  rw [Server.lastRequestId, releases.sent]
  cases acked with
  | none => rw [Option.map_none, Option.toList_none, List.append_nil, Option.none_or]; rfl
  | some identifier =>
      rw [Option.map_some, Option.toList_some, List.getLast?_concat, Option.some_or]

/-- An ACK is the right one exactly if it has the Identifier of the last Request. -/
theorem releasedByItsAck_iff {ref : ℕ} {datagram : Datagram} {σ σ' : Server}
    (served : serve env fuel datagram σ = some σ')
    (releases : Releases ref (ackFor env ref datagram σ) σ σ') :
    ReleasedByItsAck env fuel ref datagram σ ↔
      ∀ identifier, ackFor env ref datagram σ = some identifier →
        σ.lastRequestId ref = some identifier := by
  have changes : (σ'.objects ref).downOutbox ≠ (σ.objects ref).downOutbox ↔
      (ackFor env ref datagram σ).isSome := by
    rw [releases.outbox]
    constructor
    · intro different
      by_contra none
      exact different (if_neg none)
    · intro acked same
      rw [if_pos acked] at same
      have shorter := congrArg List.length same
      rw [List.length_tail] at shorter
      have long := List.length_pos_iff.mpr (releases.waited acked)
      omega
  constructor
  · intro law identifier acked
    obtain ⟨other, same, last⟩ := law σ' served (changes.mpr (acked ▸ rfl))
    rw [acked] at same
    cases same
    exact last
  · intro right σ'' served' different
    rw [served] at served'
    cases served'
    obtain ⟨identifier, acked⟩ := Option.isSome_iff_exists.mp (changes.mp different)
    exact ⟨identifier, acked, right identifier acked⟩

/-- The Identifiers of the Requests that a run sends to the supplicant of the session `ref`. -/
def released (ref : ℕ) (σ σ' : Server) : List UInt8 :=
  (σ'.requestIds ref).drop (σ.requestIds ref).length

/-- What a sequence of ACKs releases, and when it releases it in order. -/
theorem run_releases (valid : env.cfg.validate = .ok ())
    (reassembling : env.cfg.sessionMode = .reassemble) {ref : ℕ} {datagrams : List Datagram} :
    ∀ {before : List Datagram} {σ σ' : Server}, run env fuel before (initial env) = some σ →
      ref < σ.created → Along (serve env fuel) (OnlyAcks env ref) datagrams σ →
      run env fuel datagrams σ = some σ' →
        σ'.requestIds ref =
          σ.requestIds ref ++ (acksFor env fuel ref datagrams σ).map (· + 1) ∧
        (Along (serve env fuel) (ReleasedByItsAck env fuel ref) datagrams σ ↔
          Successive (σ.lastRequestId ref) (acksFor env fuel ref datagrams σ)) := by
  induction datagrams with
  | nil =>
      intro before σ σ' _ _ _ ran
      cases ran
      exact ⟨(List.append_nil _).symm, Iff.rfl⟩
  | cons datagram datagrams ih =>
      intro before σ σ' reached there only ran
      obtain ⟨mid, served, rest⟩ := Option.bind_eq_some_iff.mp ran
      have regular := regular_of_run reached
      have releases := serve_releases reassembling regular
        ((queued_rule valid fuel).holds reached ref) there only.1 served
      obtain ⟨sent, law⟩ := ih (runAll_concat reached served)
        (there.trans_le (serve_created regular served))
        (only.2 mid served) rest
      have acks : acksFor env fuel ref (datagram :: datagrams) σ =
          (ackFor env ref datagram σ).toList ++ acksFor env fuel ref datagrams mid := by
        rw [acksFor, served]
      have now := releasedByItsAck_iff served releases
      have along : Along (serve env fuel) (ReleasedByItsAck env fuel ref) (datagram :: datagrams) σ ↔
          ReleasedByItsAck env fuel ref datagram σ ∧
            Successive (mid.lastRequestId ref) (acksFor env fuel ref datagrams mid) := by
        rw [← law]
        apply and_congr_right'
        constructor
        · exact fun later => later mid served
        · intro later other same
          rw [served] at same
          cases same
          exact later
      rw [along, now, acks, sent, releases.sent, releases.last]
      cases ackFor env ref datagram σ with
      | none =>
          rw [Option.map_none, Option.none_or, Option.toList_none, List.append_nil, List.nil_append]
          exact ⟨rfl, and_iff_right nofun⟩
      | some identifier =>
          rw [Option.map_some, Option.some_or, Option.toList_some, Option.toList_some,
            List.append_assoc]
          refine ⟨rfl, and_congr_left' ?_⟩
          exact ⟨fun right => right identifier rfl, fun last _ same => Option.some.inj same ▸ last⟩

/-- In a run, fragments for the session `ref` were released in order. -/
structure InOrder (env : Env) (fuel ref : ℕ) (datagrams : List Datagram) (σ σ' : Server) :
    Prop where
  /-- Each was released by the ACK of the Request before it. -/
  acked : Along (serve env fuel) (ReleasedByItsAck env fuel ref) datagrams σ
  /-- No two were sent under one Identifier, which is not that of the Request before them. -/
  distinct : ((σ.lastRequestId ref).toList ++ released ref σ σ').Nodup
  /-- A supplicant that takes only the Request after the one it ACKed last took all of them. -/
  taken : accepted (σ.lastRequestId ref) (released ref σ σ') = released ref σ σ'

/-- **Fragments are released in order exactly by ACKs in succession**, as long as they do not
wrap around. -/
theorem released_in_order_iff (valid : env.cfg.validate = .ok ())
    (reassembling : env.cfg.sessionMode = .reassemble) {before : List Datagram} {σ : Server}
    (reached : run env fuel before (initial env) = some σ) {ref : ℕ} (there : ref < σ.created)
    {datagrams : List Datagram} (only : Along (serve env fuel) (OnlyAcks env ref) datagrams σ)
    {σ' : Server} (ran : run env fuel datagrams σ = some σ') :
    InOrder env fuel ref datagrams σ σ' ↔
      Successive (σ.lastRequestId ref) (acksFor env fuel ref datagrams σ) ∧
        (acksFor env fuel ref datagrams σ).length ≤ 255 := by
  obtain ⟨sent, law⟩ := run_releases valid reassembling reached there only ran
  have sends : released ref σ σ' = (acksFor env fuel ref datagrams σ).map (· + 1) := by
    rw [released, sent, List.drop_left]
  generalize acksFor env fuel ref datagrams σ = acks at sends law
  have distinct : Successive (σ.lastRequestId ref) acks →
      (((σ.lastRequestId ref).toList ++ acks.map (· + 1)).Nodup ↔ acks.length ≤ 255) := by
    intro successive
    cases last : σ.lastRequestId ref with
    | none =>
        cases acks with
        | nil => exact ⟨fun _ => Nat.zero_le _, fun _ => List.nodup_nil⟩
        | cons ack acks => exact absurd (last.symm.trans successive.1) (Option.some_ne_none ack).symm
    | some first =>
        rw [last] at successive
        rw [Option.toList_some, List.singleton_append, eq_successors successive,
          nodup_successors_iff]
        exact Nat.succ_le_succ_iff
  constructor
  · intro inOrder
    have successive := law.mp inOrder.acked
    refine ⟨successive, (distinct successive).mp ?_⟩
    rw [← sends]
    exact inOrder.distinct
  · rintro ⟨successive, few⟩
    refine ⟨law.mpr successive, ?_, ?_⟩
    · rw [sends]
      exact (distinct successive).mpr few
    · rw [sends]
      exact (accepted_eq_self_iff acks _).mpr successive

/-- Records are cut into octets, and the server's first reply is a record of three. -/
def cutting : Env :=
  { answeringInTurn "reassemble" [{ code := accessChallenge, state := some [1]
                                    eapMessage := [[codeRequest, 8, 0, 9, eapTypeTls, 0, 1, 2, 3]] }]
    with cfg := { Config.sample "reassemble" with downstream := { fragmentSize := 1 } } }

/-- An empty EAP-TLS Response. -/
def ackWith (state : Option Bytes) (identifier : UInt8) : Datagram :=
  datagramOf (requestWith state [codeResponse, identifier, 0, 6, eapTypeTls, 0])

/-- The ACK of the first fragment releases the second. -/
theorem released_in_order_sample :
    ∃ σ σ', run cutting 0 [ackWith none 7] (initial cutting) = some σ ∧
      run cutting 0 [ackWith (some [0]) 8] σ = some σ' ∧ σ.lastRequestId 0 = some 8 ∧
        InOrder cutting 0 0 [ackWith (some [0]) 8] σ σ' := by
  refine ⟨_, _, rfl, rfl, rfl, ?_⟩
  refine (@released_in_order_iff cutting 0 (by decide) rfl [ackWith none 7] _ rfl 0 ?_ _ ?_ _ rfl).mpr
    ?_
  · exact Nat.zero_lt_one
  · refine ⟨?_, fun _ _ => trivial⟩
    rintro request ⟨⟩ _
    exact ⟨⟨_, rfl, rfl⟩, by decide⟩
  · exact ⟨⟨rfl, trivial⟩, by decide⟩

/-- When the ACK of the first fragment is repeated, the third is sent under the Identifier of the
second. -/
theorem repeated_ack_releases :
    cutting.cfg.validate = .ok () ∧
    ∃ σ σ', run cutting 0 [ackWith none 7] (initial cutting) = some σ ∧
      Along (serve cutting 0) (OnlyAcks cutting 0)
        [ackWith (some [0]) 8, ackWith (some [0]) 8] σ ∧
      run cutting 0 [ackWith (some [0]) 8, ackWith (some [0]) 8] σ = some σ' ∧
      released 0 σ σ' = [9, 9] ∧
      ¬ InOrder cutting 0 0 [ackWith (some [0]) 8, ackWith (some [0]) 8] σ σ' := by
  refine ⟨by decide, _, _, rfl, ⟨?_, fun mid served => ⟨?_, fun _ _ => trivial⟩⟩, rfl, rfl, ?_⟩
  · rintro request ⟨⟩ _
    exact ⟨⟨_, rfl, rfl⟩, by decide⟩
  · cases served
    rintro request ⟨⟩ _
    exact ⟨⟨_, rfl, rfl⟩, by decide⟩
  · intro inOrder
    exact absurd inOrder.distinct (by decide)

end Downstream
end EapAccel
