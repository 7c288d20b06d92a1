import EapAccel.Downstream.Placement
import EapAccel.Downstream.Reaping

/-!
# When sessions leave the table

`reap_idle` compares the age of a session, not the time since its last request, with the
idle timeout, and nothing in the server calls it. So a session that is not finished stays in
the table until `reap_idle` is called when it is old, or another session is given its key
(`Booked`, `live_iff`).

The table holds just the sessions that were lately heard of exactly when the calls happen to
come to sessions that are both old and silent, and to all of these (`idle_exact_iff`).
-/

set_option autoImplicit false

namespace EapAccel

open Foundations EapTls

/-! ## What time does to a session -/

/-- A session is later as `s'`: it has its start, and what is unfinished now has been
unfinished all along. -/
structure Session.Ages (s s' : Session) : Prop where
  startedAt : s'.startedAt = s.startedAt
  result : s'.result = none → s.result = none
  completedAt : s'.result = none → s'.completedAt = s.completedAt

theorem Session.Ages.trans {s s' s'' : Session} (first : s.Ages s') (second : s'.Ages s'') :
    s.Ages s'' :=
  ⟨second.startedAt.trans first.startedAt, fun none => first.result (second.result none),
    fun none => (second.completedAt none).trans (first.completedAt (second.result none))⟩

theorem Session.result_of_unnamed {s t : Session} (same : t.unnamed = s.unnamed) :
    t.result = s.result := by
  have of : ∀ s : Session, s.result = s.unnamed.result := fun _ => rfl
  rw [of t, same, of s]

/-- Names do not matter. -/
theorem Session.Ages.of_unnamed {s s' t : Session} (ages : s.Ages s')
    (same : t.unnamed = s'.unnamed) : s.Ages t := by
  have of : ∀ s : Session, (s.startedAt, s.result, s.completedAt) =
      (s.unnamed.startedAt, s.unnamed.result, s.unnamed.completedAt) := fun _ => rfl
  have fields : (t.startedAt, t.result, t.completedAt) =
      (s'.startedAt, s'.result, s'.completedAt) := by rw [of t, same, of s']
  simp only [Prod.mk.injEq] at fields
  obtain ⟨startedAt, result, completedAt⟩ := fields
  refine ⟨startedAt.trans ages.startedAt, fun none => ages.result (result ▸ none), fun none => ?_⟩
  exact completedAt.trans (ages.completedAt (result ▸ none))

namespace Mediator

variable {client : UpstreamClient} {fuel : ℕ}

/-- Since `start`, time has gone on. -/
structure Elapsed (start leg : Leg) : Prop where
  clock : start.clock ≤ leg.clock
  session : start.session.Ages leg.session

theorem Elapsed.refl (leg : Leg) : Elapsed leg leg := ⟨le_rfl, rfl, id, fun _ => rfl⟩

/-- The part of the state that tells the time. -/
def timeView (leg : Leg) : ℕ × ℕ × Option Verdict × Option ℕ :=
  (leg.clock, leg.session.startedAt, leg.session.result, leg.session.completedAt)

theorem elapsed_of_view {start leg leg' : Leg} (same : timeView leg' = timeView leg)
    (elapsed : Elapsed start leg) : Elapsed start leg' := by
  simp only [timeView, Prod.mk.injEq] at same
  obtain ⟨clock, startedAt, result, completedAt⟩ := same
  refine ⟨clock ▸ elapsed.clock, startedAt.trans elapsed.session.startedAt, ?_, ?_⟩
  · exact fun none => elapsed.session.result (result ▸ none)
  · exact fun none => completedAt.trans (elapsed.session.completedAt (result ▸ none))

theorem elapsed_of_keeps {α : Type} {x : Act Raised Leg α} {start : Leg}
    (keeps : Act.Keeps timeView x) : Act.Invariant (Elapsed start) x :=
  keeps.invariant fun _ _ => elapsed_of_view

/-- A session that has a result is not unfinished. -/
theorem elapsed_of_result {start leg : Leg} {session : Session} (elapsed : Elapsed start leg)
    (startedAt : session.startedAt = leg.session.startedAt) (result : session.result ≠ none) :
    Elapsed start { leg with session := session } :=
  ⟨elapsed.clock, startedAt.trans elapsed.session.startedAt, fun none => absurd none result,
    fun none => absurd none result⟩

theorem exchange_elapses (start : Leg) (eapPayload : Bytes) (context : AuthContext) :
    Act.Invariant (Elapsed start) (exchange client eapPayload context) := by
  refine Act.Invariant.of_ended fun leg elapsed => ?_
  have sent : Elapsed start (leg.sent client eapPayload context) :=
    ⟨elapsed.clock.trans (Nat.le_add_right _ _), elapsed.session.startedAt,
      elapsed.session.result, elapsed.session.completedAt⟩
  rw [exchange_eq]
  rcases leg.outcome client eapPayload context with e | reply
  · exact sent
  · obtain ⟨learnt, sendKey, recvKey, writes⟩ := learn_writes reply
    refine elapsed_of_view ?_ sent
    simp only [Leg.received, writes]
    rfl

/-- Time goes on while a packet is handled. -/
theorem elapsed_steps (start : Leg) : HandleSteps client (Elapsed start) where
  echo := elapsed_of_keeps fun leg => by
    rw [echoUpstreamId_eq]
    unfold Leg.takeUpId Session.takeUpId
    split <;> rfl
  count := elapsed_of_keeps fun _ => rfl
  exchange := fun _ => exchange_elapses start _
  ingest := fun _ => elapsed_of_keeps fun _ => rfl
  accept := fun _ _ elapsed => elapsed_of_result elapsed rfl (Option.some_ne_none _)
  reject := fun _ _ elapsed => elapsed_of_result elapsed rfl (Option.some_ne_none _)
  chunk := elapsed_of_keeps fun _ => rfl
  send := exchange_elapses start
  deliver := fun tlsRecord =>
    elapsed_of_keeps ((deliver_unqueued tlsRecord).weaken timeView fun _ => rfl)
  arrive := fun _ => elapsed_of_keeps fun _ => rfl
  see := fun _ => elapsed_of_keeps fun _ => rfl
  release := fun ackedId =>
    elapsed_of_keeps ((sendNext_unqueued ackedId).weaken timeView fun _ => rfl)
  ingestData := fun _ => elapsed_of_keeps fun _ => rfl
  acknowledge := fun _ => elapsed_of_keeps fun _ => rfl
  gather := fun _ => elapsed_of_keeps fun _ => rfl
  finish := fun _ _ elapsed => elapsed_of_result elapsed rfl (Option.some_ne_none _)
  relay := elapsed_of_keeps fun _ => rfl

end Mediator

namespace Downstream

open Mediator

variable {env : Env} {fuel : ℕ}

/-- **Time goes on while a request is handled.** -/
theorem route_elapses (context : AuthContext) (eapBytes : Bytes) (leg : Leg) :
    Elapsed leg (route env fuel context eapBytes leg).2 := by
  have passes : Act.Invariant (Elapsed leg) (passthroughNonTls env context eapBytes) := by
    refine Act.Invariant.bind (exchange_elapses leg eapBytes context) fun reply => ?_
    refine Act.Invariant.ite
      (Act.Invariant.bind ((@elapsed_steps env.client leg).finish .accept)
        fun _ => Act.Invariant.pure _) ?_
    exact Act.Invariant.ite
      (Act.Invariant.bind ((@elapsed_steps env.client leg).finish .reject)
        fun _ => Act.Invariant.pure _)
      (Act.Invariant.pure _)
  rw [route, Act.ite_apply]
  by_cases tls : eapBytes[4]? = some eapTypeTls
  · rw [if_pos tls]
    exact ((elapsed_steps leg).handleSupplicantEap context eapBytes).ended (Elapsed.refl leg)
  · rw [if_neg tls]
    exact passes.ended (Elapsed.refl leg)

/-! ## What a request does to the table -/

/-- A session in the table is found under its own key. -/
theorem Named.live_iff {σ : Server} (named : σ.Named) (ref : ℕ) : σ.Live ref ↔ σ.Found ref := by
  constructor
  · rintro ⟨key, member⟩
    rw [Server.Found, (named.tabled _ member).2]
    exact lookup_of_mem named.distinct member
  · exact fun found => ⟨_, mem_of_lookup found⟩

theorem opened_live_iff (σ : Server) (key : String) (ref : ℕ) :
    (σ.opened env key).2.Live ref ↔ σ.Live ref ∨ (σ.opened env key).1 = ref := by
  rcases lookup : σ.table.lookup key with _ | old
  · rw [opened_of_none lookup]
    constructor
    · rintro ⟨other, member⟩
      rcases of_mem_dictSet member with same | ⟨there, _⟩
      · exact .inr (congrArg Prod.snd same).symm
      · exact .inl ⟨other, there⟩
    · rintro (⟨other, member⟩ | rfl)
      · refine ⟨other, mem_dictSet_of_ne member ?_⟩
        rintro rfl
        exact lookup_ne_none member lookup
      · exact ⟨key, mem_of_lookup (lookup_dictSet_self key σ.created σ.table)⟩
  · rw [opened_of_lookup lookup]
    refine (or_iff_left_of_imp ?_).symm
    rintro rfl
    exact ⟨key, mem_of_lookup lookup⟩

/-- A State that is minted takes the entry of the session that stood under its key. -/
theorem mint_live_iff {σ : Server} (named : σ.Named) {ref other : ℕ} (found : σ.Found ref)
    (different : other ≠ ref) :
    (σ.mint env ref).Live other ↔
      σ.Live other ∧ σ.table.lookup (mintedKey env σ) ≠ some other := by
  have own : (σ.mint env ref).objects other = σ.objects other := by
    rw [mint_objects found, Function.update_of_ne different]
  rw [Named.live_iff (Named.mint named found), Named.live_iff named, Server.Found, Server.Found, own]
  by_cases taken : (σ.objects other).key = mintedKey env σ
  · -- The key of `other` is that of `ref` now.
    rw [taken, mint_lookup_new found]
    constructor
    · intro same
      exact absurd (Option.some.inj same).symm different
    · exact fun both => absurd both.1 both.2
  · have untaken : σ.table.lookup (mintedKey env σ) ≠ some other := fun there =>
      taken (named.tabled _ (mem_of_lookup there)).2
    rw [and_iff_left untaken]
    by_cases old : (σ.objects other).key = (σ.objects ref).key
    · -- The key of `ref` does not find `other`, before or after.
      have finds : σ.table.lookup (σ.objects ref).key = some ref := found
      rw [old, mint_lookup_old found (old ▸ taken), finds]
      constructor
      · rintro ⟨⟩
      · intro same
        exact absurd (Option.some.inj same).symm different
    · rw [mint_lookup_of_ne found old taken]

/-- Reporting and dropping a session leaves the unfinished ones. -/
theorem reportAndDrop_live_iff {σ : Server} (named : σ.Named) {ref other : ℕ} (found : σ.Found ref)
    (unfinished : (σ.objects other).result = none) :
    (reportAndDrop env ref σ).2.Live other ↔ σ.Live other := by
  refine ⟨reportAndDrop_live named.tabled, fun live => ?_⟩
  rw [reportAndDrop_eq]
  by_cases finished : (σ.objects ref).result.isSome
  · rw [if_pos finished]
    cases env.report σ.reports (ref, (σ.objects ref).summary) with
    | error e => exact live
    | ok done =>
        have finds : σ.table.lookup (σ.objects other).key = some other :=
          (Named.live_iff named other).mp live
        refine ⟨_, mem_dictPop.mpr ⟨mem_of_lookup finds, ?_⟩⟩
        intro same
        have same : (σ.objects other).key = (σ.objects ref).key := same
        have found : σ.table.lookup (σ.objects ref).key = some ref := found
        rw [same, found] at finds
        rw [Option.some.inj finds, unfinished] at finished
        cases finished
  · rw [if_neg finished]
    exact live

/-- The result of a session is not touched by what follows its handling. -/
theorem addressed_result (ref : ℕ) (action : Action) (σ : Server) (other : ℕ) :
    ((σ.addressed env ref action).2.objects other).result = (σ.objects other).result :=
  Session.result_of_unnamed
    (congrFun (congrArg (·.objects) (@addressed_work env ref action σ)) other)

/-- Answering, reporting and booking keep an unfinished session in the table, unless a State
that is minted takes its entry. -/
theorem conclude_live_iff {σ : Server} (named : σ.Named) {ref other : ℕ} (found : σ.Found ref)
    {request : ApRequest} {outcome : Outcome}
    (unfinished : (σ.objects other).result = none) :
    (conclude env ref request outcome σ).2.Live other ↔ σ.Live other ∧
      ¬ (other ≠ ref ∧ σ.minted < (conclude env ref request outcome σ).2.minted ∧
        σ.table.lookup (mintedKey env σ) = some other) := by
  have concluded : (conclude env ref request outcome σ).2.Live other ↔
      (σ.addressed env ref outcome.action).2.Live other := by
    have named' := @Named.addressed env σ named ref found outcome.action
    rw [conclude_eq]
    simp only
    cases env.send (answer env ref request outcome σ).2.replies
        (answer env ref request outcome σ).1 with
    | error e => exact Iff.rfl
    | ok done =>
        refine @reportAndDrop_live_iff env (replied _ _)
          ⟨named'.tabled, named'.distinct, named'.named⟩ ref other ?_ ?_
        · exact (Named.live_iff named' ref).mp (addressed_keeps_live found outcome.action)
        · exact (addressed_result ref outcome.action σ other).trans unfinished
  rw [concluded, conclude_minted]
  by_cases mints : Mints σ ref outcome.action
  · rw [addressed_of_mints mints, mint_minted found]
    by_cases here : other = ref
    · subst here
      have keeps := @addressed_keeps_live env σ other found outcome.action
      rw [addressed_of_mints mints] at keeps
      refine iff_of_true keeps ⟨(Named.live_iff named other).mpr found, ?_⟩
      exact fun elsewhere => elsewhere.1 rfl
    · rw [mint_live_iff named found here]
      refine and_congr_right fun _ => not_congr ?_
      rw [and_iff_right here, and_iff_right (Nat.lt_succ_self _)]
  · rw [addressed_of_not_mints mints]
    exact (and_iff_left fun minted => absurd minted.2.1 (lt_irrefl _)).symm

/-- What a key finds apart from the session that is opened. -/
theorem opened_lookup_iff {σ : Server} {key : String} {ref : ℕ}
    (different : ref ≠ (σ.opened env key).1) (other : String) :
    (σ.opened env key).2.table.lookup other = some ref ↔ σ.table.lookup other = some ref := by
  rcases lookup : σ.table.lookup key with _ | old
  · rw [opened_of_none lookup] at different ⊢
    by_cases same : other = key
    · subst same
      rw [lookup, Server.grow, lookup_dictSet_self]
      constructor
      · rintro ⟨⟩
        exact absurd rfl different
      · rintro ⟨⟩
    · rw [Server.grow, lookup_dictSet_of_ne same]
  · rw [opened_of_lookup lookup]

/-- **A request keeps the unfinished sessions in the table and adds its own**, unless a State
that is minted takes the entry of another one. -/
theorem handleRequest_live_iff {σ : Server} (named : σ.Named) (addr : String × ℕ)
    (request : ApRequest) {ref : ℕ}
    (unfinished : ((handleRequest env fuel addr request σ).2.objects ref).result = none) :
    (handleRequest env fuel addr request σ).2.Live ref ↔
      (σ.Live ref ∨ (found env addr request σ).1 = ref) ∧
        ¬ (ref ≠ (found env addr request σ).1 ∧
          σ.minted < (handleRequest env fuel addr request σ).2.minted ∧
          σ.table.lookup (mintedKey env σ) = some ref) := by
  have opens : (afterHandling env fuel addr request σ).Live ref ↔
      σ.Live ref ∨ (found env addr request σ).1 = ref := opened_live_iff σ _ ref
  have minted := @afterHandling_minted env fuel addr request σ
  have still : ((afterHandling env fuel addr request σ).objects ref).result = none :=
    (Session.result_of_unnamed (handleRequest_unnamed addr request σ ref)).symm.trans unfinished
  rcases result : (handled env fuel addr request σ).1 with e | outcome
  · rw [handleRequest_of_error result]
    refine opens.trans (and_iff_left fun taken => ?_).symm
    exact absurd (minted ▸ taken.2.1) (lt_irrefl _)
  · rw [handleRequest_of_ok result] at unfinished ⊢
    have key : mintedKey env (afterHandling env fuel addr request σ) = mintedKey env σ := by
      rw [mintedKey, minted, mintedKey]
    have put : (afterHandling env fuel addr request σ).Named :=
      Named.put (Named.opened named _) (handled_key addr request σ)
        (handled_downstreamState addr request σ)
    have finds : (afterHandling env fuel addr request σ).Found (found env addr request σ).1 :=
      put_found (opened_found named.tabled _) (handled_key addr request σ)
    rw [conclude_live_iff put finds still, opens, minted, key]
    refine and_congr_right fun _ => not_congr (and_congr_right fun other => ?_)
    exact and_congr_right fun _ => opened_lookup_iff other _

/-! ## What time does to the server -/

/-- From `σ` to `σ'` time has gone on. -/
structure Passed (σ σ' : Server) : Prop where
  clock : σ.clock ≤ σ'.clock
  created : σ.created ≤ σ'.created
  ages : ∀ ref < σ.created, (σ.objects ref).Ages (σ'.objects ref)

/-- Time goes on while a request is handled. -/
theorem handled_elapses (addr : String × ℕ) (request : ApRequest) (σ : Server) :
    Elapsed (startOf env addr request σ) (handled env fuel addr request σ).2 :=
  @handled_elim env fuel (fun ended => Elapsed (startOf env addr request σ) ended.2) addr request σ
    (route_elapses request.context request.eap (startOf env addr request σ))
    fun _ => Elapsed.refl _

/-- The session of a request when its handling starts is one that was there, or a new one. -/
theorem found_ages (addr : String × ℕ) (request : ApRequest) (σ : Server) :
    ((found env addr request σ).2.objects (found env addr request σ).1).Ages
      ((handleRequest env fuel addr request σ).2.objects (found env addr request σ).1) := by
  have elapsed := @handled_elapses env fuel addr request σ
  refine Session.Ages.of_unnamed ?_ (handleRequest_own addr request σ)
  exact ⟨elapsed.session.startedAt, elapsed.session.result, elapsed.session.completedAt⟩

theorem handleRequest_passed {σ : Server} (tabled : σ.Tabled) (addr : String × ℕ)
    (request : ApRequest) : Passed σ (handleRequest env fuel addr request σ).2 := by
  have elapsed := @handled_elapses env fuel addr request σ
  have clock : (handleRequest env fuel addr request σ).2.clock =
      (handled env fuel addr request σ).2.clock :=
    congrArg Server.Work.clock (handleRequest_work addr request σ)
  have starts : (startOf env addr request σ).clock = σ.clock := by
    show (found env addr request σ).2.clock = σ.clock
    rcases opened_cases σ env (sessionKey request addr request.eap) with ⟨_, same⟩ | ⟨_, grown⟩
    · rw [found, same]
    · rw [found, grown]
      rfl
  refine ⟨?_, (handleRequest_created tabled addr request).1, fun ref there => ?_⟩
  · rw [clock, ← starts]
    exact elapsed.clock
  · by_cases here : ref = (found env addr request σ).1
    · have old := @found_objects env σ ref there addr request
      have ages := @found_ages env fuel addr request σ
      rw [← here, old] at ages
      exact ages
    · exact Session.Ages.of_unnamed ⟨rfl, id, fun _ => rfl⟩ (handleRequest_other there here)

/-- **Time goes on with every event.** -/
theorem occur_passed {idleTimeout : ℕ} {σ σ' : Server} (tabled : σ.Tabled) {event : Event}
    (occurred : occur env fuel idleTimeout event σ = some σ') : Passed σ σ' := by
  have same : ∀ ref < σ.created, (σ.objects ref).Ages (σ.objects ref) :=
    fun _ _ => ⟨rfl, id, fun _ => rfl⟩
  cases event with
  | datagram datagram =>
      rcases serve_cases occurred with rfl | ⟨request, _, _, rfl⟩
      · exact ⟨le_max_left _ _, le_rfl, same⟩
      · have passed := @handleRequest_passed env fuel (σ.woken datagram) tabled datagram.addr request
        exact ⟨(le_max_left _ _).trans passed.clock, passed.created, passed.ages⟩
  | reap now =>
      cases occurred
      exact ⟨le_max_left _ _, le_rfl, same⟩

/-! ## What events do to the table -/

/-- The datagram brings a request that passes the checks, and is handled on the session. -/
def Attends (env : Env) (datagram : Datagram) (σ : Server) (ref : ℕ) : Prop :=
  ∃ request, datagram.decoded = .ok request ∧ Admitted request ∧
    (found env datagram.addr request (σ.woken datagram)).1 = ref

/-- Another session than the one attended to is given the key of `ref` with a new State. -/
def TakesOver (env : Env) (datagram : Datagram) (σ σ' : Server) (ref : ℕ) : Prop :=
  ¬ Attends env datagram σ ref ∧ σ.minted < σ'.minted ∧
    σ.table.lookup (mintedKey env σ) = some ref

/-- A session that a request creates is its own, and starts with it. -/
theorem found_new {σ : Server} {addr : String × ℕ} {request : ApRequest} {ref : ℕ}
    (there : ref < (found env addr request σ).2.created) (new : ¬ ref < σ.created) :
    (found env addr request σ).1 = ref ∧ (found env addr request σ).2.objects ref =
      Session.create ref (sessionKey request addr request.eap) env.cfg σ.clock := by
  rw [found] at there ⊢
  rcases lookup : σ.table.lookup (sessionKey request addr request.eap) with _ | old
  · rw [opened_of_none lookup] at there ⊢
    have below : ref < σ.created + 1 := there
    obtain rfl : ref = σ.created := by omega
    exact ⟨rfl, Function.update_self _ _ _⟩
  · rw [opened_of_lookup lookup] at there
    exact absurd there new

/-- A session that is created by an event is that of its request, and starts with it. -/
theorem occur_created {idleTimeout : ℕ} {σ σ' : Server} {event : Event}
    (occurred : occur env fuel idleTimeout event σ = some σ') {ref : ℕ} (there : ref < σ'.created)
    (new : ¬ ref < σ.created) :
    ∃ datagram, event = .datagram datagram ∧ Attends env datagram σ ref ∧
      (σ'.objects ref).startedAt = (σ.woken datagram).clock ∧
      ((σ'.objects ref).result = none → (σ'.objects ref).completedAt = none) := by
  cases event with
  | reap now =>
      cases occurred
      exact absurd there new
  | datagram datagram =>
      rcases serve_cases occurred with rfl | ⟨request, decoded, admitted, rfl⟩
      · exact absurd there new
      rw [handleRequest_created_eq] at there
      obtain ⟨here, created⟩ := found_new there new
      have ages := @found_ages env fuel datagram.addr request (σ.woken datagram)
      rw [here, created] at ages
      exact ⟨datagram, rfl, ⟨request, decoded, admitted, here⟩, ages.startedAt, ages.completedAt⟩

/-- **A datagram keeps the unfinished sessions in the table and adds the one it attends to**,
unless another one takes over the entry. -/
theorem serve_live_iff {σ σ' : Server} (named : σ.Named) {datagram : Datagram}
    (served : serve env fuel datagram σ = some σ') {ref : ℕ}
    (unfinished : (σ'.objects ref).result = none) :
    σ'.Live ref ↔ (σ.Live ref ∨ Attends env datagram σ ref) ∧
      ¬ TakesOver env datagram σ σ' ref := by
  by_cases brings : ∃ request, datagram.decoded = .ok request ∧ Admitted request
  · obtain ⟨request, decoded, admitted⟩ := brings
    have attends : Attends env datagram σ ref ↔
        (found env datagram.addr request (σ.woken datagram)).1 = ref := by
      constructor
      · rintro ⟨other, same, _, here⟩
        cases decoded.symm.trans same
        exact here
      · exact fun here => ⟨request, decoded, admitted, here⟩
    have same := serve_admitted decoded admitted served
    subst same
    rw [TakesOver, attends, ← ne_eq, ne_comm]
    exact @handleRequest_live_iff env fuel (σ.woken datagram)
      ⟨named.tabled, named.distinct, named.named⟩ datagram.addr request ref unfinished
  · have dropped := serve_dropped brings served
    subst dropped
    have idle : ¬ Attends env datagram σ ref := fun ⟨request, decoded, admitted, _⟩ =>
      brings ⟨request, decoded, admitted⟩
    have keeps : ¬ TakesOver env datagram σ (σ.woken datagram) ref := fun taken =>
      absurd taken.2.1 (lt_irrefl _)
    rw [and_iff_left keeps, or_iff_left idle]
    exact Iff.rfl

/-- **`reap_idle` leaves the sessions that are not older than the idle timeout.** -/
theorem reap_live_iff {idleTimeout : ℕ} {σ : Server} (named : σ.Named) {ref : ℕ}
    (unfinished : (σ.objects ref).completedAt = none) :
    (reapIdle idleTimeout σ).2.Live ref ↔
      σ.Live ref ∧ σ.clock ≤ (σ.objects ref).startedAt + idleTimeout := by
  have stale : ∀ entry : String × ℕ, entry ∈ σ.table.filter (fun entry =>
      (σ.objects entry.2).completedAt = none ∧
        idleTimeout < σ.clock - (σ.objects entry.2).startedAt) ↔
      entry ∈ σ.table ∧ (σ.objects entry.2).completedAt = none ∧
        (σ.objects entry.2).startedAt + idleTimeout < σ.clock := by
    intro entry
    rw [List.mem_filter, decide_eq_true_eq, Nat.lt_sub_iff_add_lt, Nat.add_comm]
  constructor
  · rintro ⟨key, member⟩
    obtain ⟨there, fresh⟩ := mem_foldl_dictPop.mp member
    refine ⟨⟨key, there⟩, Nat.not_lt.mp fun old => ?_⟩
    exact fresh (key, ref) ((stale _).mpr ⟨there, unfinished, old⟩) rfl
  · rintro ⟨⟨key, member⟩, young⟩
    refine ⟨key, mem_foldl_dictPop.mpr ⟨member, ?_⟩⟩
    rintro ⟨other, ref'⟩ reaped same
    obtain ⟨there, _, old⟩ := (stale _).mp reaped
    have same : key = other := same
    subst same
    have refs : ref' = ref := Option.some.inj
      ((lookup_of_mem named.distinct there).symm.trans (lookup_of_mem named.distinct member))
    subst refs
    exact absurd young (Nat.not_le.mpr old)

/-! ## The past of a server -/

/-- The event is a request of the session, and is done with at this time. -/
def HandledAt (env : Env) (ref time : ℕ) : Event → Server → Server → Prop
  | .datagram datagram, σ, σ' => Attends env datagram σ ref ∧ σ'.clock = time
  | .reap _, _, _ => False

/-- The event is a call of `reap_idle` at this time. -/
def Reaps (time : ℕ) : Event → Server → Server → Prop
  | .datagram _, _, _ => False
  | .reap _, _, σ' => σ'.clock = time

/-- With the event another session takes over the entry of `ref`. -/
def Ousts (env : Env) (ref : ℕ) : Event → Server → Server → Prop
  | .datagram datagram, σ, σ' => TakesOver env datagram σ σ' ref
  | .reap _, _, _ => False

section Past

variable (env : Env) (fuel idleTimeout : ℕ) (events : List Event)

/-- In the past of the run there was an event like this. -/
def Past (like : Event → Server → Server → Prop) : Prop :=
  Happened (occur env fuel idleTimeout) events (initial env) like

/-- The session has stayed clear of `reap_idle`, and nobody has taken over its entry. -/
structure Spared (σ : Server) (ref : ℕ) : Prop where
  reaped : ∀ time, Past env fuel idleTimeout events (Reaps time) →
    time ≤ (σ.objects ref).startedAt + idleTimeout
  ousted : ¬ Past env fuel idleTimeout events (Ousts env ref)

/-- The unfinished sessions in the table are those that were spared. -/
structure Accounted (σ : Server) : Prop where
  named : σ.Named
  waiting : ∀ ref < σ.created, (σ.objects ref).result = none →
    (σ.objects ref).completedAt = none
  past : ∀ time, Past env fuel idleTimeout events (Reaps time) → time ≤ σ.clock
  known : ∀ ref, Past env fuel idleTimeout events (Ousts env ref) → ref < σ.created
  live : ∀ ref < σ.created, (σ.objects ref).result = none →
    (σ.Live ref ↔ Spared env fuel idleTimeout events σ ref)

end Past

variable {idleTimeout : ℕ} {events : List Event}

theorem accounted_initial : Accounted env fuel idleTimeout [] (initial env) where
  named := named_initial env
  waiting := fun _ there => absurd there (Nat.not_lt_zero _)
  past := fun _ reaped => absurd reaped not_happened_nil
  known := fun _ ousted => absurd ousted not_happened_nil
  live := fun _ there => absurd there (Nat.not_lt_zero _)

theorem Named.occur {σ σ' : Server} (named : σ.Named) {event : Event}
    (occurred : occur env fuel idleTimeout event σ = some σ') : σ'.Named := by
  cases event with
  | datagram datagram => exact Named.serve named occurred
  | reap now =>
      cases occurred
      exact @Named.of_sublist { σ with clock := max σ.clock now }
        ⟨named.tabled, named.distinct, named.named⟩ _ (foldl_dictPop_sublist _ _)

/-- A session that exists and is attended to is in the table. -/
theorem live_of_attends {σ : Server} {datagram : Datagram} {ref : ℕ}
    (attends : Attends env datagram σ ref) (there : ref < σ.created) : σ.Live ref := by
  obtain ⟨request, _, _, rfl⟩ := attends
  rcases opened_cases (σ.woken datagram) env (sessionKey request datagram.addr request.eap) with
    ⟨lookup, _⟩ | ⟨new, _⟩
  · exact ⟨_, mem_of_lookup lookup⟩
  · exact absurd new there.ne

/-- What an event adds to the past of a session. -/
theorem spared_concat {σ σ' : Server} {event : Event} {ref : ℕ}
    (ran : runAll (occur env fuel idleTimeout) events (initial env) = some σ)
    (occurred : occur env fuel idleTimeout event σ = some σ')
    (started : (σ'.objects ref).startedAt = (σ.objects ref).startedAt) :
    Spared env fuel idleTimeout (events ++ [event]) σ' ref ↔
      Spared env fuel idleTimeout events σ ref ∧
        (∀ time, Reaps time event σ σ' → time ≤ (σ.objects ref).startedAt + idleTimeout) ∧
        ¬ Ousts env ref event σ σ' := by
  have added : ∀ like, Past env fuel idleTimeout (events ++ [event]) like ↔
      Past env fuel idleTimeout events like ∨ like event σ σ' :=
    fun like => happened_concat ran occurred
  constructor
  · rintro ⟨reaped, ousted⟩
    simp only [added, started, not_or] at reaped ousted
    exact ⟨⟨fun time past => reaped time (.inl past), ousted.1⟩,
      fun time now => reaped time (.inr now), ousted.2⟩
  · rintro ⟨⟨reaped, ousted⟩, now, still⟩
    refine ⟨fun time past => ?_, fun past => ?_⟩
    · rw [started]
      exact ((added _).mp past).elim (reaped time) (now time)
    · exact ((added _).mp past).elim ousted still

/-- A session that an event creates is spared. -/
theorem spared_created {σ σ' : Server} (accounted : Accounted env fuel idleTimeout events σ)
    {datagram : Datagram} {ref : ℕ}
    (ran : runAll (occur env fuel idleTimeout) events (initial env) = some σ)
    (served : occur env fuel idleTimeout (.datagram datagram) σ = some σ')
    (new : ¬ ref < σ.created) (attends : Attends env datagram σ ref)
    (started : (σ'.objects ref).startedAt = (σ.woken datagram).clock) :
    Spared env fuel idleTimeout (events ++ [.datagram datagram]) σ' ref := by
  refine ⟨fun time past => ?_, fun past => ?_⟩
  · rcases (happened_concat ran served).mp past with before | now
    · rw [started]
      exact (accounted.past time before).trans ((le_max_left _ _).trans (Nat.le_add_right _ _))
    · cases now
  · rcases (happened_concat ran served).mp past with before | now
    · exact new (accounted.known ref before)
    · exact now.1 attends

/-- **Every event keeps the account.** -/
theorem Accounted.occur {σ σ' : Server} (accounted : Accounted env fuel idleTimeout events σ)
    {event : Event} (ran : runAll (occur env fuel idleTimeout) events (initial env) = some σ)
    (occurred : occur env fuel idleTimeout event σ = some σ') :
    Accounted env fuel idleTimeout (events ++ [event]) σ' := by
  have passed := occur_passed accounted.named.tabled occurred
  have added : ∀ like, Past env fuel idleTimeout (events ++ [event]) like ↔
      Past env fuel idleTimeout events like ∨ like event σ σ' :=
    fun like => happened_concat ran occurred
  refine ⟨Named.occur accounted.named occurred, ?_, ?_, ?_, ?_⟩
  · intro ref there unfinished
    by_cases old : ref < σ.created
    · have ages := passed.ages ref old
      exact (ages.completedAt unfinished).trans
        (accounted.waiting ref old (ages.result unfinished))
    · obtain ⟨_, _, _, _, waiting⟩ := occur_created occurred there old
      exact waiting unfinished
  · intro time past
    rcases (added _).mp past with before | now
    · exact (accounted.past time before).trans passed.clock
    · cases event with
      | datagram datagram => cases now
      | reap _ => exact (Eq.symm now).le
  · intro ref past
    rcases (added _).mp past with before | now
    · exact (accounted.known ref before).trans_le passed.created
    · cases event with
      | datagram datagram =>
          exact (accounted.named.tabled _ (mem_of_lookup now.2.2)).1.trans_le passed.created
      | reap _ => cases now
  · intro ref there unfinished
    by_cases old : ref < σ.created
    · have ages := passed.ages ref old
      have before := accounted.live ref old (ages.result unfinished)
      rw [spared_concat ran occurred ages.startedAt, ← before]
      cases event with
      | datagram datagram =>
          rw [serve_live_iff accounted.named occurred unfinished,
            or_iff_left_of_imp fun attends => live_of_attends attends old]
          refine and_congr_right fun _ => (and_iff_right ?_).symm
          rintro _ ⟨⟩
      | reap now =>
          cases occurred
          have named := accounted.named
          refine (@reap_live_iff idleTimeout { σ with clock := max σ.clock now }
            ⟨named.tabled, named.distinct, named.named⟩ ref
            (accounted.waiting ref old unfinished)).trans (and_congr_right fun _ => ?_)
          constructor
          · intro young
            refine ⟨?_, id⟩
            rintro _ rfl
            exact young
          · exact fun both => both.1 _ rfl
    · obtain ⟨datagram, rfl, attends, started, _⟩ := occur_created occurred there old
      refine iff_of_true ?_ (spared_created accounted ran occurred old attends started)
      refine (serve_live_iff accounted.named occurred unfinished).mpr ⟨.inr attends, ?_⟩
      exact fun taken => taken.1 attends

/-- **The unfinished sessions in the table are those that were spared.** -/
theorem live_iff {σ : Server}
    (ran : runAll (occur env fuel idleTimeout) events (initial env) = some σ) {ref : ℕ}
    (there : ref < σ.created) (unfinished : (σ.objects ref).result = none) :
    σ.Live ref ↔ Spared env fuel idleTimeout events σ ref :=
  (runAll_history accounted_initial
    (fun _ _ _ _ ran occurred accounted => Accounted.occur accounted ran occurred) ran).live
      ref there unfinished

/-- **Without a call of `reap_idle`**, which the server never makes, an unfinished session stays
in the table, however long it is silent. -/
theorem live_of_datagrams {datagrams : List Datagram} {σ : Server}
    (ran : runAll (occur env fuel idleTimeout) (datagrams.map .datagram) (initial env) = some σ)
    {ref : ℕ} (there : ref < σ.created) (unfinished : (σ.objects ref).result = none) :
    σ.Live ref ↔ ¬ Past env fuel idleTimeout (datagrams.map .datagram) (Ousts env ref) := by
  rw [live_iff ran there unfinished]
  refine ⟨Spared.ousted, fun still => ⟨?_, still⟩⟩
  rintro time ⟨before, event, after, s, s', split, _, _, reaps⟩
  have member : event ∈ datagrams.map .datagram := split ▸ List.mem_append_right _ (by simp)
  obtain ⟨datagram, _, rfl⟩ := List.mem_map.mp member
  cases reaps

/-! ## Idle eviction -/

/-- A request of the session was handled within the idle timeout. -/
def HeardLately (env : Env) (fuel idleTimeout : ℕ) (events : List Event) (σ : Server) (ref : ℕ) :
    Prop :=
  ∃ time, Past env fuel idleTimeout events (HandledAt env ref time) ∧ σ.clock ≤ time + idleTimeout

/-- The table holds those of the unfinished sessions that were heard of lately. -/
def IdleExact (env : Env) (fuel idleTimeout : ℕ) (events : List Event) (σ : Server) : Prop :=
  ∀ ref < σ.created, (σ.objects ref).result = none →
    (σ.Live ref ↔ HeardLately env fuel idleTimeout events σ ref)

/-- **When idle eviction is exact.** In every run of datagrams and calls of `reap_idle`: exactly
where the unfinished sessions that were heard of lately are those that no call found older
than the idle timeout, and whose keys no State of another session has taken over. -/
theorem idle_exact_iff {env : Env} {fuel idleTimeout : ℕ} {events : List Event} {σ : Server}
    (ran : runAll (occur env fuel idleTimeout) events (initial env) = some σ) :
    IdleExact env fuel idleTimeout events σ ↔
      ∀ ref < σ.created, (σ.objects ref).result = none →
        (HeardLately env fuel idleTimeout events σ ref ↔
          (∀ time, Past env fuel idleTimeout events (Reaps time) →
            time ≤ (σ.objects ref).startedAt + idleTimeout) ∧
          ¬ Past env fuel idleTimeout events (Ousts env ref)) := by
  refine forall_congr' fun ref => forall_congr' fun there => forall_congr' fun unfinished => ?_
  have spared : Spared env fuel idleTimeout events σ ref ↔
      (∀ time, Past env fuel idleTimeout events (Reaps time) →
        time ≤ (σ.objects ref).startedAt + idleTimeout) ∧
      ¬ Past env fuel idleTimeout events (Ousts env ref) :=
    ⟨fun spared => ⟨spared.reaped, spared.ousted⟩, fun both => ⟨both.1, both.2⟩⟩
  rw [live_iff ran there unfinished, spared]
  exact Iff.comm

/-- The first packet of somebody else, after fifty seconds. -/
def otherDatagram : Datagram :=
  { identityDatagram with addr := ("other", 1024), receivedAt := 50 }

/-- `alice`'s session is evicted when it has been left alone for longer than the timeout; the
one of the client that came after it stays. -/
theorem idle_exact_sample :
    ∃ σ, runAll (occur (answering "reassemble" emptyChallenge) 0 30)
        [.datagram identityDatagram, .reap 45, .datagram otherDatagram]
        (initial (answering "reassemble" emptyChallenge)) = some σ ∧
      σ.created = 2 ∧ ¬ σ.Live 0 ∧ σ.Live 1 ∧
      IdleExact (answering "reassemble" emptyChallenge) 0 30
        [.datagram identityDatagram, .reap 45, .datagram otherDatagram] σ := by
  refine ⟨_, rfl, rfl, ?_, ⟨"st:01", by decide⟩, ?_⟩
  · rintro ⟨key, member⟩
    cases List.mem_singleton.mp member
  · refine (@idle_exact_iff (answering "reassemble" emptyChallenge) 0 30
      [.datagram identityDatagram, .reap 45, .datagram otherDatagram] _ rfl).mpr ?_
    have past : ∀ like, _ := fun like =>
      (@happened_cons Server Event (occur (answering "reassemble" emptyChallenge) 0 30)
        (.datagram identityDatagram) [.reap 45, .datagram otherDatagram]
        (initial (answering "reassemble" emptyChallenge)) _ like rfl).trans
      (or_congr_right ((happened_cons rfl).trans (or_congr_right ((happened_cons rfl).trans
        (or_iff_left not_happened_nil)))))
    intro ref there _
    rcases Nat.le_one_iff_eq_zero_or_eq_one.mp (Nat.lt_succ_iff.mp there) with rfl | rfl
    · refine iff_of_false ?_ fun both =>
        absurd (both.1 45 ((past _).mpr (.inr (.inl rfl)))) (by decide)
      rintro ⟨time, heard, late⟩
      rcases (past _).mp heard with ⟨_, first⟩ | nothing | ⟨⟨request, decoded, _, here⟩, _⟩
      · rw [← first] at late
        exact absurd late (by decide)
      · cases nothing
      · cases decoded
        exact absurd here Nat.one_ne_zero
    · refine iff_of_true ⟨50, (past _).mpr (.inr (.inr ⟨⟨_, rfl, by decide, rfl⟩, rfl⟩)), by decide⟩
        ⟨?_, ?_⟩
      · intro time reaped
        rcases (past _).mp reaped with nothing | reaped | nothing
        · cases nothing
        · rw [← reaped]
          decide
        · cases nothing
      · intro ousted
        rcases (past _).mp ousted with ⟨_, _, taken⟩ | nothing | ⟨away, _⟩
        · cases taken
        · cases nothing
        · exact away ⟨_, rfl, by decide, rfl⟩

/-- The next packet of `alice`, forty seconds after the first. -/
def lateDatagram : Datagram :=
  { datagramOf (requestWith (some [0]) [codeResponse, 8, 0, 6, 1, 97]) with receivedAt := 40 }

/-- A session that was left alone for fifty seconds is in the table, as nothing calls
`reap_idle`. Where it is called, a session that spoke five seconds before is evicted. -/
theorem idle_eviction_inexact :
    (∃ σ, runAll (occur (answering "reassemble" emptyChallenge) 0 30)
        [.datagram identityDatagram, .datagram otherDatagram]
        (initial (answering "reassemble" emptyChallenge)) = some σ ∧
      ¬ IdleExact (answering "reassemble" emptyChallenge) 0 30
        [.datagram identityDatagram, .datagram otherDatagram] σ) ∧
    ∃ σ, runAll (occur (answering "reassemble" emptyChallenge) 0 30)
        [.datagram identityDatagram, .datagram lateDatagram, .reap 45, .datagram otherDatagram]
        (initial (answering "reassemble" emptyChallenge)) = some σ ∧
      ¬ IdleExact (answering "reassemble" emptyChallenge) 0 30
        [.datagram identityDatagram, .datagram lateDatagram, .reap 45, .datagram otherDatagram]
        σ := by
  refine ⟨⟨_, rfl, fun exact => ?_⟩, _, rfl, fun exact => ?_⟩
  · obtain ⟨time, past, late⟩ := (exact 0 (by decide) rfl).mp ⟨"st:00", by decide⟩
    rcases (happened_cons rfl).mp past with ⟨_, start⟩ | since
    · rw [← start] at late
      exact absurd late (by decide)
    · rcases (happened_cons rfl).mp since with ⟨⟨request, decoded, _, here⟩, _⟩ | nothing
      · cases decoded
        exact absurd here Nat.one_ne_zero
      · exact not_happened_nil nothing
  · obtain ⟨key, member⟩ := (exact 0 (by decide) rfl).mpr
      ⟨40, ⟨[.datagram identityDatagram], .datagram lateDatagram,
        [.reap 45, .datagram otherDatagram], _, _, rfl, rfl, rfl,
        ⟨_, rfl, by decide, rfl⟩, rfl⟩, by decide⟩
    cases List.mem_singleton.mp member

end Downstream
end EapAccel
