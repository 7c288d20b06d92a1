import EapAccel.Downstream.Accounts
import EapAccel.Downstream.Idleness
import EapAccel.Mediator.Clock

/-!
# What a duration measures

The proxy serves one datagram after another, and while it waits for the server it serves nobody
else. So the duration in a report is not the time that the session took upstream: it is that time,
and the time that other sessions took upstream in the meantime, and the time in which nothing came
in (`durations_add_up`).
-/

set_option autoImplicit false

namespace EapAccel

open Foundations EapTls

namespace Downstream

open Mediator

variable {env : Env} {fuel : ℕ}

/-! ## One datagram -/

/-- What the steps of handling preserve, every route preserves. -/
theorem route_of_steps {inv : Leg → Prop} (steps : HandleSteps env.client inv)
    (context : AuthContext) (eapBytes : Bytes) :
    Act.Invariant inv (route env fuel context eapBytes) := by
  rw [route]
  apply Act.Invariant.ite (steps.handleSupplicantEap context eapBytes)
  exact passthroughNonTls_keeps steps.finish (steps.send eapBytes context)

theorem route_dated (c : Option ℕ) (context : AuthContext) (eapBytes : Bytes) :
    Dated c (route env fuel context eapBytes) := by
  rw [route]
  apply Act.Triple.ite (fun _ => handleSupplicantEap_dated context eapBytes)
  intro _
  apply Dated.after (exchange_endedAt eapBytes context)
  intro reply
  apply Act.Triple.ite (fun _ => dated_of_end _ fun _ => rfl)
  intro _
  apply Act.Triple.ite (fun _ => dated_of_end _ fun _ => rfl)
  intro _
  exact dated_of_same (Act.Invariant.pure _)

theorem startOf_clock (addr : String × ℕ) (request : ApRequest) (σ : Server) :
    (startOf env addr request σ).clock = σ.clock := by
  show (found env addr request σ).2.clock = σ.clock
  rcases opened_cases σ env (sessionKey request addr request.eap) with ⟨_, same⟩ | ⟨_, grown⟩
  · rw [found, same]
  · rw [found, grown]
    rfl

theorem handleRequest_clock (addr : String × ℕ) (request : ApRequest) (σ : Server) :
    (handleRequest env fuel addr request σ).2.clock = (handled env fuel addr request σ).2.clock :=
  congrArg Server.Work.clock (handleRequest_work addr request σ)

/-- The clock of the server goes on by the wait for a datagram, and by what the exchanges of its
handling take. -/
theorem serve_clock {datagram : Datagram} {σ σ' : Server}
    (served : serve env fuel datagram σ = some σ') :
    ∃ new, σ'.exchanges = σ.exchanges ++ new ∧
      σ'.clock = σ.clock + (datagram.receivedAt - σ.clock) +
        costs env.client.lasts (fun _ => True) σ.exchanges new := by
  have woken : (σ.woken datagram).clock = σ.clock + (datagram.receivedAt - σ.clock) := by
    show max σ.clock datagram.receivedAt = _
    omega
  rcases serve_cases served with rfl | ⟨request, _, _, rfl⟩
  · refine ⟨[], (List.append_nil _).symm, ?_⟩
    rw [woken]
    rfl
  · have clocked := handled_ended (@route_of_steps env fuel _ (clocked_steps (startOf env
      datagram.addr request (σ.woken datagram))) request.context request.eap)
      (clocked_refl env.client _)
    obtain ⟨new, grown, clock⟩ := clocked
    rw [startOf_exchanges] at grown clock
    rw [startOf_clock, woken] at clock
    refine ⟨new, ?_, ?_⟩
    · rw [handleRequest_exchanges]
      exact grown
    · rw [handleRequest_clock]
      exact clock

theorem Session.completedAt_of_unnamed {s t : Session} (same : t.unnamed = s.unnamed) :
    t.completedAt = s.completedAt := by
  have of : ∀ s : Session, s.completedAt = s.unnamed.completedAt := fun _ => rfl
  rw [of t, same, of s]

/-- What a handling leaves of the completion time of its session. -/
theorem handled_completes (addr : String × ℕ) (request : ApRequest) (σ : Server) :
    (handled env fuel addr request σ).2.session.completedAt =
        ((found env addr request σ).2.objects (found env addr request σ).1).completedAt ∨
      (handled env fuel addr request σ).2.session.completedAt =
        some (handled env fuel addr request σ).2.clock := by
  rcases handled_cases env fuel addr request σ with ⟨_, handles⟩ | ⟨e, _, raised⟩
  · have dated := @route_dated env fuel
      ((found env addr request σ).2.objects (found env addr request σ).1).completedAt
      request.context request.eap (startOf env addr request σ) rfl
    rw [← handles] at dated
    rcases ended : handled env fuel addr request σ with ⟨e | outcome, leg⟩
    · rw [ended] at dated
      exact .inl dated
    · rw [ended] at dated
      exact dated
  · rw [raised]
    exact .inl rfl

/-- **A session is finished at the time at which the server is done with a datagram.** -/
theorem serve_completes {datagram : Datagram} {σ σ' : Server}
    (served : serve env fuel datagram σ = some σ') {ref c : ℕ} (there : ref < σ'.created)
    (completed : (σ'.objects ref).completedAt = some c) :
    (ref < σ.created ∧ (σ.objects ref).completedAt = some c) ∨ c = σ'.clock := by
  rcases serve_cases served with rfl | ⟨request, _, _, rfl⟩
  · exact .inl ⟨there, completed⟩
  rw [handleRequest_created_eq] at there
  by_cases here : ref = (found env datagram.addr request (σ.woken datagram)).1
  · subst here
    rw [Session.completedAt_of_unnamed (handleRequest_own _ _ _)] at completed
    rcases @handled_completes env fuel datagram.addr request (σ.woken datagram) with same | ended
    · rw [same] at completed
      by_cases old : (found env datagram.addr request (σ.woken datagram)).1 < σ.created
      · rw [@found_objects env (σ.woken datagram) _ old] at completed
        exact .inl ⟨old, completed⟩
      · -- A session that has just been created is not finished.
        have created := (@found_new env (σ.woken datagram) datagram.addr request _ there old).2
        rw [created] at completed
        cases completed
    · rw [ended] at completed
      rw [handleRequest_clock]
      exact .inr (Option.some.inj completed).symm
  · by_cases old : ref < σ.created
    · have other := @handleRequest_other env fuel (σ.woken datagram) _ old _ _ here
      rw [Session.completedAt_of_unnamed other] at completed
      exact .inl ⟨old, completed⟩
    · exact absurd (@found_new env (σ.woken datagram) datagram.addr request _ there old).1.symm here

/-! ## Runs -/

/-- How long the server waits for datagrams in a run. -/
def idling (env : Env) (fuel : ℕ) : List Datagram → Server → ℕ
  | [], _ => 0
  | datagram :: datagrams, σ =>
      (datagram.receivedAt - σ.clock) +
        match serve env fuel datagram σ with
        | some mid => idling env fuel datagrams mid
        | none => 0

/-- **The clock of a run goes on by the waits for datagrams, and by what the exchanges take.** -/
theorem run_clock {datagrams : List Datagram} : ∀ {σ σ' : Server},
    run env fuel datagrams σ = some σ' → ∃ new, σ'.exchanges = σ.exchanges ++ new ∧
      σ'.clock = σ.clock + idling env fuel datagrams σ +
        costs env.client.lasts (fun _ => True) σ.exchanges new := by
  induction datagrams with
  | nil =>
      intro σ σ' ran
      cases ran
      exact ⟨[], (List.append_nil _).symm, rfl⟩
  | cons datagram datagrams ih =>
      intro σ σ' ran
      obtain ⟨mid, served, rest⟩ := Option.bind_eq_some_iff.mp ran
      obtain ⟨new, grown, clock⟩ := serve_clock served
      obtain ⟨later, grows, ends⟩ := ih rest
      refine ⟨new ++ later, ?_, ?_⟩
      · rw [grows, grown, List.append_assoc]
      · rw [costs_append, ← grown, ends, clock, idling, served]
        simp only
        omega

/-- What became of a session in a run: a datagram opened it, and the server was at `closed` some
datagrams later. -/
structure Life (env : Env) (fuel ref : ℕ) (datagrams : List Datagram) (closed : Server) where
  before : List Datagram
  first : Datagram
  rest : List Datagram
  opened : Server
  next : Server
  split : datagrams = before ++ first :: rest
  reached : run env fuel before (initial env) = some opened
  opens : serve env fuel first opened = some next
  serves : run env fuel rest next = some closed
  new : opened.created ≤ ref
  there : ref < next.created
  started : (closed.objects ref).startedAt = (opened.woken first).clock

/-- A session lives on with every datagram. -/
def Life.serve {ref : ℕ} {datagrams : List Datagram} {σ σ' : Server} {datagram : Datagram}
    (life : Life env fuel ref datagrams σ) (served : serve env fuel datagram σ = some σ')
    (same : (σ'.objects ref).startedAt = (σ.objects ref).startedAt) :
    Life env fuel ref (datagrams ++ [datagram]) σ' :=
  { life with
    rest := life.rest ++ [datagram]
    split := (congrArg (· ++ [datagram]) life.split).trans (List.append_assoc _ _ _)
    serves := runAll_concat life.serves served
    started := same.trans life.started }

/-- **Every session of a run has a life.** -/
theorem life_of_run {datagrams : List Datagram} {σ : Server}
    (ran : run env fuel datagrams (initial env) = some σ) :
    ∀ ref < σ.created, Nonempty (Life env fuel ref datagrams σ) := by
  apply runAll_history ?_ ?_ ran
  · intro ref there
    exact absurd there (Nat.not_lt_zero ref)
  · intro datagrams datagram σ σ' reached served lives ref there
    by_cases old : ref < σ.created
    · have passed := @occur_passed env fuel 0 σ σ' (regular_of_run reached).tabled
        (.datagram datagram) served
      exact (lives ref old).map fun life => life.serve served (passed.ages ref old).startedAt
    · obtain ⟨_, same, _, started, _⟩ := @occur_created env fuel 0 σ σ' (.datagram datagram) served
        ref there old
      cases same
      exact ⟨{
        before := datagrams
        first := datagram
        rest := []
        opened := σ
        next := σ'
        split := rfl
        reached := reached
        opens := served
        serves := rfl
        new := Nat.not_lt.mp old
        there := there
        started := started }⟩

/-! ## Durations -/

/-- The session was finished at `c`: the time since its start, as the server spent it. -/
structure Lasted (env : Env) (fuel ref : ℕ) (datagrams : List Datagram) (started c : ℕ) where
  earlier : List Datagram
  later : List Datagram
  closed : Server
  life : Life env fuel ref earlier closed
  split : datagrams = earlier ++ later
  during : List Exchange
  grows : closed.exchanges = life.opened.exchanges ++ during
  /-- No exchange of the session is older than the session. -/
  own : ownExchanges closed.exchanges ref = ownExchanges during ref
  closes : closed.clock = c
  adds : c = started +
    costs env.client.lasts (fun exchange => exchange.session = ref) life.opened.exchanges during +
    costs env.client.lasts (fun exchange => ¬ exchange.session = ref) life.opened.exchanges during +
    idling env fuel life.rest life.next

/-- The duration of a session that is finished just now. -/
theorem Life.lasted {ref : ℕ} {datagrams : List Datagram} {σ : Server}
    (life : Life env fuel ref datagrams σ) :
    Nonempty (Lasted env fuel ref datagrams (σ.objects ref).startedAt σ.clock) := by
  obtain ⟨first, grown, clock⟩ := serve_clock life.opens
  obtain ⟨rest, grows, ends⟩ := run_clock life.serves
  have whole : σ.exchanges = life.opened.exchanges ++ (first ++ rest) := by
    rw [grows, grown, List.append_assoc]
  have none : ∀ exchange ∈ life.opened.exchanges, exchange.session ≠ ref := by
    intro exchange member
    exact (((regular_of_run life.reached).known exchange member).trans_le life.new).ne
  have own : ownExchanges σ.exchanges ref = ownExchanges (first ++ rest) ref := by
    rw [whole, ownExchanges, List.filter_append]
    exact (congrArg (· ++ _) (ownExchanges_eq_nil none)).trans (List.nil_append _)
  have woken : (life.opened.woken life.first).clock =
      life.opened.clock + (life.first.receivedAt - life.opened.clock) := by
    show max life.opened.clock life.first.receivedAt = _
    omega
  have spent : σ.clock = (σ.objects ref).startedAt +
      costs env.client.lasts (fun _ => True) life.opened.exchanges (first ++ rest) +
      idling env fuel life.rest life.next := by
    rw [life.started, woken, ends, clock, costs_append, ← grown]
    omega
  rw [@costs_split _ env.client.lasts (fun exchange => exchange.session = ref) _
    life.opened.exchanges (first ++ rest), ← Nat.add_assoc] at spent
  exact ⟨{
    earlier := datagrams
    later := []
    closed := σ
    life := life
    split := (List.append_nil _).symm
    during := first ++ rest
    grows := whole
    own := own
    closes := rfl
    adds := spent }⟩

/-- What a session has lasted does not change any more. -/
def Lasted.serve {ref started c : ℕ} {datagrams : List Datagram}
    (lasted : Lasted env fuel ref datagrams started c) (datagram : Datagram) :
    Lasted env fuel ref (datagrams ++ [datagram]) started c :=
  { lasted with
    later := lasted.later ++ [datagram]
    split := (congrArg (· ++ [datagram]) lasted.split).trans (List.append_assoc _ _ _) }

/-- **Every finished session has lasted.** -/
theorem lasted_of_run {datagrams : List Datagram} {σ : Server}
    (ran : run env fuel datagrams (initial env) = some σ) :
    ∀ ref < σ.created, ∀ c, (σ.objects ref).completedAt = some c →
      Nonempty (Lasted env fuel ref datagrams (σ.objects ref).startedAt c) := by
  apply runAll_history ?_ ?_ ran
  · intro ref there
    exact absurd there (Nat.not_lt_zero ref)
  · intro datagrams datagram σ σ' reached served lasted ref there c completed
    rcases serve_completes served there completed with ⟨old, before⟩ | rfl
    · have passed := @occur_passed env fuel 0 σ σ' (regular_of_run reached).tabled
        (.datagram datagram) served
      rw [(passed.ages ref old).startedAt]
      exact (lasted ref old c before).map fun lasted => lasted.serve datagram
    · obtain ⟨life⟩ := life_of_run (runAll_concat reached served) ref there
      exact life.lasted

theorem timeStamped_rule (env : Env) (fuel : ℕ) :
    ObjectRule env fuel fun _ session => TimeStamped session where
  created := fun _ _ _ _ _ finished => absurd rfl finished
  others := fun _ _ _ _ => id
  renamed := by
    intro _ session session' same stamped
    rw [TimeStamped, Session.result_of_unnamed same, Session.completedAt_of_unnamed same]
    exact stamped
  noted := fun _ _ _ => id
  handled := by
    intro context eapBytes leg _ stamped
    exact (route_of_steps timeStamped_steps context eapBytes).ended stamped

/-- **What durations measure.** In every run every report has its completion time, and the time
from the start of its session to then is the time that its own exchanges took, and those of other
sessions in the meantime, and the time in which nothing came in. -/
theorem durations_add_up {datagrams : List Datagram} {σ : Server}
    (ran : run env fuel datagrams (initial env) = some σ) {ref : ℕ} {report : Session.Summary}
    (reported : (ref, report) ∈ σ.reports) :
    ∃ c, report.completedAt = some c ∧
      Nonempty (Lasted env fuel ref datagrams report.startedAt c) := by
  have reports : TrueReports env fuel datagrams σ := by
    apply runAll_history ?_ TrueReports.concat ran
    intro ref report member
    cases member
  obtain ⟨before, after, τ, split, reached, rfl, finished, _⟩ := reports ref report reported
  have stamped := (timeStamped_rule env fuel).holds reached ref
  have born : ref < τ.created := by
    obtain ⟨v, result⟩ := Option.isSome_iff_exists.mp finished
    obtain ⟨exchange, there, own, _⟩ := ((honest_initial env).run reached).stored ref v result
    exact own ▸ (regular_of_run reached).known exchange there
  obtain ⟨c, completed⟩ := Option.ne_none_iff_exists'.mp
    (stamped (Option.isSome_iff_ne_none.mp finished))
  refine ⟨c, completed, ?_⟩
  obtain ⟨lasted⟩ := lasted_of_run reached ref born c completed
  exact ⟨{ lasted with
    later := lasted.later ++ after
    split := split.trans ((congrArg (· ++ after) lasted.split).trans (List.append_assoc _ _ _)) }⟩

/-- A server that takes its time. -/
def slowServer : Env :=
  { answeringInTurn "reassemble" [emptyChallenge, emptyChallenge, acceptReply] with
    elapsed := fun _ _ => 7 }

/-- `alice`, `bob`, and some time later `alice` with her record. -/
def slowDatagrams : List Datagram :=
  [identityDatagram, datagramOf (requestWith none [codeResponse, 6, 0, 6, 1, 98]),
    { datagramOf recordRequest with receivedAt := 20 }]

/-- The session of `alice` lasts 27: twice 7 for her, 7 for `bob`, and 6 until her record comes. -/
theorem durations_add_up_sample :
    ∃ σ report, run slowServer 1 slowDatagrams (initial slowServer) = some σ ∧
      (0, report) ∈ σ.reports ∧ report.startedAt = 0 ∧ report.completedAt = some 27 ∧
      ∃ c, report.completedAt = some c ∧
        Nonempty (Lasted slowServer 1 0 slowDatagrams report.startedAt c) := by
  have ran := @Option.some_get _ (run slowServer 1 slowDatagrams (initial slowServer)) rfl
  exact ⟨_, _, ran.symm, List.mem_singleton_self _, rfl, rfl,
    @durations_add_up slowServer 1 _ _ ran.symm 0 _ (List.mem_singleton_self _)⟩

end Downstream
end EapAccel
