import EapAccel.Downstream.Reachable

/-!
# The table between two datagrams

Four operations move sessions between keys: `get_or_create`, `rekey`, `drop` and
`reap_idle`. While replies and reports get out, they keep the table a dictionary in which
a session with a State stands under that State, none is finished, and none was reported
before (`Booked`). The tokens need not be fresh for this: a token that was drawn before
takes over the entry of its key, and the session that stood there is lost.
-/

set_option autoImplicit false

namespace EapAccel

open Foundations EapTls

/-- What holds of the reports at any time: a session that was reported is gone. -/
structure Server.Reported (σ : Server) : Prop extends σ.Named where
  gone : ∀ report ∈ σ.reports, report.1 < σ.created ∧ ¬ σ.Live report.1
  once : (σ.reports.map Prod.fst).Nodup

/-- What holds between two datagrams. -/
structure Server.Booked (σ : Server) : Prop extends σ.Reported where
  unfinished : ∀ entry ∈ σ.table, (σ.objects entry.2).result = none

namespace Downstream

open Mediator

variable {env : Env} {fuel : ℕ}

theorem booked_initial (env : Env) : (initial env).Booked :=
  ⟨⟨named_initial env, by simp [initial], List.nodup_nil⟩, by simp [initial]⟩

theorem Booked.opened {σ : Server} (booked : σ.Booked) (key : String) :
    (σ.opened env key).2.Booked := by
  have named := @Named.opened env σ booked.toNamed key
  rcases opened_cases σ env key with ⟨_, same⟩ | ⟨_, grown⟩
  · rw [same]
    exact booked
  · rw [grown] at named ⊢
    refine ⟨⟨named, ?_, booked.once⟩, ?_⟩
    · intro report member
      obtain ⟨known, dead⟩ := booked.gone report member
      refine ⟨Nat.lt_succ_of_lt known, ?_⟩
      rintro ⟨other, entry⟩
      rcases of_mem_dictSet entry with same | ⟨old, _⟩
      · have new : report.1 = σ.created := congrArg Prod.snd same
        exact known.ne new
      · exact dead ⟨other, old⟩
    · intro entry member
      rcases of_mem_dictSet member with rfl | ⟨old, _⟩
      · simp [Server.grow, Session.create]
      · simp only [Server.grow, Function.update_of_ne (booked.tabled entry old).1.ne]
        exact booked.unfinished entry old

/-! ## Reporting and dropping -/

/-- The work that a handling has left undone is that of its own session. -/
def OthersUnfinished (ref : ℕ) (σ : Server) : Prop :=
  ∀ entry ∈ σ.table, entry.2 ≠ ref → (σ.objects entry.2).result = none

/-- Giving a session its State does not bring back a session that was reported. -/
theorem Reported.addressed {σ : Server} (reported : σ.Reported) {ref : ℕ} (found : σ.Found ref)
    (action : Action) : (σ.addressed env ref action).2.Reported := by
  have named := @Named.addressed env σ reported.toNamed ref found action
  have live := fun other => @addressed_live env σ ref other found action
  have created : (σ.addressed env ref action).2.created = σ.created :=
    congrArg (·.created) (addressed_work ref action σ)
  refine ⟨named, ?_, addressed_reports ref action σ ▸ reported.once⟩
  rw [addressed_reports, created]
  exact fun report member => ⟨(reported.gone report member).1,
    fun there => (reported.gone report member).2 (live _ there)⟩

/-- Reporting a finished session and dropping it leaves no finished session. -/
theorem Reported.reportAndDrop {σ : Server} (reports : σ.Reported) {ref : ℕ} (live : σ.Live ref)
    (others : OthersUnfinished ref σ) (written : ∀ before report, env.report before report = .ok ()) :
    (reportAndDrop env ref σ).2.Booked := by
  have named := @Named.reportAndDrop env σ reports.toNamed ref
  rw [reportAndDrop_eq] at named ⊢
  by_cases finished : (σ.objects ref).result.isSome
  · rw [if_pos finished, written] at named ⊢
    have shorter := dictPop_sublist (σ.objects ref).key σ.table
    have drops : ∀ other, (dropped ref (reported ref σ)).Live other → σ.Live other ∧ other ≠ ref :=
      fun other => @dropped_live (reported ref σ) reports.tabled ref other
    refine ⟨⟨named, ?_, ?_⟩, ?_⟩
    · intro report member
      rcases List.mem_append.mp member with old | new
      · obtain ⟨known, dead⟩ := reports.gone report old
        exact ⟨known, fun there => dead (drops _ there).1⟩
      · rw [List.mem_singleton.mp new]
        obtain ⟨key, entry⟩ := live
        exact ⟨(reports.tabled _ entry).1, fun there => (drops _ there).2 rfl⟩
    · show ((σ.reports ++ [(ref, (σ.objects ref).summary)]).map Prod.fst).Nodup
      rw [List.map_append, List.map_singleton]
      refine List.nodup_append.mpr ⟨reports.once, by simp, ?_⟩
      intro old member new last
      rw [List.mem_singleton.mp last]
      rintro rfl
      obtain ⟨report, there, rfl⟩ := List.mem_map.mp member
      exact (reports.gone report there).2 live
    · intro entry member
      exact others entry (shorter.subset member) (drops _ ⟨entry.1, member⟩).2
  · rw [if_neg finished]
    refine ⟨reports, fun entry member => ?_⟩
    by_cases here : entry.2 = ref
    · rw [here]
      exact Option.not_isSome_iff_eq_none.mp finished
    · exact others entry member here

/-- **Concluding leaves no finished session.** -/
theorem Reported.conclude (out : Delivers env) {σ : Server} (reported : σ.Reported) {ref : ℕ}
    (found : σ.Found ref) (others : OthersUnfinished ref σ) (request : ApRequest)
    (outcome : Outcome) : (conclude env ref request outcome σ).2.Booked := by
  have addressed : (σ.addressed env ref outcome.action).2.Reported :=
    Reported.addressed reported found outcome.action
  have live := @addressed_keeps_live env σ ref found outcome.action
  have work := @addressed_work env ref outcome.action σ
  rw [conclude_of_sends out.sends]
  refine @Reported.reportAndDrop env (replied _ (σ.addressed env ref outcome.action).2)
    ⟨⟨addressed.tabled, addressed.distinct, addressed.named⟩, addressed.gone, addressed.once⟩ ref
    live ?_ out.reports
  intro entry member elsewhere
  have unnamed : ((σ.addressed env ref outcome.action).2.objects entry.2).unnamed =
      (σ.objects entry.2).unnamed := congrFun (congrArg (·.objects) work) entry.2
  have result : ((σ.addressed env ref outcome.action).2.objects entry.2).result =
      (σ.objects entry.2).result := by
    simpa [Session.unnamed] using congrArg Session.result unnamed
  obtain ⟨key, old⟩ := @addressed_live env σ ref entry.2 found outcome.action ⟨entry.1, member⟩
  exact result.trans (others (key, entry.2) old elsewhere)

/-- A handling that raises leaves its session unfinished, if it was. -/
theorem Handled.result_of_error {count : ℕ} {start leg : Leg} {e : Raised}
    (handled : Handled count start (.error e) leg) :
    leg.session.result = start.session.result := by
  obtain ⟨_, _, _, _, same, _, _, _, waits⟩ := handled
  exact waits.trans same

/-- **One request keeps the table in order.** -/
theorem Booked.handleRequest (out : Delivers env) {σ : Server} (booked : σ.Booked)
    (addr : String × ℕ) (request : ApRequest) :
    (handleRequest env fuel addr request σ).2.Booked := by
  have opens : (found env addr request σ).2.Booked := Booked.opened booked _
  have finds : (found env addr request σ).2.Found (found env addr request σ).1 :=
    opened_found booked.tabled _
  have handles := @handled_handled env fuel addr request σ
  have put : (afterHandling env fuel addr request σ).Reported :=
    ⟨Named.put opens.toNamed (handled_key addr request σ) (handled_downstreamState addr request σ),
      opens.gone, opens.once⟩
  have others : OthersUnfinished (found env addr request σ).1
      (afterHandling env fuel addr request σ) := by
    intro entry member elsewhere
    rw [afterHandling, Server.put_objects_of_ne _ _ elsewhere]
    exact opens.unfinished entry member
  rcases result : (handled env fuel addr request σ).1 with e | outcome
  · rw [handleRequest_of_error result]
    rw [result] at handles
    refine ⟨put, fun entry member => ?_⟩
    by_cases here : entry.2 = (found env addr request σ).1
    · rw [here, afterHandling, Server.put_objects_self, Handled.result_of_error handles]
      have unfinished := opens.unfinished entry member
      rwa [here] at unfinished
    · exact others entry member here
  · rw [handleRequest_of_ok result]
    exact Reported.conclude out put (put_found finds (handled_key addr request σ)) others request
      outcome

/-! ## Reaping -/

theorem foldl_dictPop_sublist (stale : List (String × ℕ)) : ∀ table : List (String × ℕ),
    (stale.foldl (fun table entry => dictPop entry.1 table) table).Sublist table := by
  induction stale with
  | nil => exact fun table => List.Sublist.refl table
  | cons entry stale ih => exact fun table => (ih _).trans (dictPop_sublist entry.1 table)

/-- A table with fewer entries is in order, too. -/
theorem Booked.of_sublist {σ : Server} (booked : σ.Booked) {table : List (String × ℕ)}
    (fewer : table.Sublist σ.table) : Server.Booked { σ with table := table } := by
  refine ⟨⟨Named.of_sublist booked.toNamed fewer, fun report member => ?_, booked.once⟩,
    fun entry member => ?_⟩
  · obtain ⟨known, dead⟩ := booked.gone report member
    exact ⟨known, fun ⟨key, there⟩ => dead ⟨key, fewer.subset there⟩⟩
  · exact booked.unfinished entry (fewer.subset member)

theorem Booked.woken {σ : Server} (booked : σ.Booked) (now : ℕ) :
    Server.Booked { σ with clock := max σ.clock now } :=
  ⟨⟨⟨booked.tabled, booked.distinct, booked.named⟩, booked.gone, booked.once⟩, booked.unfinished⟩

/-- **Every event keeps the table in order.** -/
theorem Booked.occur (out : Delivers env) {idleTimeout : ℕ} {σ σ' : Server} (booked : σ.Booked)
    {event : Event} (occurred : occur env fuel idleTimeout event σ = some σ') : σ'.Booked := by
  cases event with
  | datagram datagram =>
      rcases serve_cases occurred with rfl | ⟨request, _, _, rfl⟩
      · exact Booked.woken booked datagram.receivedAt
      · exact Booked.handleRequest out (Booked.woken booked datagram.receivedAt) datagram.addr request
  | reap now =>
      cases occurred
      exact Booked.of_sublist (Booked.woken booked now) (foldl_dictPop_sublist _ _)

/-- In every run of datagrams alone, too. -/
theorem booked_of_run (out : Delivers env) {datagrams : List Datagram} {σ : Server}
    (ran : run env fuel datagrams (initial env) = some σ) : σ.Booked :=
  runAll_keeps (fun datagram _ _ booked served =>
    @Booked.occur env fuel out 0 _ _ booked (.datagram datagram) served) (booked_initial env) ran

/-! ## The invariant -/

end Downstream

/-- The table invariant, for what the APs, the reports and the mediator see of it. -/
structure Server.TableInvariant (env : Env) (σ : Server) : Prop where
  keyed : ∀ entry ∈ σ.table, (σ.objects entry.2).key = entry.1
  stated : ∀ entry ∈ σ.table, ∀ state, (σ.objects entry.2).downstreamState = some state →
    entry.1 = "st:" ++ Downstream.hex state
  /-- No key is there twice, and no object under two keys. -/
  single : ∀ entry ∈ σ.table, ∀ other ∈ σ.table, entry.1 = other.1 ∨ entry.2 = other.2 →
    entry = other
  dispatched : ∀ entry ∈ σ.table, ∀ state, (σ.objects entry.2).downstreamState = some state →
    ∀ addr request, request.state = some state →
      Downstream.found env addr request σ = (entry.2, σ)
  unfinished : ∀ entry ∈ σ.table, (σ.objects entry.2).result = none
  reportedOnce : (σ.reports.map Prod.fst).Nodup

namespace Downstream

variable {env : Env} {fuel : ℕ}

theorem Booked.tableInvariant {σ : Server} (booked : σ.Booked) : σ.TableInvariant env := by
  have lookup : ∀ entry ∈ σ.table, σ.table.lookup entry.1 = some entry.2 :=
    fun entry member => lookup_of_mem booked.distinct member
  refine ⟨fun entry member => (booked.tabled entry member).2, booked.named, ?_, ?_,
    booked.unfinished, booked.once⟩
  · intro entry member other member' same
    have keys : entry.1 = other.1 := by
      rcases same with keys | refs
      · exact keys
      · rw [← (booked.tabled entry member).2, refs, (booked.tabled other member').2]
    have refs := (lookup entry member).symm.trans (keys ▸ lookup other member')
    exact Prod.ext keys (Option.some.inj refs)
  · intro entry member state stated addr request echoes
    have key : sessionKey request addr request.eap = entry.1 := by
      rw [booked.named entry member state stated, sessionKey, echoes]
    rw [found, key]
    exact opened_of_lookup (lookup entry member)

/-- **The session table.** In every run in which replies and reports get out, whatever the
APs send, whenever `reap_idle` is called and whatever handlings raise, every session in the
table stands under its own key, which is its State once it has one, is found by it, is not
finished, and none is reported twice. -/
theorem table_in_order {env : Env} {fuel idleTimeout : ℕ} (out : Delivers env)
    {events : List Event} {σ : Server}
    (ran : runAll (occur env fuel idleTimeout) events (initial env) = some σ) :
    σ.TableInvariant env :=
  Booked.tableInvariant
    (runAll_keeps (fun _ _ _ booked occurred => Booked.occur out booked occurred)
      (booked_initial env) ran)

/-- A session that got its State, and is not reaped yet. -/
theorem table_in_order_sample :
    ∃ σ, runAll (occur (answering "reassemble" emptyChallenge) 0 30)
        [.datagram identityDatagram, .reap 30] (initial (answering "reassemble" emptyChallenge)) =
          some σ ∧
      σ.table = [("st:00", 0)] ∧ σ.TableInvariant (answering "reassemble" emptyChallenge) := by
  refine ⟨_, rfl, rfl, ?_⟩
  exact @table_in_order (answering "reassemble" emptyChallenge) 0 30 (answering_delivers _ _)
    [.datagram identityDatagram, .reap 30] _ rfl

end Downstream
end EapAccel
