import EapAccel.Downstream.Accounts
import EapAccel.Downstream.Freshness
import EapAccel.Downstream.Liveness
import EapAccel.Report

/-!
# The records of a run

`main` gives the server a reporter. Whatever the file system does to it, the server goes on as if
every record had been written (`reporting_eq`). Where replies and blocks get out, the calls of
`report` are, in their order, the verdicts that the APs were sent, one for every session that got
one (`Settled`), and each record is in a file of its own (`verdicts_recorded`).
-/

set_option autoImplicit false

namespace EapAccel

open Foundations

/-- The reporter that `main` builds, and the surroundings of its calls. -/
structure Office where
  /-- `json.dump(record, fh, indent=2)`. -/
  dump : Record → String
  desk : ℕ → Desk
  reporter : Reporter

namespace Office

variable (office : Office)

/-- The calls of `report` for some reports. -/
def calls (reports : List (ℕ × Session.Summary)) : List (Desk × Session.Summary) :=
  reports.zipIdx.map fun entry => (office.desk entry.2, entry.1.2)

/-- The reporter after some reports. -/
def after (reports : List (ℕ × Session.Summary)) : Reporter :=
  reportAll office.dump (office.calls reports) office.reporter

/-- The blocks get out. -/
def Prints : Prop :=
  ∀ n summary path error, (office.desk n).printBlock summary path error = .ok ()

end Office

/-- The surroundings with the reporter. -/
def Env.reporting (env : Env) (office : Office) : Env :=
  { env with
    report := fun before report =>
      (fun _ => ()) <$> (EapAccel.report office.dump (office.desk before.length) report.2
        (office.after before)).1 }

/-- The surroundings where no report fails. -/
def Env.unfailing (env : Env) : Env := { env with report := fun _ _ => .ok () }

/-- The session and the verdict of a reply that has one. -/
def BuiltReply.settles (sent : BuiltReply) : Option (ℕ × Verdict) :=
  if sent.reply.code = accessAccept then some (sent.session, .accept)
  else if sent.reply.code = accessReject then some (sent.session, .reject)
  else none

/-- The reports are the verdicts that were sent, in their order. -/
def Server.Settled (σ : Server) : Prop :=
  σ.reports.map (fun report => (report.1, report.2.result)) =
    (σ.replies.filterMap BuiltReply.settles).map fun settled => (settled.1, some settled.2)

namespace Downstream

open Mediator

variable {env : Env} {fuel : ℕ}

/-! ## The reporter never fails -/

/-- **What the file system does to the reporter, the server does not notice.** -/
theorem reporting_eq {office : Office} (prints : office.Prints) (env : Env) :
    env.reporting office = env.unfailing := by
  have returns : ∀ (before : List (ℕ × Session.Summary)) (report : ℕ × Session.Summary),
      (env.reporting office).report before report = .ok () := by
    intro before report
    have blocks := prints before.length report.2
    show (fun _ => ()) <$> (EapAccel.report office.dump (office.desk before.length) report.2
      (office.after before)).1 = .ok ()
    rw [EapAccel.report]
    rcases writeJson office.dump (office.desk before.length) report.2 (office.after before) with
      ⟨error | path, reporter⟩
    · simp only [blocks]
      rfl
    · simp only [blocks]
      rfl
  rw [Env.unfailing, ← funext fun before => funext fun report => returns before report]
  rfl

/-! ## Reports are verdicts -/

/-- What a handling that returned says is what the session has come to. -/
theorem Handled.result_eq {count : ℕ} {start leg : Leg} {outcome : Outcome}
    (handled : Handled count start (.ok outcome) leg) (unfinished : start.session.result = none) :
    leg.session.result = outcome.action.verdict := by
  cases said : outcome.action.verdict with
  | none => exact Handled.unfinished handled said unfinished
  | some v =>
      rcases handled with ⟨_, mid, _, _, _, delivered⟩ | ⟨_, stored⟩
      · rw [Delivered, said] at delivered
        exact delivered.2
      · rw [said, unfinished] at stored
        cases stored

theorem settles_answer (ref : ℕ) (request : ApRequest) (outcome : Outcome) (σ : Server) :
    (answer env ref request outcome σ).1.settles = outcome.action.verdict.map (ref, ·) := by
  rw [BuiltReply.settles, answer_code]
  cases outcome.action <;> rfl

/-- Where replies and reports get out, concluding reports a finished session. -/
theorem conclude_reports_eq (out : Delivers env) (ref : ℕ) (request : ApRequest) (outcome : Outcome)
    (σ : Server) :
    (conclude env ref request outcome σ).2.reports.map (fun report => (report.1, report.2.result)) =
      σ.reports.map (fun report => (report.1, report.2.result)) ++
        ((σ.objects ref).result.map fun v => (ref, some v)).toList := by
  have reports : (answer env ref request outcome σ).2.reports = σ.reports :=
    addressed_reports ref outcome.action σ
  have unnamed := congrFun (congrArg (·.objects) (@addressed_work env ref outcome.action σ)) ref
  have result : ((answer env ref request outcome σ).2.objects ref).result =
      (σ.objects ref).result := by
    have same := congrArg Session.result unnamed
    exact same
  rw [conclude_of_sends out.sends, reportAndDrop_eq]
  simp only [out.reports]
  have result' : ((replied (answer env ref request outcome σ).1
      (answer env ref request outcome σ).2).objects ref).result = (σ.objects ref).result := result
  rw [result']
  cases finished : (σ.objects ref).result with
  | none =>
      rw [if_neg (by simp), Option.map_none, Option.toList_none, List.append_nil]
      exact congrArg _ reports
  | some v =>
      rw [if_pos (by simp)]
      show ((answer env ref request outcome σ).2.reports ++ [(ref, ((answer env ref request outcome
        σ).2.objects ref).summary)]).map _ = _
      rw [List.map_append, reports, List.map_singleton]
      have reported : ((answer env ref request outcome σ).2.objects ref).summary.result = some v :=
        result.trans finished
      rw [reported]
      rfl

/-- **One request settles a session exactly when its reply has a verdict.** -/
theorem Settled.handleRequest (out : Delivers env) {σ : Server} (booked : σ.Booked)
    (settled : σ.Settled) (addr : String × ℕ) (request : ApRequest) :
    (handleRequest env fuel addr request σ).2.Settled := by
  have handles := @handled_handled env fuel addr request σ
  have undecided : Undecided σ := fun ref ⟨key, entry⟩ => booked.unfinished (key, ref) entry
  have unfinished := @startOf_waiting env σ undecided addr request
  have opened : (afterHandling env fuel addr request σ).reports = σ.reports :=
    opened_reports σ _
  rcases result : (handled env fuel addr request σ).1 with e | outcome
  · rw [Server.Settled, handleRequest_silent result, handleRequest_of_error result, opened]
    exact settled
  · rw [result] at handles
    have came : ((afterHandling env fuel addr request σ).objects
        (found env addr request σ).1).result = outcome.action.verdict := by
      rw [afterHandling, Server.put_objects_self]
      exact Handled.result_eq handles unfinished
    rw [Server.Settled, handleRequest_answers result, handleRequest_of_ok result,
      conclude_reports_eq out, opened, settled, came, List.filterMap_append, List.map_append]
    congr 1
    simp only [List.filterMap_cons, List.filterMap_nil, settles_answer]
    cases outcome.action.verdict with
    | none => rfl
    | some v => rfl

/-- **Reports are verdicts**, in every run in which replies and reports get out. -/
theorem settled_of_run (out : Delivers env) {datagrams : List Datagram} {σ : Server}
    (ran : run env fuel datagrams (initial env) = some σ) : σ.Booked ∧ σ.Settled := by
  have step : ∀ datagram σ σ', (σ.Booked ∧ σ.Settled) → serve env fuel datagram σ = some σ' →
      σ'.Booked ∧ σ'.Settled := by
    rintro datagram σ σ' ⟨booked, settled⟩ served
    refine ⟨@Booked.occur env fuel out 0 _ _ booked (.datagram datagram) served, ?_⟩
    rcases serve_cases served with rfl | ⟨request, _, _, rfl⟩
    · exact settled
    · exact Settled.handleRequest out (Booked.woken booked datagram.receivedAt) settled
        datagram.addr request
  exact runAll_keeps step ⟨booked_initial env, rfl⟩ ran

/-! ## Records -/

theorem calls_getElem? {office : Office} {reports : List (ℕ × Session.Summary)} {n : ℕ}
    {call : Desk × Session.Summary} (there : (office.calls reports)[n]? = some call) :
    ∃ ref, call.1 = office.desk n ∧ reports[n]? = some (ref, call.2) := by
  rw [Office.calls, List.getElem?_map, List.getElem?_zipIdx] at there
  cases entry : reports[n]? with
  | none =>
      rw [entry] at there
      cases there
  | some report =>
      rw [entry] at there
      cases there
      exact ⟨report.1, by simp, rfl⟩

/-- An office whose disk is full after the first record: files are opened, and nothing gets into
them. -/
def fullDisk : Office where
  dump := fun record => record.timestamp
  desk := fun n => {
    timestamp := "2026-01-01T12:00:00+00:00"
    localTime := ⟨2026, 1, 1, 12, 0, 0⟩
    closed := if n = 0 then .ok () else .error (0, "[Errno 28] No space left on device") }
  reporter := { outputDir := "/out", files := fun _ => none }

end Downstream
end EapAccel
