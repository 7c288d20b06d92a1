import EapAccel.Downstream.Bookkeeping
import EapAccel.Downstream.RoundTrips

/-!
# What a report says

The record that is reported of a finished session is its counters, and reassemble mode is compared
with passthrough mode by them. They are a true account of what came from the AP and of what was
built for it, whatever the AP sends, whatever the server answers and whatever fails on the way
(`Account`). In reassemble mode they have the packets that came for the session and the octets of
the records that these completed, and the ACKs and the fragments in the replies that were built
for its supplicant; in passthrough mode the packets each way, and that nothing was ACKed or
reassembled. In every run every report is the account of its session when it was made
(`reports_account`).
-/

set_option autoImplicit false

namespace EapAccel

open Foundations EapTls

namespace Downstream

open Mediator

variable {env : Env} {fuel : ℕ}

/-! ## Reassemble mode -/

/-- The EAP-TLS packets among some EAP packets. -/
def readAll (onward : List Bytes) : List EapTlsPacket :=
  onward.filterMap fun eapBytes => (parse eapBytes).toOption

theorem readAll_concat (onward : List Bytes) (next : Option Bytes) :
    readAll (onward ++ next.toList) =
      readAll onward ++ (next.bind fun eapBytes => (parse eapBytes).toOption).toList := by
  rw [readAll, List.filterMap_append]
  cases next with
  | none => rfl
  | some eapBytes =>
      rw [Option.bind_some, Option.toList_some, List.filterMap_cons]
      cases (parse eapBytes).toOption <;> rfl

/-- The intake of a new session. -/
def emptyIntake (limit : ℕ) : Intake where
  reassembler := { maxMessageLen := limit }
  packets := 0
  octets := 0

/-- The books of a session that these packets came for, and for whose supplicant those were
built. -/
structure BookedAs (limit : ℕ) (packets : List EapTlsPacket) (onward : List Bytes)
    (session : Session) : Prop where
  books : session.books.Tells (readAll onward)
  intake : session.intake = packets.foldl Intake.take (emptyIntake limit)

/-- A packet of another EAP type is not booked. -/
theorem passthroughNonTls_booked {context : AuthContext} {limit : ℕ}
    {packets : List EapTlsPacket} {onward : List Bytes} (eapBytes : Bytes) :
    Act.Invariant (fun leg => BookedAs limit packets onward leg.session)
      (passthroughNonTls env context eapBytes) := by
  apply passthroughNonTls_keeps
  · exact fun _ _ booked => ⟨booked.books, booked.intake⟩
  · apply Act.Invariant.of_ended
    intro leg booked
    have books : (exchange env.client eapBytes context leg).2.session.books = leg.session.books :=
      exchange_books eapBytes leg
    have intake := congrArg Session.intake (@exchange_supplicantSide env.client eapBytes context leg)
    exact ⟨books.symm ▸ booked.books, intake.trans booked.intake⟩

/-- What a packet that is not EAP-TLS does not touch, is not booked. -/
theorem route_unparsed {P : Session → Prop} {request : ApRequest} {e : Raised}
    (other : parse request.eap = .error e)
    (nonTls : Act.Invariant (fun leg => P leg.session)
      (passthroughNonTls env request.context request.eap)) :
    Act.Invariant (fun leg => P leg.session) (route env fuel request.context request.eap) := by
  rw [route]
  split
  · apply Act.Invariant.of_ended
    intro leg holds
    rw [handle_unparsed other]
    exact holds
  · exact nonTls

/-- Where a packet is not EAP-TLS, nothing came and nothing goes on. -/
theorem booked_of_unparsed {P : List EapTlsPacket → List Bytes → Session → Prop}
    {request : ApRequest} {packets : List EapTlsPacket} {onward : List Bytes} {e : Raised} {leg : Leg}
    (other : parse request.eap = .error e) (holds : P packets onward leg.session)
    (nonTls : Act.Invariant (fun leg => P packets onward leg.session)
      (passthroughNonTls env request.context request.eap)) :
    Act.Triple (fun start => start = leg) (route env fuel request.context request.eap)
      (fun outcome leg' => P (packets ++ (parse request.eap).toOption.toList)
        (onward ++ (onwardFor request outcome).toList) leg'.session)
      (fun _ leg' => P (packets ++ (parse request.eap).toOption.toList) onward leg'.session) := by
  have silent : ∀ outcome, onwardFor request outcome = none := by
    intro outcome
    rw [onwardFor, other]
  rintro leg rfl
  have ended := (@route_unparsed env fuel (P packets onward) request e other nonTls).ended holds
  rw [other]
  rcases routed : route env fuel request.context request.eap leg with ⟨e | outcome, leg'⟩
  · rw [routed] at ended
    simpa [Except.toOption] using ended
  · rw [routed] at ended
    simpa [Except.toOption, silent] using ended

theorem route_of_parse {request : ApRequest} {packet : EapTlsPacket}
    (parsed : parse request.eap = .ok packet) :
    route env fuel request.context request.eap =
      handleSupplicantEap env.client fuel request.context request.eap := by
  rw [route, if_pos (type_of_parse parsed)]

/-- **The books of reassemble mode.** -/
theorem booked_rule (reassembling : env.cfg.sessionMode = .reassemble) (fuel : ℕ) :
    BookRule env fuel fun packets onward _ => BookedAs env.cfg.maxMessageLen packets onward where
  created := fun _ _ _ _ _ => ⟨Books.tells_nothing, rfl⟩
  others := fun _ _ _ _ _ _ booked => booked
  renamed := by
    intro packets onward _ session session' same booked
    have of : ∀ s : Session, s.books = s.unnamed.books ∧ s.intake = s.unnamed.intake :=
      fun _ => ⟨rfl, rfl⟩
    constructor
    · rw [(of session').1, same, ← (of session).1]
      exact booked.books
    · rw [(of session').2, same, ← (of session).2]
      exact booked.intake
  noted := fun _ _ _ _ _ booked => ⟨booked.books, booked.intake⟩
  handled := by
    intro packets onward request leg settled booked
    have mode : leg.session.mode = env.cfg.sessionMode := congrArg Session.Settings.mode settled
    rcases parsed : parse request.eap with e | packet
    · rw [← parsed]
      exact booked_of_unparsed parsed booked (passthroughNonTls_booked _)
    · have intake := @handle_intake env.client fuel request.context request.eap packet leg
        (mode.trans reassembling) parsed
      rw [booked.intake] at intake
      have taken :
          (handleSupplicantEap env.client fuel request.context request.eap leg).2.session.intake
          = (packets ++ [packet]).foldl Intake.take (emptyIntake env.cfg.maxMessageLen) := by
        rw [List.foldl_append]
        exact intake
      have books := @handle_books env.client fuel request.context (readAll onward) request.eap leg
        (mode.trans reassembling) booked.books leg rfl
      rw [route_of_parse parsed]
      rintro leg rfl
      rcases handles : handleSupplicantEap env.client fuel request.context request.eap leg with
        ⟨e | outcome, leg'⟩
      · rw [handles] at books taken
        exact ⟨books, taken⟩
      · rw [handles] at books taken
        have goes : onwardFor request outcome = outcome.onward := by rw [onwardFor, parsed]
        have tells : leg'.session.books.Tells
            (readAll (onward ++ (onwardFor request outcome).toList)) := by
          rw [goes, readAll_concat]
          exact books
        exact ⟨tells, taken⟩

/-! ## Passthrough mode -/

/-- The counters of a session that these packets came for, and for whose supplicant those were
built. -/
def Relays (packets : List EapTlsPacket) (onward : List Bytes) (session : Session) : Prop :=
  session.Tallied packets.length onward.length

/-- **The books of passthrough mode.** -/
theorem relays_rule (passing : env.cfg.sessionMode = .passthrough) (fuel : ℕ) :
    BookRule env fuel fun packets onward _ => Relays packets onward where
  created := fun _ _ _ _ _ => ⟨rfl, rfl, ⟨rfl, rfl⟩, rfl, rfl⟩
  others := fun _ _ _ _ _ _ tallied => tallied
  renamed := by
    intro packets onward _ session session' same tallied
    have up : session'.unnamed.up = session.unnamed.up := congrArg Session.up same
    have down : session'.unnamed.down = session.unnamed.down := congrArg Session.down same
    obtain ⟨arrived, released, unacked, unassembled⟩ := tallied
    exact ⟨(congrArg _ up).trans arrived, (congrArg _ down).trans released,
      ⟨(congrArg _ up).trans unacked.1, (congrArg _ down).trans unacked.2⟩,
      (congrArg _ up).trans unassembled.1, (congrArg _ down).trans unassembled.2⟩
  noted := fun _ _ _ _ _ tallied =>
    ⟨tallied.arrived, tallied.released, tallied.unacked, tallied.unassembled⟩
  handled := by
    intro packets onward request leg settled tallied
    have mode : leg.session.mode = env.cfg.sessionMode := congrArg Session.Settings.mode settled
    rcases parsed : parse request.eap with e | packet
    · rw [← parsed]
      apply @booked_of_unparsed env fuel Relays _ _ _ _ _ parsed tallied
      apply passthroughNonTls_keeps
      · exact fun _ _ tallied =>
          ⟨tallied.arrived, tallied.released, tallied.unacked, tallied.unassembled⟩
      · exact Act.Triple.conseq (exchange_tallied _) (fun _ => id) (fun _ _ => And.right) fun _ _ => id
    · rw [route_of_parse parsed]
      rintro leg rfl
      have arrived : (relayed leg.session packet).Tallied (packets.length + 1) onward.length :=
        ⟨congrArg (· + 1) tallied.arrived, tallied.released, tallied.unacked, tallied.unassembled⟩
      have counts := @passthroughUpstream_tallied env.client request.context _ _ request.eap
        { leg with session := relayed leg.session packet } arrived
      rw [← @handle_passthrough_eq env.client fuel leg request.context request.eap packet
        (mode.trans passing) parsed] at counts
      have came : (packets ++ [packet]).length = packets.length + 1 := List.length_append
      rcases handles : handleSupplicantEap env.client fuel request.context request.eap leg with
        ⟨e | outcome, leg'⟩
      · rw [handles] at counts
        have both : leg'.session.Tallied (packets ++ [packet]).length onward.length := by
          rw [came]
          exact counts
        exact both
      · rw [handles] at counts
        have goes : onwardFor request outcome = outcome.onward := by rw [onwardFor, parsed]
        have went : (onward ++ (onwardFor request outcome).toList).length =
            onward.length + outcome.onward.toList.length := by
          rw [goes, List.length_append]
        have both : leg'.session.Tallied (packets ++ [packet]).length
            (onward ++ (onwardFor request outcome).toList).length := by
          rw [came, went]
          exact counts
        exact both

/-! ## Reports -/

/-- What the report of a session in reassemble mode has of the packets that came and of what was
built for the supplicant. -/
structure Reassembles (limit : ℕ) (packets : List EapTlsPacket) (onward : List Bytes)
    (report : Session.Summary) : Prop where
  /-- The octets of the records that a reassembler returns when it is fed with the packets. -/
  gathered : report.up.bytesReassembled =
    ((Act.collect Reassembler.ingest packets { maxMessageLen := limit }).1.map completedOctets).sum
  /-- The ACKs and the fragments that were built. -/
  acked : report.up.acksGenerated = (readAll onward).countP (·.isAck)
  released : report.down.fragmentsOut = (readAll onward).countP fun packet => !packet.isAck
  /-- No octet was released that had not been reassembled. -/
  carried : (joined (readAll onward)).length ≤ report.down.bytesReassembled

/-- What the report of a session in passthrough mode has of them. -/
structure PassesThrough (onward : List Bytes) (report : Session.Summary) : Prop where
  released : report.down.fragmentsOut = onward.length
  unacked : report.up.acksGenerated = 0 ∧ report.down.acksGenerated = 0
  unassembled : report.up.bytesReassembled = 0 ∧ report.down.bytesReassembled = 0

/-- The account of a session that these packets came for, for whose supplicant those were built,
and that used `send_eap` in these exchanges. -/
structure Account (env : Env) (packets : List EapTlsPacket) (onward : List Bytes)
    (exchanges : List Exchange) (report : Session.Summary) : Prop where
  mode : report.mode = env.cfg.sessionMode
  arrived : report.up.fragmentsIn = packets.length
  /-- The requests to the server whose attributes pyrad took. -/
  asked : report.upstreamRoundTrips = trips env.client exchanges
  reassembles : report.mode = .reassemble → Reassembles env.cfg.maxMessageLen packets onward report
  passes : report.mode = .passthrough → PassesThrough onward report

theorem BookedAs.reassembles {limit : ℕ} {packets : List EapTlsPacket} {onward : List Bytes}
    {session : Session} (booked : BookedAs limit packets onward session) :
    session.up.fragmentsIn = packets.length ∧ Reassembles limit packets onward session.summary := by
  have intake := booked.intake
  rw [intake_foldl] at intake
  exact ⟨(congrArg Intake.packets intake).trans (Nat.zero_add _), {
    gathered := (congrArg Intake.octets intake).trans (Nat.zero_add _)
    acked := booked.books.acks
    released := booked.books.fragments
    carried := (Nat.le_add_right _ _).trans booked.books.octets }⟩

/-- The account of the session `ref` after a run that led to `σ`. -/
def AccountOf (env : Env) (fuel : ℕ) (datagrams : List Datagram) (σ : Server) (ref : ℕ) :
    Session.Summary → Prop :=
  Account env (packetsFor env fuel ref datagrams (initial env)) (σ.onwardTo ref)
    (ownExchanges σ.exchanges ref)

/-- **Every session of a run is accounted for.** -/
theorem account_of_run {datagrams : List Datagram} {σ : Server}
    (ran : run env fuel datagrams (initial env) = some σ) (ref : ℕ) :
    AccountOf env fuel datagrams σ ref (σ.objects ref).summary := by
  have settled := (regular_of_run ran).settled ref
  have mode : (σ.objects ref).summary.mode = env.cfg.sessionMode :=
    congrArg Session.Settings.mode settled
  have counted : (σ.objects ref).upstreamRoundTrips =
      trips env.client (ownExchanges σ.exchanges (σ.objects ref).ident) :=
    (counted_rule env fuel).holds ran ref
  rw [show (σ.objects ref).ident = ref from congrArg Session.Settings.ident settled] at counted
  cases which : env.cfg.sessionMode with
  | reassemble =>
      obtain ⟨arrived, reassembles⟩ := ((booked_rule which fuel).holds ran ref).reassembles
      refine ⟨mode, arrived, counted, fun _ => reassembles, ?_⟩
      intro passing
      rw [mode, which] at passing
      cases passing
  | passthrough =>
      have tallied : (σ.objects ref).Tallied _ _ := (relays_rule which fuel).holds ran ref
      refine ⟨mode, tallied.arrived, counted, ?_, fun _ =>
        ⟨tallied.released, tallied.unacked, tallied.unassembled⟩⟩
      intro reassembling
      rw [mode, which] at reassembling
      cases reassembling

/-- What is reported is the summary of a finished session. -/
theorem conclude_reported (ref : ℕ) (request : ApRequest) (outcome : Outcome) (σ : Server) :
    (conclude env ref request outcome σ).2.reports = σ.reports ∨
      ((conclude env ref request outcome σ).2.objects ref).result.isSome = true ∧
      (conclude env ref request outcome σ).2.reports = σ.reports ++
        [(ref, ((conclude env ref request outcome σ).2.objects ref).summary)] := by
  have before : (answer env ref request outcome σ).2.reports = σ.reports :=
    addressed_reports ref outcome.action σ
  rw [conclude_eq, ← before]
  simp only
  cases env.send (answer env ref request outcome σ).2.replies
      (answer env ref request outcome σ).1 with
  | error e => exact .inl rfl
  | ok done =>
      rw [reportAndDrop_eq]
      by_cases finished : ((replied (answer env ref request outcome σ).1
        (answer env ref request outcome σ).2).objects ref).result.isSome
      · simp only [if_pos finished]
        apply Or.inr
        cases env.report (replied (answer env ref request outcome σ).1
            (answer env ref request outcome σ).2).reports (ref, ((replied
              (answer env ref request outcome σ).1
              (answer env ref request outcome σ).2).objects ref).summary) with
        | ok done => exact ⟨finished, rfl⟩
        | error e => exact ⟨finished, rfl⟩
      · simp only [if_neg finished]
        exact .inl rfl

theorem opened_reports (σ : Server) (key : String) : (σ.opened env key).2.reports = σ.reports := by
  rw [Server.opened]
  cases σ.table.lookup key <;> rfl

theorem serve_reported {σ σ' : Server} {datagram : Datagram}
    (served : serve env fuel datagram σ = some σ') :
    σ'.reports = σ.reports ∨ ∃ ref, (σ'.objects ref).result.isSome = true ∧
      σ'.reports = σ.reports ++ [(ref, (σ'.objects ref).summary)] := by
  rcases serve_cases served with rfl | ⟨request, _, _, rfl⟩
  · exact .inl rfl
  · have opened : (afterHandling env fuel datagram.addr request (σ.woken datagram)).reports =
        σ.reports := opened_reports (σ.woken datagram) _
    rcases result : (handled env fuel datagram.addr request (σ.woken datagram)).1 with e | outcome
    · rw [handleRequest_of_error result]
      exact .inl opened
    · rw [handleRequest_of_ok result, ← opened]
      rcases conclude_reported (found env datagram.addr request (σ.woken datagram)).1 request outcome
        (afterHandling env fuel datagram.addr request (σ.woken datagram)) with same | ⟨finished, new⟩
      · exact .inl same
      · exact .inr ⟨_, finished, new⟩

/-- Every report is the account of its session when it was made. -/
def TrueReports (env : Env) (fuel : ℕ) (datagrams : List Datagram) (σ : Server) : Prop :=
  ∀ ref report, (ref, report) ∈ σ.reports → ∃ before after τ, datagrams = before ++ after ∧
    run env fuel before (initial env) = some τ ∧ report = (τ.objects ref).summary ∧
    report.result.isSome = true ∧ AccountOf env fuel before τ ref report

theorem TrueReports.concat (datagrams : List Datagram) (datagram : Datagram) (σ σ' : Server)
    (ran : run env fuel datagrams (initial env) = some σ)
    (served : serve env fuel datagram σ = some σ') (earlier : TrueReports env fuel datagrams σ) :
    TrueReports env fuel (datagrams ++ [datagram]) σ' := by
  intro ref report member
  have old : (ref, report) ∈ σ.reports → _ := earlier ref report
  have ran' : run env fuel (datagrams ++ [datagram]) (initial env) = some σ' :=
    runAll_concat ran served
  have kept : (ref, report) ∈ σ.reports → ∃ before after τ,
      datagrams ++ [datagram] = before ++ after ∧ run env fuel before (initial env) = some τ ∧
        report = (τ.objects ref).summary ∧ report.result.isSome = true ∧
        AccountOf env fuel before τ ref report := by
    intro member
    obtain ⟨before, after, τ, rfl, rest⟩ := old member
    exact ⟨before, after ++ [datagram], τ, List.append_assoc _ _ _, rest⟩
  rcases serve_reported served with same | ⟨other, finished, grown⟩
  · exact kept (same ▸ member)
  · rw [grown] at member
    rcases List.mem_append.mp member with before | new
    · exact kept before
    · cases List.mem_singleton.mp new
      exact ⟨_, [], σ', (List.append_nil _).symm, ran', rfl, finished, account_of_run ran' ref⟩

/-- **Reports are true.** In every run, in either mode and whatever fails, each session is
accounted for, and every report is the account of its session when it was made. -/
theorem reports_account (env : Env) (fuel : ℕ) {datagrams : List Datagram} {σ : Server}
    (ran : run env fuel datagrams (initial env) = some σ) :
    (∀ ref, AccountOf env fuel datagrams σ ref (σ.objects ref).summary) ∧
      TrueReports env fuel datagrams σ := by
  constructor
  · exact account_of_run ran
  · apply runAll_history ?_ TrueReports.concat ran
    intro ref report member
    cases member

/-- A record of three octets is answered with an Access-Accept. -/
theorem reports_account_sample :
    ∃ σ report, run (answering "reassemble" acceptReply) 1 [datagramOf recordRequest]
        (initial (answering "reassemble" acceptReply)) = some σ ∧ (0, report) ∈ σ.reports ∧
      report.up.fragmentsIn = 1 ∧ report.up.bytesReassembled = 3 ∧ report.upstreamRoundTrips = 1 ∧
      TrueReports (answering "reassemble" acceptReply) 1 [datagramOf recordRequest] σ := by
  have ran := @Option.some_get _ (run (answering "reassemble" acceptReply) 1 [datagramOf recordRequest]
    (initial (answering "reassemble" acceptReply))) rfl
  exact ⟨_, _, ran.symm, List.mem_singleton_self _, rfl, rfl, rfl,
    (reports_account (answering "reassemble" acceptReply) 1 ran.symm).2⟩

end Downstream
end EapAccel
