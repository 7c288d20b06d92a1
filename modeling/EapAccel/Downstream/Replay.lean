import EapAccel.Downstream.Flights

/-!
# Records that are not handed over again

The reassembler keeps a message after it is complete, and the drain reads the buffer also
where nothing was fed. So an empty packet of the server may bring an old message back. Each
session is watched with two marks: when a record of it was last handed over, and when its
reassembler was last complete. Every record is fresh exactly where no handling hears an
ACK first without new data behind it (`flights_fresh_iff`).
-/

set_option autoImplicit false

namespace EapAccel

open Foundations EapTls

/-! ## Marks -/

/-- The server's packets that were looked at in a session, after the first `mark` exchanges. -/
def heardSince (exchanges : List Exchange) (mark ref : ℕ) : List EapTlsPacket :=
  heard (ownExchanges (exchanges.drop mark) ref)

theorem heardSince_length (exchanges : List Exchange) (ref : ℕ) :
    heardSince exchanges exchanges.length ref = [] := by
  rw [heardSince, List.drop_length]
  rfl

theorem heardSince_append {exchanges new : List Exchange} {mark ref : ℕ}
    (behind : mark ≤ exchanges.length) (own : ∀ exchange ∈ new, exchange.session = ref) :
    heardSince (exchanges ++ new) mark ref = heardSince exchanges mark ref ++ heard new := by
  have mine : ownExchanges new ref = new := by
    rw [ownExchanges, List.filter_eq_self]
    exact fun exchange member => decide_eq_true (own exchange member)
  rw [heardSince, List.drop_append_of_le_length behind, ownExchanges, List.filter_append,
    heard_append]
  exact congrArg _ (congrArg heard mine)

theorem heardSince_append_others {exchanges new : List Exchange} {mark ref : ℕ}
    (others : ∀ exchange ∈ new, exchange.session ≠ ref) :
    heardSince (exchanges ++ new) mark ref = heardSince exchanges mark ref := by
  rw [heardSince, List.drop_append, ownExchanges_append_others]
  · rfl
  · exact fun exchange member => others exchange (List.mem_of_mem_drop member)

/-- A server, and when its sessions last came to a record: for each session, how many exchanges
had been made when a record of it was last handed over, and when its reassembler was last
complete. -/
structure Watched where
  server : Server
  delivered : ℕ → ℕ
  completed : ℕ → ℕ

/-- What the marks of a session are for: once it is complete nothing but ACKs has come since
the last record was handed over, and else its buffer has nothing older than the last
completion. -/
structure Session.Marked (delivered completed : ℕ → ℕ) (exchanges : List Exchange)
    (session : Session) : Prop where
  delivered : session.downReasm.state = .complete →
    ∀ packet ∈ heardSince exchanges (delivered session.ident) session.ident, packet.isAck = true
  buffer : session.downReasm.state = .complete ∨
    Took (heardSince exchanges (completed session.ident) session.ident) session.downReasm.buffer

namespace Downstream

open Mediator

variable {env : Env} {fuel : ℕ}

/-- The session for which the handling of a datagram hands a record over. -/
def deliveredTo (env : Env) (fuel : ℕ) (datagram : Datagram) (σ : Server) : Option ℕ :=
  match datagram.decoded with
  | .ok request =>
      if Admitted request then
        (handedOver env fuel datagram.addr request (σ.woken datagram)).map
          fun _ => (found env datagram.addr request (σ.woken datagram)).1
      else none
  | .error _ => none

/-- One turn of the server, with its marks. -/
def watch (env : Env) (fuel : ℕ) (datagram : Datagram) (watched : Watched) : Option Watched :=
  (serve env fuel datagram watched.server).map fun σ => {
    server := σ
    delivered := fun ref =>
      if deliveredTo env fuel datagram watched.server = some ref then σ.exchanges.length
      else watched.delivered ref
    completed := fun ref =>
      if (σ.objects ref).downReasm.state = .complete then σ.exchanges.length
      else watched.completed ref }

/-- A server from whose start it is watched. -/
def watched (env : Env) : Watched where
  server := initial env
  delivered := fun _ => 0
  completed := fun _ => 0

/-- Watching a run does not change it. -/
theorem watch_run (datagrams : List Datagram) : ∀ start : Watched,
    (runAll (watch env fuel) datagrams start).map Watched.server =
      run env fuel datagrams start.server := by
  induction datagrams with
  | nil => exact fun start => rfl
  | cons datagram datagrams ih =>
      intro start
      rw [run, runAll, runAll, watch]
      cases served : serve env fuel datagram start.server with
      | none => rfl
      | some σ => exact ih _

/-! ## Fresh records -/

/-- **A record that is handed over is fresh**: data has come since the last one was handed
over in the session, and the record is made of what has come since a message was last
completed. -/
def HandsOverFresh (env : Env) (fuel : ℕ) (datagram : Datagram) (watched : Watched) : Prop :=
  ∀ request, datagram.decoded = .ok request → Admitted request →
    ∀ tlsRecord, handedOver env fuel datagram.addr request (watched.server.woken datagram) =
        some tlsRecord →
      let ref := (found env datagram.addr request (watched.server.woken datagram)).1
      let exchanges :=
        (handled env fuel datagram.addr request (watched.server.woken datagram)).2.exchanges
      (∃ packet ∈ heardSince exchanges (watched.delivered ref) ref, packet.isAck = false) ∧
        Took (heardSince exchanges (watched.completed ref) ref) tlsRecord

/-- The first packet that is heard while the datagram is handled is an ACK only if data has
come since a record was last handed over in the session. -/
def FirstInTurn (env : Env) (fuel : ℕ) (datagram : Datagram) (watched : Watched) : Prop :=
  ∀ request, datagram.decoded = .ok request → Admitted request →
    ∀ packet, (heard (exchangesOf env fuel datagram.addr request
        (watched.server.woken datagram))).head? = some packet → packet.isAck = true →
      let ref := (found env datagram.addr request (watched.server.woken datagram)).1
      ∃ earlier ∈ heardSince watched.server.exchanges (watched.delivered ref) ref,
        earlier.isAck = false

/-! ## The marks of a session -/

theorem marked_frame (env : Env) (delivered completed : ℕ → ℕ) :
    ObjectFrame env (fun exchanges session => session.Marked delivered completed exchanges) where
  created := fun exchanges ref key now others =>
    ⟨fun complete => (by cases complete), .inr (took_nil _)⟩
  others := by
    intro exchanges new session others marked
    constructor
    · rw [heardSince_append_others others]
      exact marked.delivered
    · rw [heardSince_append_others others]
      exact marked.buffer
  renamed := by
    intro exchanges session session' unnamed marked
    have ident : session'.ident = session.ident := congrArg (fun s => s.ident) unnamed
    have reassembler : session'.downReasm = session.downReasm :=
      congrArg (fun s => s.downReasm) unnamed
    constructor
    · rw [ident, reassembler]
      exact marked.delivered
    · rw [ident, reassembler]
      exact marked.buffer
  noted := fun _ _ _ ⟨delivered, buffer⟩ => ⟨delivered, buffer⟩

/-- Marks may move up to now where a record is handed over, and where a message is complete. -/
theorem Marked.remark {delivered completed delivered' completed' : ℕ → ℕ}
    {exchanges : List Exchange} {session : Session}
    (marked : session.Marked delivered completed exchanges)
    (later : delivered' session.ident = delivered session.ident ∨
      delivered' session.ident = exchanges.length)
    (closed : session.downReasm.state ≠ .complete →
      completed' session.ident = completed session.ident) :
    session.Marked delivered' completed' exchanges := by
  constructor
  · rcases later with same | now
    · rw [same]
      exact marked.delivered
    · rw [now, heardSince_length]
      simp
  · by_cases complete : session.downReasm.state = .complete
    · exact .inl complete
    · rw [closed complete]
      exact marked.buffer

/-- The server's packets that were looked at since a mark, when a request has been handled. -/
theorem heardSince_handled {σ : Server} (regular : σ.Regular env) {addr : String × ℕ}
    {request : ApRequest} {mark : ℕ} (behind : mark ≤ σ.exchanges.length) :
    heardSince (handled env fuel addr request σ).2.exchanges mark (found env addr request σ).1 =
      heardSince σ.exchanges mark (found env addr request σ).1 ++
        heard (exchangesOf env fuel addr request σ) := by
  rw [← handleRequest_exchanges, handleRequest_grows, exchangesOf]
  exact heardSince_append behind fun exchange member => handled_own regular addr request member

/-- What a flight leaves in the buffer, unless it leaves an old message there. -/
theorem FlightEnd.took {start leg : Leg} {brought : Option Bytes} (flight : FlightEnd start leg brought)
    {packets : List EapTlsPacket}
    (buffer : start.session.downReasm.state = .complete ∨
      Took packets start.session.downReasm.buffer)
    (fresh : Opens (newExchanges start leg) ∨ start.session.downReasm.state ≠ .complete) :
    Took (packets ++ heard (newExchanges start leg)) leg.session.downReasm.buffer := by
  rw [flight.hears.fed]
  rcases buffer with complete | took
  · obtain ⟨packet, head, data⟩ := fresh.resolve_right fun rest => rest complete
    exact took_feed (by rw [complete]; decide) head data
  · exact took.feed

/-- A flight with packets opens with data, or it is one ACK and the buffer is handed over. -/
theorem FlightEnd.opens {start leg : Leg} {brought : Option Bytes}
    (flight : FlightEnd start leg brought) :
    heard (newExchanges start leg) = [] ∨ Opens (newExchanges start leg) ∨
      ∃ packet, heard (newExchanges start leg) = [packet] ∧ packet.isAck = true ∧
        brought = some leg.session.downReasm.buffer := by
  cases flight with
  | quiet _ incomplete =>
      rcases incomplete with none | ⟨opens, _⟩
      · exact .inl none
      · exact .inr (.inl opens)
  | handsOver _ exit =>
      cases exit with
      | completed opens _ => exact .inr (.inl opens)
      | brokenOff opens _ _ _ _ => exact .inr (.inl opens)
      | acked packet only ack => exact .inr (.inr ⟨packet, only, ack, rfl⟩)

/-- What a flight hands over is in the buffer. -/
theorem FlightEnd.handed {start leg : Leg} {tlsRecord : Bytes}
    (flight : FlightEnd start leg (some tlsRecord)) :
    tlsRecord = leg.session.downReasm.buffer ∧ (Opens (newExchanges start leg) ∨
      ∃ packet, heard (newExchanges start leg) = [packet] ∧ packet.isAck = true) := by
  cases flight with
  | handsOver _ exit =>
      refine ⟨rfl, ?_⟩
      cases exit with
      | completed opens _ => exact .inl opens
      | brokenOff opens _ _ _ _ => exact .inl opens
      | acked packet only ack => exact .inr ⟨packet, only, ack⟩

/-- A flight that leaves the session complete without handing over heard nothing. -/
theorem FlightEnd.silent {start leg : Leg} (flight : FlightEnd start leg none)
    (complete : leg.session.downReasm.state = .complete) :
    heard (newExchanges start leg) = [] := by
  cases flight with
  | quiet _ incomplete => exact incomplete.resolve_right fun opened => opened.2 complete

theorem FlightEnd.of_nothing {start leg : Leg} {brought : Option Bytes}
    (flight : FlightEnd start leg brought)
    (nothing : heard (newExchanges start leg) = []) :
    leg.session.downReasm = start.session.downReasm := by
  rw [flight.hears.fed, nothing, Reassembler.feed_nil]

/-- **The marks after a handling.** -/
theorem handled_marked (reassembling : env.cfg.sessionMode = .reassemble) {σ : Server}
    (regular : σ.Regular env) {delivered completed : ℕ → ℕ}
    (behind : ∀ ref, delivered ref ≤ σ.exchanges.length ∧ completed ref ≤ σ.exchanges.length)
    (all : ∀ ref, (σ.objects ref).Marked delivered completed σ.exchanges) {addr : String × ℕ}
    {request : ApRequest} {delivered' : ℕ → ℕ}
    (marks : delivered' (found env addr request σ).1 =
      if (handedOver env fuel addr request σ).isSome then
        (handled env fuel addr request σ).2.exchanges.length
      else delivered (found env addr request σ).1) :
    (handled env fuel addr request σ).2.session.Marked delivered' completed
      (handled env fuel addr request σ).2.exchanges := by
  have flight := @handled_flight env fuel reassembling σ regular addr request
  have ident := startOf_ident regular addr request
  have ident' := (@handled_trail env fuel addr request σ).ident.trans ident
  have starts := (marked_frame env delivered completed).starts regular all addr request
  rw [startOf_exchanges] at starts
  have before := starts.delivered
  have buffer := starts.buffer
  rw [ident] at before buffer
  constructor
  · rw [ident', marks]
    intro complete
    rcases brought : handedOver env fuel addr request σ with _ | tlsRecord
    · rw [brought] at flight
      have nothing := flight.silent complete
      have same := flight.of_nothing nothing
      rw [if_neg (by simp), heardSince_handled regular (behind _).1, exchangesOf, nothing,
        List.append_nil]
      exact before (same ▸ complete)
    · rw [Option.isSome_some, if_pos rfl, heardSince_length]
      simp
  · rw [ident', heardSince_handled regular (behind _).2]
    by_cases complete : (handled env fuel addr request σ).2.session.downReasm.state = .complete
    · exact .inl complete
    refine .inr (flight.took buffer ?_)
    rcases flight.opens with nothing | opens | ⟨packet, only, ack, _⟩
    · rw [flight.of_nothing nothing] at complete
      exact .inr complete
    · exact .inl opens
    · rw [flight.hears.fed, only, Reassembler.feed_ack ack] at complete
      exact .inr complete

end Downstream

/-! ## Runs -/

/-- What holds of a watched server in every run in reassemble mode. -/
structure Watched.InOrder (env : Env) (watched : Watched) : Prop where
  regular : watched.server.Regular env
  behind : ∀ ref, watched.delivered ref ≤ watched.server.exchanges.length ∧
    watched.completed ref ≤ watched.server.exchanges.length
  marked : ∀ ref, (watched.server.objects ref).Marked watched.delivered watched.completed
    watched.server.exchanges

namespace Downstream

open Mediator

variable {env : Env} {fuel : ℕ}

theorem inOrder_watched (env : Env) : (watched env).InOrder env :=
  ⟨regular_initial env, fun _ => ⟨le_rfl, le_rfl⟩, (marked_frame env _ _).initially⟩

theorem deliveredTo_admitted {datagram : Datagram} {request : ApRequest} {σ : Server}
    (decoded : datagram.decoded = .ok request) (admitted : Admitted request) :
    deliveredTo env fuel datagram σ =
      (handedOver env fuel datagram.addr request (σ.woken datagram)).map
        fun _ => (found env datagram.addr request (σ.woken datagram)).1 := by
  rw [deliveredTo, decoded]
  exact if_pos admitted

/-- **The marks after a turn.** -/
theorem watch_inOrder (reassembling : env.cfg.sessionMode = .reassemble) {before after : Watched}
    (inOrder : before.InOrder env) {datagram : Datagram}
    (watches : watch env fuel datagram before = some after) : after.InOrder env := by
  obtain ⟨σ, served, rfl⟩ := Option.map_eq_some_iff.mp watches
  have grows := (serve_grows served).length_le
  have regular := Regular.serve inOrder.regular served
  have ident : ∀ ref, (σ.objects ref).ident = ref :=
    fun ref => congrArg Session.Settings.ident (regular.settled ref)
  refine ⟨regular, fun ref => ⟨?_, ?_⟩, fun ref => ?_⟩
  · show (if _ then _ else _) ≤ _
    split
    · exact le_rfl
    · exact (inOrder.behind ref).1.trans grows
  · show (if _ then _ else _) ≤ _
    split
    · exact le_rfl
    · exact (inOrder.behind ref).2.trans grows
  -- It is enough to know the session with marks that agree with the new ones on it.
  have enough : ∀ delivered : ℕ → ℕ,
      (σ.objects ref).Marked delivered before.completed σ.exchanges →
      (delivered ref = before.delivered ref ∨ delivered ref = if
        deliveredTo env fuel datagram before.server = some ref then σ.exchanges.length
        else before.delivered ref) →
      (σ.objects ref).Marked
        (fun ref => if deliveredTo env fuel datagram before.server = some ref then
          σ.exchanges.length else before.delivered ref)
        (fun ref => if (σ.objects ref).downReasm.state = .complete then σ.exchanges.length
          else before.completed ref) σ.exchanges := by
    intro delivered marked agrees
    refine Marked.remark marked ?_ fun open_ => ?_
    · simp only [ident]
      split
      · exact .inr rfl
      · rcases agrees with same | same
        · exact .inl same.symm
        · rw [if_neg ‹_›] at same
          exact .inl same.symm
    · simp only [ident, if_neg open_]
  by_cases handles : ∃ request, datagram.decoded = .ok request ∧ Admitted request
  · obtain ⟨request, decoded, admitted⟩ := handles
    have ended := serve_admitted decoded admitted served
    have woken := Regular.woken inOrder.regular datagram
    by_cases here : ref = (found env datagram.addr request (before.server.woken datagram)).1
    · refine enough (fun ref => if deliveredTo env fuel datagram before.server = some ref then
        σ.exchanges.length else before.delivered ref) ?_ (.inr rfl)
      rw [ended, here]
      refine (marked_frame env _ before.completed).touched ?_
      refine handled_marked reassembling woken inOrder.behind inOrder.marked ?_
      simp only [deliveredTo_admitted decoded admitted, handleRequest_exchanges]
      cases handedOver env fuel datagram.addr request (before.server.woken datagram) with
      | none => simp
      | some tlsRecord => simp
    · refine enough before.delivered ?_ (.inl rfl)
      rw [ended]
      exact (marked_frame env before.delivered before.completed).untouched woken inOrder.marked here
  · have same : σ.objects = before.server.objects ∧ σ.exchanges = before.server.exchanges := by
      rcases serve_cases served with rfl | ⟨request, decoded, admitted, _⟩
      · exact ⟨rfl, rfl⟩
      · exact absurd ⟨request, decoded, admitted⟩ handles
    refine enough before.delivered ?_ (.inl rfl)
    rw [same.1, same.2]
    exact inOrder.marked ref

/-- **One turn**: what is handed over is fresh exactly when the first packet is in turn. -/
theorem fresh_iff_inTurn (reassembling : env.cfg.sessionMode = .reassemble) {watched : Watched}
    (inOrder : watched.InOrder env) (datagram : Datagram) :
    HandsOverFresh env fuel datagram watched ↔ FirstInTurn env fuel datagram watched := by
  have woken := Regular.woken inOrder.regular datagram
  refine forall_congr' fun request => forall_congr' fun _ => forall_congr' fun _ => ?_
  have flight := @handled_flight env fuel reassembling _ woken datagram.addr request
  have since := fun mark => @heardSince_handled env fuel _ woken datagram.addr request mark
  have ident := startOf_ident woken datagram.addr request
  have starts := (marked_frame env watched.delivered watched.completed).starts woken
    inOrder.marked datagram.addr request
  rw [startOf_exchanges] at starts
  have before := starts.delivered
  have buffer := starts.buffer
  rw [ident] at before buffer
  constructor
  · intro fresh packet head ack
    -- An ACK that comes first is the only packet, and the buffer is handed over.
    rcases flight.opens with nothing | ⟨first, opens, data⟩ | ⟨only, alone, _, brought⟩
    · rw [exchangesOf, nothing] at head
      cases head
    · rw [exchangesOf, opens] at head
      cases head
      rw [ack] at data
      cases data
    · obtain ⟨⟨earlier, member, data⟩, _⟩ := fresh _ brought
      rw [since _ (inOrder.behind _).1] at member
      rcases List.mem_append.mp member with old | young
      · exact ⟨earlier, old, data⟩
      · rw [exchangesOf, alone] at young head
        cases head
        rw [List.mem_singleton.mp young, ack] at data
        cases data
  · intro inTurn tlsRecord brought
    rw [brought] at flight
    obtain ⟨rfl, opening⟩ := flight.handed
    simp only [since _ (inOrder.behind _).1, since _ (inOrder.behind _).2]
    rcases opening with opens | ⟨only, alone, ack⟩
    · obtain ⟨first, head, data⟩ := opens
      refine ⟨⟨first, ?_, data⟩, flight.took buffer (.inl ⟨first, head, data⟩)⟩
      exact List.mem_append_right _ (List.mem_of_mem_head? head)
    · obtain ⟨earlier, member, data⟩ := inTurn only (by rw [exchangesOf, alone]; rfl) ack
      refine ⟨⟨earlier, List.mem_append_left _ member, data⟩, flight.took buffer (.inr ?_)⟩
      intro complete
      have acked := before complete earlier member
      rw [data] at acked
      cases acked

/-- **No record is handed over again, exactly where every first packet is in turn.** In every
run in reassemble mode each call of `_begin_downstream_fragmentation` has new data behind
it, and is given nothing older than the last message that was completed, if and only if an
ACK is the first packet that is heard in a handling only after such data. -/
theorem flights_fresh_iff (reassembling : env.cfg.sessionMode = .reassemble)
    (datagrams : List Datagram) :
    Along (watch env fuel) (HandsOverFresh env fuel) datagrams (watched env) ↔
      Along (watch env fuel) (FirstInTurn env fuel) datagrams (watched env) := by
  refine @Along.iff _ _ _ (fun _ _ => True) (Watched.InOrder env) _ _ ?_ ?_ datagrams _
    (Along.of_forall (fun _ _ => trivial) _ _) (inOrder_watched env)
  · exact fun datagram before after inOrder watches => watch_inOrder reassembling inOrder watches
  · exact fun datagram before _ inOrder => fresh_iff_inTurn reassembling inOrder datagram

/-- What the supplicant sends once it has the server's record. -/
def ackRequest : ApRequest := requestWith (some [0]) [codeResponse, 9, 0, 6, eapTypeTls, 0]

/-- The server answers the record with a message, and the poll with the next. -/
def twoMessages : Env := answeringInTurn "reassemble" [emptyChallenge,
  challengeCarrying [codeRequest, 9, 0, 7, eapTypeTls, 0, 1],
  challengeCarrying [codeRequest, 10, 0, 7, eapTypeTls, 0, 2]]

theorem flights_fresh_sample :
    ∃ σ, run twoMessages 1 [identityDatagram, datagramOf recordRequest] (initial twoMessages) =
        some σ ∧
      handedOver twoMessages 1 ("ap", 1024) ackRequest σ = some [2] ∧
      Along (watch twoMessages 1) (HandsOverFresh twoMessages 1)
        [identityDatagram, datagramOf recordRequest, datagramOf ackRequest]
        (watched twoMessages) := by
  refine ⟨_, rfl, rfl, (flights_fresh_iff rfl _).mpr ⟨?_, fun mid turn =>
    ⟨?_, fun mid' turn' => ⟨?_, fun _ _ => trivial⟩⟩⟩⟩
  · rintro request ⟨⟩ _ packet ⟨⟩
  · cases turn
    rintro request ⟨⟩ _ packet ⟨⟩ ack
    cases ack
  · cases turn
    cases turn'
    rintro request ⟨⟩ _ packet ⟨⟩ ack
    cases ack

/-- The server answers the poll with an empty packet. -/
def oneMessage : Env := answeringInTurn "reassemble" [emptyChallenge,
  challengeCarrying [codeRequest, 9, 0, 7, eapTypeTls, 0, 1],
  challengeCarrying [codeRequest, 10, 0, 6, eapTypeTls, 0]]

/-- The message that the supplicant has is handed over again. -/
theorem record_handed_over_again :
    oneMessage.cfg.validate = .ok () ∧
    (∃ σ, run oneMessage 1 [identityDatagram] (initial oneMessage) = some σ ∧
      handedOver oneMessage 1 ("ap", 1024) recordRequest σ = some [1]) ∧
    (∃ σ, run oneMessage 1 [identityDatagram, datagramOf recordRequest] (initial oneMessage) =
        some σ ∧
      handedOver oneMessage 1 ("ap", 1024) ackRequest σ = some [1]) ∧
    ¬ Along (watch oneMessage 1) (HandsOverFresh oneMessage 1)
      [identityDatagram, datagramOf recordRequest, datagramOf ackRequest] (watched oneMessage) := by
  refine ⟨by decide, ⟨_, rfl, rfl⟩, ⟨_, rfl, rfl⟩, fun along => ?_⟩
  obtain ⟨⟨packet, member, data⟩, _⟩ :=
    ((along.2 _ rfl).2 _ rfl).1 ackRequest rfl (by decide) [1] rfl
  cases List.mem_singleton.mp member
  cases data

end Downstream
end EapAccel
