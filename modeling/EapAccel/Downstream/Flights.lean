import EapAccel.Downstream.Origins
import EapAccel.Mediator.Heard

/-!
# The server's flights

In reassemble mode the server's fragments are gathered into a record, and the record is cut
again for the supplicant. What is handed over for that (`handedOver`) is compared with what
the server told in the session, as the exchanges record it: it is the whole of one message
where every flight is unbroken (`flights_whole`).
-/

set_option autoImplicit false

namespace EapAccel

open Foundations EapTls

namespace Downstream

open Mediator

variable {env : Env} {fuel : ℕ}

/-! ## The record that a request hands over -/

/-- The routing by EAP type, up to the server's record. -/
def gatherRoute (env : Env) (fuel : ℕ) (context : AuthContext) (eapBytes : Bytes) :
    Act Raised Leg (Outcome ⊕ Bytes) :=
  if eapBytes[4]? = some eapTypeTls then gatherSupplicantEap env.client fuel context eapBytes
  else Sum.inl <$> passthroughNonTls env context eapBytes

theorem route_eq_gather (context : AuthContext) (eapBytes : Bytes) :
    route env fuel context eapBytes = gatherRoute env fuel context eapBytes >>= handOver := by
  rw [route, gatherRoute]
  split
  · exact handleSupplicantEap_eq_gather context eapBytes
  · exact (inl_handOver _).symm

/-- The handling of a request on its session, up to the server's record. -/
def gathering (env : Env) (fuel : ℕ) (request : ApRequest) : Act Raised Leg (Outcome ⊕ Bytes) := do
  noteRequest request
  gatherRoute env fuel request.context request.eap

theorem handling_eq_gathering (request : ApRequest) :
    handling env fuel request = gathering env fuel request >>= handOver := by
  rw [handling, gathering, bind_assoc]
  exact congrArg (noteRequest request >>= ·)
    (funext fun _ => route_eq_gather request.context request.eap)

/-- The end of handling a request, up to the server's record. -/
def gathered (env : Env) (fuel : ℕ) (addr : String × ℕ) (request : ApRequest) (σ : Server) :
    Except Raised (Outcome ⊕ Bytes) × Leg :=
  gathering env fuel request ((found env addr request σ).2.leg (found env addr request σ).1)

/-- The record that was gathered, if there is one. -/
def recordIn : Except Raised (Outcome ⊕ Bytes) → Option Bytes
  | .ok (.inr tlsRecord) => some tlsRecord
  | _ => none

/-- The record that the handling of a request gives to `_begin_downstream_fragmentation`. -/
def handedOver (env : Env) (fuel : ℕ) (addr : String × ℕ) (request : ApRequest) (σ : Server) :
    Option Bytes :=
  recordIn (gathered env fuel addr request σ).1

/-- What holds after the routing, and of a request that cannot be noted, holds of what is gathered. -/
theorem gathered_elim {post : Except Raised (Outcome ⊕ Bytes) × Leg → Prop} {addr : String × ℕ}
    {request : ApRequest} {σ : Server}
    (routed : notes env addr request σ = .ok () →
      post (gatherRoute env fuel request.context request.eap (startOf env addr request σ)))
    (unnoted : ∀ e, post (.error e, startOf env addr request σ)) :
    post (gathered env fuel addr request σ) := by
  have noted := noteRequest_eq request
    ((found env addr request σ).2.leg (found env addr request σ).1)
  rw [gathered, gathering, Act.bind_apply, noted]
  rcases captures : captured request
    ((found env addr request σ).2.leg (found env addr request σ).1).session with e | done
  · exact unnoted e
  · exact routed captures

/-- **A request is handled by gathering and handing over.** -/
theorem handled_eq_gather (addr : String × ℕ) (request : ApRequest) (σ : Server) :
    handled env fuel addr request σ =
      match gathered env fuel addr request σ with
      | (.ok rest, leg) => handOver rest leg
      | (.error e, leg) => (.error e, leg) := by
  rw [handled, handling_eq_gathering, Act.bind_apply, gathered]
  rcases gathering env fuel request ((found env addr request σ).2.leg (found env addr request σ).1)
    with ⟨e | rest, leg⟩
  · rfl
  · rfl

theorem keeps_handOver (rest : Outcome ⊕ Bytes) : Act.Keeps hearingView (handOver rest) := by
  cases rest with
  | inl outcome => exact Act.Keeps.pure _
  | inr tlsRecord => exact (deliver_unqueued tlsRecord).weaken hearingView fun _ => rfl

theorem handled_view (addr : String × ℕ) (request : ApRequest) (σ : Server) :
    hearingView (handled env fuel addr request σ).2 =
      hearingView (gathered env fuel addr request σ).2 := by
  rw [handled_eq_gather]
  rcases gathered env fuel addr request σ with ⟨e | rest, leg⟩
  · rfl
  · exact keeps_handOver rest leg

/-- **What the routing does with what it hears.** A packet that is not EAP-TLS goes upstream
in a request whose reply is not looked at. -/
theorem gatherRoute_hears (context : AuthContext) (eapBytes : Bytes) {start : Leg}
    (reassembling : start.session.mode = .reassemble) :
    Act.Triple (fun leg => leg = start) (gatherRoute env fuel context eapBytes)
      (Gathers start) (fun _ => Quiet start) := by
  rw [gatherRoute]
  by_cases tls : eapBytes[4]? = some eapTypeTls
  · rw [if_pos tls]
    exact gatherSupplicantEap_hears eapBytes reassembling
  · rw [if_neg tls, map_eq_pure_bind]
    have unheard : Act.Invariant (Unheard start) (passthroughNonTls env context eapBytes) :=
      passthroughNonTls_keeps (fun _ leg => Unheard.of_view rfl)
        (exchange_unheard fun packet parsed => absurd (type_of_parse parsed) tls)
    refine Act.Triple.conseq (Act.Triple.bind unheard fun outcome => ?_)
      (fun leg same => same ▸ Unheard.refl start) (fun rest leg gathers => gathers)
      fun e leg unheard => unheard.quiet
    exact Act.Triple.pure fun _ unheard => unheard.quiet

/-- What the handling of a request did with what it heard, in the three ways it ends. -/
inductive FlightEnd (start leg : Leg) : Option Bytes → Prop where
  | quiet (hears : Hears start (newExchanges start leg) leg)
      (incomplete : heard (newExchanges start leg) = [] ∨
        (Opens (newExchanges start leg) ∧ leg.session.downReasm.state ≠ .complete)) :
      FlightEnd start leg none
  | handsOver (hears : Hears start (newExchanges start leg) leg)
      (exit : Exit (newExchanges start leg) leg.session.downReasm) :
      FlightEnd start leg (some leg.session.downReasm.buffer)

theorem flight_of_quiet {start leg : Leg} (quiet : Quiet start leg) : FlightEnd start leg none := by
  obtain ⟨new, hears, incomplete⟩ := quiet
  have same := newExchanges_of_grown hears.exchanges
  subst same
  exact .quiet hears incomplete

theorem flight_of_handsOver {start leg : Leg} {tlsRecord : Bytes}
    (handsOver : HandsOver start tlsRecord leg) : FlightEnd start leg (some tlsRecord) := by
  obtain ⟨new, hears, rfl, exit⟩ := handsOver
  have same := newExchanges_of_grown hears.exchanges
  subst same
  exact .handsOver hears exit

/-- What gathering did with what it heard, whether it returned or raised. -/
def Flown (start : Leg) (result : Except Raised (Outcome ⊕ Bytes)) (leg : Leg) : Prop :=
  match result with
  | .ok rest => Gathers start rest leg
  | .error _ => Quiet start leg

theorem flown_of_triple {start : Leg} {gather : Act Raised Leg (Outcome ⊕ Bytes)}
    (hears : Act.Triple (fun leg => leg = start) gather (Gathers start) (fun _ => Quiet start)) :
    Flown start (gather start).1 (gather start).2 := by
  have ended := hears start rfl
  generalize gather start = outcome at ended ⊢
  rcases outcome with ⟨e | rest, leg⟩
  · exact ended
  · exact ended

/-- The flight of a handling, by what was gathered. -/
theorem Flown.flight {start leg mid : Leg} {result : Except Raised (Outcome ⊕ Bytes)}
    (flown : Flown start result mid) (view : hearingView leg = hearingView mid) :
    FlightEnd start leg (recordIn result) := by
  rcases result with e | outcome | tlsRecord
  · exact flight_of_quiet (Quiet.of_view view flown)
  · exact flight_of_quiet (Quiet.of_view view flown)
  · obtain ⟨new, hears, buffer, exit⟩ := flown
    have reassembler : leg.session.downReasm = mid.session.downReasm := congrArg Prod.snd view
    exact flight_of_handsOver ⟨new, hears.of_view view, reassembler ▸ buffer, reassembler ▸ exit⟩

/-- **The flight of a request.** -/
theorem handled_flight (reassembling : env.cfg.sessionMode = .reassemble) {σ : Server}
    (regular : σ.Regular env) (addr : String × ℕ) (request : ApRequest) :
    FlightEnd (startOf env addr request σ) (handled env fuel addr request σ).2
      (handedOver env fuel addr request σ) := by
  have mode : (startOf env addr request σ).session.mode = .reassemble :=
    (startOf_mode regular addr request).trans reassembling
  have flown : Flown (startOf env addr request σ) (gathered env fuel addr request σ).1
      (gathered env fuel addr request σ).2 := by
    apply @gathered_elim env fuel
      (fun ended => Flown (startOf env addr request σ) ended.1 ended.2) addr request σ
    · intro _
      exact flown_of_triple (gatherRoute_hears request.context request.eap mode)
    · intro e
      exact (Unheard.refl _).quiet
  exact flown.flight (handled_view addr request σ)

theorem inl_result (x : Act Raised Leg Outcome) (leg : Leg) (tlsRecord : Bytes) :
    ((Sum.inl <$> x : Act Raised Leg (Outcome ⊕ Bytes)) leg).1 ≠ .ok (.inr tlsRecord) := by
  rw [map_eq_pure_bind, Act.bind_apply]
  rcases x leg with ⟨e | outcome, leg'⟩
  · rintro ⟨⟩
  · rintro ⟨⟩

/-- In passthrough mode nothing is handed over. -/
theorem handedOver_passthrough (passing : env.cfg.sessionMode = .passthrough) {σ : Server}
    (regular : σ.Regular env) (addr : String × ℕ) (request : ApRequest) :
    handedOver env fuel addr request σ = none := by
  have mode : (startOf env addr request σ).session.mode = .passthrough :=
    (startOf_mode regular addr request).trans passing
  have never : ∀ tlsRecord, (gathered env fuel addr request σ).1 ≠ .ok (.inr tlsRecord) := by
    intro tlsRecord
    apply @gathered_elim env fuel (fun ended => ended.1 ≠ .ok (.inr tlsRecord)) addr request σ
    · intro _
      rw [gatherRoute]
      split
      · rcases parsed : parse request.eap with e | packet
        · simp only [gatherSupplicantEap, parsed, Act.lift_error_bind]
          rintro ⟨⟩
        · simp only [gatherSupplicantEap, parsed, Act.lift_ok_bind, updateSession, Act.modify_bind,
            Act.read_bind, mode, if_true]
          exact inl_result _ _ tlsRecord
      · exact inl_result _ _ tlsRecord
    · rintro e ⟨⟩
  rw [handedOver]
  rcases result : (gathered env fuel addr request σ).1 with e | outcome | tlsRecord
  · rfl
  · rfl
  · exact absurd result (never tlsRecord)

/-! ## Whole messages -/

/-- The exchanges that the handling of a request makes. -/
def exchangesOf (env : Env) (fuel : ℕ) (addr : String × ℕ) (request : ApRequest) (σ : Server) :
    List Exchange :=
  newExchanges (startOf env addr request σ) (handled env fuel addr request σ).2

theorem startOf_ident {σ : Server} (regular : σ.Regular env) (addr : String × ℕ)
    (request : ApRequest) :
    (startOf env addr request σ).session.ident = (found env addr request σ).1 :=
  congrArg Session.Settings.ident (startOf_settings regular addr request)

/-- The exchanges of the session of a request, when the request has been handled. -/
theorem own_handled {σ : Server} (regular : σ.Regular env) (addr : String × ℕ)
    (request : ApRequest) :
    ownExchanges (handled env fuel addr request σ).2.exchanges (found env addr request σ).1 =
      ownExchanges σ.exchanges (found env addr request σ).1 ++
        exchangesOf env fuel addr request σ := by
  rw [← handleRequest_exchanges, own_handleRequest regular, if_pos rfl]
  rfl

end Downstream

/-- The reassembler holds the message that the server sends in this session, or sent last. -/
def Session.HoldsMessage (exchanges : List Exchange) (session : Session) : Prop :=
  Holds (told (ownExchanges exchanges session.ident)) session.downReasm

namespace Downstream

open Mediator

variable {env : Env} {fuel : ℕ}

theorem holdsMessage_frame (env : Env) :
    ObjectFrame env (fun exchanges session => session.HoldsMessage exchanges) where
  created := fun exchanges ref key now others => holds_idle rfl
  others := by
    intro exchanges new session others holds
    rw [Session.HoldsMessage, ownExchanges_append_others others]
    exact holds
  renamed := by
    intro exchanges session session' unnamed holds
    have ident : session'.ident = session.ident := congrArg (fun s => s.ident) unnamed
    have reassembler : session'.downReasm = session.downReasm := congrArg (fun s => s.downReasm) unnamed
    rw [Session.HoldsMessage, ident, reassembler]
    exact holds
  noted := fun _ _ _ holds => holds

/-- **The flight while a request is handled is unbroken**: a reply that is not looked at has
neither TLS data nor the M bit; no reply after the first that is looked at is without a verdict
and without data; the first is an ACK only when a message has been completed; and data opens a
message in the reassembler only where the server begins one, that is, unless a fragment of the
message under way was refused. -/
structure Unbroken (env : Env) (fuel : ℕ) (addr : String × ℕ) (request : ApRequest) (σ : Server) :
    Prop where
  unheeded : ∀ exchange ∈ exchangesOf env fuel addr request σ, exchange.heeded = false →
    ∀ packet, exchange.packet = some packet → packet.tlsData = [] ∧ packet.moreFragments = false
  later : ∀ exchange ∈ ((exchangesOf env fuel addr request σ).filter (·.heeded)).tail,
    ¬ exchange.idle
  acked : ∀ packet, (heard (exchangesOf env fuel addr request σ)).head? = some packet →
    packet.isAck = true → (startOf env addr request σ).session.downReasm.state = .complete
  begins : ∀ packet, (heard (exchangesOf env fuel addr request σ)).head? = some packet →
    packet.isAck = false → (startOf env addr request σ).session.downReasm.state ≠ .inProgress →
      BetweenMessages (told (ownExchanges σ.exchanges (found env addr request σ).1))

theorem FlightEnd.hears {start leg : Leg} {tlsRecord : Option Bytes}
    (flight : FlightEnd start leg tlsRecord) :
    Hears start (newExchanges start leg) leg := by
  cases flight with
  | quiet hears _ => exact hears
  | handsOver hears _ => exact hears

/-- **An unbroken flight leaves the reassembler with the server's message.** -/
theorem unbroken_holds (reassembling : env.cfg.sessionMode = .reassemble) {σ : Server}
    (regular : σ.Regular env) (all : ∀ ref, (σ.objects ref).HoldsMessage σ.exchanges)
    {addr : String × ℕ} {request : ApRequest} (unbroken : Unbroken env fuel addr request σ) :
    Holds (told (ownExchanges (handled env fuel addr request σ).2.exchanges
        (found env addr request σ).1))
      (handled env fuel addr request σ).2.session.downReasm := by
  have flight := @handled_flight env fuel reassembling σ regular addr request
  have ident := startOf_ident regular addr request
  have starts := (holdsMessage_frame env).starts regular all addr request
  rw [startOf_exchanges, Session.HoldsMessage, ident] at starts
  rw [own_handled regular, told_append, told_eq_heard unbroken.unheeded, flight.hears.fed]
  exact starts.feed unbroken.begins flight.hears.stays

/-- **What an unbroken flight hands over is a whole message.** -/
theorem unbroken_whole (reassembling : env.cfg.sessionMode = .reassemble) {σ : Server}
    (regular : σ.Regular env) (all : ∀ ref, (σ.objects ref).HoldsMessage σ.exchanges)
    {addr : String × ℕ} {request : ApRequest} (unbroken : Unbroken env fuel addr request σ)
    {tlsRecord : Bytes} (brought : handedOver env fuel addr request σ = some tlsRecord) :
    Whole (told (ownExchanges (handled env fuel addr request σ).2.exchanges
      (found env addr request σ).1)) tlsRecord := by
  have flight := @handled_flight env fuel reassembling σ regular addr request
  have holds := unbroken_holds reassembling regular all unbroken
  rw [brought] at flight
  cases flight with
  | handsOver hears exit =>
      refine holds.complete ?_
      cases exit with
      | completed _ complete => exact complete
      | brokenOff _ exchange later idle _ => exact absurd idle (unbroken.later exchange later)
      | acked packet only ack =>
          have complete := unbroken.acked packet (by rw [exchangesOf, only]; rfl) ack
          rw [hears.fed, only, Reassembler.feed_ack ack]
          exact complete

/-! ## Runs of unbroken flights -/

/-- The datagram, if it is handled, meets an unbroken flight. -/
def FlightUnbroken (env : Env) (fuel : ℕ) (datagram : Datagram) (σ : Server) : Prop :=
  ∀ request, datagram.decoded = .ok request → Admitted request →
    Unbroken env fuel datagram.addr request (σ.woken datagram)

/-- What the handling of the datagram hands over is the whole of the message that the server
sent last in the session, with what it sent in this handling. -/
def HandsOverWhole (env : Env) (fuel : ℕ) (datagram : Datagram) (σ : Server) : Prop :=
  ∀ request, datagram.decoded = .ok request → Admitted request →
    ∀ tlsRecord, handedOver env fuel datagram.addr request (σ.woken datagram) = some tlsRecord →
      Whole (told (ownExchanges
        (handled env fuel datagram.addr request (σ.woken datagram)).2.exchanges
        (found env datagram.addr request (σ.woken datagram)).1)) tlsRecord

theorem serve_holdsMessage (reassembling : env.cfg.sessionMode = .reassemble) {σ σ' : Server}
    (regular : σ.Regular env) (all : ∀ ref, (σ.objects ref).HoldsMessage σ.exchanges)
    {datagram : Datagram} (unbroken : FlightUnbroken env fuel datagram σ)
    (served : serve env fuel datagram σ = some σ') (ref : ℕ) :
    (σ'.objects ref).HoldsMessage σ'.exchanges := by
  rcases serve_cases served with rfl | ⟨request, decoded, admitted, rfl⟩
  · exact all ref
  · have regular := Regular.woken regular datagram
    refine (holdsMessage_frame env).handleRequest regular all ?_ ref
    have holds := unbroken_holds reassembling regular all (unbroken request decoded admitted)
    have ident := (@handled_trail env fuel datagram.addr request (σ.woken datagram)).ident.trans
      (startOf_ident regular datagram.addr request)
    rw [Session.HoldsMessage, ident]
    exact holds

/-- **No half-gathered record goes to the supplicant where the flights are unbroken.** In every
run whose handlings meet unbroken flights, whatever is handed to
`_begin_downstream_fragmentation` is a whole message of the server. -/
theorem flights_whole {datagrams : List Datagram}
    (unbroken : Along (serve env fuel) (FlightUnbroken env fuel) datagrams (initial env)) :
    Along (serve env fuel) (HandsOverWhole env fuel) datagrams (initial env) := by
  cases mode : env.cfg.sessionMode with
  | passthrough =>
      refine unbroken.imp (fun _ _ _ _ regular served => Regular.serve regular served) ?_
        (regular_initial env)
      intro datagram σ _ regular request _ _ tlsRecord brought
      rw [handedOver_passthrough mode (Regular.woken regular datagram)] at brought
      cases brought
  | reassemble =>
      refine @Along.imp _ _ _ _
        (fun σ => σ.Regular env ∧ ∀ ref, (σ.objects ref).HoldsMessage σ.exchanges) _ ?_ ?_ _ _
        unbroken ⟨regular_initial env, (holdsMessage_frame env).initially⟩
      · rintro datagram σ σ' unbroken ⟨regular, all⟩ served
        exact ⟨Regular.serve regular served,
          serve_holdsMessage mode regular all unbroken served⟩
      · rintro datagram σ unbroken ⟨regular, all⟩ request decoded admitted tlsRecord brought
        exact unbroken_whole mode (Regular.woken regular datagram) all
          (unbroken request decoded admitted) brought

/-- A challenge that carries an EAP packet. -/
def challengeCarrying (eapBytes : Bytes) : RadiusReply where
  code := accessChallenge
  state := some [1]
  eapMessage := [eapBytes]

/-- A record of three octets from the supplicant. -/
def recordRequest : ApRequest :=
  requestWith (some [0]) [codeResponse, 9, 0, 9, eapTypeTls, 0, 1, 2, 3]

/-- The server answers the record with a message in two fragments. -/
def twoFragments : Env := answeringInTurn "reassemble" [emptyChallenge,
  challengeCarrying [codeRequest, 9, 0, 7, eapTypeTls, flagMoreFragments, 1],
  challengeCarrying [codeRequest, 10, 0, 7, eapTypeTls, 0, 2]]

theorem flights_whole_sample :
    ∃ σ, run twoFragments 1 [identityDatagram] (initial twoFragments) = some σ ∧
      handedOver twoFragments 1 ("ap", 1024) recordRequest σ = some [1, 2] ∧
      Along (serve twoFragments 1) (HandsOverWhole twoFragments 1)
        [identityDatagram, datagramOf recordRequest] (initial twoFragments) := by
  refine ⟨_, rfl, rfl, flights_whole ⟨?_, fun mid served => ⟨?_, fun _ _ => trivial⟩⟩⟩
  · rintro request ⟨⟩ _
    constructor
    · intro exchange member _
      rw [List.mem_singleton.mp member]
      rintro packet ⟨⟩
      exact ⟨rfl, rfl⟩
    · rintro exchange ⟨⟩
    · rintro packet ⟨⟩
    · rintro packet ⟨⟩
  · cases served
    rintro request ⟨⟩ _
    constructor
    · intro exchange member unlooked
      rcases List.mem_cons.mp member with first | later
      · rw [first] at unlooked
        cases unlooked
      · rw [List.mem_singleton.mp later] at unlooked
        cases unlooked
    · intro exchange member
      rw [List.mem_singleton.mp member]
      rintro ⟨reply, ⟨⟩, _, none | ⟨packet, parsed, ack⟩⟩
      · cases none
      · cases parsed
        cases ack
    · rintro packet ⟨⟩ ack
      cases ack
    · rintro packet ⟨⟩ _ _
      exact .inl rfl

/-- The server says nothing more after the first fragment of its message. -/
def oneFragment : Env := answeringInTurn "reassemble" [emptyChallenge,
  challengeCarrying [codeRequest, 9, 0, 7, eapTypeTls, flagMoreFragments, 1],
  { emptyChallenge with eapMessage := [] }]

/-- The first fragment alone is handed over as if it were the whole message. -/
theorem fragment_handed_over :
    oneFragment.cfg.validate = .ok () ∧
    ∃ σ, run oneFragment 1 [identityDatagram] (initial oneFragment) = some σ ∧
      handedOver oneFragment 1 ("ap", 1024) recordRequest σ = some [1] ∧
      ¬ Along (serve oneFragment 1) (HandsOverWhole oneFragment 1)
        [identityDatagram, datagramOf recordRequest] (initial oneFragment) := by
  refine ⟨by decide, _, rfl, rfl, fun along => ?_⟩
  obtain ⟨⟨init, last, split, _, final⟩, _⟩ :=
    (along.2 _ rfl).1 recordRequest rfl (by decide) [1] rfl
  rcases init with _ | ⟨first, _ | ⟨second, rest⟩⟩
  · cases split
    cases final
  · cases split
  · cases split

end Downstream
end EapAccel
