import EapAccel.Mediator.Queue
import EapAccel.Mediator.Verdicts

/-!
# The books of a session

A session counts what it does, and the counters are reported at its end. In reassemble mode
two of them are about what the supplicant was told: `up.acks_generated` about the ACKs, and
`down.fragments_out` about the fragments of the server's records, of which no more octets are
released than `down.bytes_reassembled` has (`Books.Tells`). Handling a packet keeps the books
with what its outcome tells the supplicant (`handle_books`).

The other way, `up.fragments_in` counts the packets that came, and `up.bytes_reassembled` the
octets of the records that they completed: one packet changes the two and the reassembler as
`Intake.take` has it (`handle_intake`).
-/

set_option autoImplicit false

namespace EapAccel

open Foundations EapTls

/-! ## What the supplicant is told -/

/-- What a session books of its way to the supplicant. -/
structure Books where
  acks : ℕ
  fragments : ℕ
  octets : ℕ
  waiting : List (ℕ × Bytes)

def Session.books (session : Session) : Books where
  acks := session.up.acksGenerated
  fragments := session.down.fragmentsOut
  octets := session.down.bytesReassembled
  waiting := session.downOutbox

/-- The chunks that wait in a queue, joined. -/
def waitingData (waiting : List (ℕ × Bytes)) : Bytes := (waiting.map (·.2)).flatten

/-- The EAP packet that goes on to the supplicant in the course of an authentication. -/
def Outcome.onward (outcome : Outcome) : Option Bytes :=
  match outcome.action.verdict with
  | none => outcome.eapBytes.filter (· ≠ [])
  | some _ => none

/-- The EAP-TLS packet in it. -/
def Outcome.told (outcome : Outcome) : Option EapTlsPacket :=
  outcome.onward.bind fun eapBytes => (parse eapBytes).toOption

theorem told_of_parse {action : Action} {eapBytes : Bytes} {echoId : Option UInt8}
    {packet : EapTlsPacket} (undecided : action.verdict = none) (parsed : parse eapBytes = .ok packet) :
    Outcome.told ⟨action, some eapBytes, echoId⟩ = some packet := by
  have filled : eapBytes ≠ [] := by
    rintro rfl
    cases parsed
  simp only [Outcome.told, Outcome.onward, undecided]
  rw [Option.filter_some, if_pos (decide_eq_true filled), Option.bind_some, parsed]
  rfl

/-- The books agree with what the supplicant was told. -/
structure Books.Tells (told : List EapTlsPacket) (books : Books) : Prop where
  acks : books.acks = told.countP (·.isAck)
  fragments : books.fragments = told.countP fun packet => !packet.isAck
  octets : (joined told).length + (waitingData books.waiting).length ≤ books.octets
  /-- No waiting chunk will look like an ACK. -/
  chunks : ∀ entry ∈ books.waiting, entry.1 = 0 ∨ entry.2 ≠ []

namespace Books

variable {told : List EapTlsPacket} {books : Books}

theorem tells_nothing :
    ({ acks := 0, fragments := 0, octets := 0, waiting := [] } : Books).Tells [] where
  acks := rfl
  fragments := rfl
  octets := le_rfl
  chunks := by
    intro entry member
    cases member

/-- An ACK is told. -/
theorem Tells.acknowledge (tells : books.Tells told) {packet : EapTlsPacket}
    (ack : packet.isAck = true) (empty : packet.tlsData = []) :
    ({ books with acks := books.acks + 1 } : Books).Tells (told ++ [packet]) where
  acks := by simp [tells.acks, ack]
  fragments := by simp [tells.fragments, ack]
  octets := by simpa [empty] using tells.octets
  chunks := tells.chunks

/-- The first waiting chunk is told. -/
theorem Tells.release (tells : books.Tells told) {idx : ℕ} {chunk : Bytes}
    {rest : List (ℕ × Bytes)} (waiting : books.waiting = (idx, chunk) :: rest)
    {packet : EapTlsPacket} (data : packet.isAck = false) (carries : packet.tlsData = chunk) :
    ({ books with fragments := books.fragments + 1, waiting := rest } : Books).Tells
      (told ++ [packet]) where
  acks := by simp [tells.acks, data]
  fragments := by simp [tells.fragments, data]
  octets := by
    have octets := tells.octets
    simp only [waitingData, waiting, List.map_cons, List.flatten_cons, List.length_append] at octets
    simp only [waitingData, joined_append, joined_cons, joined_nil, List.append_nil,
      List.length_append, carries]
    omega
  chunks := fun entry member => tells.chunks entry (waiting ▸ List.mem_cons_of_mem _ member)

/-- The first waiting chunk is lost: it could not be built. -/
theorem Tells.lose (tells : books.Tells told) {entry : ℕ × Bytes} {rest : List (ℕ × Bytes)}
    (waiting : books.waiting = entry :: rest) :
    ({ books with waiting := rest } : Books).Tells told where
  acks := tells.acks
  fragments := tells.fragments
  octets := by
    have octets := tells.octets
    simp only [waitingData, waiting, List.map_cons, List.flatten_cons, List.length_append] at octets
    simp only [waitingData]
    omega
  chunks := fun entry member => tells.chunks entry (waiting ▸ List.mem_cons_of_mem _ member)

/-- A record is queued, in place of whatever waited. -/
theorem Tells.enqueue (tells : books.Tells told) {tlsRecord : Bytes} {size : ℕ}
    {pieces : List Bytes} (cut : fragment tlsRecord size = .ok pieces) :
    ({ books with
        octets := books.octets + tlsRecord.length
        waiting := Session.queued 0 pieces } : Books).Tells told where
  acks := tells.acks
  fragments := tells.fragments
  octets := by
    have octets := tells.octets
    have whole : waitingData (Session.queued 0 pieces) = tlsRecord := by
      rw [← flatten_fragment cut, waitingData, Session.queued, List.map_map]
      exact congrArg List.flatten (List.zipIdx_map_fst 0 pieces)
    rw [whole]
    simp only
    omega
  chunks := by
    intro entry member
    by_cases empty : tlsRecord = []
    · have one := length_fragment cut
      cases pieces with
      | nil => cases member
      | cons chunk rest =>
          have last : rest = [] := by
            apply List.eq_nil_of_length_eq_zero
            have positive := positive_of_fragment cut
            have none : (0 + size - 1) / size = 0 := Nat.div_eq_of_lt (by omega)
            rw [empty, List.length_nil, none, List.length_cons] at one
            omega
          rw [last, Session.queued_cons, Session.queued_nil, List.mem_singleton] at member
          exact .inl (congrArg Prod.fst member)
    · exact .inr (ne_nil_of_mem_fragment cut empty _ (Session.mem_queued member).2)

end Books

namespace Mediator

variable {client : UpstreamClient} {fuel : ℕ} {context : AuthContext}

/-! ## Handling a packet -/

/-- What an outcome is shown to leave: the books with what it tells. -/
def Kept (told : List EapTlsPacket) (outcome : Outcome) (leg : Leg) : Prop :=
  leg.session.books.Tells (told ++ outcome.told.toList)

theorem kept_of_silent {told : List EapTlsPacket} {outcome : Outcome} {leg : Leg}
    (silent : outcome.told = none) (tells : leg.session.books.Tells told) :
    Kept told outcome leg := by
  rw [Kept, silent]
  exact (List.append_nil told).symm ▸ tells

/-- **Releasing a fragment keeps the books**, also when the packet cannot be built. -/
theorem sendNext_kept (told : List EapTlsPacket) (ackedId : Option UInt8) :
    Act.Triple (fun leg => leg.session.books.Tells told) (sendNextDownstreamFragment ackedId)
      (Kept told) (fun _ leg => leg.session.books.Tells told) := by
  apply Act.Triple.read_bind
  intro leg tells
  rcases queue : leg.session.downOutbox with _ | ⟨⟨idx, chunk⟩, rest⟩
  · apply Act.Triple.pure
    rintro _ rfl
    exact kept_of_silent rfl tells
  · rintro leg rfl
    simp only [updateSession, Act.modify_bind]
    rcases built : build codeRequest leg.session.nextDownId chunk
      (idx < leg.session.downNchunks - 1) (if idx = 0 then some leg.session.downTotal else none)
        false with e | eapFrag
    · exact tells.lose queue
    · simp only [Act.lift_ok_bind, Act.modify_bind, Act.pure_apply]
      have parsed := parse_of_build built
      have data : (described codeRequest leg.session.nextDownId chunk
          (decide (idx < leg.session.downNchunks - 1))
          (if idx = 0 then some leg.session.downTotal else none) false).isAck = false := by
        have waiting : leg.session.books.waiting = (idx, chunk) :: rest := queue
        rcases tells.chunks (idx, chunk) (waiting ▸ List.mem_cons_self) with first | filled
        · have first : idx = 0 := first
          simp [EapTlsPacket.isAck, described, first]
        · simp [EapTlsPacket.isAck, described, filled]
      rw [Kept, told_of_parse rfl parsed]
      exact tells.release queue data rfl

/-- **Queueing a record of the server keeps the books.** -/
theorem deliver_kept (told : List EapTlsPacket) (tlsRecord : Bytes) :
    Act.Triple (fun leg => leg.session.books.Tells told) (deliverRecord tlsRecord)
      (Kept told) (fun _ leg => leg.session.books.Tells told) := by
  intro leg tells
  rw [deliverRecord_eq]
  rcases cut : fragment tlsRecord leg.session.downstreamFragmentSize with e | pieces
  · have raises : beginDownstreamFragmentation tlsRecord
        { leg with session := leg.session.counted tlsRecord } =
          (.error e, { leg with session := leg.session.counted tlsRecord }) := by
      simp only [beginDownstreamFragmentation, Act.read_bind]
      exact Act.bind_of_error (congrArg (·, _) cut)
    rw [raises]
    exact ⟨tells.acks, tells.fragments, tells.octets.trans (Nat.le_add_right _ _), tells.chunks⟩
  · have begins := @begin_eq { leg with session := leg.session.counted tlsRecord } tlsRecord pieces cut
    rw [begins]
    exact sendNext_kept told none _ (tells.enqueue cut)

theorem learn_books (reply : RadiusReply) (session : Session) :
    (UpstreamClient.learn reply session).books = session.books := by
  obtain ⟨learnt, sendKey, recvKey, writes⟩ := learn_writes reply
  rw [writes]
  rfl

theorem exchange_books (eapPayload : Bytes) :
    Act.Keeps (fun leg => leg.session.books) (exchange client eapPayload context) := by
  intro leg
  rw [exchange_eq]
  rcases leg.outcome client eapPayload context with e | reply
  · rfl
  · exact learn_books reply _

theorem echo_books : Act.Keeps (fun leg => leg.session.books) echoUpstreamId := by
  intro leg
  rw [echoUpstreamId_eq]
  unfold Leg.takeUpId Session.takeUpId
  split <;> rfl

/-- **The books are kept by every step of the handling of a packet.** -/
theorem books_rule (told : List EapTlsPacket) :
    MediateRule client context (fun _ leg => leg.session.books.Tells told)
      (fun _ leg => leg.session.books.Tells told) (fun leg => leg.session.books.Tells told)
      (Kept told) (fun leg => leg.session.books.Tells told) := by
  have keeps : ∀ {α : Type} {x : Act Raised Leg α}, Act.Keeps (fun leg => leg.session.books) x →
      Act.Invariant (fun leg => leg.session.books.Tells told) x :=
    fun kept => kept.invariant fun _ _ same tells => same ▸ tells
  exact {
    echo := keeps echo_books
    weaken := fun _ _ => id
    count := fun _ => keeps fun _ => rfl
    pull := fun _ => keeps (exchange_books _)
    pass := fun _ _ => id
    ingest := fun _ => keeps fun _ => rfl
    accept := fun _ => keeps fun _ => rfl
    reject := fun _ => keeps fun _ => rfl
    raise := fun _ => id
    deliver := deliver_kept told
    accepted := fun _ => kept_of_silent rfl
    rejected := fun _ => kept_of_silent rfl
    nothing := by
      intro action leg
      cases action <;> exact kept_of_silent rfl
    chunk := fun _ => keeps fun _ => rfl
    send := fun _ _ _ => keeps (exchange_books _)
    release := sendNext_kept told
    ingestData := fun _ => keeps fun _ => rfl
    acknowledge := by
      intro leg tells
      rw [Kept, ackOutcome, told_of_parse rfl (parse_ack _ _)]
      exact tells.acknowledge rfl rfl
    gather := fun _ => keeps fun _ => rfl }

/-- **Handling a packet keeps the books with what its outcome tells the supplicant.** -/
theorem handle_books {told : List EapTlsPacket} {eapBytes : Bytes} {leg : Leg}
    (reassembling : leg.session.mode = .reassemble) (tells : leg.session.books.Tells told) :
    Act.Triple (fun start => start = leg) (handleSupplicantEap client fuel context eapBytes)
      (Kept told) (fun _ leg => leg.session.books.Tells told) := by
  rcases parsed : parse eapBytes with e | packet
  · rintro _ rfl
    rw [handle_unparsed parsed]
    exact tells
  · exact (books_rule told).mediates reassembling parsed tells

/-! ## What came of the packets -/

end Mediator

/-- What a session keeps of its way from the supplicant: the reassembler, the packets that came,
and the octets of the records that they completed. -/
structure Intake where
  reassembler : Reassembler
  packets : ℕ
  octets : ℕ

def Session.intake (session : Session) : Intake where
  reassembler := session.upReasm
  packets := session.up.fragmentsIn
  octets := session.up.bytesReassembled

/-- The octets of the record that a call of `ingest` returned. -/
def completedOctets : Except Raised (Option Bytes) → ℕ
  | .ok (some tlsRecord) => tlsRecord.length
  | _ => 0

/-- A packet comes in. An ACK counts, and completes nothing. -/
def Intake.take (intake : Intake) (packet : EapTlsPacket) : Intake where
  reassembler := (Reassembler.ingest packet intake.reassembler).2
  packets := intake.packets + 1
  octets := intake.octets + completedOctets (Reassembler.ingest packet intake.reassembler).1

/-- **What the intake has after some packets**: the reassembler that was fed with them, their
number, and the octets of the records that the reassembler returned. -/
theorem intake_foldl (packets : List EapTlsPacket) : ∀ intake : Intake,
    packets.foldl Intake.take intake =
      { reassembler := (Act.collect Reassembler.ingest packets intake.reassembler).2
        packets := intake.packets + packets.length
        octets := intake.octets + ((Act.collect Reassembler.ingest packets
          intake.reassembler).1.map completedOctets).sum } := by
  induction packets with
  | nil => exact fun _ => rfl
  | cons packet packets ih =>
      intro intake
      rw [List.foldl_cons, ih]
      simp only [Intake.take, Act.collect, List.length_cons, List.map_cons, List.sum_cons,
        Nat.add_assoc, Nat.add_comm 1]

namespace Mediator

variable {client : UpstreamClient} {fuel : ℕ} {context : AuthContext}

/-- What is behind the intake leaves it alone. -/
theorem intake_steps (value : Intake) :
    ForwardSteps client (fun leg => leg.session.intake = value) where
  toPullSteps := pullSteps_of_supplicantSide fun _ _ side same =>
    (congrArg Session.intake side).trans same
  chunk := fun _ same => same
  send := fun eapPayload context => (exchange_supplicantSide eapPayload context).invariant
    fun _ _ side same => (congrArg Session.intake side).trans same
  deliver := fun tlsRecord =>
    ((deliver_unqueued tlsRecord).weaken (fun leg => leg.session.intake) fun _ => rfl).invariant
      fun _ _ => Eq.trans

theorem forward_intake (tlsRecord : Bytes) (leg : Leg) :
    (forwardRecordUpstream client fuel context tlsRecord leg).2.session.intake =
      leg.session.intake :=
  ((intake_steps leg.session.intake).forward context tlsRecord).ended rfl

/-- An ACK brings nothing in. -/
theorem handleAck_intake (packet : EapTlsPacket) (value : Intake) :
    Act.Invariant (fun leg => leg.session.intake = value) (handleAck client fuel context packet) := by
  have steps := @intake_steps client value
  apply Act.Invariant.read_bind
  intro leg
  apply Act.Invariant.ite
  · apply (sendNext_unqueued _).invariant
    exact fun _ _ same => (congrArg (fun leg => leg.session.intake) same).trans
  · apply Act.Invariant.ite (Act.Invariant.pure _)
    apply Act.Invariant.ite (Act.Invariant.pure _)
    apply Act.Invariant.bind steps.echo
    intro upId
    apply Act.Invariant.bind (Act.Invariant.lift _)
    intro ack
    apply Act.Invariant.bind (steps.send ack context)
    intro reply
    exact steps.toPullSteps.handleUpstreamReply steps.deliver context (some reply)

/-- Of a data packet the reassembler is told, and its record is counted. -/
theorem handleData_intake (packet : EapTlsPacket) (leg : Leg) :
    (handleData client fuel context packet leg).2.session.intake =
      { leg.session.intake with
        reassembler := (Reassembler.ingest packet leg.session.upReasm).2
        octets := leg.session.intake.octets +
          completedOctets (Reassembler.ingest packet leg.session.upReasm).1 } := by
  rcases ingested : Reassembler.ingest packet leg.session.upReasm with ⟨e | complete, reassembler⟩
  · rw [handleData_raises ingested]
    rfl
  · cases complete with
    | none =>
        rw [handleData_more ingested]
        rfl
    | some tlsRecord =>
        rw [handleData_complete ingested, forward_intake]
        rfl

/-- **A packet comes in once**, whatever is done with it afterwards. -/
theorem handle_intake {eapBytes : Bytes} {packet : EapTlsPacket} {leg : Leg}
    (reassembling : leg.session.mode = .reassemble) (parsed : parse eapBytes = .ok packet) :
    (handleSupplicantEap client fuel context eapBytes leg).2.session.intake =
      leg.session.intake.take packet := by
  rcases ack : packet.isAck with _ | _
  · rw [handle_data_eq reassembling parsed ack]
    exact handleData_intake packet _
  · rw [handle_ack_eq reassembling parsed ack, Intake.take, Reassembler.ingest_ack ack]
    exact (handleAck_intake packet _).ended rfl

end Mediator

/-! ## Passthrough mode -/

/-- The counters of a session that relays: so many packets came and so many went on, and none of
them was ACKed or reassembled on the way. -/
structure Session.Tallied (packets onward : ℕ) (session : Session) : Prop where
  arrived : session.up.fragmentsIn = packets
  released : session.down.fragmentsOut = onward
  unacked : session.up.acksGenerated = 0 ∧ session.down.acksGenerated = 0
  unassembled : session.up.bytesReassembled = 0 ∧ session.down.bytesReassembled = 0

namespace Mediator

variable {client : UpstreamClient} {fuel : ℕ} {context : AuthContext} {packets onward : ℕ}

theorem learn_tallied {reply : RadiusReply} {session : Session}
    (tallied : session.Tallied packets onward) :
    (UpstreamClient.learn reply session).Tallied packets onward := by
  obtain ⟨learnt, sendKey, recvKey, writes⟩ := learn_writes reply
  rw [writes]
  exact ⟨tallied.arrived, tallied.released, tallied.unacked, tallied.unassembled⟩

/-- No reply brings an empty EAP packet. -/
theorem exchange_tallied (eapPayload : Bytes) :
    Act.Triple (fun leg => leg.session.Tallied packets onward)
      (exchange client eapPayload context)
      (fun reply leg => (∀ eap ∈ reply.eapMessages, eap ≠ []) ∧
        leg.session.Tallied packets onward)
      (fun _ leg => leg.session.Tallied packets onward) := by
  intro leg tallied
  have sent : (leg.sent client eapPayload context).session.Tallied packets onward :=
    ⟨tallied.arrived, tallied.released, tallied.unacked, tallied.unassembled⟩
  rw [exchange_eq]
  rcases leg.outcome client eapPayload context with e | reply
  · exact sent
  · constructor
    · intro eap member
      rw [RadiusReply.normalise, concatEapMessages] at member
      split at member
      · cases member
      · split at member
        · cases member
        next filled =>
          rw [List.mem_singleton] at member
          exact member ▸ filled
    · have learnt := @learn_tallied packets onward reply _ sent
      exact ⟨learnt.arrived, learnt.released, learnt.unacked, learnt.unassembled⟩

/-- **A relayed packet is counted once each way.** -/
theorem passthroughUpstream_tallied (eapBytes : Bytes) :
    Act.Triple (fun leg => leg.session.Tallied packets onward)
      (passthroughUpstream client context eapBytes)
      (fun outcome leg => leg.session.Tallied packets (onward + outcome.onward.toList.length))
      (fun _ leg => leg.session.Tallied packets onward) := by
  have chunk : Act.Invariant (fun leg => leg.session.Tallied packets onward)
      (updateSession fun s => { s with up.fragmentsOut := s.up.fragmentsOut + 1 }) :=
    fun _ tallied => ⟨tallied.arrived, tallied.released, tallied.unacked, tallied.unassembled⟩
  apply Act.Triple.bind chunk
  intro _
  apply Act.Triple.bind (exchange_tallied eapBytes)
  intro reply
  have finishes : ∀ verdict, Act.Triple
      (fun leg => (∀ eap ∈ reply.eapMessages, eap ≠ []) ∧ leg.session.Tallied packets onward)
      (Act.modify fun leg => { leg with session := leg.session.finish verdict leg.clock } :
        Act Raised Leg Unit) (fun _ leg => leg.session.Tallied packets onward)
      (fun _ leg => leg.session.Tallied packets onward) :=
    fun _ _ holds => ⟨holds.2.arrived, holds.2.released, holds.2.unacked, holds.2.unassembled⟩
  apply Act.Triple.ite
  · intro _
    exact Act.Triple.bind (finishes .accept) fun _ => Act.Triple.pure fun _ => id
  · intro _
    apply Act.Triple.ite
    · intro _
      exact Act.Triple.bind (finishes .reject) fun _ => Act.Triple.pure fun _ => id
    · intro _
      cases reply.eapMessages with
      | nil => exact Act.Triple.pure fun _ holds => holds.2
      | cons eap rest =>
          rintro leg ⟨filled, tallied⟩
          have one : Outcome.onward ⟨.challenge, some eap, none⟩ = some eap := by
            simp only [Outcome.onward, Action.verdict]
            rw [Option.filter_some, if_pos (decide_eq_true (filled eap List.mem_cons_self))]
          simp only [updateSession, Act.modify_bind, Act.pure_apply, one]
          exact ⟨tallied.arrived, congrArg (· + 1) tallied.released, tallied.unacked,
            tallied.unassembled⟩

end Mediator
end EapAccel
