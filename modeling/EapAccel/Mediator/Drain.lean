import EapAccel.Mediator.Spec
import EapAccel.Upstream.Packing
import Mathlib.Data.Set.Defs

/-!
# How long the drain takes

`_drain_upstream_fragments` goes on for as long as the server answers with fragments that
announce more and that the reassembler takes. `pull` is one turn of its loop. A turn that goes
on adds the data of a fragment to a buffer which is bounded, so there are at most
`max_message_len` turns with data; but nothing bounds the number of empty fragments. The
number of exchanges is bounded by a function of `max_message_len` exactly where the number of
empty fragments is (`drain_bounded_iff`).
-/

set_option autoImplicit false

namespace EapAccel

open Foundations EapTls

namespace Mediator

variable (client : UpstreamClient)

/-! ## One turn -/

/-- What a turn of the drain makes of a reply: the fragment to go on with, or what is
returned. -/
def takePulled (reply : Reply) : Act Raised Leg (EapTlsPacket ⊕ Option Bytes) :=
  if reply.accept then do
    finishAccept reply.eapMessages.head?
    return .inr none
  else if reply.reject then do
    finishReject reply.eapMessages.head?
    return .inr none
  else
    match reply.eapMessages with
    | [] => do
      let leg ← Act.read
      return .inr (some leg.session.downReasm.buffer)
    | eap :: _ => do
      let lastPkt ← Act.lift (parse eap)
      let done ← ingestDown lastPkt
      match done with
      | some record => return .inr (some record)
      | none => return .inl lastPkt

/-- One turn of the loop of `_drain_upstream_fragments`. -/
def pull (context : AuthContext) : Act Raised Leg (EapTlsPacket ⊕ Option Bytes) := do
  let ackId ← echoUpstreamId
  let ack ← Act.lift (buildAck codeResponse ackId)
  updateSession fun s => { s with down.acksGenerated := s.down.acksGenerated + 1 }
  let reply ← exchange client ack context
  takePulled reply

variable {client} {context : AuthContext} {fuel : ℕ}

/-- **The drain is a loop of turns.** -/
theorem drain_succ {lastPkt : EapTlsPacket} (more : lastPkt.moreFragments = true) :
    drainUpstreamFragments client context (fuel + 1) lastPkt =
      pull client context >>= fun turn =>
        match turn with
        | .inl packet => drainUpstreamFragments client context fuel packet
        | .inr returned => pure returned := by
  rw [drainUpstreamFragments, if_pos more, pull]
  simp only [bind_assoc]
  congr 1
  funext ackId
  congr 1
  funext ack
  congr 1
  funext _
  congr 1
  funext reply
  rw [takePulled]
  by_cases accept : reply.accept = true
  · simp only [if_pos accept, bind_assoc, pure_bind]
  by_cases reject : reply.reject = true
  · simp only [if_neg accept, if_pos reject, bind_assoc, pure_bind]
  simp only [if_neg accept, if_neg reject]
  cases reply.eapMessages with
  | nil => rfl
  | cons eap rest =>
      simp only [bind_assoc]
      congr 1
      funext lastPkt
      congr 1
      funext done
      cases done with
      | none => rfl
      | some record => rfl

/-- The fragment with the M bit that a reply carries, if it is no verdict. -/
def moreFragment (outcome : Except Raised RadiusReply) : Option EapTlsPacket :=
  match outcome with
  | .error _ => none
  | .ok reply =>
      if reply.code = accessAccept ∨ reply.code = accessReject then none
      else
        match parse reply.eapMessage.flatten with
        | .ok packet => if packet.moreFragments then some packet else none
        | .error _ => none

/-- What a turn sends. -/
def Leg.pullAck (leg : Leg) : Bytes := layout (ackPacket codeResponse leg.session.upId)

/-- A turn, from what comes back for the ACK. -/
theorem pull_eq (leg : Leg) :
    pull client context leg =
      match leg.pullReady.outcome client (Leg.pullAck leg) context with
      | .error e => (.error e, leg.pullReady.sent client (Leg.pullAck leg) context)
      | .ok reply => takePulled reply.normalise
          ((leg.pullReady.sent client (Leg.pullAck leg) context).received reply) := by
  rw [pull, Act.bind_of_ok (echoUpstreamId_eq leg), buildAck_eq_ok, Act.bind_lift_ok]
  simp only [updateSession, Act.modify_bind]
  rcases outcome : leg.pullReady.outcome client (Leg.pullAck leg) context with e | reply
  · exact Act.bind_of_error (exchange_error outcome)
  · exact Act.bind_of_ok (exchange_ok outcome)

theorem received_downReasm (leg : Leg) (eapPayload : Bytes) (reply : RadiusReply) :
    ((leg.pullReady.sent client eapPayload context).received reply).session.downReasm =
      leg.session.downReasm := by
  have learned := learn_downReasm reply (leg.pullReady.sent client eapPayload context).session
  exact learned.trans (takeUpId_downReasm leg.session)

/-- A fragment that announces more, in a reply that is no verdict. -/
theorem moreFragment_eq_some {reply : RadiusReply} {packet : EapTlsPacket} :
    moreFragment (.ok reply) = some packet ↔
      reply.normalise.accept = false ∧ reply.normalise.reject = false ∧
        parse reply.eapMessage.flatten = .ok packet ∧ packet.moreFragments = true := by
  rw [moreFragment]
  simp only [RadiusReply.normalise, beq_eq_false_iff_ne]
  by_cases accept : reply.code = accessAccept
  · simp [accept]
  by_cases reject : reply.code = accessReject
  · simp [reject]
  rw [if_neg (not_or.mpr ⟨accept, reject⟩)]
  rcases parse reply.eapMessage.flatten with e | other
  · simp [accept]
  · cases more : other.moreFragments with
    | true =>
        simp only [more, if_true, Option.some.injEq, Except.ok.injEq]
        constructor
        · rintro rfl
          exact ⟨accept, reject, rfl, more⟩
        · exact fun both => both.2.2.1
    | false =>
        simp only [more, Bool.false_eq_true, if_false, reduceCtorEq, Except.ok.injEq, false_iff]
        rintro ⟨_, _, rfl, announces⟩
        rw [more] at announces
        cases announces

/-- What is made of a reply: the turn goes on with a fragment that announces more exactly when
the reply carries it and the reassembler takes it. -/
theorem takePulled_cases (reply : RadiusReply) (leg : Leg) :
    (takePulled reply.normalise leg).2.exchanges = leg.exchanges ∧
      ∀ packet, packet.moreFragments = true →
        ((takePulled reply.normalise leg).1 = .ok (.inl packet) ↔
          moreFragment (.ok reply) = some packet ∧
            (Reassembler.ingest packet leg.session.downReasm).1 = .ok none) ∧
        ((takePulled reply.normalise leg).1 = .ok (.inl packet) →
          (takePulled reply.normalise leg).2.session.downReasm =
            (Reassembler.ingest packet leg.session.downReasm).2) := by
  have stops : ∀ packet : EapTlsPacket, (reply.normalise.accept = true ∨
      reply.normalise.reject = true ∨ parse reply.eapMessage.flatten ≠ .ok packet) →
        moreFragment (.ok reply) ≠ some packet := by
    intro packet reasons carries
    obtain ⟨accept, reject, parsed, _⟩ := moreFragment_eq_some.mp carries
    simp [accept, reject, parsed] at reasons
  by_cases accept : reply.normalise.accept = true
  · rw [takePulled, if_pos accept]
    refine ⟨rfl, fun packet _ => ⟨iff_of_false nofun ?_, nofun⟩⟩
    exact fun both => stops packet (.inl accept) both.1
  by_cases reject : reply.normalise.reject = true
  · rw [takePulled, if_neg accept, if_pos reject]
    refine ⟨rfl, fun packet _ => ⟨iff_of_false nofun ?_, nofun⟩⟩
    exact fun both => stops packet (.inr (.inl reject)) both.1
  rw [takePulled, if_neg accept, if_neg reject]
  rcases parsed : parse reply.eapMessage.flatten with e | packet
  · have nothing : ∀ packet, moreFragment (.ok reply) ≠ some packet := fun packet =>
      stops packet (.inr (.inr (by rw [parsed]; nofun)))
    rcases messages : reply.normalise.eapMessages with _ | ⟨eap, rest⟩
    · exact ⟨rfl, fun packet _ => ⟨iff_of_false nofun fun both => nothing packet both.1, nofun⟩⟩
    · have same : reply.eapMessage.flatten = eap := head_normalise (by rw [messages]; rfl)
      rw [same] at parsed
      simp only [parsed, Act.lift_error_bind, true_and]
      exact fun packet _ => ⟨iff_of_false nofun fun both => nothing packet both.1, nofun⟩
  simp only [eapMessages_normalise parsed, parsed, Act.lift_ok_bind]
  rcases fed : Reassembler.ingest packet leg.session.downReasm with ⟨e | returned, after⟩
  · have step : ingestDown packet leg = (.error e,
        { leg with session := { leg.session with downReasm := after } }) := by
      rw [ingestDown_eq, fed]
    rw [Act.bind_of_error step]
    refine ⟨rfl, fun other more => ⟨iff_of_false nofun ?_, nofun⟩⟩
    rintro ⟨carries, taken⟩
    obtain ⟨_, _, parsed', _⟩ := moreFragment_eq_some.mp carries
    cases parsed.symm.trans parsed'
    rw [fed] at taken
    cases taken
  · have step : ingestDown packet leg = (.ok returned,
        { leg with session := { leg.session with downReasm := after } }) := by
      rw [ingestDown_eq, fed]
    rw [Act.bind_of_ok step]
    cases returned with
    | some record =>
        refine ⟨rfl, fun other more => ⟨iff_of_false nofun ?_, nofun⟩⟩
        rintro ⟨carries, taken⟩
        obtain ⟨_, _, parsed', _⟩ := moreFragment_eq_some.mp carries
        cases parsed.symm.trans parsed'
        rw [fed] at taken
        cases taken
    | none =>
        refine ⟨rfl, fun other more => ⟨⟨fun goes_on => ?_, fun both => ?_⟩, fun goes_on => ?_⟩⟩
        · cases goes_on
          refine ⟨moreFragment_eq_some.mpr ⟨?_, ?_, parsed, more⟩, by rw [fed]⟩
          · simpa using accept
          · simpa using reject
        · obtain ⟨_, _, parsed', _⟩ := moreFragment_eq_some.mp both.1
          cases parsed.symm.trans parsed'
          rfl
        · cases goes_on
          rw [fed]
          rfl

/-- **What a turn does**: it makes one exchange, and goes on with a fragment that announces
more exactly when the reply carries it and the reassembler takes it. -/
theorem pull_cases (leg : Leg) :
    (pull client context leg).2.exchanges =
        leg.exchanges ++ [leg.pullReady.exchanged client (Leg.pullAck leg) context] ∧
      ∀ packet, packet.moreFragments = true →
        ((pull client context leg).1 = .ok (.inl packet) ↔
          moreFragment (leg.pullReady.outcome client (Leg.pullAck leg) context) = some packet ∧
            (Reassembler.ingest packet leg.session.downReasm).1 = .ok none) ∧
        ((pull client context leg).1 = .ok (.inl packet) →
          (pull client context leg).2.session.downReasm =
            (Reassembler.ingest packet leg.session.downReasm).2) := by
  rw [pull_eq]
  rcases leg.pullReady.outcome client (Leg.pullAck leg) context with e | reply
  · exact ⟨rfl, fun packet _ => ⟨by simp [moreFragment], nofun⟩⟩
  · have cases := takePulled_cases reply
      ((leg.pullReady.sent client (Leg.pullAck leg) context).received reply)
    rw [received_downReasm] at cases
    exact cases

/-! ## The whole loop -/

/-- A call of `_drain_upstream_fragments`. What comes back for a request may be anything, in
any order: it is the next reply of `stream`. The caller has fed `lastPkt`. -/
structure DrainCall where
  stream : ℕ → Except Raised RadiusReply
  surroundings : UpstreamClient
  context : AuthContext
  leg : Leg
  lastPkt : EapTlsPacket
  started : lastPkt.moreFragments = true → leg.session.downReasm.state = .inProgress

/-- The upstream where what comes of each request is the next of a stream, which raises wherever
pyrad or the transport does. -/
def streaming (stream : ℕ → Except Raised RadiusReply) (surroundings : UpstreamClient) :
    UpstreamClient :=
  { surroundings with
    encodeOctets := .ok
    requestPacket := fun _ => .ok ()
    respond := fun before _ => stream before.length }

/-- What comes of a request is the next of the stream. -/
theorem outcome_streaming (stream : ℕ → Except Raised RadiusReply) (surroundings : UpstreamClient)
    (leg : Leg) (eapPayload : Bytes) (context : AuthContext) :
    leg.outcome (streaming stream surroundings) eapPayload context =
      stream leg.exchanges.length := by
  have sent := @UpstreamClient.wire_self (streaming stream surroundings)
    (leg.request (streaming stream surroundings) eapPayload context)
    (UpstreamClient.encode_self (fun _ _ => rfl) fun _ _ => rfl) rfl
  exact UpstreamClient.answer_of_wire sent leg.exchanges

namespace DrainCall

def limit (call : DrainCall) : ℕ := call.leg.session.downReasm.maxMessageLen

def run (call : DrainCall) (fuel : ℕ) : Except Raised (Option Bytes) × Leg :=
  drainUpstreamFragments (streaming call.stream call.surroundings) call.context fuel call.lastPkt
    call.leg

/-- The call returns or raises after this many exchanges. -/
def Ends (call : DrainCall) (count : ℕ) : Prop :=
  ∃ result leg, leg.exchanges.length = call.leg.exchanges.length + count ∧
    ∀ fuel ≥ count, call.run fuel = (result, leg)

/-- The replies to the first ACKs carry these fragments, all of which announce more, and they
are within the limit. -/
structure Flight (call : DrainCall) (packets : List EapTlsPacket) : Prop where
  announced : call.lastPkt.moreFragments = true
  carried : ∀ idx packet, packets[idx]? = some packet →
    moreFragment (call.stream (call.leg.exchanges.length + idx)) = some packet
  room : (call.leg.session.downReasm.buffer ++ joined packets).length ≤ call.limit

/-- At most so many of the fragments that announce more are empty. -/
def EmptyWithin (call : DrainCall) (count : ℕ) : Prop :=
  ∀ packets, call.Flight packets → (packets.filter (·.tlsData.isEmpty)).length ≤ count

end DrainCall

section Loop

variable {stream : ℕ → Except Raised RadiusReply} {surroundings : UpstreamClient}

theorem buffer_of_inProgress {reassembler : Reassembler}
    (inProgress : reassembler.state = .inProgress) :
    reassembler.pending = reassembler.buffer := if_pos inProgress

/-- A fragment that announces more is taken into an open message as long as there is room. -/
theorem taken_iff {packet : EapTlsPacket} (more : packet.moreFragments = true)
    {reassembler : Reassembler} (inProgress : reassembler.state = .inProgress) :
    (Reassembler.ingest packet reassembler).1 = .ok none ↔
      (reassembler.buffer ++ packet.tlsData).length ≤ reassembler.maxMessageLen := by
  have accepted : ¬ reassembler.Refuses packet := fun refused => refused.1 inProgress
  rw [Reassembler.ingest_data (Reassembler.isAck_of_more more) accepted, Reassembler.extend_buffer,
    buffer_of_inProgress inProgress]
  by_cases exceeds : (reassembler.buffer ++ packet.tlsData).length > reassembler.maxMessageLen
  · rw [if_pos exceeds]
    exact iff_of_false nofun (Nat.not_le.mpr exceeds)
  · rw [if_neg exceeds, if_pos more]
    exact iff_of_true rfl (Nat.not_lt.mp exceeds)

/-- **A turn that goes on** adds the data of its fragment to the open message. -/
theorem drain_goes_on {leg : Leg} {lastPkt packet : EapTlsPacket}
    (announced : lastPkt.moreFragments = true) (inProgress : leg.session.downReasm.state = .inProgress)
    (carried : moreFragment (stream leg.exchanges.length) = some packet)
    (room : (leg.session.downReasm.buffer ++ packet.tlsData).length ≤
      leg.session.downReasm.maxMessageLen) :
    ∃ next : Leg, (∀ fuel,
        drainUpstreamFragments (streaming stream surroundings) context (fuel + 1) lastPkt leg =
          drainUpstreamFragments (streaming stream surroundings) context fuel packet next) ∧
      packet.moreFragments = true ∧ next.exchanges.length = leg.exchanges.length + 1 ∧
      next.session.downReasm = leg.session.downReasm.extend packet := by
  have more : packet.moreFragments = true := by
    rcases reply : stream leg.exchanges.length with e | reply
    · rw [reply] at carried
      cases carried
    · rw [reply] at carried
      exact (moreFragment_eq_some.mp carried).2.2.2
  obtain ⟨grown, turns⟩ := @pull_cases (streaming stream surroundings) context leg
  rw [outcome_streaming] at turns
  obtain ⟨goes_on, reasm⟩ := turns packet more
  have taken := (taken_iff more inProgress).mpr room
  have turned := goes_on.mpr ⟨carried, taken⟩
  refine ⟨(pull (streaming stream surroundings) context leg).2, fun fuel => ?_, more, ?_, ?_⟩
  · rw [drain_succ announced]
    exact Act.bind_of_ok (Prod.ext turned rfl)
  · rw [grown, List.length_append]
    rfl
  · have accepted : ¬ leg.session.downReasm.Refuses packet := fun refused => refused.1 inProgress
    rw [reasm turned, Reassembler.ingest_more more accepted]
    rw [buffer_of_inProgress inProgress]
    exact room

/-- **Any other turn is the last one.** -/
theorem drain_stops {leg : Leg} {lastPkt : EapTlsPacket}
    (announced : lastPkt.moreFragments = true) (inProgress : leg.session.downReasm.state = .inProgress)
    (other : ∀ packet, moreFragment (stream leg.exchanges.length) = some packet →
      leg.session.downReasm.maxMessageLen <
        (leg.session.downReasm.buffer ++ packet.tlsData).length) :
    ∃ result final, final.exchanges.length = leg.exchanges.length + 1 ∧ ∀ fuel ≥ 1,
      drainUpstreamFragments (streaming stream surroundings) context fuel lastPkt leg =
        (result, final) := by
  obtain ⟨grown, turns⟩ := @pull_cases (streaming stream surroundings) context leg
  rw [outcome_streaming] at turns
  have length : (pull (streaming stream surroundings) context leg).2.exchanges.length =
      leg.exchanges.length + 1 := by
    rw [grown, List.length_append]
    rfl
  rcases turn : pull (streaming stream surroundings) context leg with ⟨e | ⟨packet | returned⟩, final⟩
  all_goals rw [turn] at length
  · refine ⟨.error e, final, length, fun fuel positive => ?_⟩
    obtain ⟨fuel, rfl⟩ := Nat.exists_eq_succ_of_ne_zero (Nat.ne_of_gt positive)
    rw [drain_succ announced]
    exact Act.bind_of_error turn
  · refine ⟨.ok (some final.session.downReasm.buffer), final, length, fun fuel positive => ?_⟩
    obtain ⟨fuel, rfl⟩ := Nat.exists_eq_succ_of_ne_zero (Nat.ne_of_gt positive)
    rw [drain_succ announced]
    refine (Act.bind_of_ok turn).trans ?_
    cases more : packet.moreFragments with
    | false => exact drain_last more final
    | true =>
        obtain ⟨carried, taken⟩ := (turns packet more).1.mp (congrArg Prod.fst turn)
        have room := (taken_iff more inProgress).mp taken
        exact absurd (other packet carried) (Nat.not_lt.mpr room)
  · refine ⟨.ok returned, final, length, fun fuel positive => ?_⟩
    obtain ⟨fuel, rfl⟩ := Nat.exists_eq_succ_of_ne_zero (Nat.ne_of_gt positive)
    rw [drain_succ announced]
    exact Act.bind_of_ok turn

/-- **A flight is drained fragment by fragment**, with one exchange each. -/
theorem drain_flight {packets : List EapTlsPacket} : ∀ {leg : Leg} {lastPkt : EapTlsPacket},
    lastPkt.moreFragments = true → leg.session.downReasm.state = .inProgress →
    (∀ idx packet, packets[idx]? = some packet →
      moreFragment (stream (leg.exchanges.length + idx)) = some packet) →
    (leg.session.downReasm.buffer ++ joined packets).length ≤ leg.session.downReasm.maxMessageLen →
    ∃ (last : EapTlsPacket) (final : Leg), (∀ fuel,
        drainUpstreamFragments (streaming stream surroundings) context (packets.length + fuel) lastPkt
            leg = drainUpstreamFragments (streaming stream surroundings) context fuel last final) ∧
      last.moreFragments = true ∧
      final.exchanges.length = leg.exchanges.length + packets.length ∧
      final.session.downReasm = leg.session.downReasm.extendAll packets ∧
      final.session.downReasm.state = .inProgress := by
  induction packets with
  | nil =>
      intro leg lastPkt announced inProgress _ _
      refine ⟨lastPkt, leg, fun fuel => ?_, announced, rfl, rfl, inProgress⟩
      rw [List.length_nil, Nat.zero_add]
  | cons packet packets ih =>
      intro leg lastPkt announced inProgress carried room
      have first : (leg.session.downReasm.buffer ++ packet.tlsData).length ≤
          leg.session.downReasm.maxMessageLen := by
        rw [joined_cons, ← List.append_assoc, List.length_append] at room
        omega
      obtain ⟨next, turn, more, length, reasm⟩ := @drain_goes_on context stream surroundings leg
        lastPkt packet announced inProgress (carried 0 packet rfl) first
      have opened : next.session.downReasm.state = .inProgress := by
        rw [reasm]
        rfl
      have carried' : ∀ idx other, packets[idx]? = some other →
          moreFragment (stream (next.exchanges.length + idx)) = some other := by
        intro idx other there
        have here := carried (idx + 1) other there
        rw [length, Nat.add_assoc, Nat.add_comm 1]
        exact here
      have room' : (next.session.downReasm.buffer ++ joined packets).length ≤
          next.session.downReasm.maxMessageLen := by
        rw [reasm, Reassembler.extend_buffer, buffer_of_inProgress inProgress, List.append_assoc]
        exact room
      obtain ⟨last, final, rest, announces, grown, gathered, open'⟩ := ih more opened carried' room'
      refine ⟨last, final, fun fuel => ?_, announces, ?_, ?_, open'⟩
      · rw [List.length_cons, Nat.add_right_comm, turn, rest]
      · rw [grown, length, List.length_cons]
        omega
      · rw [gathered, reasm]
        rfl

end Loop

namespace DrainCall

/-- A flight within a call has taken one exchange a fragment, and the call goes on. -/
theorem Flight.run {call : DrainCall} {packets : List EapTlsPacket} (flight : call.Flight packets) :
    ∃ (last : EapTlsPacket) (final : Leg), (∀ fuel, call.run (packets.length + fuel) =
        drainUpstreamFragments (streaming call.stream call.surroundings) call.context fuel last
          final) ∧ last.moreFragments = true ∧
      final.exchanges.length = call.leg.exchanges.length + packets.length ∧
      final.session.downReasm = call.leg.session.downReasm.extendAll packets ∧
      final.session.downReasm.state = .inProgress :=
  drain_flight flight.announced (call.started flight.announced) flight.carried flight.room

/-- **A call that ends has met no longer flight than it made exchanges.** -/
theorem Ends.flight_le {call : DrainCall} {count : ℕ} (ends : call.Ends count)
    {packets : List EapTlsPacket} (flight : call.Flight packets) : packets.length ≤ count := by
  by_contra longer
  obtain ⟨result, leg, length, stable⟩ := ends
  obtain ⟨last, final, goes_on, announces, grown, _⟩ := flight.run
  have here := goes_on 0
  rw [Nat.add_zero, stable packets.length (by omega), drainUpstreamFragments, if_pos announces] at here
  have same : leg = final := congrArg Prod.snd here
  rw [same] at length
  omega

/-- The buffer within the limit has room for as many fragments with data. -/
theorem Flight.length_le {call : DrainCall} {count : ℕ} (few : call.EmptyWithin count)
    {packets : List EapTlsPacket} (flight : call.Flight packets) :
    packets.length ≤ call.limit + count := by
  have data : ∀ fragments : List EapTlsPacket,
      fragments.length ≤
        (joined fragments).length + (fragments.filter (·.tlsData.isEmpty)).length := by
    intro fragments
    induction fragments with
    | nil => exact Nat.le_refl 0
    | cons packet fragments ih =>
        rw [joined_cons, List.length_append, List.length_cons]
        cases empty : packet.tlsData.isEmpty with
        | true =>
            simp only [List.filter_cons, empty, if_true, List.length_cons]
            omega
        | false =>
            have some : packet.tlsData ≠ [] := by
              intro nil
              rw [nil] at empty
              cases empty
            have positive := List.length_pos_iff.mpr some
            simp only [List.filter_cons, empty, Bool.false_eq_true, if_false]
            omega
  have all := data packets
  have room := flight.room
  have empties := few packets flight
  rw [List.length_append] at room
  omega

/-- A flight goes on, or it is the longest. -/
theorem Flight.concat {call : DrainCall} {packets : List EapTlsPacket} {packet : EapTlsPacket}
    (flight : call.Flight packets)
    (carried : moreFragment (call.stream (call.leg.exchanges.length + packets.length)) = some packet)
    (room : (call.leg.session.downReasm.buffer ++ joined (packets ++ [packet])).length ≤ call.limit) :
    call.Flight (packets ++ [packet]) := by
  refine ⟨flight.announced, fun idx other there => ?_, room⟩
  rcases Nat.lt_trichotomy idx packets.length with before | rfl | after
  · rw [List.getElem?_append_left before] at there
    exact flight.carried idx other there
  · rw [List.getElem?_concat_length] at there
    cases there
    exact carried
  · rw [List.getElem?_eq_none (by rw [List.length_append]; exact after)] at there
    cases there

/-- **The drain ends** after at most one exchange an octet of the limit, one for every empty
fragment, and one for what breaks it off. -/
theorem ends_within {call : DrainCall} {empties : ℕ} (few : call.EmptyWithin empties) :
    ∃ count ≤ call.limit + empties + 1, call.Ends count := by
  cases announced : call.lastPkt.moreFragments with
  | false =>
      refine ⟨0, Nat.zero_le _, .ok (some call.leg.session.downReasm.buffer), call.leg, rfl,
        fun fuel _ => ?_⟩
      exact drain_last announced call.leg
  | true =>
  have inProgress := call.started announced
  by_cases start : call.Flight []
  · -- Flights are bounded, so one of them is the longest.
    have longest : ∃ packets, call.Flight packets ∧ ∀ packet, ¬ call.Flight (packets ++ [packet]) := by
      by_contra none
      have all : ∀ count, ∃ packets, packets.length = count ∧ call.Flight packets := by
        intro count
        induction count with
        | zero => exact ⟨[], rfl, start⟩
        | succ count ih =>
            obtain ⟨packets, rfl, flight⟩ := ih
            by_contra stops
            refine none ⟨packets, flight, fun packet longer => stops ⟨_, ?_, longer⟩⟩
            rw [List.length_append]
            rfl
      obtain ⟨packets, length, flight⟩ := all (call.limit + empties + 1)
      exact absurd (Flight.length_le few flight) (by omega)
    obtain ⟨packets, flight, last⟩ := longest
    obtain ⟨lastPkt, final, goes_on, announces, grown, gathered, opened⟩ := flight.run
    have buffer : final.session.downReasm.buffer =
        call.leg.session.downReasm.buffer ++ joined packets := by
      rw [← buffer_of_inProgress opened, gathered, Reassembler.pending_extendAll,
        buffer_of_inProgress inProgress]
    have stops : ∀ packet, moreFragment (call.stream final.exchanges.length) = some packet →
        final.session.downReasm.maxMessageLen <
          (final.session.downReasm.buffer ++ packet.tlsData).length := by
      intro packet carried
      rw [grown] at carried
      by_contra room
      refine last packet (flight.concat carried ?_)
      rw [buffer, gathered, Reassembler.extendAll_maxMessageLen, List.append_assoc] at room
      rw [joined_append, joined_cons, joined_nil, List.append_nil]
      exact Nat.not_lt.mp room
    obtain ⟨result, leg, length, stable⟩ := @drain_stops call.context call.stream call.surroundings
      final lastPkt announces opened stops
    have short := Flight.length_le few flight
    refine ⟨packets.length + 1, by omega, result, leg, by omega, fun fuel enough => ?_⟩
    obtain ⟨rest, rfl⟩ := Nat.exists_eq_add_of_le (Nat.le_of_succ_le enough)
    rw [goes_on, stable rest (by omega)]
  · have full : call.limit < call.leg.session.downReasm.buffer.length := by
      by_contra room
      refine start ⟨announced, nofun, ?_⟩
      rw [joined_nil, List.append_nil]
      exact Nat.not_lt.mp room
    have stops : ∀ packet, moreFragment (call.stream call.leg.exchanges.length) = some packet →
        call.leg.session.downReasm.maxMessageLen <
          (call.leg.session.downReasm.buffer ++ packet.tlsData).length := by
      intro packet _
      rw [List.length_append]
      exact Nat.lt_add_right _ full
    obtain ⟨result, leg, length, stable⟩ := @drain_stops call.context call.stream call.surroundings
      call.leg call.lastPkt announced inProgress stops
    exact ⟨1, by omega, result, leg, length, stable⟩

end DrainCall

/-- **The number of exchanges of the drain is bounded by a function of `max_message_len`
exactly on those calls on which the number of empty fragments is.** -/
theorem drain_bounded_iff (calls : Set DrainCall) :
    (∃ bound : ℕ → ℕ, ∀ call ∈ calls, ∃ count ≤ bound call.limit, call.Ends count) ↔
      ∃ empties : ℕ → ℕ, ∀ call ∈ calls, call.EmptyWithin (empties call.limit) := by
  constructor
  · rintro ⟨bound, bounded⟩
    refine ⟨bound, fun call member packets flight => ?_⟩
    obtain ⟨count, small, ends⟩ := bounded call member
    exact (List.length_filter_le _ _).trans ((ends.flight_le flight).trans small)
  · rintro ⟨empties, few⟩
    exact ⟨fun limit => limit + empties limit + 1, fun call member =>
      DrainCall.ends_within (few call member)⟩

/-- A server that sends empty fragments for ever. -/
def emptyFragments : DrainCall where
  stream := fun _ => .ok
    { code := accessChallenge, state := none, eapMessage := [[1, 7, 0, 6, 13, 0x40]] }
  surroundings := { respond := fun _ _ => .error .timeout }
  context := ⟨"", none, none⟩
  leg := ⟨{ Session.create 0 "" (Config.sample "reassemble") 0 with
    downReasm := { maxMessageLen := 4096, state := .inProgress } }, [], 0⟩
  lastPkt := described codeRequest 7 [] true none false
  started := fun _ => rfl

/-- The drain never ends there. -/
theorem drain_never_ends :
    (∀ count, ¬ emptyFragments.Ends count) ∧
      ¬ ∃ bound : ℕ → ℕ, ∀ call : DrainCall, ∃ count ≤ bound call.limit, call.Ends count := by
  have never : ∀ count, ¬ emptyFragments.Ends count := by
    intro count ends
    have flight : emptyFragments.Flight
        (List.replicate (count + 1) (described codeRequest 7 [] true none false)) := by
      refine ⟨rfl, fun idx packet there => ?_, ?_⟩
      · obtain ⟨_, rfl⟩ := List.mem_replicate.mp (List.mem_of_getElem? there)
        show moreFragment (.ok
          { code := accessChallenge, state := none, eapMessage := [[1, 7, 0, 6, 13, 0x40]] }) = _
        decide
      · have nothing : joined
            (List.replicate (count + 1) (described codeRequest 7 [] true none false)) = [] := by
          simp [joined, described]
        rw [nothing]
        decide
    have short := ends.flight_le flight
    rw [List.length_replicate] at short
    omega
  refine ⟨never, ?_⟩
  rintro ⟨bound, bounded⟩
  obtain ⟨count, _, ends⟩ := bounded emptyFragments
  exact never count ends

end Mediator
end EapAccel
