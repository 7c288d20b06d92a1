import EapAccel.EapTls.Messages
import EapAccel.Mediator.Drain
import EapAccel.Mediator.Gather
import EapAccel.Mediator.Verdicts

/-!
# What the mediator hears of the server

The record of the exchanges says which packets of the server reached the reassembler: those
in the replies to requests without the M bit (`heard`). The replies to the chunks of a
record before the last are not looked at. `gatherSupplicantEap_hears` says what one handling
does with what it heard: the reassembler was fed exactly that, and a record that is handed
over is the content of its buffer, in one of three cases.
-/

set_option autoImplicit false

namespace EapAccel

open Foundations EapTls

/-! ## Replies that are looked at -/

/-- The reply is looked at: the request was an EAP-TLS packet without the M bit. -/
def Exchange.heeded (exchange : Exchange) : Bool :=
  match parse exchange.request.eap with
  | .ok packet => !packet.moreFragments
  | .error _ => false

/-- The EAP packet in a reply without a verdict, if it is EAP-TLS. -/
def Exchange.packet (exchange : Exchange) : Option EapTlsPacket :=
  match exchange.outcome with
  | .ok reply =>
      if reply.normalise.verdict = none then
        match parse reply.eapMessage.flatten with
        | .ok packet => some packet
        | .error _ => none
      else none
  | .error _ => none

/-- A reply with neither a verdict nor data: it has no EAP packet, or an empty EAP-TLS one. -/
def Exchange.idle (exchange : Exchange) : Prop :=
  ∃ reply, exchange.outcome = .ok reply ∧ reply.normalise.verdict = none ∧
    (reply.normalise.eapMessages = [] ∨
      ∃ packet, parse reply.eapMessage.flatten = .ok packet ∧ packet.isAck = true)

/-- The server's packets that were looked at. -/
def heard (exchanges : List Exchange) : List EapTlsPacket :=
  (exchanges.filter (·.heeded)).filterMap (·.packet)

@[simp] theorem heard_nil : heard [] = [] := rfl

@[simp] theorem heard_append (exchanges new : List Exchange) :
    heard (exchanges ++ new) = heard exchanges ++ heard new := by
  simp [heard]

theorem heard_of_unheeded {exchanges : List Exchange}
    (unheeded : exchanges.filter (·.heeded) = []) : heard exchanges = [] := by
  rw [heard, unheeded, List.filterMap_nil]

theorem heard_of_silent {exchange : Exchange} (silent : exchange.packet = none) :
    heard [exchange] = [] := by
  rw [heard, List.filterMap_eq_nil_iff]
  intro one member
  rw [List.mem_singleton.mp (List.mem_of_mem_filter member)]
  exact silent

theorem heard_of_packet {exchange : Exchange} {packet : EapTlsPacket}
    (heeded : exchange.heeded = true) (brings : exchange.packet = some packet) :
    heard [exchange] = [packet] := by
  simp [heard, heeded, brings]

/-- The reply has a part in the server's messages: it is looked at, or it brings TLS data or the
M bit. -/
def Exchange.tells (exchange : Exchange) : Bool :=
  exchange.heeded || exchange.packet.any fun packet => packet.moreFragments || packet.tlsData ≠ []

/-- The packets in which the server told its messages, whether or not they were looked at. -/
def told (exchanges : List Exchange) : List EapTlsPacket :=
  (exchanges.filter (·.tells)).filterMap (·.packet)

@[simp] theorem told_append (exchanges new : List Exchange) :
    told (exchanges ++ new) = told exchanges ++ told new := by
  simp [told]

/-- Where the replies that are not looked at bring nothing, the server told what was heard. -/
theorem told_eq_heard {exchanges : List Exchange}
    (unheeded : ∀ exchange ∈ exchanges, exchange.heeded = false →
      ∀ packet, exchange.packet = some packet →
        packet.tlsData = [] ∧ packet.moreFragments = false) :
    told exchanges = heard exchanges := by
  have same : ∀ exchange ∈ exchanges, exchange.tells = exchange.heeded := by
    intro exchange member
    rw [Exchange.tells]
    cases looked : exchange.heeded with
    | true => rfl
    | false =>
        rcases brings : exchange.packet with _ | packet
        · rfl
        · obtain ⟨empty, last⟩ := unheeded exchange member looked packet brings
          simp [empty, last]
  rw [told, heard, List.filter_congr same]

namespace Mediator

variable {client : UpstreamClient} {fuel : ℕ} {context : AuthContext}

/-! ## Replies and their packets -/

/-- What the mediator parses of a reply is what its exchange brings. -/
theorem packet_of_parse {exchange : Exchange} {reply : RadiusReply} {eap : Bytes}
    {rest : List Bytes} (outcome : exchange.outcome = .ok reply)
    (verdict : reply.normalise.verdict = none) (carries : reply.normalise.eapMessages = eap :: rest) :
    eap = reply.eapMessage.flatten ∧
      exchange.packet = match parse eap with
        | .ok packet => some packet
        | .error _ => none := by
  have same : eap = reply.eapMessage.flatten := by
    rw [RadiusReply.normalise, concatEapMessages] at carries
    simp only at carries
    split at carries
    · cases carries
    · split at carries
      · cases carries
      · cases carries
        rfl
  refine ⟨same, ?_⟩
  rw [Exchange.packet, outcome]
  simp only [verdict, if_true]
  rw [same]

/-- A reply without an EAP packet brings none. -/
theorem packet_of_nothing {exchange : Exchange} {reply : RadiusReply}
    (outcome : exchange.outcome = .ok reply) (carries : reply.normalise.eapMessages = []) :
    exchange.packet = none := by
  rw [Exchange.packet, outcome]
  simp only
  split
  · rcases parsed : parse reply.eapMessage.flatten with e | packet
    · rfl
    · rw [eapMessages_normalise parsed] at carries
      cases carries
  · rfl

theorem packet_of_verdict {exchange : Exchange} {reply : RadiusReply} {v : Verdict}
    (outcome : exchange.outcome = .ok reply) (verdict : reply.normalise.verdict = some v) :
    exchange.packet = none := by
  rw [Exchange.packet, outcome]
  simp only [verdict, reduceCtorEq, if_false]

/-- The reply to a packet built without the M bit is looked at, and to one with it is not. -/
theorem heeded_of_build {exchange : Exchange} {identifier : UInt8} {tlsData : Bytes}
    {moreFragments : Bool} {tlsMessageLength : Option ℕ}
    (built : build codeResponse identifier tlsData moreFragments tlsMessageLength false =
      .ok exchange.request.eap) : exchange.heeded = !moreFragments := by
  rw [Exchange.heeded, parse_of_build built]
  rfl

/-! ## What has been heard since a point -/

/-- Since `start` these exchanges were made, and the reassembler was fed what was heard of
them, every packet but the first while a message was open. -/
structure Hears (start : Leg) (new : List Exchange) (leg : Leg) : Prop where
  exchanges : leg.exchanges = start.exchanges ++ new
  fed : leg.session.downReasm = start.session.downReasm.feed (heard new)
  stays : start.session.downReasm.StaysOpen (heard new)

theorem Hears.refl (leg : Leg) : Hears leg [] leg :=
  ⟨(List.append_nil _).symm, rfl, Reassembler.staysOpen_nil _⟩

/-- The part of the state that this is about. -/
def hearingView (leg : Leg) : List Exchange × Reassembler := (leg.exchanges, leg.session.downReasm)

theorem Hears.of_view {start leg leg' : Leg} {new : List Exchange}
    (same : hearingView leg' = hearingView leg) (hears : Hears start new leg) :
    Hears start new leg' := by
  simp only [hearingView, Prod.mk.injEq] at same
  exact ⟨same.1.trans hears.exchanges, same.2.trans hears.fed, hears.stays⟩

/-- The first packet that was heard has data. -/
def Opens (new : List Exchange) : Prop :=
  ∃ packet, (heard new).head? = some packet ∧ packet.isAck = false

theorem Opens.append {new : List Exchange} (opens : Opens new) (more : List Exchange) :
    Opens (new ++ more) := by
  obtain ⟨packet, head, data⟩ := opens
  refine ⟨packet, ?_, data⟩
  rw [heard_append, List.head?_append, head]
  rfl

theorem Opens.heard {new : List Exchange} (opens : Opens new) : heard new ≠ [] := by
  obtain ⟨packet, head, _⟩ := opens
  intro none
  rw [none] at head
  cases head

/-- The end of a handling without a record: no message was completed. -/
def Quiet (start leg : Leg) : Prop :=
  ∃ new, Hears start new leg ∧
    (heard new = [] ∨ (Opens new ∧ leg.session.downReasm.state ≠ .complete))

/-- The three ways to come to a record: the message was completed; a message was broken off
by a reply with neither a verdict nor data; or the first reply was an ACK. -/
inductive Exit (new : List Exchange) (reassembler : Reassembler) : Prop where
  | completed (opens : Opens new) (complete : reassembler.state = .complete)
  | brokenOff (opens : Opens new) (exchange : Exchange)
      (later : exchange ∈ (new.filter (·.heeded)).tail) (idle : exchange.idle)
      (underway : reassembler.state = .inProgress)
  | acked (packet : EapTlsPacket) (only : heard new = [packet]) (ack : packet.isAck = true)

/-- A record is handed over: what is in the buffer. -/
def HandsOver (start : Leg) (tlsRecord : Bytes) (leg : Leg) : Prop :=
  ∃ new, Hears start new leg ∧ tlsRecord = leg.session.downReasm.buffer ∧
    Exit new leg.session.downReasm

/-- The end of gathering. -/
def Gathers (start : Leg) : Outcome ⊕ Bytes → Leg → Prop
  | .inl _ => Quiet start
  | .inr tlsRecord => HandsOver start tlsRecord

theorem Quiet.of_view {start leg leg' : Leg} (same : hearingView leg' = hearingView leg)
    (quiet : Quiet start leg) : Quiet start leg' := by
  obtain ⟨new, hears, none⟩ := quiet
  refine ⟨new, hears.of_view same, ?_⟩
  have reassembler : leg'.session.downReasm = leg.session.downReasm := congrArg Prod.snd same
  rw [reassembler]
  exact none

theorem quiet_invariant {α : Type} {x : Act Raised Leg α} (keeps : Act.Keeps hearingView x)
    (start : Leg) : Act.Invariant (Quiet start) x :=
  keeps.invariant fun _ _ => Quiet.of_view

/-! ## One exchange -/

/-- An exchange was made that is looked at, and its reply is not yet fed. -/
structure Replied (start : Leg) (new : List Exchange) (exchange : Exchange) (reply : Reply)
    (leg : Leg) : Prop where
  exchanges : leg.exchanges = start.exchanges ++ (new ++ [exchange])
  fed : leg.session.downReasm = start.session.downReasm.feed (heard new)
  stays : start.session.downReasm.StaysOpen (heard new)
  heeded : exchange.heeded = true
  outcome : ∃ answer, exchange.outcome = .ok answer ∧ reply = answer.normalise

/-- A packet that is built without the M bit, and its reply. -/
theorem exchange_replied {start : Leg} {new : List Exchange} {identifier : UInt8}
    {eapPayload tlsData : Bytes} {tlsMessageLength : Option ℕ}
    (built : build codeResponse identifier tlsData false tlsMessageLength false = .ok eapPayload) :
    Act.Triple (Hears start new) (exchange client eapPayload context)
      (fun reply leg => ∃ exchange, Replied start new exchange reply leg)
      (fun _ leg => ∃ exchange, Hears start (new ++ [exchange]) leg ∧ heard [exchange] = []) := by
  intro leg hears
  have heeded : (leg.exchanged client eapPayload context).heeded = !false :=
    heeded_of_build (by rw [Leg.eap_exchanged]; exact built)
  have grown : leg.exchanges ++ [leg.exchanged client eapPayload context] =
      start.exchanges ++ (new ++ [leg.exchanged client eapPayload context]) := by
    rw [hears.exchanges, List.append_assoc]
  rw [exchange_eq]
  rcases outcome : leg.outcome client eapPayload context with e | answer
  · have silent : heard [leg.exchanged client eapPayload context] = [] :=
      heard_of_silent (by simp [Exchange.packet, Leg.exchanged, outcome])
    refine ⟨_, ⟨grown, ?_, ?_⟩, silent⟩
    · rw [heard_append, silent, List.append_nil]
      exact hears.fed
    · rw [heard_append, silent, List.append_nil]
      exact hears.stays
  · exact ⟨_, grown, (learn_downReasm answer _).trans hears.fed, hears.stays, heeded, answer,
      outcome, rfl⟩

namespace Replied

variable {start leg : Leg} {new : List Exchange} {exchange : Exchange} {reply : Reply}

/-- A reply that brings no packet. -/
theorem hears_of_silent (replied : Replied start new exchange reply leg)
    (silent : exchange.packet = none) : Hears start (new ++ [exchange]) leg := by
  have same : heard (new ++ [exchange]) = heard new := by
    rw [heard_append, heard_of_silent silent, List.append_nil]
  exact ⟨replied.exchanges, same ▸ replied.fed, same ▸ replied.stays⟩

/-- A reply whose packet is fed. -/
theorem hears_of_packet (replied : Replied start new exchange reply leg) {packet : EapTlsPacket}
    (brings : exchange.packet = some packet)
    (here : heard new ≠ [] → (start.session.downReasm.feed (heard new)).state = .inProgress) :
    Hears start (new ++ [exchange]) (ingestDown packet leg).2 := by
  have same : heard (new ++ [exchange]) = heard new ++ [packet] := by
    rw [heard_append, heard_of_packet replied.heeded brings]
  refine ⟨replied.exchanges, ?_, ?_⟩
  · rw [same, Reassembler.feed_concat, ← replied.fed]
    rfl
  · rw [same]
    exact replied.stays.concat here packet

end Replied

/-! ## Pulling the server's record -/

/-- In the middle of a message: a fragment of it was heard, and the next is missing. -/
structure Underway (start : Leg) (new : List Exchange) : Prop where
  missing : (start.session.downReasm.feed (heard new)).state = .inProgress
  opens : Opens new

namespace Underway

variable {start leg : Leg} {new : List Exchange} {exchange : Exchange}

theorem silent (underway : Underway start new) (silent : heard [exchange] = []) :
    Underway start (new ++ [exchange]) := by
  have same : heard (new ++ [exchange]) = heard new := by
    rw [heard_append, silent, List.append_nil]
  exact ⟨same ▸ underway.missing, underway.opens.append _⟩

theorem quiet (underway : Underway start new) (hears : Hears start new leg) : Quiet start leg := by
  refine ⟨new, hears, .inr ⟨underway.opens, ?_⟩⟩
  rw [hears.fed, underway.missing]
  decide

/-- What is looked at now is not the first. -/
theorem later (underway : Underway start new) (heeded : exchange.heeded = true) :
    exchange ∈ ((new ++ [exchange]).filter (·.heeded)).tail := by
  have some : new.filter (·.heeded) ≠ [] :=
    fun none => underway.opens.heard (heard_of_unheeded none)
  rw [List.filter_append, List.tail_append_of_ne_nil some]
  exact List.mem_append_right _ (by simp [heeded])

end Underway

/-! ## Feeding a packet -/

/-- After a packet was fed: the record is whole, or the packet was an ACK, or more is
missing. -/
def Ingested (start : Leg) (new : List Exchange) (packet : EapTlsPacket) (before : Leg) :
    Option Bytes → Leg → Prop
  | some tlsRecord => HandsOver start tlsRecord
  | none => fun leg => Hears start new leg ∧
      ((packet.isAck = true ∧ leg.session.downReasm = before.session.downReasm) ∨
        (packet.moreFragments = true ∧ Underway start new))

theorem ingestDown_hears {start leg : Leg} {new : List Exchange} {exchange : Exchange}
    {reply : Reply} {packet : EapTlsPacket} (replied : Replied start new exchange reply leg)
    (brings : exchange.packet = some packet) (here : heard new ≠ [] → Underway start new) :
    Act.Triple (fun l => l = leg) (ingestDown packet)
      (Ingested start (new ++ [exchange]) packet leg) (fun _ => Quiet start) := by
  have hears := replied.hears_of_packet brings fun some => (here some).missing
  have opens : packet.isAck = false → Opens (new ++ [exchange]) := by
    intro data
    by_cases first : heard new = []
    · refine ⟨packet, ?_, data⟩
      rw [heard_append, first, heard_of_packet replied.heeded brings]
      rfl
    · exact (here first).opens.append _
  have ends := Reassembler.ingest_ends packet leg.session.downReasm
  intro l at_leg
  rw [ingestDown_eq] at hears
  rw [at_leg, ingestDown_eq]
  rcases fed : Reassembler.ingest packet leg.session.downReasm with ⟨e | _ | message, after⟩
  · rw [fed] at ends hears
    exact ⟨_, hears, .inr ⟨opens ends.1, ends.2⟩⟩
  · rw [fed] at ends hears
    refine ⟨hears, ?_⟩
    rcases ends with ⟨ack, unchanged⟩ | ⟨data, more, inProgress⟩
    · exact .inl ⟨ack, unchanged⟩
    · refine .inr ⟨more, ?_, opens data⟩
      rw [← hears.fed]
      exact inProgress
  · rw [fed] at ends hears
    exact ⟨_, hears, ends.2.2, .completed (opens ends.1) ends.2.1⟩

/-! ## The drain -/

theorem keeps_hearing_echo : Act.Keeps hearingView echoUpstreamId := by
  intro leg
  rw [echoUpstreamId_eq]
  unfold Leg.takeUpId Session.takeUpId
  split <;> rfl

/-- The end of the drain. -/
def Drains (start : Leg) : Option Bytes → Leg → Prop
  | some tlsRecord => HandsOver start tlsRecord
  | none => Quiet start

/-- What a turn of the drain comes to: a packet to go on with, an ACK that ends the loop, or what
the drain returns. -/
def Pulled (start : Leg) : EapTlsPacket ⊕ Option Bytes → Leg → Prop
  | .inl packet => fun leg =>
      (packet.isAck = true ∧ HandsOver start leg.session.downReasm.buffer leg) ∨
      (packet.moreFragments = true ∧ ∃ new, Underway start new ∧ Hears start new leg)
  | .inr returned => Drains start returned

/-- The reply of a turn is taken in. -/
theorem takePulled_hears {start leg : Leg} {new : List Exchange} (underway : Underway start new)
    {exchange : Exchange} {answer : RadiusReply} (outcome : exchange.outcome = .ok answer)
    (replied : Replied start new exchange answer.normalise leg) :
    Act.Triple (fun l => l = leg) (takePulled answer.normalise) (Pulled start)
      (fun _ => Quiet start) := by
  -- A verdict ends the handling without a record.
  have ended : ∀ v, answer.normalise.verdict = some v → Quiet start leg := by
    intro v verdict
    have silent := packet_of_verdict outcome verdict
    exact (underway.silent (heard_of_silent silent)).quiet (replied.hears_of_silent silent)
  have stops : ∀ (v : Verdict) (finish : Act Raised Leg Unit), Act.Keeps hearingView finish →
      answer.normalise.verdict = some v →
        Act.Triple (fun l => l = leg) (finish >>= fun _ => pure (.inr none))
          (Pulled start) (fun _ => Quiet start) := fun v finish keeps verdict =>
    Act.Triple.at_state (Act.Triple.bind (quiet_invariant keeps start) fun _ =>
      Act.Triple.pure fun _ quiet => show Pulled start (.inr none) _ from quiet) (ended v verdict)
  refine Act.Triple.ite (fun accept => ?_) fun accept => ?_
  · exact stops _ _ (fun _ => rfl) (Reply.verdict_of_accept accept)
  refine Act.Triple.ite (fun reject => ?_) fun reject => ?_
  · exact stops _ _ (fun _ => rfl) (Reply.verdict_of_reject accept reject)
  have verdict := Reply.verdict_of_neither accept reject
  rcases carries : answer.normalise.eapMessages with _ | ⟨eap, rest⟩
  · -- An empty challenge.
    rintro _ rfl
    have silent := packet_of_nothing outcome carries
    have still := underway.silent (heard_of_silent silent)
    have hears := replied.hears_of_silent silent
    refine ⟨_, hears, rfl, .brokenOff still.opens exchange
      (underway.later replied.heeded) ⟨answer, outcome, verdict, .inl carries⟩ ?_⟩
    rw [hears.fed]
    exact still.missing
  · obtain ⟨same, brings⟩ := packet_of_parse outcome verdict carries
    dsimp only
    rcases parsed : parse eap with e | packet
    · rw [parsed] at brings
      rintro _ rfl
      exact (underway.silent (heard_of_silent brings)).quiet (replied.hears_of_silent brings)
    rw [parsed] at brings
    rw [Act.bind_lift_ok]
    refine Act.Triple.bind (ingestDown_hears replied brings fun _ => underway) fun done => ?_
    cases done with
    | some tlsRecord => exact Act.Triple.pure fun _ handsOver => handsOver
    | none =>
        apply Act.Triple.pure
        rintro after ⟨hears, ⟨ack, unchanged⟩ | ⟨more, further⟩⟩
        · refine .inl ⟨ack, _, hears, rfl, .brokenOff (underway.opens.append _) exchange
            (underway.later replied.heeded)
            ⟨answer, outcome, verdict, .inr ⟨packet, same ▸ parsed, ack⟩⟩ ?_⟩
          rw [unchanged, replied.fed]
          exact underway.missing
        · exact .inr ⟨more, _, further, hears⟩

/-- **A turn of the drain**, while a message is under way. -/
theorem pull_hears {start : Leg} {new : List Exchange} (underway : Underway start new) :
    Act.Triple (Hears start new) (pull client context) (Pulled start) (fun _ => Quiet start) := by
  have quietly : ∀ {α : Type} {x : Act Raised Leg α}, Act.Keeps hearingView x →
      Act.Triple (Hears start new) x (fun _ => Hears start new) (fun _ => Quiet start) :=
    fun keeps => Act.Triple.conseq (keeps.invariant fun _ _ => Hears.of_view) (fun _ => id)
      (fun _ _ => id) fun _ _ hears => underway.quiet hears
  apply Act.Triple.bind (quietly keeps_hearing_echo)
  intro ackId
  rw [buildAck_eq_ok, Act.bind_lift_ok]
  apply Act.Triple.bind (quietly fun _ => rfl)
  intro _
  refine Act.Triple.bind (Act.Triple.conseq (exchange_replied (buildAck_eq_ok _ ackId))
    (fun _ => id) (fun _ _ => id) ?_) fun reply => ?_
  · rintro e leg ⟨exchange, hears, silent⟩
    exact (underway.silent silent).quiet hears
  apply Act.Triple.of_states
  rintro leg ⟨exchange, replied⟩
  obtain ⟨answer, outcome, rfl⟩ := replied.outcome
  exact takePulled_hears underway outcome replied

/-- **The drain.** It goes on while a message is under way. -/
theorem drain_hears (start : Leg) : ∀ (fuel : ℕ) (lastPkt : EapTlsPacket) (new : List Exchange),
    Underway start new → lastPkt.moreFragments = true →
      Act.Triple (Hears start new) (drainUpstreamFragments client context fuel lastPkt)
        (Drains start) (fun _ => Quiet start) := by
  intro fuel
  induction fuel with
  | zero =>
      intro lastPkt new underway more
      rw [drainUpstreamFragments, if_pos more]
      exact Act.Triple.raise fun _ hears => underway.quiet hears
  | succ fuel ih =>
      intro lastPkt new underway more
      rw [drain_succ more]
      apply Act.Triple.bind (pull_hears underway)
      intro turn
      cases turn with
      | inl packet =>
          rintro leg (⟨ack, handsOver⟩ | ⟨further, new', underway', hears⟩)
          · -- An ACK leaves the loop.
            simp only [drain_last (last_of_ack ack) leg]
            exact handsOver
          · exact ih packet new' underway' further leg hears
      | inr returned => exact Act.Triple.pure fun _ drains => drains

/-! ## Handling a reply -/

/-- Since `start`, no reply was looked at. -/
def Unheard (start leg : Leg) : Prop :=
  ∃ new, Hears start new leg ∧ new.filter (·.heeded) = []

/-- The last reply, which is the only one that is looked at. -/
def LastReply (start : Leg) : Option Reply → Leg → Prop
  | some reply => fun leg => ∃ new exchange, new.filter (·.heeded) = [] ∧
      Replied start new exchange reply leg
  | none => Quiet start

theorem Unheard.of_view {start leg leg' : Leg} (same : hearingView leg' = hearingView leg)
    (unheard : Unheard start leg) : Unheard start leg' := by
  obtain ⟨new, hears, none⟩ := unheard
  exact ⟨new, hears.of_view same, none⟩

/-- Since `start`, nothing was heard. -/
def HearsNothing (start leg : Leg) : Prop := ∃ new, Hears start new leg ∧ heard new = []

theorem Unheard.nothing {start leg : Leg} (unheard : Unheard start leg) :
    HearsNothing start leg := by
  obtain ⟨new, hears, none⟩ := unheard
  exact ⟨new, hears, heard_of_unheeded none⟩

theorem HearsNothing.quiet {start leg : Leg} (nothing : HearsNothing start leg) :
    Quiet start leg := by
  obtain ⟨new, hears, none⟩ := nothing
  exact ⟨new, hears, .inl none⟩

theorem Unheard.quiet {start leg : Leg} (unheard : Unheard start leg) : Quiet start leg :=
  unheard.nothing.quiet

theorem Unheard.refl (leg : Leg) : Unheard leg leg := ⟨[], Hears.refl leg, rfl⟩

theorem unheard_nothing {α : Type} {x : Act Raised Leg α} (keeps : Act.Keeps hearingView x)
    (start : Leg) :
    Act.Triple (Unheard start) x (fun _ => Unheard start) (fun _ => HearsNothing start) :=
  Act.Triple.conseq (keeps.invariant fun _ _ => Unheard.of_view) (fun _ => id) (fun _ _ => id)
    fun _ _ => Unheard.nothing

/-- Where nothing was heard when a computation raised, the handling ends quietly. -/
theorem quietly {α : Type} {x : Act Raised Leg α} {start : Leg} {pre : Leg → Prop}
    {post : α → Leg → Prop} (triple : Act.Triple pre x post fun _ => HearsNothing start) :
    Act.Triple pre x post fun _ => Quiet start :=
  Act.Triple.conseq triple (fun _ => id) (fun _ _ => id) fun _ _ => HearsNothing.quiet

theorem unheard_triple {α : Type} {x : Act Raised Leg α} (keeps : Act.Keeps hearingView x)
    (start : Leg) :
    Act.Triple (Unheard start) x (fun _ => Unheard start) (fun _ => Quiet start) :=
  quietly (unheard_nothing keeps start)

/-- **Handling a reply.** -/
theorem gatherReply_hears (start : Leg) (reply : Option Reply) :
    Act.Triple (LastReply start reply) (gatherReply client fuel context reply) (Gathers start)
      (fun _ => Quiet start) := by
  cases reply with
  | none => exact Act.Triple.pure fun _ quiet => quiet
  | some reply =>
      refine Act.Triple.of_states fun leg ⟨new, exchange, unheeded, replied⟩ => ?_
      obtain ⟨answer, outcome, rfl⟩ := replied.outcome
      have nothing := heard_of_unheeded unheeded
      have quietly : exchange.packet = none → Quiet start leg := by
        intro silent
        refine ⟨_, replied.hears_of_silent silent, .inl ?_⟩
        rw [heard_append, nothing, heard_of_silent silent]
        rfl
      have stops : ∀ (v : Verdict) (finish : Act Raised Leg Unit) (f : Leg → Outcome),
          Act.Keeps hearingView finish → answer.normalise.verdict = some v →
            Act.Triple (fun l => l = leg)
              (finish >>= fun _ => Act.read >>= fun leg => pure (.inl (f leg)))
              (Gathers start) (fun _ => Quiet start) := by
        intro v finish f keeps verdict
        refine Act.Triple.at_state (Act.Triple.bind (quiet_invariant keeps start) fun _ => ?_)
          (quietly (packet_of_verdict outcome verdict))
        exact Act.Triple.read_bind fun _ quiet => Act.Triple.pure fun _ same => same ▸ quiet
      rw [gatherReply]
      refine Act.Triple.ite (fun accept => ?_) fun accept => ?_
      · exact stops _ _ _ (fun _ => rfl) (Reply.verdict_of_accept accept)
      refine Act.Triple.ite (fun reject => ?_) fun reject => ?_
      · exact stops _ _ _ (fun _ => rfl) (Reply.verdict_of_reject accept reject)
      have verdict := Reply.verdict_of_neither accept reject
      rcases carries : answer.normalise.eapMessages with _ | ⟨eap, rest⟩
      · exact Act.Triple.pure fun _ same => same ▸ quietly (packet_of_nothing outcome carries)
      · obtain ⟨same, brings⟩ := packet_of_parse outcome verdict carries
        dsimp only
        rcases parsed : parse eap with e | packet
        · rw [parsed] at brings
          rintro _ rfl
          exact quietly brings
        rw [parsed] at brings
        rw [Act.bind_lift_ok]
        refine Act.Triple.bind (ingestDown_hears replied brings fun some => absurd nothing some)
          fun complete => ?_
        cases complete with
        | some tlsRecord => exact Act.Triple.pure fun _ handsOver => handsOver
        | none =>
            have drained : Act.Triple (Ingested start (new ++ [exchange]) packet leg none)
                (drainUpstreamFragments client context fuel packet) (Drains start)
                (fun _ => Quiet start) := by
              rintro after ⟨hears, ⟨ack, unchanged⟩ | ⟨more, underway⟩⟩
              · rw [drain_last (last_of_ack ack)]
                refine ⟨_, hears, rfl, .acked packet ?_ ack⟩
                rw [heard_append, nothing, heard_of_packet replied.heeded brings]
                rfl
              · exact drain_hears start fuel packet _ underway more after hears
            refine Act.Triple.bind drained fun complete => ?_
            cases complete with
            | some tlsRecord => exact Act.Triple.pure fun _ handsOver => handsOver
            | none =>
                exact Act.Triple.read_bind fun _ quiet =>
                  Act.Triple.pure fun _ same => same ▸ quiet

/-! ## Sending a record -/

/-- One exchange that is looked at, the first. -/
theorem exchange_first {start : Leg} {identifier : UInt8} {eapPayload tlsData : Bytes}
    {tlsMessageLength : Option ℕ}
    (built : build codeResponse identifier tlsData false tlsMessageLength false = .ok eapPayload) :
    Act.Triple (Unheard start) (exchange client eapPayload context)
      (fun reply => LastReply start (some reply)) (fun _ => HearsNothing start) := by
  refine Act.Triple.of_states fun leg ⟨new, hears, unheeded⟩ => ?_
  refine Act.Triple.conseq ((exchange_replied built).at_state hears) (fun _ => id) ?_ ?_
  · rintro reply after ⟨exchange, replied⟩
    exact ⟨new, exchange, unheeded, replied⟩
  · rintro e after ⟨exchange, hears, silent⟩
    refine ⟨_, hears, ?_⟩
    rw [heard_append, heard_of_unheeded unheeded, silent]
    rfl

/-- One exchange that is not looked at. -/
theorem exchange_unheard {start : Leg} {eapPayload : Bytes}
    (ignored : ∀ packet, parse eapPayload = .ok packet → packet.moreFragments = true) :
    Act.Invariant (Unheard start) (exchange client eapPayload context) := by
  refine Act.Invariant.of_ended fun leg ⟨new, hears, unheeded⟩ => ?_
  have passed : (leg.exchanged client eapPayload context).heeded = false := by
    rw [Exchange.heeded, Leg.eap_exchanged]
    rcases parsed : parse eapPayload with e | packet
    · rfl
    · simp [ignored packet parsed]
  have still : (new ++ [leg.exchanged client eapPayload context]).filter (·.heeded) = [] := by
    rw [List.filter_append, unheeded]
    simpa using passed
  have reassembler : (exchange client eapPayload context leg).2.session.downReasm =
      leg.session.downReasm := by
    rw [exchange_eq]
    rcases leg.outcome client eapPayload context with e | answer
    · rfl
    · exact learn_downReasm answer _
  refine ⟨_, ⟨?_, ?_, ?_⟩, still⟩
  · rw [exchange_exchanges, hears.exchanges, List.append_assoc]
  · rw [reassembler, hears.fed, heard_of_unheeded still, heard_of_unheeded unheeded]
  · rw [heard_of_unheeded still]
    exact Reassembler.staysOpen_nil _

/-- **The chunks of a record.** Only the reply to the last is looked at. -/
theorem sendChunks_hears (start : Leg) (total count : ℕ) : ∀ (rest : List Bytes) (idx : ℕ)
    (chunk : Bytes) (reply : Option Reply), idx + rest.length + 1 = count →
    Act.Triple (Unheard start) (sendChunks client context total count idx (chunk :: rest) reply)
      (LastReply start) (fun _ => HearsNothing start) := by
  intro rest
  induction rest with
  | nil =>
      intro idx chunk reply counted
      have last : decide (idx < count - 1) = false := by
        rw [List.length_nil] at counted
        exact decide_eq_false (by omega)
      rw [sendChunks]
      refine Act.Triple.bind (unheard_nothing keeps_hearing_echo start) fun upId => ?_
      simp only [last]
      rcases built : build codeResponse upId chunk false (if idx = 0 then some total else none) false
        with e | eapFrag
      · exact fun _ unheard => unheard.nothing
      rw [Act.bind_lift_ok]
      refine Act.Triple.bind (unheard_nothing (fun _ => rfl) start) fun _ => ?_
      refine Act.Triple.bind (exchange_first built) fun reply => ?_
      exact Act.Triple.pure fun _ replied => replied
  | cons next rest ih =>
      intro idx chunk reply counted
      have more : decide (idx < count - 1) = true := by
        rw [List.length_cons] at counted
        exact decide_eq_true (by omega)
      rw [sendChunks]
      refine Act.Triple.bind (unheard_nothing keeps_hearing_echo start) fun upId => ?_
      simp only [more]
      rcases built : build codeResponse upId chunk true (if idx = 0 then some total else none) false
        with e | eapFrag
      · exact fun _ unheard => unheard.nothing
      rw [Act.bind_lift_ok]
      refine Act.Triple.bind (unheard_nothing (fun _ => rfl) start) fun _ => ?_
      have ignored : ∀ packet, parse eapFrag = .ok packet → packet.moreFragments = true := by
        rw [parse_of_build built]
        rintro packet ⟨⟩
        rfl
      refine Act.Triple.bind (Act.Triple.conseq (exchange_unheard ignored) (fun _ => id)
        (fun _ _ => id) fun _ _ => Unheard.nothing) fun reply => ?_
      exact ih (idx + 1) next (some reply) (by rw [List.length_cons] at counted; omega)

/-- **Forwarding a record.** -/
theorem gatherForward_hears (start : Leg) (tlsRecord : Bytes) :
    Act.Triple (Unheard start) (gatherForward client fuel context tlsRecord) (Gathers start)
      (fun _ => Quiet start) := by
  refine Act.Triple.read_bind fun leg unheard => Act.Triple.at_state ?_ unheard
  rcases cut : fragment tlsRecord leg.session.upstreamFragmentSize with e | pieces
  · exact fun _ unheard => unheard.quiet
  rw [Act.bind_lift_ok]
  cases pieces with
  | nil => exact fun _ unheard => unheard.quiet
  | cons chunk rest =>
      refine Act.Triple.bind (quietly (sendChunks_hears start _ _ rest 0 chunk none ?_))
        fun reply => gatherReply_hears start reply
      rw [List.length_cons, Nat.zero_add]

/-! ## The supplicant's packets -/

theorem gatherAck_hears (start : Leg) (packet : EapTlsPacket) :
    Act.Triple (Unheard start) (gatherAck client fuel context packet) (Gathers start)
      (fun _ => Quiet start) := by
  have inl : ∀ x : Act Raised Leg Outcome, Act.Keeps hearingView x →
      Act.Triple (Unheard start) (Sum.inl <$> x) (Gathers start) (fun _ => Quiet start) := by
    intro x keeps
    rw [map_eq_pure_bind]
    exact Act.Triple.bind (unheard_triple keeps start) fun _ =>
      Act.Triple.pure fun _ unheard => unheard.quiet
  refine Act.Triple.read_bind fun leg unheard => Act.Triple.at_state ?_ unheard
  refine Act.Triple.ite (fun _ => inl _ ?_) fun _ => ?_
  · exact (sendNext_unqueued _).weaken hearingView fun _ => rfl
  refine Act.Triple.ite (fun _ => Act.Triple.pure fun _ unheard => unheard.quiet) fun _ => ?_
  refine Act.Triple.ite (fun _ => Act.Triple.pure fun _ unheard => unheard.quiet) fun _ => ?_
  refine Act.Triple.bind (unheard_triple keeps_hearing_echo start) fun upId => ?_
  rw [buildAck_eq_ok, Act.bind_lift_ok]
  refine Act.Triple.bind (quietly (exchange_first (buildAck_eq_ok _ upId))) fun reply => ?_
  exact gatherReply_hears start (some reply)

theorem gatherData_hears (start : Leg) (packet : EapTlsPacket) :
    Act.Triple (Unheard start) (gatherData client fuel context packet) (Gathers start)
      (fun _ => Quiet start) := by
  refine Act.Triple.bind (unheard_triple (fun _ => rfl) start) fun complete => ?_
  cases complete with
  | none =>
      refine Act.Triple.read_bind fun leg unheard => Act.Triple.at_state ?_ unheard
      refine Act.Triple.bind (unheard_triple (fun _ => rfl) start) fun _ => ?_
      rw [buildAck_eq_ok, Act.bind_lift_ok]
      exact Act.Triple.pure fun _ unheard => unheard.quiet
  | some tlsRecord =>
      refine Act.Triple.bind (unheard_triple (fun _ => rfl) start) fun _ => ?_
      exact gatherForward_hears start tlsRecord

/-- **A packet of the supplicant in reassemble mode**: what is done with what is heard. -/
theorem gatherSupplicantEap_hears (eapBytes : Bytes) {start : Leg}
    (reassembling : start.session.mode = .reassemble) :
    Act.Triple (fun leg => leg = start) (gatherSupplicantEap client fuel context eapBytes)
      (Gathers start) (fun _ => Quiet start) := by
  intro leg at_start
  rw [at_start]
  rcases parsed : parse eapBytes with e | packet
  · simp only [gatherSupplicantEap, parsed, Act.lift_error_bind]
    exact (Unheard.refl _).quiet
  · have arrives : Unheard start { start with session := arrived start.session packet } :=
      @Unheard.of_view start start _ rfl (Unheard.refl start)
    rw [gatherSupplicantEap_of_parse reassembling parsed]
    exact Act.Triple.ite (fun _ => gatherAck_hears start packet)
      (fun _ => gatherData_hears start packet) _ arrives

end Mediator
end EapAccel
