import EapAccel.Downstream.Origins
import EapAccel.EapTls.Assembly
import EapAccel.Opacity.ToServer

/-!
# Requests that arrive more than once

A RADIUS client sends a request again when the answer is late, and the proxy takes every
copy for a new packet. What a copy of a fragment does to the reassembler is what
`assemble` does to the open message, so the data of a repeated fragment is appended
again, and a repeated last fragment is taken for a record of its own
(`duplicates_harmless_iff`).
-/

set_option autoImplicit false

namespace EapAccel.Downstream

open Foundations EapTls Mediator

variable {env : Env} {fuel : ℕ}

/-! ## One data packet of a session -/

/-- A data packet that raises, waits for more, or completes a record. -/
theorem handle_data_cases {client : UpstreamClient} {leg : Leg} {arrival : Incoming}
    {packet : EapTlsPacket} (reassembling : leg.session.mode = .reassemble)
    (parsed : parse arrival.2 = .ok packet) (data : packet.isAck = false) :
    ∃ reassembler,
      reassembler.opened =
        (assemble leg.session.upReasm.maxMessageLen packet leg.session.upReasm.opened).2 ∧
      match (assemble leg.session.upReasm.maxMessageLen packet leg.session.upReasm.opened).1 with
      | .raises => ∃ e, handle client fuel arrival leg =
          (.error e,
            { leg with session := { arrived leg.session packet with upReasm := reassembler } })
      | .waits => handle client fuel arrival leg =
          (.ok (ackOutcome (packet.identifier + 1)),
            { leg with session := acked (arrived leg.session packet) reassembler })
      | .completes record => handle client fuel arrival leg =
          forwardRecordUpstream client fuel arrival.1 record
            { leg with session := completed (arrived leg.session packet) reassembler record } := by
  obtain ⟨result, opened⟩ := Reassembler.ingest_assembles data leg.session.upReasm
  refine ⟨_, opened, ?_⟩
  rw [← result, handle, handle_data_eq reassembling parsed data]
  rcases fed : Reassembler.ingest packet leg.session.upReasm with ⟨e | _ | record, reassembler⟩
  · exact ⟨e, @handleData_raises client fuel ⟨arrived leg.session packet, leg.exchanges, leg.clock⟩
      _ packet reassembler e fed⟩
  · exact @handleData_more client fuel ⟨arrived leg.session packet, leg.exchanges, leg.clock⟩
      _ packet reassembler fed
  · exact @handleData_complete client fuel ⟨arrived leg.session packet, leg.exchanges, leg.clock⟩
      _ packet reassembler record fed

/-! ## One data packet of a server -/

/-- The key of a session that has this State. -/
def stateKey (state : Bytes) : String := "st:" ++ hex state

/-- The open message of the session that a request with this State finds. -/
def openedAt (env : Env) (state : Bytes) (σ : Server) : Option Bytes :=
  ((σ.opened env (stateKey state)).2.objects (σ.opened env (stateKey state)).1).upReasm.opened

/-- The State finds a session that knows it and has no result. -/
def Ongoing (state : Bytes) (σ : Server) : Prop :=
  ∃ ref, σ.table.lookup (stateKey state) = some ref ∧
    (σ.objects ref).downstreamState ≠ none ∧ (σ.objects ref).result = none

/-- A request that carries this packet under this State, and whose forwarded attributes decode. -/
structure Carries (state : Bytes) (packet : EapTlsPacket) (request : ApRequest) : Prop where
  state : request.state = some state
  parsed : parse request.eap = .ok packet
  legible : request.Legible

section Step

variable {state : Bytes} {packet : EapTlsPacket} {request : ApRequest} {σ : Server}
  (addr : String × ℕ)

theorem found_of_state (carries : Carries state packet request) :
    found env addr request σ = σ.opened env (stateKey state) := by
  rw [found, sessionKey, carries.state]
  rfl

theorem handled_eq_handle (carries : Carries state packet request) :
    handled env fuel addr request σ =
      handle env.client fuel (request.context, request.eap) (startOf env addr request σ) :=
  handled_of_parse carries.parsed (captured_of_legible carries.legible _)

theorem startOf_opened (carries : Carries state packet request) :
    (startOf env addr request σ).session.upReasm.opened = openedAt env state σ := by
  rw [openedAt, ← @found_of_state env state packet request σ addr carries]
  rfl

theorem startOf_limit (regular : σ.Regular env) (request : ApRequest) :
    (startOf env addr request σ).session.upReasm.maxMessageLen = env.cfg.maxMessageLen :=
  congrArg Session.Settings.upLimit (startOf_settings regular addr request)

/-- Without a session nothing is gathered. -/
theorem openedAt_eq (σ : Server) :
    openedAt env state σ =
      match σ.table.lookup (stateKey state) with
      | some ref => (σ.objects ref).upReasm.opened
      | none => none := by
  rw [openedAt]
  cases lookup : σ.table.lookup (stateKey state) with
  | some ref => rw [opened_of_lookup lookup]
  | none =>
      rw [opened_of_none lookup]
      simp only [Server.grow, Function.update_self]
      rfl

theorem openedAt_of_lookup {ref : ℕ} (lookup : σ.table.lookup (stateKey state) = some ref) :
    openedAt env state σ = (σ.objects ref).upReasm.opened := by
  rw [openedAt_eq, lookup]

@[simp] theorem openedAt_replied (sent : BuiltReply) :
    openedAt env state (replied sent σ) = openedAt env state σ := by
  rw [openedAt_eq, openedAt_eq]
  rfl

@[simp] theorem openedAt_woken (datagram : Datagram) :
    openedAt env state (σ.woken datagram) = openedAt env state σ := by
  rw [openedAt_eq, openedAt_eq]
  rfl

/-- A session keeps its message when it is found under the same key. -/
theorem openedAt_afterHandling (carries : Carries state packet request) :
    openedAt env state (afterHandling env fuel addr request σ) =
      (handled env fuel addr request σ).2.session.upReasm.opened := by
  have lookup : (afterHandling env fuel addr request σ).table.lookup (stateKey state) =
      some (found env addr request σ).1 := by
    rw [@found_of_state env state packet request σ addr carries]
    exact (congrArg (fun f => f.2.table.lookup (stateKey state))
      (@found_of_state env state packet request σ addr carries)).trans (opened_lookup σ _)
  rw [openedAt_of_lookup lookup, afterHandling, Server.put_objects_self]

/-- A session that is handled without a new result is still ongoing. -/
theorem ongoing_put {ref : ℕ} {leg : Leg} (lookup : σ.table.lookup (stateKey state) = some ref)
    (stated : leg.session.downstreamState ≠ none) (unfinished : leg.session.result = none) :
    Ongoing state (σ.put ref leg) := by
  refine ⟨ref, lookup, ?_, ?_⟩
  · rw [Server.put_objects_self]
    exact stated
  · rw [Server.put_objects_self]
    exact unfinished

/-- **A fragment that announces more goes to the open message, and nothing goes upstream.** -/
theorem more_step (regular : σ.Regular env) (reassembling : env.cfg.sessionMode = .reassemble)
    (ongoing : Ongoing state σ) (carries : Carries state packet request)
    (more : packet.moreFragments = true) :
    (handleRequest env fuel addr request σ).2.exchanges = σ.exchanges ∧
    Ongoing state (handleRequest env fuel addr request σ).2 ∧
    openedAt env state (handleRequest env fuel addr request σ).2 =
      (assemble env.cfg.maxMessageLen packet (openedAt env state σ)).2 := by
  obtain ⟨ref, lookup, stated, unfinished⟩ := ongoing
  have at_ref : found env addr request σ = (ref, σ) := by
    rw [@found_of_state env state packet request σ addr carries, opened_of_lookup lookup]
  obtain ⟨reassembler, opened, handles⟩ := @handle_data_cases fuel env.client
    (startOf env addr request σ) (request.context, request.eap) packet
    ((startOf_mode regular addr request).trans reassembling) carries.parsed
    (Reassembler.isAck_of_more more)
  rw [startOf_limit addr regular, startOf_opened addr carries] at opened handles
  rw [← @handled_eq_handle env fuel state packet request σ addr carries] at handles
  have after : afterHandling env fuel addr request σ =
      σ.put ref (handled env fuel addr request σ).2 := by rw [afterHandling, at_ref]
  have start : (startOf env addr request σ).session = notedSession request (σ.objects ref) := by
    rw [startOf, at_ref]
    rfl
  have exchanges := @startOf_exchanges env addr request σ
  have opens := @openedAt_afterHandling env fuel state packet request σ addr carries
  rcases @assemble_more_fst env.cfg.maxMessageLen packet (openedAt env state σ) more with
    raises | waits
  · rw [raises] at handles
    obtain ⟨e, handles⟩ := handles
    rw [handleRequest_of_error (by rw [handles]), opens]
    rw [after, handles] at *
    refine ⟨exchanges, ongoing_put lookup ?_ ?_, opened⟩
    · rw [start]
      exact stated
    · rw [start]
      exact unfinished
  · rw [waits] at handles
    have ongoing' : Ongoing state (afterHandling env fuel addr request σ) := by
      rw [after, handles]
      refine ongoing_put lookup ?_ ?_
      · rw [start]
        exact stated
      · rw [start]
        exact unfinished
    have still : (afterHandling env fuel addr request σ).objects ref =
        (handled env fuel addr request σ).2.session := by
      rw [after, Server.put_objects_self]
    rw [handleRequest_of_ok (by rw [handles]), at_ref, conclude_open]
    · refine ⟨?_, ongoing', ?_⟩
      · rw [after, handles]
        exact exchanges
      · rw [openedAt_replied, opens, handles]
        exact opened
    · rw [still, handles, start]
      exact stated
    · rw [still, handles, start]
      exact unfinished

/-- What the handling of the last fragment of a record leads to. -/
def LastStep (env : Env) (state : Bytes) (packet : EapTlsPacket) (σ σ' : Server) : Prop :=
  ∃ new, σ'.exchanges = σ.exchanges ++ new ∧
    openedAt env state σ' =
      (assemble env.cfg.maxMessageLen packet (openedAt env state σ)).2 ∧
    match (assemble env.cfg.maxMessageLen packet (openedAt env state σ)).1 with
    | .completes record =>
        (∀ r ∈ recordsIn env.cfg.maxMessageLen new, r = record) ∧
        (AcksChunks env.client → SentAsAsked env.client new → record.length < 2 ^ 32 →
          recordsIn env.cfg.maxMessageLen new = [record]) ∧
        (2 ^ 32 ≤ record.length → new = [])
    | _ => new = []

/-- Forwarding a record leaves nothing open for the State, whether the session stays in the
table or not. -/
theorem openedAt_forwarded (regular : σ.Regular env) (carries : Carries state packet request)
    (closed : (handled env fuel addr request σ).2.session.upReasm.opened = none) :
    openedAt env state (handleRequest env fuel addr request σ).2 = none := by
  have opens := @openedAt_afterHandling env fuel state packet request σ addr carries
  have key : ((afterHandling env fuel addr request σ).objects (found env addr request σ).1).key =
      stateKey state := by
    rw [afterHandling, Server.put_objects_self, handled_key,
      @found_of_state env state packet request σ addr carries]
    exact opened_key regular.tabled _
  have found : (afterHandling env fuel addr request σ).Found (found env addr request σ).1 :=
    put_found (opened_found regular.tabled _) (handled_key addr request σ)
  rcases result : (handled env fuel addr request σ).1 with e | outcome
  · rw [handleRequest_of_error result, opens]
    exact closed
  · rw [handleRequest_of_ok result, openedAt_eq]
    have points := @conclude_points env _ _ found request outcome
    rw [key] at points
    rcases points with absent | ⟨lookup, _⟩
    · rw [absent]
    · rw [lookup]
      have unnamed := @handleRequest_unnamed env fuel addr request σ
        (Downstream.found env addr request σ).1
      rw [handleRequest_of_ok result] at unnamed
      have same := congrArg Session.upReasm unnamed
      refine (congrArg Reassembler.opened same).trans ?_
      show ((afterHandling env fuel addr request σ).objects _).upReasm.opened = none
      rw [afterHandling, Server.put_objects_self]
      exact closed

/-- **A last fragment closes the open message, and forwards it.** -/
theorem last_step (valid : env.cfg.validate = .ok ()) (regular : σ.Regular env)
    (reassembling : env.cfg.sessionMode = .reassemble)
    (carries : Carries state packet request) (data : packet.isAck = false)
    (last : packet.moreFragments = false) :
    LastStep env state packet σ (handleRequest env fuel addr request σ).2 := by
  obtain ⟨reassembler, opened, handles⟩ := @handle_data_cases fuel env.client
    (startOf env addr request σ) (request.context, request.eap) packet
    ((startOf_mode regular addr request).trans reassembling) carries.parsed data
  rw [startOf_limit addr regular, startOf_opened addr carries] at opened handles
  rw [← @handled_eq_handle env fuel state packet request σ addr carries] at handles
  have exchanges := @startOf_exchanges env addr request σ
  rcases @assemble_last_fst env.cfg.maxMessageLen packet (openedAt env state σ) last with
    raises | ⟨record, completes⟩
  · rw [raises] at handles
    obtain ⟨e, handles⟩ := handles
    refine ⟨[], ?_, ?_, by rw [raises]⟩
    · rw [handleRequest_exchanges, handles, List.append_nil]
      exact exchanges
    · rw [handleRequest_of_error (by rw [handles]),
        @openedAt_afterHandling env fuel state packet request σ addr carries, handles]
      exact opened
  · obtain ⟨_, room, closes⟩ := assemble_completes completes
    rw [completes] at handles
    have size := (Config.accepted_of_validate valid).upstream
    have upSize : (startOf env addr request σ).session.upstreamFragmentSize =
        env.cfg.upstream.fragmentSize :=
      congrArg Session.Settings.upstreamFragmentSize (startOf_settings regular addr request)
    rw [← upSize] at size
    obtain ⟨new, grown, only, whole, overflow⟩ := @forward_records env.client fuel request.context
      record
      { startOf env addr request σ with
        session := completed (arrived (startOf env addr request σ).session packet) reassembler
          record } env.cfg.maxMessageLen size room
    refine ⟨new, ?_, ?_, ?_⟩
    · rw [handleRequest_exchanges, handles, ← exchanges]
      exact grown
    · rw [closes]
      refine openedAt_forwarded addr regular carries ?_
      rw [handles, forward_upReasm]
      exact opened.trans closes
    · have asked : AskedSince env.client (startOf env addr request σ)
          (handled env fuel addr request σ).2 := by
        rw [@handled_eq_handle env fuel state packet request σ addr carries]
        exact handleSupplicantEap_asked request.eap (startOf env addr request σ)
      rw [handles] at asked
      obtain ⟨made, grown', outcomes⟩ := asked
      obtain rfl : made = new := List.append_cancel_left (grown'.symm.trans grown)
      rw [completes]
      exact ⟨only, fun acks sent => whole (chunksAnswered_of_acks acks sent outcomes), overflow⟩

end Step

/-! ## One datagram -/

/-- The datagram holds a request that carries this packet under this State. -/
def BringsUnder (state : Bytes) (packet : EapTlsPacket) (datagram : Datagram) : Prop :=
  ∃ request, datagram.decoded = .ok request ∧ Admitted request ∧ Carries state packet request

/-- Whatever record the handling of a datagram forwards, it is `record`. -/
def ForwardsOnly (env : Env) (fuel : ℕ) (record : Bytes) (datagram : Datagram) (σ : Server) :
    Prop :=
  ∀ r ∈ recordsIn env.cfg.maxMessageLen
    ((handleDatagram env fuel datagram (σ.woken datagram)).2.exchanges.drop σ.exchanges.length),
    r = record

theorem handleDatagram_eq {datagram : Datagram} {request : ApRequest} (σ : Server)
    (decoded : datagram.decoded = .ok request) (admitted : Admitted request) :
    handleDatagram env fuel datagram σ = handleRequest env fuel datagram.addr request σ := by
  rw [handleDatagram, decoded, Act.bind_lift_ok, if_pos admitted]

theorem eq_of_serve {datagram : Datagram} {σ σ' : Server}
    (served : serve env fuel datagram σ = some σ') :
    σ' = (handleDatagram env fuel datagram (σ.woken datagram)).2 := by
  rw [serve] at served
  split at served
  · cases served
  · cases served
    rfl

section Run

variable {state : Bytes} {packet : EapTlsPacket}

/-- **Fragments that announce more go to the open message**, one copy like the other. -/
theorem more_run (reassembling : env.cfg.sessionMode = .reassemble) (record : Bytes)
    {packets : List EapTlsPacket} {datagrams : List Datagram}
    (brings : List.Forall₂ (BringsUnder state) packets datagrams) :
    ∀ {σ : Server}, (∀ packet ∈ packets, packet.moreFragments = true) → σ.Regular env →
      Ongoing state σ →
      Along (serve env fuel) (ForwardsOnly env fuel record) datagrams σ ∧
      ∀ σ', run env fuel datagrams σ = some σ' → σ'.Regular env ∧
        openedAt env state σ' =
          assembleAll env.cfg.maxMessageLen packets (openedAt env state σ) := by
  induction brings with
  | nil =>
      intro σ _ regular _
      refine ⟨trivial, fun σ' ran => ?_⟩
      cases ran
      exact ⟨regular, rfl⟩
  | @cons packet datagram packets datagrams brings _ ih =>
      intro σ more regular ongoing
      obtain ⟨request, decoded, admitted, carries⟩ := brings
      obtain ⟨quiet, ongoing', opened⟩ := @more_step env fuel state packet request
        (σ.woken datagram) datagram.addr (Regular.woken regular datagram) reassembling ongoing
        carries (more packet (by simp))
      rw [← handleDatagram_eq _ decoded admitted] at quiet ongoing' opened
      have rest : ∀ mid, serve env fuel datagram σ = some mid → _ := fun mid served =>
        @ih mid (fun p member => more p (by simp [member])) (Regular.serve regular served)
          (eq_of_serve served ▸ ongoing')
      refine ⟨⟨?_, fun mid served => (rest mid served).1⟩, fun σ' ran => ?_⟩
      · intro r member
        rw [quiet] at member
        simp [Server.woken, recordsIn_nil] at member
      · obtain ⟨mid, served, ran⟩ := Option.bind_eq_some_iff.mp ran
        obtain ⟨regular', gathered⟩ := (rest mid served).2 σ' ran
        refine ⟨regular', ?_⟩
        rw [gathered, eq_of_serve served, opened, openedAt_woken, assembleAll_cons]

/-- Of the messages that so many copies make, those that can be sent are the record. -/
def MakeOnly (limit : ℕ) (record : Bytes) (packet : EapTlsPacket) (copies : ℕ)
    (opened : Option Bytes) : Prop :=
  ∀ r ∈ messages limit (List.replicate copies packet) opened, r.length < 2 ^ 32 → r = record

theorem makeOnly_succ_of_raises {limit copies : ℕ} {record : Bytes} {opened : Option Bytes}
    (raises : (assemble limit packet opened).1 = .raises) :
    MakeOnly limit record packet (copies + 1) opened ↔
      MakeOnly limit record packet copies (assemble limit packet opened).2 := by
  rw [MakeOnly, List.replicate_succ, messages_cons_of_not (.inl raises)]
  rfl

theorem makeOnly_succ_of_completes {limit copies : ℕ} {record message : Bytes}
    {opened : Option Bytes} (completes : (assemble limit packet opened).1 = .completes message) :
    MakeOnly limit record packet (copies + 1) opened ↔
      (message.length < 2 ^ 32 → message = record) ∧
        MakeOnly limit record packet copies (assemble limit packet opened).2 := by
  rw [MakeOnly, List.replicate_succ, messages_cons_of_completes completes, List.forall_mem_cons]
  rfl

/-- **One copy of a last fragment** forwards what it completes, if it is sent at all. -/
theorem last_copy (valid : env.cfg.validate = .ok ())
    (reassembling : env.cfg.sessionMode = .reassemble) (record : Bytes)
    (data : packet.isAck = false) (last : packet.moreFragments = false) {datagram : Datagram}
    {σ : Server} (brings : BringsUnder state packet datagram) (regular : σ.Regular env) (copies : ℕ) :
    ∃ new, (handleDatagram env fuel datagram (σ.woken datagram)).2.exchanges =
        σ.exchanges ++ new ∧
      (MakeOnly env.cfg.maxMessageLen record packet (copies + 1) (openedAt env state σ) →
        ForwardsOnly env fuel record datagram σ ∧
        MakeOnly env.cfg.maxMessageLen record packet copies
          (openedAt env state (handleDatagram env fuel datagram (σ.woken datagram)).2)) ∧
      (AcksChunks env.client → SentAsAsked env.client new →
        ForwardsOnly env fuel record datagram σ →
        MakeOnly env.cfg.maxMessageLen record packet copies
          (openedAt env state (handleDatagram env fuel datagram (σ.woken datagram)).2) →
        MakeOnly env.cfg.maxMessageLen record packet (copies + 1) (openedAt env state σ)) := by
  obtain ⟨request, decoded, admitted, carries⟩ := brings
  obtain ⟨new, grown, opened, made⟩ := @last_step env fuel state packet request
    (σ.woken datagram) datagram.addr valid (Regular.woken regular datagram) reassembling
    carries data last
  rw [← handleDatagram_eq _ decoded admitted] at grown opened
  rw [openedAt_woken] at opened made
  have now : ForwardsOnly env fuel record datagram σ ↔
      ∀ r ∈ recordsIn env.cfg.maxMessageLen new, r = record := by
    have drop : (handleDatagram env fuel datagram (σ.woken datagram)).2.exchanges.drop
        σ.exchanges.length = new := by
      rw [grown]
      exact List.drop_left
    rw [ForwardsOnly, drop]
  refine ⟨new, grown, ?_⟩
  rw [opened]
  rcases @assemble_last_fst env.cfg.maxMessageLen packet (openedAt env state σ) last with
    raises | ⟨message, completes⟩
  · rw [makeOnly_succ_of_raises raises]
    rw [raises] at made
    refine ⟨fun only => ⟨now.mpr ?_, only⟩, fun _ _ _ only => only⟩
    rw [made, recordsIn_nil]
    simp
  · rw [makeOnly_succ_of_completes completes]
    rw [completes] at made
    obtain ⟨only, whole, overflow⟩ := made
    constructor
    · rintro ⟨right, rest⟩
      refine ⟨now.mpr fun r member => ?_, rest⟩
      by_cases small : message.length < 2 ^ 32
      · exact (only r member).trans (right small)
      · rw [overflow (not_lt.mp small), recordsIn_nil] at member
        cases member
    · intro acks sent forwards rest
      refine ⟨fun small => now.mp forwards message ?_, rest⟩
      rw [whole acks sent small]
      exact List.mem_singleton.mpr rfl

/-- **Copies of a last fragment forward what they complete.** -/
theorem last_run (valid : env.cfg.validate = .ok ())
    (reassembling : env.cfg.sessionMode = .reassemble) (record : Bytes)
    (data : packet.isAck = false) (last : packet.moreFragments = false) :
    ∀ {datagrams : List Datagram} {σ : Server}, (∀ d ∈ datagrams, BringsUnder state packet d) →
      σ.Regular env →
      (MakeOnly env.cfg.maxMessageLen record packet datagrams.length (openedAt env state σ) →
          Along (serve env fuel) (ForwardsOnly env fuel record) datagrams σ) ∧
      (AcksChunks env.client → ∀ σ', run env fuel datagrams σ = some σ' →
        AllSent env.client σ.exchanges σ'.exchanges →
        Along (serve env fuel) (ForwardsOnly env fuel record) datagrams σ →
        MakeOnly env.cfg.maxMessageLen record packet datagrams.length (openedAt env state σ)) := by
  intro datagrams
  induction datagrams with
  | nil =>
      intro σ _ _
      refine ⟨fun _ => trivial, fun _ σ' _ _ _ r member => ?_⟩
      cases member
  | cons datagram datagrams ih =>
      intro σ brings regular
      obtain ⟨new, grown, forwards, completes⟩ := last_copy valid reassembling record data last
        (brings datagram List.mem_cons_self) regular datagrams.length
      have rest : ∀ mid, serve env fuel datagram σ = some mid → _ := fun mid served =>
        @ih mid (fun d member => brings d (List.mem_cons_of_mem _ member))
          (Regular.serve regular served)
      constructor
      · intro only
        obtain ⟨now, later⟩ := forwards only
        refine ⟨now, fun mid served => (rest mid served).1 ?_⟩
        rw [eq_of_serve served]
        exact later
      · intro acks σ' ran sent along
        obtain ⟨mid, served, ran⟩ := Option.bind_eq_some_iff.mp ran
        rw [← eq_of_serve served] at grown completes
        obtain ⟨sentNow, sentLater⟩ := sent.split (grown ▸ run_grows ran)
        rw [← grown] at sentLater
        exact completes acks sentNow along.1
          ((rest mid served).2 acks σ' ran sentLater (along.2 mid served))

end Run

/-! ## A record whose fragments arrive more than once -/

/-- A fragment, the request that carries it under a State, and the datagrams in which the
request arrives. -/
structure Delivery (state : Bytes) where
  packet : EapTlsPacket
  request : ApRequest
  datagrams : List Datagram
  carries : Carries state packet request
  admitted : Admitted request
  copies : ∀ datagram ∈ datagrams, datagram.decoded = .ok request
  arrives : 1 ≤ datagrams.length

/-- The fragment, and how often it arrives. -/
def Delivery.times {state : Bytes} (delivery : Delivery state) : EapTlsPacket × ℕ :=
  (delivery.packet, delivery.datagrams.length)

theorem Delivery.brings {state : Bytes} (delivery : Delivery state) :
    ∀ datagram ∈ delivery.datagrams, BringsUnder state delivery.packet datagram :=
  fun datagram member =>
    ⟨delivery.request, delivery.copies datagram member, delivery.admitted, delivery.carries⟩

/-- The copies of the fragments, datagram by datagram. -/
theorem brings_repeated {state : Bytes} (deliveries : List (Delivery state)) :
    List.Forall₂ (BringsUnder state) (repeated (deliveries.map Delivery.times))
      (deliveries.flatMap (·.datagrams)) := by
  induction deliveries with
  | nil => exact .nil
  | cons delivery deliveries ih =>
      rw [List.map_cons, repeated_cons, List.flatMap_cons]
      refine List.rel_append ?_ ih
      have each := delivery.brings
      show List.Forall₂ _ (List.replicate delivery.datagrams.length delivery.packet) _
      generalize delivery.datagrams = datagrams at each
      induction datagrams with
      | nil => exact .nil
      | cons datagram datagrams ih =>
          rw [List.length_cons, List.replicate_succ]
          exact .cons (each datagram (by simp)) (ih fun d member => each d (by simp [member]))

/-- **Repeated requests leave the record as it is if the copies do no harm**, and, when the
server acknowledges the chunks and pyrad sends them as they are, only then. -/
theorem duplicates_harmless_iff {env : Env} {fuel : ℕ} (valid : env.cfg.validate = .ok ())
    (mode : env.cfg.mode = "reassemble") {past : List Datagram} {σ : Server}
    (reached : run env fuel past (initial env) = some σ) {state : Bytes} {ref : ℕ}
    (lookup : σ.table.lookup (stateKey state) = some ref)
    (stated : (σ.objects ref).downstreamState = some state)
    (unfinished : (σ.objects ref).result = none)
    (rest : (σ.objects ref).upReasm.state = .idle ∨ (σ.objects ref).upReasm.state = .complete)
    {record : Bytes} {firsts : List (Delivery state)} {final : Delivery state}
    (division : Division record (firsts.map (·.packet)) final.packet) :
    (Harmless env.cfg.maxMessageLen record (firsts.map Delivery.times) final.times →
      Along (serve env fuel) (ForwardsOnly env fuel record)
        (firsts.flatMap (·.datagrams) ++ final.datagrams) σ) ∧
    (AcksChunks env.client → ∀ σ',
      run env fuel (firsts.flatMap (·.datagrams) ++ final.datagrams) σ = some σ' →
      AllSent env.client σ.exchanges σ'.exchanges →
      Along (serve env fuel) (ForwardsOnly env fuel record)
        (firsts.flatMap (·.datagrams) ++ final.datagrams) σ →
      Harmless env.cfg.maxMessageLen record (firsts.map Delivery.times) final.times) := by
  have reassembling : env.cfg.sessionMode = .reassemble := by
    rw [Config.sessionMode, if_neg (by rw [mode]; decide)]
  have ongoing : Ongoing state σ := ⟨ref, lookup, by rw [stated]; simp, unfinished⟩
  have closed : openedAt env state σ = none := by
    rw [openedAt_of_lookup lookup]
    refine Reassembler.opened_of_rest ?_
    rcases rest with idle | complete
    · rw [idle]; decide
    · rw [complete]; decide
  have fragments : (firsts.map Delivery.times).map (·.1) = firsts.map (·.packet) := by
    rw [List.map_map]
    rfl
  have division' : Division record ((firsts.map Delivery.times).map (·.1)) final.times.1 := by
    rw [fragments]
    exact division
  have more : ∀ packet ∈ repeated (firsts.map Delivery.times), packet.moreFragments = true :=
    fun packet member => division'.more packet (mem_repeated member)
  obtain ⟨quiet, gathers⟩ := @more_run env fuel state reassembling record _ _
    (brings_repeated firsts) σ more (regular_of_run reached) ongoing
  have arrive : ∀ copy ∈ firsts.map Delivery.times, 1 ≤ copy.2 := by
    intro copy member
    obtain ⟨delivery, _, rfl⟩ := List.mem_map.mp member
    exact delivery.arrives
  have harmless := @harmless_iff env.cfg.maxMessageLen record _ _ division' arrive final.arrives
  rw [messages_more_append more] at harmless
  have finals : ∀ mid, run env fuel (firsts.flatMap (·.datagrams)) σ = some mid → _ :=
    fun mid ran => @last_run env fuel state final.packet valid reassembling record division.data
      division.final final.datagrams mid final.brings (gathers mid ran).1
  have opened : ∀ mid, run env fuel (firsts.flatMap (·.datagrams)) σ = some mid →
      openedAt env state mid = assembleAll env.cfg.maxMessageLen
        (repeated (firsts.map Delivery.times)) none := by
    intro mid ran
    rw [(gathers mid ran).2, closed]
  constructor
  · intro harm
    refine along_append.mpr ⟨quiet, fun mid ran => (finals mid ran).1 ?_⟩
    rw [opened mid ran]
    exact harmless.mpr harm
  · intro acks last ran sent along
    rw [run, runAll_append] at ran
    obtain ⟨mid, ran, ran'⟩ := Option.bind_eq_some_iff.mp ran
    obtain ⟨new, grown⟩ := run_grows ran
    have sent' := (@AllSent.split _ _ new _ sent (grown.symm ▸ run_grows ran')).2
    rw [grown] at sent'
    refine harmless.mp ?_
    have right := (finals mid ran).2 acks last ran' sent' ((along_append.mp along).2 mid ran)
    rw [opened mid ran] at right
    exact right

/-! ## Instances -/

/-- An EAP-TLS Response of the supplicant without a length field, under the State that the
first session gets from `answering`. -/
def bareRequest (identifier : UInt8) (tlsData : Bytes) (moreFragments : Bool) : ApRequest :=
  requestWith (some [0]) (layout (bareFragment codeResponse identifier tlsData moreFragments))

/-- Such a fragment, arriving a number of times. -/
def bareDelivery (identifier : UInt8) (tlsData : Bytes) (moreFragments : Bool)
    (short : tlsData.length ≤ 65000) (n : ℕ) : Delivery [0] where
  packet := bareFragment codeResponse identifier tlsData moreFragments
  request := bareRequest identifier tlsData moreFragments
  datagrams := List.replicate (n + 1) (datagramOf (bareRequest identifier tlsData moreFragments))
  carries := ⟨rfl, by
    rw [ApRequest.eap, bareRequest, requestWith, List.flatten_singleton]
    exact parse_bareFragment short, rfl⟩
  admitted := ⟨rfl, by simp [bareRequest, requestWith], rfl⟩
  copies := fun datagram member => by
    rw [List.eq_of_mem_replicate member]
    rfl
  arrives := by simp

/-- An empty fragment in the middle may arrive three times. -/
theorem duplicates_harmless_sample :
    ∃ σ, run (answering "reassemble" emptyChallenge) 0 [identityDatagram]
        (initial (answering "reassemble" emptyChallenge)) = some σ ∧
      Along (serve (answering "reassemble" emptyChallenge) 0)
        (ForwardsOnly (answering "reassemble" emptyChallenge) 0 [1, 2])
        ([bareDelivery 8 [1] true (by decide) 0, bareDelivery 9 [] true (by decide) 2].flatMap
          (·.datagrams) ++ (bareDelivery 10 [2] false (by decide) 0).datagrams) σ := by
  refine ⟨_, rfl, ?_⟩
  have division : Division [1, 2]
      ([bareDelivery 8 [1] true (by decide) 0, bareDelivery 9 [] true (by decide) 2].map
        (·.packet)) (bareDelivery 10 [2] false (by decide) 0).packet :=
    ⟨rfl, by decide, rfl, rfl, by decide⟩
  refine (@duplicates_harmless_iff (answering "reassemble" emptyChallenge) 0 (by decide) rfl
    [identityDatagram] _ rfl [0] 0 rfl rfl rfl (.inl rfl) [1, 2] _ _ division).1 ?_
  rw [Harmless, if_pos (by decide)]
  exact fun _ => ⟨fun _ => by decide, by decide⟩

/-- A first fragment that arrives twice is in the record twice. -/
theorem fragment_appended_twice :
    (answering "reassemble" emptyChallenge).cfg.validate = .ok () ∧
    ∃ σ σ', run (answering "reassemble" emptyChallenge) 0 [identityDatagram]
        (initial (answering "reassemble" emptyChallenge)) = some σ ∧
      run (answering "reassemble" emptyChallenge) 0
        [datagramOf (bareRequest 8 [1] true), datagramOf (bareRequest 8 [1] true),
          datagramOf (bareRequest 9 [2] false)] σ = some σ' ∧
      recordsIn 262144 (σ'.exchanges.drop σ.exchanges.length) = [[1, 1, 2]] ∧
      ¬ Along (serve (answering "reassemble" emptyChallenge) 0)
        (ForwardsOnly (answering "reassemble" emptyChallenge) 0 [1, 2])
        [datagramOf (bareRequest 8 [1] true), datagramOf (bareRequest 8 [1] true),
          datagramOf (bareRequest 9 [2] false)] σ := by
  refine ⟨by decide, _, _, rfl, rfl, rfl, fun along => ?_⟩
  have forwards := ((along.2 _ rfl).2 _ rfl).1 [1, 1, 2] (List.mem_singleton.mpr rfl)
  cases forwards

end EapAccel.Downstream
