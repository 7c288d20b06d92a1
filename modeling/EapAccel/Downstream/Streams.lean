import EapAccel.Downstream.Accounts
import EapAccel.EapTls.Traces
import EapAccel.Mediator.Uplink

/-!
# What the server was sent

In reassemble mode a session cuts the records of its supplicant anew. Whatever fails on the way,
the octets that went to the server in the course of a session are the first ones of each record
that its supplicant completed, one record after the other (`Conveyed.early`). Where every request
was answered they are the records, in cuts that a reassembler with the same limit makes the same
records of (`Conveyed.whole`). This holds of every session in every run (`records_conveyed`).
-/

set_option autoImplicit false

namespace EapAccel

open Foundations EapTls

namespace Downstream

open Mediator

variable {env : Env} {fuel : ℕ}

/-- The records that a reassembler makes of packets. -/
def recordsFrom (limit : ℕ) (packets : List EapTlsPacket) : List Bytes :=
  recordsOf (Act.collect Reassembler.ingest packets { maxMessageLen := limit }).1

/-! ## One packet -/

/-- The reassembler of the packets. -/
def reassemblerOf (limit : ℕ) (packets : List EapTlsPacket) : Reassembler :=
  (Act.collect Reassembler.ingest packets { maxMessageLen := limit }).2

theorem reassemblerOf_maxMessageLen (limit : ℕ) (packets : List EapTlsPacket) :
    (reassemblerOf limit packets).maxMessageLen = limit :=
  (Reassembler.opened_collect packets _).1

theorem recordsFrom_concat (limit : ℕ) (packets : List EapTlsPacket) (packet : EapTlsPacket) :
    recordsFrom limit (packets ++ [packet]) = recordsFrom limit packets ++
      (recordOf (Reassembler.ingest packet (reassemblerOf limit packets)).1).toList := by
  rw [recordsFrom, Act.collect_concat, recordsOf_append]
  apply congrArg (recordsFrom limit packets ++ ·)
  rw [reassemblerOf]
  rcases (Reassembler.ingest packet _).1 with e | _ | tlsRecord
  · rfl
  · rfl
  · rfl

theorem reassemblerOf_concat (limit : ℕ) (packets : List EapTlsPacket) (packet : EapTlsPacket) :
    reassemblerOf limit (packets ++ [packet]) =
      (Reassembler.ingest packet (reassemblerOf limit packets)).2 := by
  rw [reassemblerOf, Act.collect_concat]
  rfl

/-- ACKs make no record. -/
theorem recordsFrom_acks {limit : ℕ} {packets acks : List EapTlsPacket}
    (none : ∀ packet ∈ acks, packet.isAck = true) :
    recordsFrom limit (packets ++ acks) = recordsFrom limit packets ∧
      reassemblerOf limit (packets ++ acks) = reassemblerOf limit packets := by
  have whole := Act.collect_append (rfl : Act.collect Reassembler.ingest packets
    { maxMessageLen := limit } = (_, _)) (collect_acks none _)
  constructor
  · rw [recordsFrom, whole, recordsOf_append, recordsOf_replicate, List.append_nil]
    rfl
  · rw [reassemblerOf, whole]
    rfl

/-- **A cut makes its record**, after packets that left nothing open. -/
theorem recordsFrom_cut {limit size : ℕ} {packets cut : List EapTlsPacket} {tlsRecord : Bytes}
    (cuts : CutOf tlsRecord size cut) (room : tlsRecord.length ≤ limit)
    (closed : (reassemblerOf limit packets).pending = []) :
    recordsFrom limit (packets ++ cut) = recordsFrom limit packets ++ [tlsRecord] ∧
      (reassemblerOf limit (packets ++ cut)).pending = [] := by
  obtain ⟨init, last, rfl, division⟩ := cuts.division
  have made := collect_division division closed
    (room.trans_eq (reassemblerOf_maxMessageLen limit packets).symm)
  have whole := Act.collect_append (rfl : Act.collect Reassembler.ingest packets
    { maxMessageLen := limit } = (_, _)) made
  constructor
  · rw [recordsFrom, whole, recordsOf_append, recordsOf_append, recordsOf_replicate]
    rfl
  · rw [reassemblerOf, whole]
    exact Reassembler.pending_close _ _

/-- The server could make the records again, and has nothing of a further one. -/
def Remade (limit : ℕ) (packets : List EapTlsPacket) (exchanges : List Exchange) : Prop :=
  recordsFrom limit (uplink exchanges) = recordsFrom limit packets ∧
    (reassemblerOf limit (uplink exchanges)).pending = []

/-- A packet that completes no record leaves the server with those it had. -/
theorem Remade.concat_none {limit : ℕ} {packets : List EapTlsPacket} {packet : EapTlsPacket}
    {exchanges new : List Exchange} (remade : Remade limit packets exchanges)
    (completes : recordOf (Reassembler.ingest packet (reassemblerOf limit packets)).1 = none)
    (acks : ∀ packet ∈ uplink new, packet.isAck = true) :
    Remade limit (packets ++ [packet]) (exchanges ++ new) := by
  obtain ⟨same, closed⟩ := remade
  obtain ⟨records, reassembler⟩ := @recordsFrom_acks limit (uplink exchanges) _ acks
  rw [Remade, uplink_append, records, reassembler, recordsFrom_concat, completes]
  exact ⟨same.trans (List.append_nil _).symm, closed⟩

/-- A packet that completes a record has the server make it. -/
theorem Remade.concat_some {limit size : ℕ} {packets : List EapTlsPacket} {packet : EapTlsPacket}
    {exchanges new : List Exchange} {tlsRecord : Bytes} (remade : Remade limit packets exchanges)
    (completes : (Reassembler.ingest packet (reassemblerOf limit packets)).1 = .ok (some tlsRecord))
    {cut pulls : List EapTlsPacket} (sent : uplink new = cut ++ pulls)
    (cuts : CutOf tlsRecord size cut) (acks : ∀ packet ∈ pulls, packet.isAck = true) :
    Remade limit (packets ++ [packet]) (exchanges ++ new) := by
  obtain ⟨same, closed⟩ := remade
  have room := (Reassembler.record_of_ingest completes).2.2.2
  rw [reassemblerOf_maxMessageLen] at room
  obtain ⟨records, shut⟩ := recordsFrom_cut cuts room closed
  obtain ⟨records', reassembler⟩ := @recordsFrom_acks limit (uplink exchanges ++ cut) _ acks
  rw [Remade, uplink_append, sent, ← List.append_assoc, records', reassembler, records,
    recordsFrom_concat, completes, same]
  exact ⟨rfl, shut⟩

/-- A session that these packets came for has made these exchanges. -/
structure Conveyed (limit : ℕ) (packets : List EapTlsPacket) (exchanges : List Exchange) : Prop where
  /-- Octets went upstream from the front of each record, and nothing between them. -/
  early : ∃ sent, List.Forall₂ (· <+: ·) sent (recordsFrom limit packets) ∧
    joined (uplink exchanges) = sent.flatten
  /-- If every request was answered, and each length fits its field, the records went upstream. -/
  whole : (∀ exchange ∈ exchanges, exchange.Answered) →
    (∀ tlsRecord ∈ recordsFrom limit packets, tlsRecord.length < 2 ^ 32) →
      Remade limit packets exchanges

theorem conveyed_nil (limit : ℕ) : Conveyed limit [] [] :=
  ⟨⟨[], .nil, rfl⟩, fun _ _ => ⟨rfl, rfl⟩⟩

/-- **A packet goes on with the stream.** -/
theorem Conveyed.concat {limit size : ℕ} {packets : List EapTlsPacket} {packet : EapTlsPacket}
    {exchanges new : List Exchange} (conveyed : Conveyed limit packets exchanges)
    (sends : Uplinks size (recordOf (Reassembler.ingest packet (reassemblerOf limit packets)).1) new) :
    Conveyed limit (packets ++ [packet]) (exchanges ++ new) := by
  obtain ⟨⟨sent, early, same⟩, whole⟩ := conveyed
  have before : (∀ exchange ∈ exchanges ++ new, exchange.Answered) →
      (∀ tlsRecord ∈ recordsFrom limit (packets ++ [packet]), tlsRecord.length < 2 ^ 32) →
        Remade limit packets exchanges := by
    intro answered small
    rw [recordsFrom_concat] at small
    exact whole (fun exchange member => answered exchange (List.mem_append_left _ member))
      fun tlsRecord member => small tlsRecord (List.mem_append_left _ member)
  rcases completes : recordOf (Reassembler.ingest packet (reassemblerOf limit packets)).1 with
    _ | tlsRecord
  · have acks := sends.acks completes
    constructor
    · refine ⟨sent, ?_, ?_⟩
      · rw [recordsFrom_concat, completes]
        exact (List.append_nil (recordsFrom limit packets)).symm ▸ early
      · rw [uplink_append, joined_append, joined_acks acks, List.append_nil, same]
    · exact fun answered small => (before answered small).concat_none completes acks
  · constructor
    · refine ⟨sent ++ [joined (uplink new)], ?_, ?_⟩
      · rw [recordsFrom_concat, completes]
        exact List.rel_append early (.cons (sends.early _ completes) .nil)
      · rw [uplink_append, joined_append, same, List.flatten_append, List.flatten_singleton]
    · intro answered small
      have fits : tlsRecord.length < 2 ^ 32 := by
        apply small
        rw [recordsFrom_concat, completes]
        exact List.mem_append_right _ (List.mem_singleton_self _)
      obtain ⟨cut, pulls, sent, cuts, acks⟩ := sends.whole _ completes
        (fun exchange member => answered exchange (List.mem_append_right _ member)) fits
      exact (before answered small).concat_some (completed_of_recordOf completes) sent cuts acks

/-- What another request brought is not in the stream. -/
theorem Conveyed.quiet {limit : ℕ} {packets : List EapTlsPacket} {exchanges new : List Exchange}
    (conveyed : Conveyed limit packets exchanges) (quiet : uplink new = []) :
    Conveyed limit packets (exchanges ++ new) := by
  have same : uplink (exchanges ++ new) = uplink exchanges := by
    rw [uplink_append, quiet, List.append_nil]
  constructor
  · rw [same]
    exact conveyed.early
  · intro answered small
    rw [Remade, same]
    exact conveyed.whole
      (fun exchange member => answered exchange (List.mem_append_left _ member)) small

/-! ## Every run -/

/-- What a request that is no EAP-TLS packet makes the server be sent is no part of the stream. -/
theorem route_unparsed_quiet {context : AuthContext} {eapBytes : Bytes} {e : Raised}
    (other : parse eapBytes = .error e) (start : Leg) :
    Act.Invariant (fun leg => leg.session.upReasm = start.session.upReasm ∧
      ∃ new, leg.exchanges = start.exchanges ++ new ∧ uplink new = [])
      (route env fuel context eapBytes) := by
  rw [route]
  apply Act.Invariant.ite
  · apply Act.Invariant.of_ended
    intro leg kept
    rw [handle_unparsed other]
    exact kept
  · apply passthroughNonTls_keeps
    · exact fun _ _ kept => kept
    · apply Act.Invariant.of_ended
      rintro leg ⟨same, new, grown, quiet⟩
      have reassembler := congrArg (fun s : Session => s.upReasm)
        (@exchange_supplicantSide env.client eapBytes context leg)
      refine ⟨reassembler.trans same, new ++ [leg.exchanged env.client eapBytes context], ?_, ?_⟩
      · rw [exchange_exchanges, grown, List.append_assoc]
      · rw [uplink_append, quiet, uplink, List.nil_append, List.filterMap_cons, Leg.eap_exchanged,
          other]
        rfl

theorem ownExchanges_append {exchanges new : List Exchange} {ident : ℕ}
    (own : ∀ exchange ∈ new, exchange.session = ident) :
    ownExchanges (exchanges ++ new) ident = ownExchanges exchanges ident ++ new := by
  rw [ownExchanges, List.filter_append]
  apply congrArg
  exact List.filter_eq_self.mpr fun exchange member => decide_eq_true (own exchange member)

/-- The handling of a packet goes on with the stream of its session. -/
theorem route_conveyed {limit : ℕ} {packets : List EapTlsPacket} {request : ApRequest} {leg : Leg}
    (reassembling : leg.session.mode = .reassemble)
    (size : 1 ≤ leg.session.upstreamFragmentSize ∧ leg.session.upstreamFragmentSize ≤ 65000)
    (fed : leg.session.upReasm = reassemblerOf limit packets)
    (conveyed : Conveyed limit packets (ownExchanges leg.exchanges leg.session.ident)) :
    let after := (route env fuel request.context request.eap leg).2
    after.session.upReasm = reassemblerOf limit (packets ++ (parse request.eap).toOption.toList) ∧
      Conveyed limit (packets ++ (parse request.eap).toOption.toList)
        (ownExchanges after.exchanges after.session.ident) := by
  intro after
  obtain ⟨new, trail⟩ :=
    (@route_handled env fuel request.context request.eap leg).justified.trail
  have own : ownExchanges after.exchanges after.session.ident =
      ownExchanges leg.exchanges leg.session.ident ++ new := by
    rw [trail.ident, trail.exchanges]
    exact ownExchanges_append trail.own
  rw [own]
  rcases parsed : parse request.eap with e | packet
  · obtain ⟨kept, new', grown, quiet⟩ := (@route_unparsed_quiet env fuel request.context _ _ parsed
      leg).ended ⟨rfl, [], (List.append_nil _).symm, rfl⟩
    obtain rfl := List.append_cancel_left (trail.exchanges.symm.trans grown)
    have nothing : packets ++ (Except.error e : Except Raised EapTlsPacket).toOption.toList =
        packets := List.append_nil _
    rw [nothing]
    exact ⟨kept.trans fed, conveyed.quiet quiet⟩
  · have handles : after = (handleSupplicantEap env.client fuel request.context request.eap leg).2 :=
      congrArg (fun act => (act leg).2) (route_of_parse parsed)
    obtain ⟨new', grown, sends⟩ :=
      @handle_uplinksSince env.client fuel request.context request.eap packet leg reassembling
        parsed size
    have intake := congrArg Intake.reassembler
      (@handle_intake env.client fuel request.context request.eap packet leg reassembling parsed)
    rw [← handles] at grown intake
    obtain rfl := List.append_cancel_left (trail.exchanges.symm.trans grown)
    rw [fed] at sends
    refine ⟨?_, conveyed.concat sends⟩
    have taken : after.session.upReasm = (Reassembler.ingest packet leg.session.upReasm).2 := intake
    rw [taken, fed]
    exact (reassemblerOf_concat limit packets packet).symm

/-- **What went upstream of every session in every run.** -/
theorem conveyed_rule (reassembling : env.cfg.sessionMode = .reassemble)
    (valid : env.cfg.validate = .ok ()) (fuel : ℕ) :
    BookRule env fuel fun packets _ exchanges session =>
      session.upReasm = reassemblerOf env.cfg.maxMessageLen packets ∧
        Conveyed env.cfg.maxMessageLen packets (ownExchanges exchanges session.ident) where
  created := by
    intro exchanges ref key now others
    have none : ownExchanges exchanges (Session.create ref key env.cfg now).ident = [] :=
      ownExchanges_eq_nil others
    rw [none]
    exact ⟨rfl, conveyed_nil _⟩
  others := by
    intro packets onward exchanges new session others
    rw [ownExchanges_append_others others]
    exact id
  renamed := by
    intro packets onward exchanges session session' unnamed
    have ident : session'.ident = session.ident := congrArg (fun s => s.ident) unnamed
    have reassembler : session'.upReasm = session.upReasm := congrArg (fun s => s.upReasm) unnamed
    rw [ident, reassembler]
    exact id
  noted := fun _ _ _ _ _ => id
  handled := by
    rintro packets onward request leg settled ⟨fed, conveyed⟩ leg rfl
    have mode : leg.session.mode = env.cfg.sessionMode := congrArg Session.Settings.mode settled
    have size : leg.session.upstreamFragmentSize = env.cfg.upstream.fragmentSize :=
      congrArg Session.Settings.upstreamFragmentSize settled
    have after := @route_conveyed env fuel _ _ request leg (mode.trans reassembling)
      (size ▸ (Config.accepted_of_validate valid).upstream) fed conveyed
    rcases routed : route env fuel request.context request.eap leg with ⟨e | outcome, leg'⟩
    · rw [routed] at after
      exact after
    · rw [routed] at after
      exact after

/-- Toward a server that accepts, records are cut to two octets. -/
def cuttingToTwo : Env := { answering "reassemble" acceptReply with cfg := twoOctetChunks }

end Downstream
end EapAccel
