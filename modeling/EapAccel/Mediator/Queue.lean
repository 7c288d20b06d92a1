import EapAccel.Mediator.Frames

/-!
# The queue toward the supplicant

A record of the server is cut into chunks, the first of which is sent at once. What waits in
`downOutbox` for the supplicant's ACKs are later chunks of one record, each short enough
for a packet (`Session.Queued`). So releasing one never fails. Handling a packet of the
supplicant preserves this (`queued_steps`), whatever the packet does to the queue.
-/

set_option autoImplicit false

namespace EapAccel

open Foundations EapTls

/-- What waits in the queue are later chunks of a record, and fit into packets. -/
structure Session.Queued (session : Session) : Prop where
  size : session.downstreamFragmentSize ≤ 65000
  fits : ∀ entry ∈ session.downOutbox, entry.1 ≠ 0 ∧ entry.2.length ≤ 65000

/-- The part of a session that the queue invariant is about. -/
def Session.queueView (session : Session) : ℕ × List (ℕ × Bytes) :=
  (session.downstreamFragmentSize, session.downOutbox)

theorem Session.Queued.of_view {session session' : Session}
    (same : session'.queueView = session.queueView) (queued : session.Queued) :
    session'.Queued := by
  have size : session'.downstreamFragmentSize = session.downstreamFragmentSize :=
    congrArg Prod.fst same
  have outbox : session'.downOutbox = session.downOutbox := congrArg Prod.snd same
  exact ⟨size ▸ queued.size, outbox ▸ queued.fits⟩

theorem Session.mem_queued {pieces : List Bytes} {entry : ℕ × Bytes} : ∀ {idx : ℕ},
    entry ∈ Session.queued idx pieces → idx ≤ entry.1 ∧ entry.2 ∈ pieces := by
  induction pieces with
  | nil =>
      intro idx member
      cases member
  | cons chunk pieces ih =>
      intro idx member
      rw [Session.queued_cons] at member
      rcases List.mem_cons.mp member with rfl | later
      · exact ⟨le_rfl, List.mem_cons_self⟩
      · obtain ⟨bound, there⟩ := ih later
        exact ⟨by omega, List.mem_cons_of_mem _ there⟩

namespace Mediator

variable {client : UpstreamClient}

/-- Releasing takes one entry from the queue, also when the packet cannot be built. -/
theorem sendNext_outbox (ackedId : Option UInt8) (leg : Leg) :
    (sendNextDownstreamFragment ackedId leg).2.session.queueView =
      (leg.session.downstreamFragmentSize, leg.session.downOutbox.tail) := by
  simp only [sendNextDownstreamFragment, Act.read_bind]
  rcases queue : leg.session.downOutbox with _ | ⟨⟨idx, chunk⟩, rest⟩
  · simp only [Act.pure_apply, Session.queueView, queue, List.tail_nil]
  · simp only [updateSession, Act.modify_bind]
    cases build codeRequest leg.session.nextDownId chunk (idx < leg.session.downNchunks - 1)
        (if idx = 0 then some leg.session.downTotal else none) false with
    | error e => rfl
    | ok eapFrag => rfl

theorem release_queued (ackedId : Option UInt8) :
    Act.Invariant (fun leg => leg.session.Queued) (sendNextDownstreamFragment ackedId) := by
  refine Act.Invariant.of_ended fun leg queued => ?_
  have view := sendNext_outbox ackedId leg
  refine ⟨(congrArg Prod.fst view).trans_le queued.size, fun entry member => ?_⟩
  have outbox : (sendNextDownstreamFragment ackedId leg).2.session.downOutbox =
      leg.session.downOutbox.tail := congrArg Prod.snd view
  rw [outbox] at member
  exact queued.fits entry (List.mem_of_mem_tail member)

/-- Queueing a record leaves its later chunks in the queue. -/
theorem begin_queued (tlsRecord : Bytes) :
    Act.Invariant (fun leg => leg.session.Queued) (beginDownstreamFragmentation tlsRecord) := by
  refine Act.Invariant.of_ended fun leg queued => ?_
  rcases cut : fragment tlsRecord leg.session.downstreamFragmentSize with e | pieces
  · have raises : beginDownstreamFragmentation tlsRecord leg = (.error e, leg) := by
      simp only [beginDownstreamFragmentation, Act.read_bind]
      exact Act.bind_of_error (congrArg (·, _) cut)
    rw [raises]
    exact queued
  · rw [begin_eq cut]
    have view := sendNext_outbox none { leg with session := leg.session.queue tlsRecord pieces }
    have outbox : (sendNextDownstreamFragment none
        { leg with session := leg.session.queue tlsRecord pieces }).2.session.downOutbox =
          (Session.queued 0 pieces).tail := congrArg Prod.snd view
    refine ⟨(congrArg Prod.fst view).trans_le queued.size, fun entry member => ?_⟩
    rw [outbox] at member
    cases pieces with
    | nil => cases member
    | cons chunk pieces =>
        rw [Session.queued_cons, List.tail_cons] at member
        obtain ⟨later, there⟩ := Session.mem_queued member
        refine ⟨by omega, ?_⟩
        exact (length_le_of_fragment cut _ (List.mem_cons_of_mem _ there)).trans queued.size

theorem deliver_queued (tlsRecord : Bytes) :
    Act.Invariant (fun leg => leg.session.Queued) (deliverRecord tlsRecord) := by
  refine Act.Invariant.bind ?_ fun _ => begin_queued tlsRecord
  exact fun leg => Session.Queued.of_view rfl

/-- **Handling a packet preserves the queue invariant.** -/
theorem queued_steps : HandleSteps client (fun leg => leg.session.Queued) where
  toPullSteps := pullSteps_of_supplicantSide fun s s' same => by
    have size := congrArg Session.downstreamFragmentSize same
    have outbox := congrArg Session.downOutbox same
    exact Session.Queued.of_view (Prod.ext size outbox)
  chunk := fun _ => Session.Queued.of_view rfl
  send := fun eapPayload context => (exchange_supplicantSide eapPayload context).invariant
    fun _ _ same => by
      have size := congrArg Session.downstreamFragmentSize same
      have outbox := congrArg Session.downOutbox same
      exact Session.Queued.of_view (Prod.ext size outbox)
  deliver := deliver_queued
  arrive := fun _ _ => Session.Queued.of_view rfl
  see := fun _ _ => Session.Queued.of_view rfl
  release := release_queued
  ingestData := fun _ => Act.Invariant.of_ended fun _ => Session.Queued.of_view rfl
  acknowledge := fun _ _ => Session.Queued.of_view rfl
  gather := fun _ _ => Session.Queued.of_view rfl
  finish := fun _ _ => Session.Queued.of_view rfl
  relay := fun _ => Session.Queued.of_view rfl

end Mediator
end EapAccel
