import EapAccel.Foundations.Costs
import EapAccel.Mediator.Frames
import EapAccel.Mediator.Verdicts

/-!
# The clock of a handling

While a packet is handled the clock goes on by what the exchanges take, and by nothing else
(`Clocked`). A session that is finished is finished at the time at which the handling ends, since
nothing goes upstream any more then (`Dated`).
-/

set_option autoImplicit false

namespace EapAccel

open Foundations EapTls

/-- How long an exchange took after the given ones. -/
def UpstreamClient.lasts (client : UpstreamClient) (before : List Exchange) (exchange : Exchange) :
    ℕ :=
  client.duration before exchange.request

namespace Mediator

variable {client : UpstreamClient} {fuel : ℕ}

/-! ## What time is about -/

/-- The part of the state that tells the time. -/
def timing (leg : Leg) : List Exchange × ℕ × Option Verdict × Option ℕ :=
  (leg.exchanges, leg.clock, leg.session.result, leg.session.completedAt)

/-- Only exchanges, and finishing the session, matter for what is about the time. -/
theorem steps_of_timing {inv : Leg → Prop}
    (same : ∀ leg leg', timing leg' = timing leg → inv leg → inv leg')
    (send : ∀ eapPayload context, Act.Invariant inv (exchange client eapPayload context))
    (finish : ∀ f : Leg → Session, (∀ leg, (f leg).completedAt = some leg.clock) →
      Act.Invariant inv (Act.modify fun leg => { leg with session := f leg } : Act Raised Leg Unit)) :
    HandleSteps client inv := by
  have keeps : ∀ {α : Type} {x : Act Raised Leg α}, Act.Keeps timing x → Act.Invariant inv x :=
    fun keeps => keeps.invariant same
  exact {
    echo := keeps fun leg => by
      rw [echoUpstreamId_eq]
      unfold Leg.takeUpId Session.takeUpId
      split <;> rfl
    count := keeps fun _ => rfl
    exchange := fun _ => send _
    ingest := fun _ => keeps fun _ => rfl
    accept := fun _ => finish _ fun _ => rfl
    reject := fun _ => finish _ fun _ => rfl
    chunk := keeps fun _ => rfl
    send := send
    deliver := fun tlsRecord => keeps ((deliver_unqueued tlsRecord).weaken timing fun _ => rfl)
    arrive := fun _ => keeps fun _ => rfl
    see := fun _ => keeps fun _ => rfl
    release := fun ackedId => keeps ((sendNext_unqueued ackedId).weaken timing fun _ => rfl)
    ingestData := fun _ => keeps fun _ => rfl
    acknowledge := fun _ => keeps fun _ => rfl
    gather := fun _ => keeps fun _ => rfl
    finish := fun _ => finish _ fun _ => rfl
    relay := keeps fun _ => rfl }

/-! ## Time passes upstream -/

/-- Since `start`, the clock has gone on by what the exchanges took. -/
def Clocked (client : UpstreamClient) (start leg : Leg) : Prop :=
  ∃ new, leg.exchanges = start.exchanges ++ new ∧
    leg.clock = start.clock + costs client.lasts (fun _ => True) start.exchanges new

theorem clocked_refl (client : UpstreamClient) (leg : Leg) : Clocked client leg leg :=
  ⟨[], (List.append_nil _).symm, rfl⟩

theorem exchange_clocked (start : Leg) (eapPayload : Bytes) (context : AuthContext) :
    Act.Invariant (Clocked client start) (exchange client eapPayload context) := by
  apply Act.Invariant.of_ended
  rintro leg ⟨new, grown, clock⟩
  refine ⟨new ++ [leg.exchanged client eapPayload context], ?_, ?_⟩
  · rw [exchange_exchanges, grown, List.append_assoc]
  · have lasts : (exchange client eapPayload context leg).2.clock =
        leg.clock + client.lasts leg.exchanges (leg.exchanged client eapPayload context) := by
      rw [exchange_eq]
      rcases leg.outcome client eapPayload context with e | reply
      · rfl
      · rfl
    rw [lasts, clock, costs_append, costs_singleton, ← grown, Nat.add_assoc]
    rfl

/-- **The clock goes on with the exchanges**, in every step. -/
theorem clocked_steps (start : Leg) : HandleSteps client (Clocked client start) := by
  have same : ∀ leg leg', timing leg' = timing leg → Clocked client start leg →
      Clocked client start leg' := by
    rintro leg leg' same ⟨new, grown, clock⟩
    simp only [timing, Prod.mk.injEq] at same
    obtain ⟨exchanges, clock', _⟩ := same
    exact ⟨new, exchanges.trans grown, clock'.trans clock⟩
  apply steps_of_timing same (exchange_clocked start)
  exact fun f _ => Act.Invariant.of_ended fun leg clocked => clocked

/-! ## Completion times -/

/-- A finished session has a completion time. -/
def TimeStamped (session : Session) : Prop := session.result ≠ none → session.completedAt ≠ none

theorem exchange_completion (eapPayload : Bytes) (context : AuthContext) :
    Act.Keeps (fun leg => (leg.session.result, leg.session.completedAt))
      (exchange client eapPayload context) := by
  intro leg
  simp only [exchange_eq]
  rcases leg.outcome client eapPayload context with e | reply
  · rfl
  · obtain ⟨learnt, sendKey, recvKey, writes⟩ := learn_writes reply
    simp only [Leg.received, writes]
    rfl

/-- **Whoever finishes a session notes the time.** -/
theorem timeStamped_steps : HandleSteps client fun leg => TimeStamped leg.session := by
  have same : ∀ leg leg' : Leg, (leg'.session.result, leg'.session.completedAt) =
      (leg.session.result, leg.session.completedAt) → TimeStamped leg.session →
        TimeStamped leg'.session := by
    intro leg leg' same stamped
    obtain ⟨result, completedAt⟩ := Prod.mk.inj same
    rw [TimeStamped, result, completedAt]
    exact stamped
  apply steps_of_timing
  · exact fun leg leg' view => same leg leg' (congrArg (fun v => (v.2.2.1, v.2.2.2)) view)
  · exact fun eapPayload context => (exchange_completion eapPayload context).invariant same
  · intro f finishes
    apply Act.Invariant.of_ended
    intro leg _ _
    rw [Act.modify_apply, finishes leg]
    exact Option.some_ne_none _

/-! ## The time of the end -/

/-- The session has been finished then, or has not been finished. -/
def EndedAt (c : Option ℕ) (leg : Leg) : Prop := leg.session.completedAt = c

/-- The session has been finished at this very time. -/
def JustOver (leg : Leg) : Prop := leg.session.completedAt = some leg.clock

/-- A part of a handling that raises does not finish the session, and one that returns has finished
it at the end, if at all. -/
def Dated {α : Type} (c : Option ℕ) (x : Act Raised Leg α) : Prop :=
  Act.Triple (EndedAt c) x (fun _ leg => EndedAt c leg ∨ JustOver leg) (fun _ => EndedAt c)

variable {c : Option ℕ}

theorem endedAt_of_keeps {α : Type} {x : Act Raised Leg α}
    (keeps : Act.Keeps (fun leg => leg.session.completedAt) x) : Act.Invariant (EndedAt c) x :=
  keeps.invariant fun _ _ same ended => same.trans ended

theorem dated_of_same {α : Type} {x : Act Raised Leg α} (same : Act.Invariant (EndedAt c) x) :
    Dated c x :=
  Act.Triple.conseq same (fun _ => id) (fun _ _ => Or.inl) fun _ _ => id

/-- What runs before does not finish the session. -/
theorem Dated.after {α β : Type} {x : Act Raised Leg α} {f : α → Act Raised Leg β}
    (same : Act.Invariant (EndedAt c) x) (rest : ∀ a, Dated c (f a)) : Dated c (x >>= f) :=
  Act.Triple.bind same rest

/-- Finishing the session and then only returning something. -/
theorem dated_of_finish {α : Type} {f : Leg → Session} (a : Leg → α)
    (finishes : ∀ leg, (f leg).completedAt = some leg.clock) :
    Dated c (do
      Act.modify fun leg => { leg with session := f leg }
      let leg ← Act.read
      return a leg) := by
  intro leg _
  exact .inr (finishes leg)

theorem dated_of_end {α : Type} {f : Leg → Session} (a : α)
    (finishes : ∀ leg, (f leg).completedAt = some leg.clock) :
    Dated c (do
      Act.modify fun leg => { leg with session := f leg }
      return a) := by
  intro leg _
  exact .inr (finishes leg)

theorem exchange_endedAt (eapPayload : Bytes) (context : AuthContext) :
    Act.Invariant (EndedAt c) (exchange client eapPayload context) := by
  apply endedAt_of_keeps
  exact (exchange_completion eapPayload context).weaken Prod.snd fun _ => rfl

theorem echo_endedAt : Act.Invariant (EndedAt c) echoUpstreamId := by
  apply endedAt_of_keeps
  intro leg
  rw [echoUpstreamId_eq]
  unfold Leg.takeUpId Session.takeUpId
  split <;> rfl

theorem ingestDown_endedAt (packet : EapTlsPacket) : Act.Invariant (EndedAt c) (ingestDown packet) :=
  endedAt_of_keeps fun _ => rfl

theorem deliver_dated (tlsRecord : Bytes) : Dated c (deliverRecord tlsRecord) :=
  dated_of_same
    (endedAt_of_keeps
      ((deliver_unqueued tlsRecord).weaken (fun leg => leg.session.completedAt) fun _ => rfl))

theorem sendNext_dated (ackedId : Option UInt8) : Dated c (sendNextDownstreamFragment ackedId) :=
  dated_of_same
    (endedAt_of_keeps
      ((sendNext_unqueued ackedId).weaken (fun leg => leg.session.completedAt) fun _ => rfl))

/-- After the drain: a session without a record is just over, and one with a record is as it was. -/
def DrainedAt (c : Option ℕ) (complete : Option Bytes) (leg : Leg) : Prop :=
  match complete with
  | none => JustOver leg
  | some _ => EndedAt c leg

/-- **The drain ends with the verdict that finishes the session.** -/
theorem drain_dated (context : AuthContext) : ∀ fuel packet,
    Act.Triple (EndedAt c) (drainUpstreamFragments client context fuel packet) (DrainedAt c)
      (fun _ => EndedAt c) := by
  have buffered : Act.Triple (EndedAt c)
      (Act.read >>= fun leg : Leg => pure (some leg.session.downReasm.buffer))
      (DrainedAt c) (fun _ : Raised => EndedAt c) :=
    Act.Triple.read_bind fun leg ended => Act.Triple.pure fun _ same => same ▸ ended
  have finishes : ∀ f : Leg → Session, (∀ leg, (f leg).completedAt = some leg.clock) →
      Act.Triple (EndedAt c) ((do
        Act.modify fun leg => { leg with session := f leg }
        return none) : Act Raised Leg (Option Bytes)) (DrainedAt c) (fun _ => EndedAt c) :=
    fun f finishes leg _ => finishes leg
  intro fuel
  induction fuel with
  | zero =>
      intro packet
      rw [drainUpstreamFragments]
      apply Act.Triple.ite (fun _ => ?_) (fun _ => buffered)
      exact Act.Triple.raise fun _ ended => ended
  | succ fuel ih =>
      intro packet
      rw [drainUpstreamFragments]
      apply Act.Triple.ite (fun _ => ?_) (fun _ => buffered)
      apply Act.Triple.bind echo_endedAt
      intro ackId
      rw [buildAck_eq_ok, Act.bind_lift_ok]
      apply Act.Triple.bind (endedAt_of_keeps fun _ => rfl)
      intro _
      apply Act.Triple.bind (exchange_endedAt _ context)
      intro reply
      apply Act.Triple.ite (fun _ => finishes _ fun _ => rfl)
      intro _
      apply Act.Triple.ite (fun _ => finishes _ fun _ => rfl)
      intro _
      cases reply.eapMessages with
      | nil => exact buffered
      | cons eap _ =>
          apply Act.Triple.bind (Act.Invariant.lift _)
          intro lastPkt
          apply Act.Triple.bind (ingestDown_endedAt _)
          intro done
          cases done with
          | some tlsRecord => exact Act.Triple.pure fun _ ended => ended
          | none => exact ih lastPkt

theorem handleUpstreamReply_dated (context : AuthContext) (reply : Option Reply) :
    Dated c (handleUpstreamReply client fuel context reply) := by
  cases reply with
  | none => exact dated_of_same (Act.Invariant.pure _)
  | some reply =>
      rw [handleUpstreamReply]
      apply Act.Triple.ite
        (fun _ => dated_of_finish (fun leg => acceptOutcome leg.session) fun _ => rfl)
      intro _
      apply Act.Triple.ite
        (fun _ => dated_of_finish (fun leg => rejectOutcome leg.session) fun _ => rfl)
      intro _
      cases reply.eapMessages with
      | nil => exact dated_of_same (Act.Invariant.pure _)
      | cons eap _ =>
          apply Dated.after (Act.Invariant.lift _)
          intro serverPkt
          apply Dated.after (ingestDown_endedAt _)
          intro complete
          cases complete with
          | some tlsRecord => exact deliver_dated tlsRecord
          | none =>
              apply Act.Triple.bind (drain_dated context fuel serverPkt)
              intro complete
              cases complete with
              | some tlsRecord => exact deliver_dated tlsRecord
              | none =>
                  apply Act.Triple.read_bind
                  intro leg ended
                  exact Act.Triple.pure fun _ same => same ▸ .inr ended

theorem sendChunks_endedAt (context : AuthContext) (total count : ℕ) : ∀ pieces idx reply,
    Act.Invariant (EndedAt c) (sendChunks client context total count idx pieces reply) := by
  intro pieces
  induction pieces with
  | nil => exact fun idx reply => Act.Invariant.pure _
  | cons chunk rest ih =>
      intro idx reply
      rw [sendChunks]
      apply Act.Invariant.bind echo_endedAt
      intro upId
      apply Act.Invariant.bind (Act.Invariant.lift _)
      intro eapFrag
      apply Act.Invariant.bind (endedAt_of_keeps fun _ => rfl)
      intro _
      apply Act.Invariant.bind (exchange_endedAt eapFrag context)
      exact fun reply => ih (idx + 1) (some reply)

theorem handleAck_dated (context : AuthContext) (packet : EapTlsPacket) :
    Dated c (handleAck client fuel context packet) := by
  apply Act.Triple.read_bind
  intro leg ended
  apply Act.Triple.at_state ?_ ended
  apply Act.Triple.ite (fun _ => sendNext_dated _)
  intro _
  apply Act.Triple.ite (fun _ => dated_of_same (Act.Invariant.pure _))
  intro _
  apply Act.Triple.ite (fun _ => dated_of_same (Act.Invariant.pure _))
  intro _
  apply Dated.after echo_endedAt
  intro upId
  rw [buildAck_eq_ok, Act.bind_lift_ok]
  apply Dated.after (exchange_endedAt _ context)
  exact fun reply => handleUpstreamReply_dated context (some reply)

theorem handleData_dated (context : AuthContext) (packet : EapTlsPacket) :
    Dated c (handleData client fuel context packet) := by
  apply Dated.after (endedAt_of_keeps fun _ => rfl)
  intro complete
  cases complete with
  | none =>
      apply dated_of_same
      apply Act.Invariant.read_bind
      intro leg
      apply Act.Invariant.bind (endedAt_of_keeps fun _ => rfl)
      exact fun _ => Act.Invariant.bind (Act.Invariant.lift _) fun _ => Act.Invariant.pure _
  | some tlsRecord =>
      apply Dated.after (endedAt_of_keeps fun _ => rfl)
      intro _
      apply Act.Triple.read_bind
      intro leg ended
      apply Act.Triple.at_state ?_ ended
      apply Dated.after (Act.Invariant.lift _)
      intro pieces
      apply Dated.after (sendChunks_endedAt context _ _ pieces 0 none)
      exact handleUpstreamReply_dated context

theorem passthroughUpstream_dated (context : AuthContext) (eapBytes : Bytes) :
    Dated c (passthroughUpstream client context eapBytes) := by
  apply Dated.after (endedAt_of_keeps fun _ => rfl)
  intro _
  apply Dated.after (exchange_endedAt eapBytes context)
  intro reply
  apply Act.Triple.ite (fun _ => dated_of_end _ fun _ => rfl)
  intro _
  apply Act.Triple.ite (fun _ => dated_of_end _ fun _ => rfl)
  intro _
  cases reply.eapMessages with
  | nil => exact dated_of_same (Act.Invariant.pure _)
  | cons eap _ =>
      apply dated_of_same
      exact Act.Invariant.bind (endedAt_of_keeps fun _ => rfl) fun _ => Act.Invariant.pure _

/-- **A packet finishes its session at the time at which its handling ends.** -/
theorem handleSupplicantEap_dated (context : AuthContext) (eapBytes : Bytes) :
    Dated c (handleSupplicantEap client fuel context eapBytes) := by
  apply Dated.after (Act.Invariant.lift _)
  intro packet
  apply Dated.after (endedAt_of_keeps fun _ => rfl)
  intro _
  apply Act.Triple.read_bind
  intro leg ended
  apply Act.Triple.at_state ?_ ended
  apply Act.Triple.ite (fun _ => passthroughUpstream_dated context eapBytes)
  intro _
  apply Dated.after (endedAt_of_keeps fun _ => rfl)
  intro _
  exact Act.Triple.ite (fun _ => handleAck_dated context packet) fun _ =>
    handleData_dated context packet

end Mediator
end EapAccel
