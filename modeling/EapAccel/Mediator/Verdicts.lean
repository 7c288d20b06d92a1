import EapAccel.Mediator.Frames

/-!
# Where the verdicts come from

A handling goes upstream a number of times, and each exchange comes back with a verdict
or without one. `Waiting start leg` says that since `start` no exchange brought a
verdict and the session's result is what it was. `Ended start v leg` says that the last
exchange brought the verdict `v`, and none before it.

Pulling the server's record stops at the first verdict, stores it, and hands it to the
supplicant (`drain_concludes`, `handleUpstreamReply_concludes`). The loop over the chunks
of a record does not look at the replies to the chunks before the last
(`sendChunks_trail`).
-/

set_option autoImplicit false

namespace EapAccel

open Foundations EapTls

/-! ## Verdicts of replies and of actions -/

def Verdict.code : Verdict → UInt8
  | .accept => accessAccept
  | .reject => accessReject

def Reply.verdict (reply : Reply) : Option Verdict :=
  if reply.accept then some .accept else if reply.reject then some .reject else none

/-- The verdict an exchange brought. -/
def Exchange.verdict (exchange : Exchange) : Option Verdict :=
  match exchange.outcome with
  | .ok reply => reply.normalise.verdict
  | .error _ => none

def Action.verdict : Action → Option Verdict
  | .accept => some .accept
  | .reject => some .reject
  | .ack => none
  | .challenge => none

/-- An exchange brings a verdict exactly when the server answered with its code. -/
theorem Exchange.verdict_eq_some {exchange : Exchange} {v : Verdict} :
    exchange.verdict = some v ↔ ∃ reply, exchange.outcome = .ok reply ∧ reply.code = v.code := by
  rcases h : exchange.outcome with e | reply
  · simp [Exchange.verdict, h]
  · rw [Exchange.verdict, h]
    simp only [Reply.verdict, RadiusReply.normalise, beq_iff_eq, Except.ok.injEq, exists_eq_left']
    constructor
    · intro verdict
      split at verdict
      · cases verdict
        assumption
      · split at verdict
        · cases verdict
          assumption
        · cases verdict
    · intro code
      cases v with
      | accept => rw [code]; decide
      | reject => rw [code]; decide

theorem Reply.verdict_of_accept {reply : Reply} (accept : reply.accept = true) :
    reply.verdict = some .accept := by
  rw [Reply.verdict, if_pos accept]

theorem Reply.verdict_of_reject {reply : Reply} (accept : ¬ reply.accept = true)
    (reject : reply.reject = true) : reply.verdict = some .reject := by
  rw [Reply.verdict, if_neg accept, if_pos reject]

theorem Reply.verdict_of_neither {reply : Reply} (accept : ¬ reply.accept = true)
    (reject : ¬ reply.reject = true) : reply.verdict = none := by
  rw [Reply.verdict, if_neg accept, if_neg reject]

/-- What handling a packet never changes of a session. -/
def Session.identity (session : Session) : Session :=
  { session.supplicantSide with
    downLastReqId := none
    upReasm := { maxMessageLen := session.upReasm.maxMessageLen }
    downOutbox := []
    downNextId := 0
    up := {}
    downTotal := 0
    downNchunks := 0 }

namespace Mediator

variable {client : UpstreamClient} {fuel : ℕ}

/-! ## The exchanges since a point -/

/-- Since `start`, these exchanges were made, all for its session. -/
structure Trail (start : Leg) (new : List Exchange) (leg : Leg) : Prop where
  exchanges : leg.exchanges = start.exchanges ++ new
  own : ∀ exchange ∈ new, exchange.session = start.session.ident
  identity : leg.session.identity = start.session.identity

namespace Trail

variable {start mid leg : Leg} {new new' : List Exchange}

theorem refl (leg : Leg) : Trail leg [] leg :=
  ⟨by rw [List.append_nil], by simp, rfl⟩

theorem ident (trail : Trail start new leg) : leg.session.ident = start.session.ident := by
  have : leg.session.identity.ident = start.session.identity.ident := by rw [trail.identity]
  exact this

theorem append (first : Trail start new mid) (rest : Trail mid new' leg) :
    Trail start (new ++ new') leg := by
  refine ⟨?_, ?_, rest.identity.trans first.identity⟩
  · rw [rest.exchanges, first.exchanges, List.append_assoc]
  · intro exchange member
    rcases List.mem_append.mp member with early | late
    · exact first.own exchange early
    · exact (rest.own exchange late).trans first.ident

/-- Only the exchanges and the identity of the session matter. -/
theorem of_same {leg' : Leg} (trail : Trail start new leg)
    (exchanges : leg'.exchanges = leg.exchanges)
    (identity : leg'.session.identity = leg.session.identity) : Trail start new leg' :=
  ⟨exchanges.trans trail.exchanges, trail.own, identity.trans trail.identity⟩

end Trail

/-- Since `start`, no exchange brought a verdict, and the result is the same. -/
def Waiting (start leg : Leg) : Prop :=
  ∃ new, Trail start new leg ∧ (∀ exchange ∈ new, exchange.verdict = none) ∧
    leg.session.result = start.session.result

/-- Since `start`, the last exchange brought the verdict `v`, and none before it. -/
def Ended (start : Leg) (v : Verdict) (leg : Leg) : Prop :=
  ∃ new last, Trail start (new ++ [last]) leg ∧ (∀ exchange ∈ new, exchange.verdict = none) ∧
    last.verdict = some v

/-- After an exchange: its verdict, if it brought one, is the first. -/
def Answered (start : Leg) (verdict : Option Verdict) (leg : Leg) : Prop :=
  match verdict with
  | some v => Ended start v leg
  | none => Waiting start leg

/-- After a handling: the verdict, if there is one, is the first, and is stored. -/
def Concluded (start : Leg) (verdict : Option Verdict) (leg : Leg) : Prop :=
  match verdict with
  | some v => Ended start v leg ∧ leg.session.result = some v
  | none => Waiting start leg

theorem Waiting.refl (leg : Leg) : Waiting leg leg :=
  ⟨[], Trail.refl leg, by simp, rfl⟩

/-- The part of the state that these predicates are about. -/
def verdictView (leg : Leg) : List Exchange × Session × Option Verdict :=
  (leg.exchanges, leg.session.identity, leg.session.result)

theorem Waiting.of_view {start leg leg' : Leg} (same : verdictView leg' = verdictView leg)
    (waiting : Waiting start leg) : Waiting start leg' := by
  obtain ⟨new, trail, none, result⟩ := waiting
  simp only [verdictView, Prod.mk.injEq] at same
  exact ⟨new, trail.of_same same.1 same.2.1, none, same.2.2.trans result⟩

/-- What does not touch exchanges, identity and result leaves the session waiting. -/
theorem waiting_invariant {α : Type} {x : Act Raised Leg α} (keeps : Act.Keeps verdictView x)
    (start : Leg) : Act.Invariant (Waiting start) x :=
  keeps.invariant fun _ _ => Waiting.of_view

/-! ## One exchange -/

theorem learn_identity (reply : RadiusReply) (session : Session) :
    (UpstreamClient.learn reply session).identity = session.identity := by
  obtain ⟨learnt, sendKey, recvKey, writes⟩ := learn_writes reply
  rw [writes]
  rfl

theorem learn_result (reply : RadiusReply) (session : Session) :
    (UpstreamClient.learn reply session).result = session.result := by
  obtain ⟨learnt, sendKey, recvKey, writes⟩ := learn_writes reply
  rw [writes]

theorem trail_sent (leg : Leg) (eapPayload : Bytes) (context : AuthContext) :
    Trail leg [leg.exchanged client eapPayload context] (leg.sent client eapPayload context) :=
  ⟨rfl, by simp [Leg.exchanged], rfl⟩

theorem trail_received (leg : Leg) (eapPayload : Bytes) (context : AuthContext)
    (reply : RadiusReply) :
    Trail leg [leg.exchanged client eapPayload context]
      ((leg.sent client eapPayload context).received reply) :=
  (trail_sent leg eapPayload context).of_same rfl (learn_identity reply _)

/-- **An exchange ends the wait or goes on waiting.** -/
theorem exchange_answers (start : Leg) (eapPayload : Bytes) (context : AuthContext) :
    Act.Triple (Waiting start) (exchange client eapPayload context)
      (fun reply => Answered start reply.verdict) (fun _ => Waiting start) := by
  rintro leg ⟨new, trail, silent, result⟩
  rw [exchange_eq]
  rcases outcome : leg.outcome client eapPayload context with e | reply
  · have failed : (leg.exchanged client eapPayload context).verdict = none := by
      simp [Exchange.verdict, Leg.exchanged, outcome]
    refine ⟨_, trail.append (trail_sent leg eapPayload context), ?_, result⟩
    intro exchange member
    rcases List.mem_append.mp member with early | last
    · exact silent exchange early
    · rw [List.mem_singleton.mp last]
      exact failed
  · have brought : (leg.exchanged client eapPayload context).verdict = reply.normalise.verdict := by
      simp [Exchange.verdict, Leg.exchanged, outcome]
    have grown := trail.append (@trail_received client leg eapPayload context reply)
    show Answered start reply.normalise.verdict _
    cases verdict : reply.normalise.verdict with
    | none =>
        refine ⟨_, grown, ?_, (learn_result reply _).trans result⟩
        intro exchange member
        rcases List.mem_append.mp member with early | last
        · exact silent exchange early
        · rw [List.mem_singleton.mp last]
          exact brought.trans verdict
    | some v => exact ⟨new, _, grown, silent, brought.trans verdict⟩

/-! ## Pulling the server's record -/

theorem keeps_view_echo : Act.Keeps verdictView echoUpstreamId := by
  intro leg
  rw [echoUpstreamId_eq]
  unfold Leg.takeUpId Session.takeUpId
  split <;> rfl

theorem keeps_view_ingestDown (packet : EapTlsPacket) :
    Act.Keeps verdictView (ingestDown packet) := by
  intro leg
  have side := ingestDown_supplicantSide packet leg
  simp only [ingestDown_eq] at side
  simp only [verdictView, Session.identity, ingestDown_eq, side]

/-- Storing the verdict of the last exchange concludes. -/
theorem finish_concludes (start : Leg) (v : Verdict) {f : Leg → Session}
    (identity : ∀ leg, (f leg).identity = leg.session.identity)
    (result : ∀ leg, (f leg).result = some v) :
    Act.Triple (Ended start v) (Act.modify fun leg => { leg with session := f leg })
      (fun _ => Concluded start (some v)) (fun _ : Raised => Waiting start) := by
  rintro leg ⟨new, last, trail, silent, verdict⟩
  exact ⟨⟨new, last, trail.of_same rfl (identity leg), silent, verdict⟩, result leg⟩

theorem finishAccept_concludes (start : Leg) (eap : Option Bytes) :
    Act.Triple (Ended start .accept) (finishAccept eap)
      (fun _ => Concluded start (some .accept)) (fun _ => Waiting start) :=
  finish_concludes start .accept (fun _ => rfl) (fun _ => rfl)

theorem finishReject_concludes (start : Leg) (eap : Option Bytes) :
    Act.Triple (Ended start .reject) (finishReject eap)
      (fun _ => Concluded start (some .reject)) (fun _ => Waiting start) :=
  finish_concludes start .reject (fun _ => rfl) (fun _ => rfl)

/-- After the drain: without a record there is a verdict, and with one there is none. -/
def Drained (start : Leg) (complete : Option Bytes) (leg : Leg) : Prop :=
  match complete with
  | none => ∃ v, Concluded start (some v) leg
  | some _ => Waiting start leg

/-- **The drain stops at the first verdict and stores it.** -/
theorem drain_concludes (start : Leg) (context : AuthContext) : ∀ fuel packet,
    Act.Triple (Waiting start) (drainUpstreamFragments client context fuel packet)
      (Drained start) (fun _ => Waiting start) := by
  have buffered : Act.Triple (Waiting start)
      (Act.read >>= fun leg : Leg => pure (some leg.session.downReasm.buffer))
      (Drained start) (fun _ : Raised => Waiting start) :=
    Act.Triple.read_bind fun leg waiting => Act.Triple.pure fun _ same => same ▸ waiting
  intro fuel
  induction fuel with
  | zero =>
      intro packet
      rw [drainUpstreamFragments]
      refine Act.Triple.ite (fun _ => ?_) (fun _ => buffered)
      exact Act.Triple.raise fun _ waiting => waiting
  | succ fuel ih =>
      intro packet
      rw [drainUpstreamFragments]
      refine Act.Triple.ite (fun _ => ?_) (fun _ => buffered)
      refine Act.Triple.bind (waiting_invariant keeps_view_echo start) fun ackId => ?_
      rw [buildAck_eq_ok, Act.bind_lift_ok]
      refine Act.Triple.bind (waiting_invariant (fun _ => rfl) start) fun _ => ?_
      refine Act.Triple.bind (exchange_answers start _ context) fun reply => ?_
      refine Act.Triple.ite (fun accept => ?_) fun accept => ?_
      · rw [Reply.verdict_of_accept accept]
        refine Act.Triple.bind (finishAccept_concludes start _) fun _ => ?_
        exact Act.Triple.pure fun _ concluded => ⟨.accept, concluded⟩
      refine Act.Triple.ite (fun reject => ?_) fun reject => ?_
      · rw [Reply.verdict_of_reject accept reject]
        refine Act.Triple.bind (finishReject_concludes start _) fun _ => ?_
        exact Act.Triple.pure fun _ concluded => ⟨.reject, concluded⟩
      rw [Reply.verdict_of_neither accept reject]
      cases reply.eapMessages with
      | nil => exact buffered
      | cons eap _ =>
          refine Act.Triple.bind (waiting_invariant (Act.Keeps.lift _) start) fun lastPkt => ?_
          refine Act.Triple.bind (waiting_invariant (keeps_view_ingestDown _) start) fun done => ?_
          cases done with
          | some tlsRecord => exact Act.Triple.pure fun _ waiting => waiting
          | none => exact ih lastPkt

/-- What an outcome says: the verdict it hands to the supplicant. -/
def Delivered (start : Leg) (outcome : Outcome) (leg : Leg) : Prop :=
  Concluded start outcome.action.verdict leg

theorem storedOutcome_delivers {start leg : Leg} {v : Verdict}
    (concluded : Concluded start (some v) leg) : Delivered start (storedOutcome leg.session) leg := by
  have result : leg.session.result = some v := concluded.2
  cases v with
  | accept =>
      rw [storedOutcome, if_pos result]
      exact concluded
  | reject =>
      rw [storedOutcome, if_neg (by rw [result]; decide)]
      exact concluded

/-- The queue never runs dry while fragments are sent, so the action is not a verdict. -/
theorem sendNext_waits (start : Leg) (ackedId : Option UInt8) :
    Act.Triple (Waiting start) (sendNextDownstreamFragment ackedId)
      (Delivered start) (fun _ => Waiting start) := by
  refine Act.Triple.read_bind fun leg waiting => ?_
  rcases leg.session.downOutbox with _ | ⟨⟨idx, chunk⟩, rest⟩
  · exact Act.Triple.pure fun _ same => same ▸ waiting
  · refine Act.Triple.bind (Act.Triple.at_state (waiting_invariant (fun _ => rfl) start) waiting)
      fun _ => ?_
    refine Act.Triple.bind (waiting_invariant (fun _ => rfl) start) fun _ => ?_
    refine Act.Triple.bind (waiting_invariant (Act.Keeps.lift _) start) fun eapFrag => ?_
    refine Act.Triple.bind (waiting_invariant (fun _ => rfl) start) fun _ => ?_
    exact Act.Triple.pure fun _ waiting => waiting

theorem deliver_waits (start : Leg) (tlsRecord : Bytes) :
    Act.Triple (Waiting start) (deliverRecord tlsRecord) (Delivered start)
      (fun _ => Waiting start) := by
  refine Act.Triple.bind (waiting_invariant (fun _ => rfl) start) fun _ => ?_
  refine Act.Triple.read_bind fun leg waiting => ?_
  refine Act.Triple.bind (Act.Triple.at_state (waiting_invariant (Act.Keeps.lift _) start) waiting)
    fun pieces => ?_
  refine Act.Triple.bind (waiting_invariant (fun _ => rfl) start) fun _ => ?_
  exact sendNext_waits start none

/-- **Handling the server's reply hands over the first verdict**, and goes upstream no more
once it has come. -/
theorem handleUpstreamReply_concludes (start : Leg) (context : AuthContext) (reply : Reply) :
    Act.Triple (Answered start reply.verdict)
      (handleUpstreamReply client fuel context (some reply)) (Delivered start)
      (fun _ => Waiting start) := by
  rw [handleUpstreamReply]
  refine Act.Triple.ite (fun accept => ?_) fun accept => ?_
  · rw [Reply.verdict_of_accept accept]
    refine Act.Triple.bind (finishAccept_concludes start _) fun _ => ?_
    exact Act.Triple.read_bind fun leg concluded => Act.Triple.pure fun _ same => same ▸ concluded
  refine Act.Triple.ite (fun reject => ?_) fun reject => ?_
  · rw [Reply.verdict_of_reject accept reject]
    refine Act.Triple.bind (finishReject_concludes start _) fun _ => ?_
    exact Act.Triple.read_bind fun leg concluded => Act.Triple.pure fun _ same => same ▸ concluded
  rw [Reply.verdict_of_neither accept reject]
  cases reply.eapMessages with
  | nil => exact Act.Triple.pure fun _ waiting => waiting
  | cons eap _ =>
      refine Act.Triple.bind (waiting_invariant (Act.Keeps.lift _) start) fun serverPkt => ?_
      refine Act.Triple.bind (waiting_invariant (keeps_view_ingestDown _) start)
        fun complete => ?_
      cases complete with
      | some tlsRecord => exact deliver_waits start tlsRecord
      | none =>
          refine Act.Triple.bind (drain_concludes start context fuel serverPkt) fun complete => ?_
          cases complete with
          | some tlsRecord => exact deliver_waits start tlsRecord
          | none =>
              refine Act.Triple.read_bind fun leg concluded => ?_
              obtain ⟨v, concluded⟩ := concluded
              have delivers := storedOutcome_delivers concluded
              exact Act.Triple.pure fun _ same => same ▸ delivers

/-! ## The chunks of a record -/

/-- The exchanges of the chunks before the last, whatever they brought, and then `post`. -/
def AfterChunks (count : ℕ → Prop) (start : Leg) (post : Leg → Leg → Prop) (leg : Leg) : Prop :=
  ∃ early mid, Trail start early mid ∧ count early.length ∧
    mid.session.result = start.session.result ∧ post mid leg

theorem AfterChunks.cons {count : ℕ → Prop} {start mid leg : Leg} {exchange : Exchange}
    {post : Leg → Leg → Prop} (first : Trail start [exchange] mid)
    (result : mid.session.result = start.session.result)
    (rest : AfterChunks (fun n => count (n + 1)) mid post leg) :
    AfterChunks count start post leg := by
  obtain ⟨early, mid', trail, counted, same, last⟩ := rest
  exact ⟨exchange :: early, mid', first.append trail, by simpa using counted, same.trans result,
    last⟩

theorem AfterChunks.of_waiting {bound : ℕ} {start leg : Leg} (waiting : Waiting start leg) :
    AfterChunks (fun n => n ≤ bound) start Waiting leg :=
  ⟨[], start, Trail.refl start, Nat.zero_le bound, rfl, waiting⟩

/-- The state is `start` as far as exchanges, identity and result go. -/
def Same (start leg : Leg) : Prop := verdictView leg = verdictView start

theorem Same.waiting {start leg : Leg} (same : Same start leg) : Waiting start leg :=
  (Waiting.refl start).of_view same

theorem same_triple {α : Type} {x : Act Raised Leg α} (keeps : Act.Keeps verdictView x)
    (start : Leg) (bound : ℕ) :
    Act.Triple (Same start) x (fun _ => Same start)
      (fun _ => AfterChunks (fun n => n ≤ bound) start Waiting) := by
  have invariant : Act.Invariant (Same start) x :=
    keeps.invariant fun _ _ view same => view.trans same
  exact Act.Triple.conseq invariant (fun _ same => same) (fun _ _ same => same)
    (fun _ _ same => AfterChunks.of_waiting same.waiting)

/-- One exchange, whatever it brings. -/
theorem exchange_once (start : Leg) (bound : ℕ) (eapPayload : Bytes) (context : AuthContext) :
    Act.Triple (Same start) (exchange client eapPayload context)
      (fun _ leg => ∃ exchange, Trail start [exchange] leg ∧
        leg.session.result = start.session.result)
      (fun _ => AfterChunks (fun n => n ≤ bound) start Waiting) := by
  intro leg same
  have waits := @exchange_answers client start eapPayload context leg same.waiting
  rw [exchange_eq] at waits ⊢
  simp only [Same, verdictView, Prod.mk.injEq] at same
  rcases outcome : leg.outcome client eapPayload context with e | reply
  · rw [outcome] at waits
    exact AfterChunks.of_waiting waits
  · have trail := @trail_received client leg eapPayload context reply
    refine ⟨leg.exchanged client eapPayload context, ⟨?_, ?_, ?_⟩, ?_⟩
    · rw [trail.exchanges, same.1]
    · have ident : leg.session.ident = start.session.ident := by
        simpa [Session.identity, Session.supplicantSide] using congrArg Session.ident same.2.1
      exact fun exchange member => (trail.own exchange member).trans ident
    · exact trail.identity.trans same.2.1
    · exact (learn_result reply _).trans same.2.2

/-- **The loop over the chunks does not look at the replies before the last one.** -/
theorem sendChunks_trail (context : AuthContext) (total count : ℕ) : ∀ (rest : List Bytes)
    (idx : ℕ) (chunk : Bytes) (reply : Option Reply) (start : Leg),
    Act.Triple (Same start)
      (sendChunks client context total count idx (chunk :: rest) reply)
      (fun reply leg => ∃ last, reply = some last ∧
        AfterChunks (fun n => n = rest.length) start (fun mid => Answered mid last.verdict) leg)
      (fun _ => AfterChunks (fun n => n ≤ rest.length) start Waiting) := by
  intro rest
  induction rest with
  | nil =>
      intro idx chunk reply start
      rw [sendChunks]
      refine Act.Triple.bind (same_triple keeps_view_echo start _) fun upId => ?_
      refine Act.Triple.bind (same_triple (Act.Keeps.lift _) start _) fun eapFrag => ?_
      refine Act.Triple.bind (same_triple (fun _ => rfl) start _) fun _ => ?_
      refine Act.Triple.bind (Act.Triple.conseq (exchange_answers start eapFrag context)
        (fun _ same => same.waiting) (fun _ _ answered => answered)
        (fun _ _ waiting => AfterChunks.of_waiting waiting)) fun reply => ?_
      exact Act.Triple.pure fun leg answered =>
        ⟨reply, rfl, [], start, Trail.refl start, rfl, rfl, answered⟩
  | cons next rest ih =>
      intro idx chunk reply start
      rw [sendChunks]
      refine Act.Triple.bind (same_triple keeps_view_echo start _) fun upId => ?_
      refine Act.Triple.bind (same_triple (Act.Keeps.lift _) start _) fun eapFrag => ?_
      refine Act.Triple.bind (same_triple (fun _ => rfl) start _) fun _ => ?_
      refine Act.Triple.bind (exchange_once start _ eapFrag context) fun reply => ?_
      apply Act.Triple.of_states
      rintro mid ⟨exchange, trail, result⟩
      refine Act.Triple.conseq (ih (idx + 1) next (some reply) mid) (fun _ same => same ▸ rfl) ?_ ?_
      · rintro reply leg ⟨last, returned, after⟩
        refine ⟨last, returned, AfterChunks.cons trail result ?_⟩
        simpa using after
      · intro e leg after
        refine AfterChunks.cons trail result ?_
        simpa using after

/-! ## Whole handlings -/

/-- What a handling says and leaves: it went upstream `count` times before the exchanges
that were looked at, or it handed over the stored verdict without going upstream. -/
def Handled (count : ℕ) (start : Leg) (result : Except Raised Outcome) (leg : Leg) : Prop :=
  match result with
  | .ok outcome =>
      AfterChunks (fun n => n = count) start (fun mid => Delivered mid outcome) leg ∨
        (Same start leg ∧ outcome.action.verdict = start.session.result)
  | .error _ => AfterChunks (fun n => n ≤ count) start Waiting leg

/-- The triple of a handling. -/
def Handles (count : ℕ) (x : Act Raised Leg Outcome) (start : Leg) : Prop :=
  Act.Triple (Same start) x (fun outcome => Handled count start (.ok outcome))
    (fun e => Handled count start (.error e))

theorem handles_of_triple {x : Act Raised Leg Outcome} {start : Leg}
    (triple : Act.Triple (Waiting start) x (Delivered start) (fun _ => Waiting start)) :
    Handles 0 x start := by
  refine Act.Triple.conseq triple (fun _ same => same.waiting) ?_ ?_
  · exact fun outcome leg delivered =>
      .inl ⟨[], start, Trail.refl start, rfl, rfl, delivered⟩
  · exact fun e leg waiting => AfterChunks.of_waiting waiting

theorem Handles.handled {count : ℕ} {x : Act Raised Leg Outcome} {start leg : Leg}
    (handles : Handles count x start) (same : Same start leg) :
    Handled count start (x leg).1 (x leg).2 := by
  have := handles leg same
  rcases h : x leg with ⟨e | outcome, leg'⟩ <;> simpa only [h] using this

theorem Handles.keeps {α : Type} {count : ℕ} {y : Act Raised Leg α}
    {x : α → Act Raised Leg Outcome} {start : Leg} (keeps : Act.Keeps verdictView y)
    (rest : ∀ a, Handles count (x a) start) : Handles count (y >>= x) start :=
  Act.Triple.bind (same_triple keeps start count) rest

/-- **Sending the chunks and handling the last reply.** -/
theorem sendChunks_handles (context : AuthContext) (total count idx : ℕ) (chunk : Bytes)
    (rest : List Bytes) (start : Leg) :
    Handles rest.length
      (sendChunks client context total count idx (chunk :: rest) none >>=
        handleUpstreamReply client fuel context) start := by
  refine Act.Triple.bind (sendChunks_trail context total count rest idx chunk none start)
    fun reply => ?_
  apply Act.Triple.of_states
  rintro leg ⟨last, returned, early, mid, trail, counted, result, answered⟩
  subst returned
  have concludes := Act.Triple.at_state
    (@handleUpstreamReply_concludes client fuel mid context last) answered
  refine Act.Triple.conseq concludes (fun _ same => same) ?_ ?_
  · exact fun outcome leg' delivered => .inl ⟨early, mid, trail, counted, result, delivered⟩
  · exact fun e leg' waiting => ⟨early, mid, trail, counted.le, result, waiting⟩

theorem Handled.of_error {count : ℕ} {start leg : Leg} (same : Same start leg) (e : Raised) :
    Handled count start (.error e) leg :=
  AfterChunks.of_waiting same.waiting

/-- **Forwarding a record.** -/
theorem forward_handled {context : AuthContext} {record : Bytes} {start leg : Leg}
    (same : Same start leg) {size : ℕ} (config : leg.session.upstreamFragmentSize = size) :
    Handled (max 1 ((record.length + size - 1) / size) - 1) start
      (forwardRecordUpstream client fuel context record leg).1
      (forwardRecordUpstream client fuel context record leg).2 := by
  rcases cut : fragment record size with e | pieces
  · have raises : forwardRecordUpstream client fuel context record leg = (.error e, leg) := by
      simp only [forwardRecordUpstream, Act.read_bind, config, cut, Act.lift_error_bind]
    rw [raises]
    exact Handled.of_error same e
  · have count := length_fragment cut
    rw [← count]
    cases pieces with
    | nil => simp at count; omega
    | cons chunk rest =>
        rw [forward_eq (config ▸ cut)]
        exact (sendChunks_handles context record.length _ 0 chunk rest start).handled same

/-! ## The supplicant's packets -/

/-- One exchange and the handling of its reply. -/
theorem exchange_handles (eapPayload : Bytes) (context : AuthContext) (start : Leg) :
    Handles 0
      (exchange client eapPayload context >>= fun reply =>
        handleUpstreamReply client fuel context (some reply)) start :=
  handles_of_triple (Act.Triple.bind (exchange_answers start eapPayload context) fun reply =>
    handleUpstreamReply_concludes start context reply)

/-- Handing over the stored verdict. -/
theorem handles_stored (outcome : Outcome) {start leg : Leg} (same : Same start leg)
    (verdict : outcome.action.verdict = leg.session.result) :
    Act.Triple (fun l => l = leg) (pure outcome : Act Raised Leg Outcome)
      (fun outcome => Handled 0 start (.ok outcome)) (fun e => Handled 0 start (.error e)) := by
  intro l at_leg
  have result : leg.session.result = start.session.result := congrArg (fun v => v.2.2) same
  exact .inr ⟨at_leg ▸ same, verdict.trans result⟩

/-- **Relaying a packet hands over what its one exchange brought.** -/
theorem passthroughUpstream_handles (context : AuthContext) (eapBytes : Bytes) (start : Leg) :
    Handles 0 (passthroughUpstream client context eapBytes) start := by
  refine handles_of_triple ?_
  refine Act.Triple.bind (waiting_invariant (fun _ => rfl) start) fun _ => ?_
  refine Act.Triple.bind (exchange_answers start eapBytes context) fun reply => ?_
  refine Act.Triple.ite (fun accept => ?_) fun accept => ?_
  · rw [Reply.verdict_of_accept accept]
    refine Act.Triple.bind (finish_concludes start .accept (fun _ => rfl) (fun _ => rfl))
      fun _ => ?_
    exact Act.Triple.pure fun _ concluded => concluded
  refine Act.Triple.ite (fun reject => ?_) fun reject => ?_
  · rw [Reply.verdict_of_reject accept reject]
    refine Act.Triple.bind (finish_concludes start .reject (fun _ => rfl) (fun _ => rfl))
      fun _ => ?_
    exact Act.Triple.pure fun _ concluded => concluded
  rw [Reply.verdict_of_neither accept reject]
  cases reply.eapMessages with
  | nil => exact Act.Triple.pure fun _ waiting => waiting
  | cons eap _ =>
      refine Act.Triple.bind (waiting_invariant (fun _ => rfl) start) fun _ => ?_
      exact Act.Triple.pure fun _ waiting => waiting

theorem handleAck_handles (context : AuthContext) (packet : EapTlsPacket) (start : Leg) :
    Handles 0 (handleAck client fuel context packet) start := by
  refine Act.Triple.read_bind fun leg same => ?_
  refine Act.Triple.ite (fun _ => ?_) fun _ => ?_
  · exact Act.Triple.at_state (handles_of_triple (sendNext_waits start _)) same
  refine Act.Triple.ite (fun accept => ?_) fun _ => ?_
  · exact handles_stored (acceptOutcome leg.session) same accept.symm
  refine Act.Triple.ite (fun reject => ?_) fun _ => ?_
  · exact handles_stored (rejectOutcome leg.session) same reject.symm
  refine Act.Triple.at_state ?_ same
  refine Handles.keeps keeps_view_echo fun upId => ?_
  rw [buildAck_eq_ok, Act.bind_lift_ok]
  exact exchange_handles _ context start

/-- A reassembler with the same limit is the same as far as the identity goes. -/
theorem upReasm_identity {session : Session} {reassembler : Reassembler}
    (limit : reassembler.maxMessageLen = session.upReasm.maxMessageLen) :
    { session with upReasm := reassembler }.identity = session.identity := by
  simp only [Session.identity, Session.supplicantSide, limit]

/-- The record that an EAP packet of the supplicant completes, if any. -/
def completedRecord (session : Session) (eapBytes : Bytes) : Option Bytes :=
  match parse eapBytes with
  | .ok packet =>
      match (Reassembler.ingest packet session.upReasm).1 with
      | .ok complete => complete
      | .error _ => none
  | .error _ => none

/-- The number of chunks sent before the last one, for an EAP packet of the supplicant. -/
def chunksBeforeLast (session : Session) (eapBytes : Bytes) : ℕ :=
  match completedRecord session eapBytes with
  | some record =>
      max 1 ((record.length + session.upstreamFragmentSize - 1) / session.upstreamFragmentSize) - 1
  | none => 0

/-- **A packet of the supplicant in reassemble mode.** -/
theorem handleSupplicantEap_handled (context : AuthContext) (eapBytes : Bytes) (leg : Leg)
    (reassembling : leg.session.mode = .reassemble) :
    Handled (chunksBeforeLast leg.session eapBytes) leg
      (handleSupplicantEap client fuel context eapBytes leg).1
      (handleSupplicantEap client fuel context eapBytes leg).2 := by
  rcases parsed : parse eapBytes with e | packet
  · rw [handle_unparsed parsed]
    exact Handled.of_error rfl e
  rcases ack : packet.isAck with _ | _
  · rw [handle_data_eq reassembling parsed ack]
    have limit := Reassembler.ingest_maxMessageLen packet leg.session.upReasm
    rcases fed : Reassembler.ingest packet leg.session.upReasm with ⟨e | complete, reassembler⟩
    · rw [fed] at limit
      have same := congrArg (leg.exchanges, ·, leg.session.result)
        (@upReasm_identity (arrived leg.session packet) reassembler limit)
      rw [@handleData_raises client fuel ⟨arrived leg.session packet, leg.exchanges, leg.clock⟩
        context packet reassembler e fed]
      refine Handled.of_error ?_ e
      exact same
    rw [fed] at limit
    have same := congrArg (leg.exchanges, ·, leg.session.result)
      (@upReasm_identity (arrived leg.session packet) reassembler limit)
    cases complete with
    | none =>
        have none : chunksBeforeLast leg.session eapBytes = 0 := by
          simp only [chunksBeforeLast, completedRecord, parsed, fed]
        rw [none, @handleData_more client fuel ⟨arrived leg.session packet, leg.exchanges, leg.clock⟩
          context packet reassembler fed]
        exact .inl ⟨[], leg, Trail.refl leg, rfl, rfl, (Waiting.refl leg).of_view same⟩
    | some record =>
        have count : chunksBeforeLast leg.session eapBytes =
            max 1 ((record.length + leg.session.upstreamFragmentSize - 1) /
              leg.session.upstreamFragmentSize) - 1 := by
          simp only [chunksBeforeLast, completedRecord, parsed, fed]
        rw [count, @handleData_complete client fuel
          ⟨arrived leg.session packet, leg.exchanges, leg.clock⟩ context packet reassembler record
          fed]
        refine forward_handled ?_ rfl
        exact same
  · have none : chunksBeforeLast leg.session eapBytes = 0 := by
      simp only [chunksBeforeLast, completedRecord, parsed, Reassembler.ingest_ack ack]
    rw [none, handle_ack_eq reassembling parsed ack]
    exact (handleAck_handles context packet leg).handled rfl

/-- A packet of the supplicant in passthrough mode. -/
theorem handleSupplicantEap_passthrough (context : AuthContext) (eapBytes : Bytes) (leg : Leg)
    (passing : leg.session.mode = .passthrough) :
    Handled 0 leg (handleSupplicantEap client fuel context eapBytes leg).1
      (handleSupplicantEap client fuel context eapBytes leg).2 := by
  rcases parsed : parse eapBytes with e | packet
  · rw [handle_unparsed parsed]
    exact Handled.of_error rfl e
  · rw [handle_passthrough_eq passing parsed]
    exact (passthroughUpstream_handles context eapBytes leg).handled (by exact rfl)

/-! ## What a handling proves about its verdict -/

/-- Some exchange of the session brought the verdict. -/
def Brought (exchanges : List Exchange) (ident : ℕ) (v : Verdict) : Prop :=
  ∃ exchange ∈ exchanges, exchange.session = ident ∧ exchange.verdict = some v

theorem Brought.mono {exchanges : List Exchange} {ident : ℕ} {v : Verdict}
    (brought : Brought exchanges ident v) (new : List Exchange) :
    Brought (exchanges ++ new) ident v := by
  obtain ⟨exchange, member, rest⟩ := brought
  exact ⟨exchange, List.mem_append_left new member, rest⟩

theorem Ended.brought {start leg : Leg} {v : Verdict} (ended : Ended start v leg) :
    Brought leg.exchanges start.session.ident v := by
  obtain ⟨new, last, trail, _, verdict⟩ := ended
  refine ⟨last, ?_, trail.own last (by simp), verdict⟩
  rw [trail.exchanges]
  simp

/-- A verdict that the session had or an exchange brought. -/
def Known (start leg : Leg) (v : Verdict) : Prop :=
  start.session.result = some v ∨ Brought leg.exchanges start.session.ident v

/-- What a handling leaves: more exchanges of its own session, and known verdicts only. -/
structure Justified (start : Leg) (result : Except Raised Outcome) (leg : Leg) : Prop where
  trail : ∃ new, Trail start new leg
  stored : ∀ v, leg.session.result = some v → Known start leg v
  said : ∀ outcome v, result = .ok outcome → outcome.action.verdict = some v → Known start leg v

/-- **Every verdict of a handling was stored before or brought by an exchange.** -/
theorem Handled.justified {count : ℕ} {start leg : Leg} {result : Except Raised Outcome}
    (handled : Handled count start result leg) : Justified start result leg := by
  cases result with
  | error e =>
      obtain ⟨early, mid, trail, _, same, new, later, _, waits⟩ := handled
      refine ⟨⟨_, trail.append later⟩, fun v stored => .inl ?_, by simp⟩
      rw [← same, ← waits, stored]
  | ok outcome =>
      rcases handled with ⟨early, mid, trail, _, same, delivered⟩ | ⟨same, verdict⟩
      · cases saying : outcome.action.verdict with
        | none =>
            rw [Delivered, saying] at delivered
            obtain ⟨new, later, _, waits⟩ := delivered
            refine ⟨⟨_, trail.append later⟩, fun v stored => .inl ?_, ?_⟩
            · rw [← same, ← waits, stored]
            · intro outcome' v returned said
              cases returned
              rw [saying] at said
              cases said
        | some v =>
            rw [Delivered, saying] at delivered
            obtain ⟨ended, result⟩ := delivered
            have brought : Known start leg v := .inr (trail.ident ▸ ended.brought)
            obtain ⟨new, last, later, _⟩ := ended
            refine ⟨⟨_, trail.append later⟩, ?_, ?_⟩
            · intro v' stored
              rw [result] at stored
              cases stored
              exact brought
            · intro outcome' v' returned said
              cases returned
              rw [saying] at said
              cases said
              exact brought
      · simp only [Same, verdictView, Prod.mk.injEq] at same
        refine ⟨⟨[], by rw [same.1, List.append_nil], by simp, same.2.1⟩, ?_, ?_⟩
        · intro v stored
          exact .inl (same.2.2 ▸ stored)
        · intro outcome' v returned said
          cases returned
          exact .inl (verdict ▸ said)

end Mediator
end EapAccel
