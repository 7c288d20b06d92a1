import EapAccel.Mediator.Drain
import EapAccel.Mediator.Heard

/-!
# What the mediator asks of the server

A record that the supplicant has completed costs one exchange a chunk, and a poll costs one. The
reply to the last of them begins the server's answer, and every further fragment of the answer
costs one more exchange. Nothing else goes upstream (`handleSupplicantEap_spends`).
-/

set_option autoImplicit false

namespace EapAccel

open Foundations EapTls

namespace Mediator

/-- What came back, exchange by exchange. -/
def outcomes (exchanges : List Exchange) : List (Except Raised RadiusReply) :=
  exchanges.map (·.outcome)

/-- The number of replies in an answer of the server: the fragments that announce more, and the
reply after them. -/
def answerLength (replies : List (Except Raised RadiusReply)) : ℕ :=
  (replies.takeWhile fun reply => (moreFragment reply).isSome).length + 1

/-- These replies are one whole answer. -/
def WholeAnswer (replies : List (Except Raised RadiusReply)) : Prop :=
  replies.length = answerLength replies

theorem wholeAnswer_singleton {reply : Except Raised RadiusReply}
    (last : moreFragment reply = none) : WholeAnswer [reply] := by
  rw [WholeAnswer, answerLength, List.takeWhile_cons, last]
  rfl

theorem WholeAnswer.cons {reply : Except Raised RadiusReply}
    {replies : List (Except Raised RadiusReply)} {packet : EapTlsPacket}
    (more : moreFragment reply = some packet) (whole : WholeAnswer replies) :
    WholeAnswer (reply :: replies) := by
  rw [WholeAnswer, answerLength, List.takeWhile_cons, more]
  exact congrArg (· + 1) whole

/-- Since `start`, the exchanges that were made have a property. -/
def Made (start : Leg) (P : List Exchange → Prop) (leg : Leg) : Prop :=
  ∃ new, leg.exchanges = start.exchanges ++ new ∧ P new

theorem Made.refl {start : Leg} {P : List Exchange → Prop} (holds : P []) : Made start P start :=
  ⟨[], (List.append_nil _).symm, holds⟩

theorem Made.of_exchanges {start leg leg' : Leg} {P : List Exchange → Prop}
    (same : leg'.exchanges = leg.exchanges) (made : Made start P leg) : Made start P leg' := by
  obtain ⟨new, grown, holds⟩ := made
  exact ⟨new, same.trans grown, holds⟩

theorem Made.after {start mid leg : Leg} {P Q : List Exchange → Prop} {new : List Exchange}
    (grown : mid.exchanges = start.exchanges ++ new) (made : Made mid P leg)
    (joins : ∀ rest, P rest → Q (new ++ rest)) : Made start Q leg := by
  obtain ⟨rest, grown', holds⟩ := made
  exact ⟨new ++ rest, by rw [grown', grown, List.append_assoc], joins rest holds⟩

variable {client : UpstreamClient} {context : AuthContext} {fuel : ℕ}

/-- pyrad took the attributes of all these requests. -/
def Taken (client : UpstreamClient) (new : List Exchange) : Prop :=
  ∀ exchange ∈ new, client.takes exchange.request = true

theorem taken_nil : Taken client [] := by simp [Taken]

theorem Taken.cons {exchange : Exchange} {new : List Exchange}
    (takes : client.takes exchange.request = true) (taken : Taken client new) :
    Taken client (exchange :: new) :=
  List.forall_mem_cons.mpr ⟨takes, taken⟩

theorem Taken.append {new new' : List Exchange} (taken : Taken client new)
    (taken' : Taken client new') : Taken client (new ++ new') :=
  List.forall_mem_append.mpr ⟨taken, taken'⟩

/-- What does not go upstream keeps what was made. -/
theorem made_triple {α : Type} {x : Act Raised Leg α} (keeps : Act.Keeps Leg.exchanges x)
    (start : Leg) (P : List Exchange → Prop) :
    Act.Triple (Made start P) x (fun _ => Made start P) (fun _ _ => True) :=
  Act.Triple.conseq (keeps.invariant fun _ _ => Made.of_exchanges) (fun _ => id) (fun _ _ => id)
    (fun _ _ _ => trivial)

/-! ## The server's answer -/

/-- The fragment that a turn of the drain goes on with, if it announces more. -/
def announced : EapTlsPacket ⊕ Option Bytes → Option EapTlsPacket
  | .inl packet => if packet.moreFragments then some packet else none
  | .inr _ => none

theorem ingest_of_more {packet : EapTlsPacket} (more : packet.moreFragments = true)
    (reassembler : Reassembler) (record : Bytes) :
    (Reassembler.ingest packet reassembler).1 ≠ .ok (some record) := by
  intro returned
  have data := Reassembler.isAck_of_more more
  by_cases refused : reassembler.Refuses packet
  · obtain ⟨rest, n, declares, large⟩ := refused
    rw [Reassembler.ingest_refused data rest declares large] at returned
    cases returned
  · rw [Reassembler.ingest_data data refused, if_pos more] at returned
    split at returned <;> cases returned

/-- **A turn goes on with the fragment that came**, if it announces more. -/
theorem takePulled_announces {reply : RadiusReply} {leg : Leg} {turn : EapTlsPacket ⊕ Option Bytes}
    (returned : (takePulled reply.normalise leg).1 = .ok turn) :
    moreFragment (.ok reply) = announced turn := by
  rcases fragment : moreFragment (.ok reply) with _ | packet
  · rcases turn with packet | record
    · cases more : packet.moreFragments with
      | true =>
          have carries := (((takePulled_cases reply leg).2 packet more).1.mp returned).1
          rw [fragment] at carries
          cases carries
      | false =>
          rw [announced, more]
          rfl
    · rfl
  · obtain ⟨accept, reject, parsed, more⟩ := moreFragment_eq_some.mp fragment
    rw [takePulled, accept, reject, eapMessages_normalise parsed] at returned
    simp only [Bool.false_eq_true, if_false, parsed, Act.lift_ok_bind] at returned
    rcases fed : Reassembler.ingest packet leg.session.downReasm with ⟨e | none | record, after⟩
    · rw [Act.bind_of_error (by rw [ingestDown_eq, fed])] at returned
      cases returned
    · rw [Act.bind_of_ok (by rw [ingestDown_eq, fed])] at returned
      cases returned
      rw [announced, if_pos more]
    · exact absurd (congrArg Prod.fst fed) (ingest_of_more more _ record)

theorem pull_announces (start : Leg) :
    Act.Triple (fun leg => leg = start) (pull client context)
      (fun turn leg => ∃ exchange, leg.exchanges = start.exchanges ++ [exchange] ∧
        client.takes exchange.request = true ∧ moreFragment exchange.outcome = announced turn)
      (fun _ _ => True) := by
  rintro leg rfl
  have grown := (@pull_cases client context leg).1
  rcases turned : pull client context leg with ⟨e | turn, after⟩
  · trivial
  · rw [turned] at grown
    rw [pull_eq] at turned
    rcases outcome : leg.pullReady.outcome client (Leg.pullAck leg) context with e | reply
    · rw [outcome] at turned
      cases turned
    · rw [outcome] at turned
      refine ⟨_, grown, UpstreamClient.takes_of_answer outcome, ?_⟩
      show moreFragment (leg.pullReady.outcome client (Leg.pullAck leg) context) = _
      rw [outcome]
      exact takePulled_announces (congrArg Prod.fst turned)

/-- **The drain makes one exchange a reply of the rest of the answer.** -/
theorem drain_answer : ∀ (fuel : ℕ) (lastPkt : EapTlsPacket) (start : Leg),
    lastPkt.moreFragments = true →
      Act.Triple (fun leg => leg = start) (drainUpstreamFragments client context fuel lastPkt)
        (fun _ => Made start fun new => Taken client new ∧ WholeAnswer (outcomes new))
        (fun _ _ => True) := by
  intro fuel
  induction fuel with
  | zero =>
      intro lastPkt start more
      rw [drainUpstreamFragments, if_pos more]
      exact Act.Triple.raise fun _ _ => trivial
  | succ fuel ih =>
      intro lastPkt start more
      rw [drain_succ more]
      apply Act.Triple.bind (pull_announces start)
      intro turn
      apply Act.Triple.of_states
      rintro leg ⟨exchange, grown, takes, goes_on⟩
      have alone : moreFragment exchange.outcome = none →
          Made start (fun new => Taken client new ∧ WholeAnswer (outcomes new)) leg := fun last =>
        ⟨[exchange], grown, taken_nil.cons takes, wholeAnswer_singleton last⟩
      rcases turn with packet | returned
      · cases further : packet.moreFragments with
        | true =>
            rw [announced, if_pos further] at goes_on
            apply Act.Triple.conseq (ih packet leg further) (fun _ => id) _ (fun _ _ => id)
            intro _ after made
            apply Made.after grown made
            rintro rest ⟨taken, whole⟩
            exact ⟨taken.cons takes, WholeAnswer.cons goes_on whole⟩
        | false =>
            rw [announced, further] at goes_on
            rintro _ rfl
            simp only [drain_last further]
            exact alone goes_on
      · rintro _ rfl
        exact alone goes_on

/-- A reply that announces no more is handled without an exchange. -/
theorem keeps_last_reply {reply : RadiusReply} (last : moreFragment (.ok reply) = none) :
    Act.Keeps Leg.exchanges (handleUpstreamReply client fuel context (some reply.normalise)) := by
  rw [handleUpstreamReply]
  by_cases accept : reply.normalise.accept = true
  · rw [if_pos accept]
    exact fun _ => rfl
  by_cases reject : reply.normalise.reject = true
  · rw [if_neg accept, if_pos reject]
    exact fun _ => rfl
  rw [if_neg accept, if_neg reject]
  rcases messages : reply.normalise.eapMessages with _ | ⟨eap, rest⟩
  · exact fun _ => rfl
  · have same : reply.eapMessage.flatten = eap := head_normalise (by rw [messages]; rfl)
    rcases parsed : parse eap with e | packet
    · simp only [parsed]
      exact fun _ => rfl
    · have ends : packet.moreFragments = false := by
        by_contra more
        have carries := moreFragment_eq_some.mpr ⟨Bool.eq_false_iff.mpr accept,
          Bool.eq_false_iff.mpr reject, same ▸ parsed, Bool.not_eq_false _ ▸ more⟩
        rw [last] at carries
        cases carries
      simp only [parsed, Act.bind_lift_ok]
      apply Act.Keeps.bind fun _ => rfl
      intro complete
      cases complete with
      | some tlsRecord => exact keeps_deliver tlsRecord
      | none =>
          apply Act.Keeps.bind
          · intro leg
            rw [drain_last ends]
          · intro drained
            cases drained with
            | some tlsRecord => exact keeps_deliver tlsRecord
            | none => exact fun _ => rfl

/-- **Handling a reply makes one exchange for every further reply of the answer that it begins.** -/
theorem handleUpstreamReply_answer (reply : RadiusReply) (start : Leg) :
    Act.Triple (fun leg => leg = start)
      (handleUpstreamReply client fuel context (some reply.normalise))
      (fun _ => Made start fun rest =>
        Taken client rest ∧ WholeAnswer (.ok reply :: outcomes rest)) (fun _ _ => True) := by
  rcases fragment : moreFragment (.ok reply) with _ | packet
  · have made : Made start (fun rest =>
        Taken client rest ∧ WholeAnswer (.ok reply :: outcomes rest)) start :=
      Made.refl ⟨taken_nil, wholeAnswer_singleton fragment⟩
    exact Act.Triple.at_state (made_triple (keeps_last_reply fragment) start _) made
  · obtain ⟨accept, reject, parsed, more⟩ := moreFragment_eq_some.mp fragment
    rw [handleUpstreamReply, accept, reject, eapMessages_normalise parsed]
    simp only [Bool.false_eq_true, if_false, parsed, Act.bind_lift_ok]
    have fed : Act.Triple (fun leg => leg = start) (ingestDown packet)
        (fun complete leg => complete = none ∧ leg.exchanges = start.exchanges)
        (fun _ _ => True) := by
      rintro leg rfl
      rw [ingestDown_eq]
      rcases fed : Reassembler.ingest packet leg.session.downReasm with ⟨e | none | record, after⟩
      · trivial
      · exact ⟨rfl, rfl⟩
      · exact absurd (congrArg Prod.fst fed) (ingest_of_more more _ record)
    apply Act.Triple.bind fed
    intro complete
    apply Act.Triple.of_states
    rintro leg ⟨rfl, same⟩
    have drained : Act.Triple (fun l => l = leg) (drainUpstreamFragments client context fuel packet)
        (fun _ => Made start fun rest =>
          Taken client rest ∧ WholeAnswer (.ok reply :: outcomes rest)) (fun _ _ => True) := by
      apply Act.Triple.conseq (drain_answer fuel packet leg more) (fun _ => id) _ (fun _ _ => id)
      intro _ after made
      apply Made.after (same.trans (List.append_nil _).symm) made
      rintro rest ⟨taken, whole⟩
      exact ⟨taken, WholeAnswer.cons fragment whole⟩
    apply Act.Triple.bind drained
    · intro record
      cases record with
      | some tlsRecord => exact made_triple (keeps_deliver tlsRecord) start _
      | none => exact made_triple (fun _ => rfl) start _

/-! ## What is asked -/

/-- An exchange that is answered brings the reply. -/
theorem exchange_replies (eapPayload : Bytes) (start : Leg) :
    Act.Triple (fun leg => leg = start) (exchange client eapPayload context)
      (fun reply leg => ∃ made answer, leg.exchanges = start.exchanges ++ [made] ∧
        client.takes made.request = true ∧ made.outcome = .ok answer ∧ reply = answer.normalise)
      (fun _ _ => True) := by
  rintro leg rfl
  rw [exchange_eq]
  rcases outcome : leg.outcome client eapPayload context with e | answer
  · trivial
  · exact ⟨leg.exchanged client eapPayload context, answer, rfl,
      UpstreamClient.takes_of_answer outcome, outcome, rfl⟩

/-- The number of chunks of a record: as many as it fills, and at least one. -/
def chunkCount (size length : ℕ) : ℕ := max 1 ((length + size - 1) / size)

/-- So many exchanges, the last of which begins a whole answer. -/
def Spent (client : UpstreamClient) (count : ℕ) (new : List Exchange) : Prop :=
  Taken client new ∧
    ∃ early answer, new = early ++ answer ∧ early.length + 1 = count ∧ WholeAnswer (outcomes answer)

/-- An exchange, and the handling of what it brings. -/
theorem exchange_spends (eapPayload : Bytes) (start : Leg) :
    Act.Triple (fun leg => leg = start)
      (exchange client eapPayload context >>= fun reply =>
        handleUpstreamReply client fuel context (some reply))
      (fun _ => Made start (Spent client 1)) (fun _ _ => True) := by
  apply Act.Triple.bind (exchange_replies eapPayload start)
  intro reply
  apply Act.Triple.of_states
  rintro leg ⟨made, answer, grown, takes, outcome, rfl⟩
  apply Act.Triple.conseq (handleUpstreamReply_answer answer leg) (fun _ => id) _ (fun _ _ => id)
  intro _ after answered
  apply Made.after grown answered
  rintro rest ⟨taken, whole⟩
  refine ⟨taken.cons takes, [], made :: rest, rfl, rfl, ?_⟩
  rw [outcomes, List.map_cons, outcome]
  exact whole

/-- What does not go upstream leaves the exchanges. -/
theorem still {α : Type} {x : Act Raised Leg α} (keeps : Act.Keeps Leg.exchanges x)
    (before : List Exchange) :
    Act.Triple (fun leg => leg.exchanges = before) x (fun _ leg => leg.exchanges = before)
      (fun _ _ => True) :=
  Act.Triple.conseq (keeps.invariant fun _ _ same start => same.trans start) (fun _ => id)
    (fun _ _ => id) (fun _ _ _ => trivial)

/-- What sending one chunk does to the exchanges. -/
theorem sendChunk_brings {β : Type} {post : β → Leg → Prop} (total count idx : ℕ) (chunk : Bytes)
    {rest : Reply → Act Raised Leg β} (before : List Exchange)
    (goes_on : ∀ (made : Exchange) (answer : RadiusReply),
      client.takes made.request = true → made.outcome = .ok answer →
      Act.Triple (fun leg => leg.exchanges = before ++ [made]) (rest answer.normalise) post
        (fun _ _ => True)) :
    Act.Triple (fun leg => leg.exchanges = before)
      (do
        let upId ← echoUpstreamId
        let eapFrag ← Act.lift (build codeResponse upId chunk (decide (idx < count - 1))
          (if idx = 0 then some total else none) false)
        updateSession fun s => { s with up.fragmentsOut := s.up.fragmentsOut + 1 }
        let reply ← exchange client eapFrag context
        rest reply) post (fun _ _ => True) := by
  have echo : Act.Keeps Leg.exchanges echoUpstreamId := fun leg => by
    rw [echoUpstreamId_eq, Leg.takeUpId_exchanges]
  apply Act.Triple.bind (still echo before)
  intro upId
  apply Act.Triple.bind (still (Act.Keeps.lift _) before)
  intro eapFrag
  apply Act.Triple.bind (still (fun _ => rfl) before)
  intro _
  apply Act.Triple.of_states
  intro leg same
  apply Act.Triple.bind (exchange_replies eapFrag leg)
  intro reply
  rintro after ⟨made, answer, grown, takes, outcome, rfl⟩
  exact goes_on made answer takes outcome after (same ▸ grown)

/-- **The chunks of a record.** One exchange each, and the reply to the last. -/
theorem sendChunks_brings (total count : ℕ) : ∀ (rest : List Bytes) (idx : ℕ) (chunk : Bytes)
    (reply : Option Reply) (before : List Exchange),
    Act.Triple (fun leg => leg.exchanges = before)
      (sendChunks client context total count idx (chunk :: rest) reply)
      (fun reply leg => ∃ early made answer, early.length = rest.length ∧
        leg.exchanges = before ++ (early ++ [made]) ∧ Taken client (early ++ [made]) ∧
          made.outcome = .ok answer ∧ reply = some answer.normalise) (fun _ _ => True) := by
  intro rest
  induction rest with
  | nil =>
      intro idx chunk reply before
      rw [sendChunks]
      apply sendChunk_brings
      intro made answer takes outcome
      exact Act.Triple.pure fun leg grown =>
        ⟨[], made, answer, rfl, grown, taken_nil.cons takes, outcome, rfl⟩
  | cons next rest ih =>
      intro idx chunk reply before
      rw [sendChunks]
      apply sendChunk_brings
      intro made answer takes outcome
      apply Act.Triple.conseq (ih (idx + 1) next (some answer.normalise) (before ++ [made]))
        (fun _ => id) _ (fun _ _ => id)
      rintro last leg ⟨early, final, reply, length, grown, taken, brings⟩
      refine ⟨made :: early, final, reply, congrArg (· + 1) length, ?_, taken.cons takes, brings⟩
      rw [grown, List.append_assoc]
      rfl

/-- **Forwarding a record** costs one exchange a chunk, and the rest of the answer. -/
theorem forward_spends (tlsRecord : Bytes) (start : Leg) :
    Act.Triple (fun leg => leg = start) (forwardRecordUpstream client fuel context tlsRecord)
      (fun _ => Made start
        (Spent client (chunkCount start.session.upstreamFragmentSize tlsRecord.length)))
      (fun _ _ => True) := by
  apply Act.Triple.read_bind
  rintro leg rfl
  rcases cut : fragment tlsRecord leg.session.upstreamFragmentSize with e | pieces
  · exact fun _ _ => trivial
  have count := length_fragment cut
  rw [Act.bind_lift_ok, chunkCount, ← count]
  cases pieces with
  | nil =>
      rw [List.length_nil] at count
      omega
  | cons chunk rest =>
      apply Act.Triple.bind (Act.Triple.at_state
        (sendChunks_brings _ _ rest 0 chunk none leg.exchanges) rfl)
      intro reply
      apply Act.Triple.of_states
      rintro mid ⟨early, made, answer, length, grown, taken, outcome, rfl⟩
      apply Act.Triple.conseq (handleUpstreamReply_answer answer mid) (fun _ => id) _ (fun _ _ => id)
      intro _ after answered
      apply Made.after grown answered
      rintro pulls ⟨taken', whole⟩
      refine ⟨taken.append taken', early, made :: pulls, List.append_assoc _ _ _,
        by rw [length, List.length_cons], ?_⟩
      rw [outcomes, List.map_cons, outcome]
      exact whole

/-! ## What a packet of the supplicant asks -/

/-- What the handling of a packet asks of the server: a record of so many octets or a poll,
which it answers in so many replies, or a packet that is passed on as it is. -/
inductive Ask where
  | record (length replies : ℕ)
  | poll (replies : ℕ)
  | passedOn
  deriving DecidableEq, Repr

/-- The exchanges that it costs, where chunks have this size. -/
def Ask.price (size : ℕ) : Ask → ℕ
  | .record length replies => chunkCount size length + (replies - 1)
  | .poll replies => 1 + (replies - 1)
  | .passedOn => 1

/-- What a packet of the supplicant asks in reassemble mode, if the server answers as it did in
these exchanges. -/
def askOf (session : Session) (packet : EapTlsPacket) (new : List Exchange) : Option Ask :=
  if packet.isAck then
    if session.downOutbox ≠ [] ∨ session.result.isSome then none
    else some (.poll (answerLength (outcomes new)))
  else
    match (Reassembler.ingest packet session.upReasm).1 with
    | .ok (some record) =>
        let chunks := chunkCount session.upstreamFragmentSize record.length
        some (.record record.length (answerLength (outcomes (new.drop (chunks - 1)))))
    | _ => none

/-- The price of what was asked, if anything. -/
def spent (session : Session) (ask : Option Ask) : ℕ :=
  (ask.map (Ask.price session.upstreamFragmentSize)).getD 0

theorem Spent.length {count : ℕ} {new : List Exchange} (spends : Spent client count new) :
    new.length = count + (answerLength (outcomes (new.drop (count - 1))) - 1) := by
  obtain ⟨_, early, answer, rfl, counted, whole⟩ := spends
  have dropped : (early ++ answer).drop (count - 1) = answer := by
    rw [show count - 1 = early.length by omega, List.drop_left]
  rw [dropped, List.length_append, ← whole, outcomes, List.length_map]
  rw [WholeAnswer, answerLength, outcomes, List.length_map] at whole
  omega

theorem handleAck_spends (packet : EapTlsPacket) (ack : packet.isAck = true) (start : Leg) :
    Act.Triple (fun leg => leg = start) (handleAck client fuel context packet)
      (fun _ => Made start fun new =>
        Taken client new ∧ new.length = spent start.session (askOf start.session packet new))
      (fun _ _ => True) := by
  have quiet : ∀ x : Act Raised Leg Outcome, Act.Keeps Leg.exchanges x →
      (start.session.downOutbox ≠ [] ∨ start.session.result.isSome = true) →
        Act.Triple (fun leg => leg = start) x (fun _ => Made start fun new =>
          Taken client new ∧ new.length = spent start.session (askOf start.session packet new))
          (fun _ _ => True) := by
    intro x keeps answered
    apply Act.Triple.at_state (made_triple keeps start _)
    have nothing : askOf start.session packet [] = none := by
      rw [askOf, if_pos ack, if_pos answered]
    exact Made.refl ⟨taken_nil, (congrArg (spent start.session) nothing).symm⟩
  apply Act.Triple.read_bind
  rintro leg rfl
  by_cases queued : leg.session.downOutbox ≠ []
  · rw [if_pos queued]
    exact quiet _ ((sendNext_unqueued _).weaken Leg.exchanges fun _ => rfl) (.inl queued)
  rw [if_neg queued]
  by_cases accepted : leg.session.result = some .accept
  · rw [if_pos accepted]
    exact quiet _ (fun _ => rfl) (.inr (by rw [accepted]; rfl))
  by_cases rejected : leg.session.result = some .reject
  · rw [if_neg accepted, if_pos rejected]
    exact quiet _ (fun _ => rfl) (.inr (by rw [rejected]; rfl))
  rw [if_neg accepted, if_neg rejected]
  have waiting : ¬ (leg.session.downOutbox ≠ [] ∨ leg.session.result.isSome = true) := by
    rintro (there | ⟨stored⟩)
    · exact queued there
    · rcases result : leg.session.result with _ | _ | _
      · rw [result] at stored
        cases stored
      · exact accepted result
      · exact rejected result
  have asks : ∀ new, askOf leg.session packet new = some (.poll (answerLength (outcomes new))) := by
    intro new
    rw [askOf, if_pos ack, if_neg waiting]
  have echo : Act.Keeps Leg.exchanges echoUpstreamId := fun leg => by
    rw [echoUpstreamId_eq, Leg.takeUpId_exchanges]
  apply Act.Triple.bind (Act.Triple.at_state (still echo leg.exchanges) rfl)
  intro upId
  rw [buildAck_eq_ok, Act.bind_lift_ok]
  apply Act.Triple.of_states
  intro mid same
  apply Act.Triple.conseq (exchange_spends _ mid) (fun _ => id) _ (fun _ _ => id)
  intro _ after made
  apply Made.after (same.trans (List.append_nil _).symm) made
  intro new spends
  rw [List.nil_append, asks new]
  exact ⟨spends.1, spends.length⟩

theorem handleData_spends (packet : EapTlsPacket) (data : packet.isAck = false) (start : Leg) :
    Act.Triple (fun leg => leg = start) (handleData client fuel context packet)
      (fun _ => Made start fun new =>
        Taken client new ∧ new.length = spent start.session (askOf start.session packet new))
      (fun _ _ => True) := by
  have no_ack : ¬ packet.isAck = true := by
    rw [data]
    decide
  rintro leg rfl
  rcases fed : Reassembler.ingest packet leg.session.upReasm with ⟨e | none | record, after⟩
  · rw [handleData_raises fed]
    trivial
  · rw [handleData_more fed]
    have nothing : askOf leg.session packet [] = none := by
      rw [askOf, if_neg no_ack, fed]
    exact Made.refl ⟨taken_nil, (congrArg (spent leg.session) nothing).symm⟩
  · rw [handleData_complete fed]
    have asks : ∀ new, askOf leg.session packet new = some (.record record.length (answerLength
        (outcomes (new.drop (chunkCount leg.session.upstreamFragmentSize record.length - 1))))) := by
      intro new
      rw [askOf, if_neg no_ack, fed]
    have spends := @forward_spends client context fuel record
      { leg with session := completed leg.session after record }
    apply Act.Triple.conseq spends (fun _ => id) _ (fun _ _ => id) _ rfl
    rintro _ last ⟨new, grown, spends⟩
    refine ⟨new, grown, spends.1, ?_⟩
    show new.length = spent leg.session (askOf leg.session packet new)
    rw [asks new]
    exact spends.length

/-- **What handling a packet of the supplicant costs**, in reassemble mode. -/
theorem handleSupplicantEap_spends {eapBytes : Bytes} {start leg : Leg} {outcome : Outcome}
    (reassembling : start.session.mode = .reassemble)
    (returned : handleSupplicantEap client fuel context eapBytes start = (.ok outcome, leg)) :
    ∃ packet, parse eapBytes = .ok packet ∧
      Made start (fun new => Taken client new ∧
        new.length = spent start.session (askOf start.session packet new)) leg := by
  rcases parsed : parse eapBytes with e | packet
  · rw [handle_unparsed parsed] at returned
    cases returned
  refine ⟨packet, rfl, ?_⟩
  cases ack : packet.isAck with
  | true =>
      rw [handle_ack_eq reassembling parsed ack] at returned
      exact (handleAck_spends packet ack
        { start with session := arrived start.session packet }).returned rfl returned
  | false =>
      rw [handle_data_eq reassembling parsed ack] at returned
      exact (handleData_spends packet ack
        { start with session := arrived start.session packet }).returned rfl returned

end Mediator
end EapAccel
