import EapAccel.Peers.Path

/-!
# A conversation follows the rounds

Packet by packet a conversation of the peers through a faithful proxy goes through their rounds: in
each one the supplicant sends its message (`Stage.up`) and gets the server's record (`Stage.down`),
until there is a verdict (`Stage.done`). A round takes no more packets than `cost` counts, so every
round is reached.
-/

set_option autoImplicit false

namespace EapAccel

open Foundations EapTls Mediator Downstream

namespace Peers

variable {peers : Peers}

/-! ## Rounds -/

/-- The records of both sides are within the limit. -/
structure Within (peers : Peers) (limit : ℕ) : Prop where
  messages : ∀ k, ∀ message ∈ (peers.rounds k).messages, message.length ≤ limit
  records : ∀ k, ∀ tlsRecord ∈ (peers.rounds k).records, tlsRecord.length ≤ limit

theorem messages_succ {k : ℕ} (open_ : (peers.rounds k).verdict = none) :
    (peers.rounds (k + 1)).messages =
      (peers.rounds k).messages ++ [peers.supplicant (peers.rounds k).records] := by
  rcases answer : peers.server
    ((peers.rounds k).messages ++ [peers.supplicant (peers.rounds k).records]) with
      tlsRecord | verdict
  · rw [rounds, round_of_record open_ answer]
  · rw [rounds, round_of_saidVerdict open_ answer]

theorem rounds_of_record {k : ℕ} (open_ : (peers.rounds k).verdict = none) {tlsRecord : Bytes}
    (answer : peers.server (peers.rounds (k + 1)).messages = .record tlsRecord) :
    (peers.rounds (k + 1)).records = (peers.rounds k).records ++ [tlsRecord] ∧
      (peers.rounds (k + 1)).verdict = none := by
  rw [messages_succ open_] at answer
  rw [rounds, round_of_record open_ answer]
  exact ⟨rfl, rfl⟩

theorem rounds_of_saidVerdict {k : ℕ} (open_ : (peers.rounds k).verdict = none) {verdict : Verdict}
    (answer : peers.server (peers.rounds (k + 1)).messages = .verdict verdict) :
    (peers.rounds (k + 1)).records = (peers.rounds k).records ∧
      (peers.rounds (k + 1)).verdict = some verdict := by
  rw [messages_succ open_] at answer
  rw [rounds, round_of_saidVerdict open_ answer]
  exact ⟨rfl, rfl⟩

theorem Proper.supplicant_le (proper : peers.Proper) (heard : List Bytes) :
    (peers.supplicant heard).length ≤ 2 ^ 32 := by
  by_cases silent : peers.supplicant heard = []
  · rw [silent]
    exact Nat.zero_le _
  · exact (proper.up heard silent).length_lt.le

/-- The records of proper peers are within what a length of four octets can tell. -/
theorem Proper.within (proper : peers.Proper) : peers.Within (2 ^ 32) := by
  have short : ∀ k, (∀ message ∈ (peers.rounds k).messages, message.length ≤ 2 ^ 32) ∧
      ∀ tlsRecord ∈ (peers.rounds k).records, tlsRecord.length ≤ 2 ^ 32 := by
    intro k
    induction k with
    | zero => exact ⟨List.forall_mem_nil _, List.forall_mem_nil _⟩
    | succ k ih =>
        by_cases open_ : (peers.rounds k).verdict = none
        · constructor
          · rw [messages_succ open_, List.forall_mem_append]
            exact ⟨ih.1, List.forall_mem_singleton.mpr (proper.supplicant_le _)⟩
          · rcases answer : peers.server (peers.rounds (k + 1)).messages with tlsRecord | verdict
            · rw [(rounds_of_record open_ answer).1, List.forall_mem_append]
              exact ⟨ih.2, List.forall_mem_singleton.mpr (proper.down _ _ answer).2.length_lt.le⟩
            · rw [(rounds_of_saidVerdict open_ answer).1]
              exact ih.2
        · rw [rounds, round_of_verdict open_]
          exact ih
  exact ⟨fun k => (short k).1, fun k => (short k).2⟩

/-- A bound on the packets that the supplicant sends in a round. -/
def cost (peers : Peers) (k : ℕ) : ℕ :=
  (peers.wrapUp (peers.rounds k).records).length + 1 + peers.span (peers.rounds (k + 1)).messages

/-- A bound on the packets that the supplicant sends before a round. -/
def due (peers : Peers) : ℕ → ℕ
  | 0 => 1
  | k + 1 => due peers k + peers.cost k

/-- The number of packets of the supplicant's message after these records. -/
def fragmentsUp (peers : Peers) (heard : List Bytes) : ℕ :=
  if peers.supplicant heard = [] then 1 else (peers.wrapUp heard).length

/-- What a round costs at a tariff. -/
def charge (peers : Peers) (tariff : Tariff) (k : ℕ) : ℕ :=
  (peers.fragmentsUp (peers.rounds k).records - 1) * tariff.more +
    tariff.ends (peers.rounds (k + 1)).messages + tariff.acks (peers.rounds (k + 1)).messages

/-- What so many rounds cost at a tariff, with the supplicant's first packet. -/
def bill (peers : Peers) (tariff : Tariff) : ℕ → ℕ
  | 0 => 1
  | k + 1 => bill peers tariff k + peers.charge tariff k

theorem due_mono {j k : ℕ} (early : j ≤ k) : peers.due j ≤ peers.due k := by
  induction early with
  | refl => exact le_rfl
  | step _ ih => exact ih.trans (Nat.le_add_right _ _)

end Peers

/-! ## Stages -/

/-- How far a round has come, and a bound on the packets that are left in it. -/
inductive Stage (peers : Peers) (holds : Holding) (tariff : Tariff) :
    ℕ → ℕ → Caller → Session → List Exchange → Prop where
  /-- The supplicant sends its message. -/
  | up {k : ℕ} {eapBytes gathered : Bytes} {packet : EapTlsPacket} {rest : List EapTlsPacket}
      {session : Session} {exchanges : List Exchange} (open_ : (peers.rounds k).verdict = none)
      (parsed : parse eapBytes = .ok packet)
      (utters : Utters (peers.supplicant (peers.rounds k).records) gathered packet rest)
      (held : holds (peers.rounds k).messages gathered [] session exchanges)
      (paid : exchanges.length + rest.length * tariff.more +
        tariff.ends (peers.rounds (k + 1)).messages + tariff.acks (peers.rounds (k + 1)).messages =
          peers.bill tariff (k + 1)) :
      Stage peers holds tariff k (rest.length + 1 + peers.span (peers.rounds (k + 1)).messages)
        { next := some eapBytes, rest := rest, heard := (peers.rounds k).records } session exchanges
  /-- The supplicant asks for the rest of the server's record. -/
  | down {k : ℕ} {eapBytes gathered piece tlsRecord : Bytes} {pieces : List Bytes}
      {ack : EapTlsPacket} {session : Session} {exchanges : List Exchange}
      (open_ : (peers.rounds k).verdict = none) (parsed : parse eapBytes = .ok ack)
      (isAck : ack.isAck = true)
      (answer : peers.server (peers.rounds (k + 1)).messages = .record tlsRecord)
      (whole : gathered ++ (piece :: pieces).flatten = tlsRecord)
      (held : holds (peers.rounds (k + 1)).messages [] (piece :: pieces) session exchanges)
      (paid : exchanges.length + (pieces.length + 1) * tariff.next = peers.bill tariff (k + 1)) :
      Stage peers holds tariff k (pieces.length + 1)
        { next := some eapBytes, gathered := gathered, heard := (peers.rounds k).records } session
        exchanges
  /-- There is a verdict. -/
  | done {k : ℕ} {verdict : Verdict} {session : Session} {exchanges : List Exchange}
      (open_ : (peers.rounds k).verdict = none)
      (ended : (peers.rounds (k + 1)).verdict = some verdict)
      (heard : (peers.callee exchanges).heard = (peers.rounds (k + 1)).messages)
      (paid : exchanges.length = peers.bill tariff (k + 1)) :
      Stage peers holds tariff (k + 1) 0
        { next := none, heard := (peers.rounds (k + 1)).records, result := some verdict } session
        exchanges

theorem Stage.of_bare {peers : Peers} {env : Env} {limit : ℕ} {holds : Holding} {tariff : Tariff}
    (faithful : Faithful peers env limit holds tariff) {k left : ℕ} {caller : Caller}
    {session session' : Session} {exchanges : List Exchange} (bare : session'.bare = session.bare)
    (stage : Stage peers holds tariff k left caller session exchanges) :
    Stage peers holds tariff k left caller session' exchanges := by
  cases stage with
  | up open_ parsed utters held paid => exact .up open_ parsed utters (faithful.bare bare held) paid
  | down open_ parsed isAck answer whole held paid =>
      exact .down open_ parsed isAck answer whole (faithful.bare bare held) paid
  | done open_ ended heard paid => exact .done open_ ended heard paid

/-- From one stage to another, one packet of the supplicant further. -/
def Advances (peers : Peers) (k left k' left' : ℕ) : Prop :=
  ∀ n, n + left ≤ peers.due (k + 1) → n + 1 + left' ≤ peers.due (k' + 1)

variable {peers : Peers} {holds : Holding} {tariff : Tariff} {session : Session}
  {exchanges : List Exchange}

theorem advances_within {k left left' : ℕ} (less : left' < left) : Advances peers k left k left' := by
  intro n bound
  omega

theorem advances_next {k left left' : ℕ} (some : 0 < left) (below : left' ≤ peers.cost (k + 1)) :
    Advances peers k left (k + 1) left' := by
  intro n bound
  have due : peers.due (k + 1 + 1) = peers.due (k + 1) + peers.cost (k + 1) := rfl
  omega

/-- **The supplicant begins its message.** -/
theorem say_stage (proper : peers.Proper) {k : ℕ} (open_ : (peers.rounds k).verdict = none)
    (held : holds (peers.rounds k).messages [] [] session exchanges)
    (paid : exchanges.length = peers.bill tariff k) (identifier : UInt8) :
    ∃ left, left ≤ peers.cost k ∧
      Stage peers holds tariff k left (peers.say (peers.rounds k).records identifier) session
        exchanges := by
  by_cases silent : peers.supplicant (peers.rounds k).records = []
  · rw [Peers.say, if_pos silent]
    refine ⟨_, ?_, .up open_ (parse_ack _ _) (.nothing silent (ackPacket_isAck _ _)) held ?_⟩
    · rw [Peers.cost, List.length_nil]
      omega
    · rw [Peers.bill, Peers.charge, Peers.fragmentsUp, if_pos silent, paid, List.length_nil]
      omega
  · have wraps := proper.up _ silent
    rw [Peers.say, if_neg silent]
    rcases packets : peers.wrapUp (peers.rounds k).records with _ | ⟨first, rest⟩
    · exact absurd packets wraps.ne_nil
    · have inFragments := wraps.inFragments
      have whole := wraps.whole
      have trueLength := @Wraps.trueLength _ _ _ wraps
      rw [packets] at inFragments whole trueLength
      obtain ⟨fragment, later⟩ := inFragments
      have encodable := (fragment.under identifier).encodable
      have told : ∀ other ∈ first.under identifier :: rest, ∀ n ∈ Reassembler.declared other,
          n = (peers.supplicant (peers.rounds k).records).length := by
        intro other member n declares
        rcases List.mem_cons.mp member with rfl | member
        · have member : first ∈ first :: rest := List.mem_cons_self
          exact trueLength member declares
        · exact trueLength (List.mem_cons_of_mem _ member) declares
      refine ⟨_, ?_, .up open_ (parse_layout encodable)
        (.fragments ⟨fragment.under identifier, later⟩ whole told wraps.length_lt silent) held ?_⟩
      · rw [Peers.cost, packets, List.length_cons]
        omega
      · rw [Peers.bill, Peers.charge, Peers.fragmentsUp, if_neg silent, packets, paid,
          List.length_cons, Nat.add_sub_cancel]
        omega

/-- **The supplicant gets a piece of the server's record.** -/
theorem piece_stage (proper : peers.Proper) {k : ℕ} (open_ : (peers.rounds k).verdict = none)
    {tlsRecord gathered : Bytes}
    (answer : peers.server (peers.rounds (k + 1)).messages = .record tlsRecord)
    {packet : EapTlsPacket} {pieces : List Bytes} (fragment : IsFragment packet (!pieces.isEmpty))
    (whole : gathered ++ (packet.tlsData ++ pieces.flatten) = tlsRecord)
    (held : holds (peers.rounds (k + 1)).messages [] pieces session exchanges)
    (paid : exchanges.length + pieces.length * tariff.next = peers.bill tariff (k + 1)) {left : ℕ}
    (bound : pieces.length < left) (eapBytes : Option Bytes) :
    ∃ k' left', Advances peers k left k' left' ∧ Stage peers holds tariff k' left'
      (peers.hears packet
        { next := eapBytes, gathered := gathered, heard := (peers.rounds k).records })
      session exchanges := by
  cases pieces with
  | nil =>
      obtain ⟨records, open'⟩ := Peers.rounds_of_record open_ answer
      have all : gathered ++ packet.tlsData = tlsRecord := by simpa using whole
      have even : exchanges.length = peers.bill tariff (k + 1) := by
        rwa [List.length_nil, Nat.zero_mul] at paid
      obtain ⟨left', below, stage⟩ := say_stage proper open' held even packet.identifier
      refine ⟨k + 1, left', advances_next (Nat.zero_lt_of_lt bound) below, ?_⟩
      rw [Peers.hears_last fragment, all, ← records]
      exact stage
  | cons piece pieces =>
      refine ⟨k, _, advances_within bound, ?_⟩
      rw [Peers.hears_more fragment]
      have rest : gathered ++ packet.tlsData ++ (piece :: pieces).flatten = tlsRecord := by
        rw [← whole, List.append_assoc]
      exact .down open_ (parse_ack _ _) (ackPacket_isAck _ _) answer rest held paid

/-! ## One packet -/

variable {env : Env} {limit : ℕ}

theorem Yields.mono {context : AuthContext} {eapBytes : Bytes} {leg : Leg}
    {after after' : Outcome → Leg → Prop} (yields : Yields env context eapBytes leg after)
    (weaker : ∀ outcome leg', after outcome leg' → after' outcome leg') :
    Yields env context eapBytes leg after' := by
  obtain ⟨outcome, leg', routes, holds⟩ := yields
  exact ⟨outcome, leg', routes, weaker outcome leg' holds⟩

/-- Whatever reply is made of the outcome, the supplicant gets on with it. -/
def GetsOn (peers : Peers) (holds : Holding) (tariff : Tariff) (k left : ℕ) (caller : Caller)
    (outcome : Outcome) (leg : Leg) : Prop :=
  ∀ reply : ApReply, reply.code = outcome.action.code → reply.eap = outcome.eapBytes.getD [] →
    ∃ k' left', Advances peers k left k' left' ∧
      Stage peers holds tariff k' left' (peers.receives caller [reply]) leg.session leg.exchanges

/-- What the server says to a message brings the supplicant on. -/
theorem getsOn_of_tells (proper : peers.Proper) {k left : ℕ}
    (open_ : (peers.rounds k).verdict = none) {eapBytes : Option Bytes} {outcome : Outcome}
    {leg : Leg}
    (tells : Tells peers holds tariff (peers.rounds (k + 1)).messages outcome leg)
    (paid : leg.exchanges.length + tariff.acks (peers.rounds (k + 1)).messages =
      peers.bill tariff (k + 1))
    (bound : peers.span (peers.rounds (k + 1)).messages < left) :
    GetsOn peers holds tariff k left { next := eapBytes, heard := (peers.rounds k).records } outcome
      leg := by
  intro reply code eap
  rcases answer : peers.server (peers.rounds (k + 1)).messages with tlsRecord | verdict
  · obtain ⟨packet, pieces, conveys, fragment, whole, short, acks, held⟩ := tells.record _ answer
    rw [← acks] at paid
    rw [Peers.receives_packet code eap conveys]
    exact piece_stage proper open_ answer fragment whole held paid (short.trans bound) eapBytes
  · obtain ⟨said, heard, acks⟩ := tells.verdict _ answer
    rw [acks] at paid
    obtain ⟨records, ended⟩ := Peers.rounds_of_saidVerdict open_ answer
    refine ⟨k + 1, 0, advances_next (Nat.zero_lt_of_lt bound) (Nat.zero_le _), ?_⟩
    rw [Peers.receives_verdict code said, ← records]
    exact .done open_ ended heard paid

/-- **A packet of the supplicant brings the conversation on.** -/
theorem Stage.getsOn (faithful : Faithful peers env limit holds tariff) (proper : peers.Proper)
    (within : peers.Within limit) {k left : ℕ} {caller : Caller}
    (stage : Stage peers holds tariff k left caller session exchanges) {eapBytes : Bytes}
    (next : caller.next = some eapBytes) (context : AuthContext) {leg : Leg}
    (bare : leg.session.bare = session.bare) (same : leg.exchanges = exchanges)
    (underway : Unfinished env leg) :
    Yields env context eapBytes leg (GetsOn peers holds tariff k left caller) := by
  subst same
  cases stage with
  | @up _ _ gathered packet rest _ _ open_ parsed utters held paid =>
      cases next
      have here := faithful.bare bare held
      have messages := Peers.messages_succ open_
      have size : (peers.supplicant (peers.rounds k).records).length ≤ limit := by
        apply within.messages (k + 1)
        rw [messages]
        exact List.mem_append_right _ List.mem_cons_self
      cases rest with
      | nil =>
          have small : ∀ tlsRecord,
              peers.server ((peers.rounds k).messages ++
                [peers.supplicant (peers.rounds k).records]) = .record tlsRecord →
                  tlsRecord.length ≤ limit := by
            intro tlsRecord answer
            rw [← messages] at answer
            apply within.records (k + 1)
            rw [(Peers.rounds_of_record open_ answer).1]
            exact List.mem_append_right _ List.mem_cons_self
          have yields := faithful.ends context leg _ _ _ eapBytes packet underway here parsed
            utters.ends size small
          rw [← messages] at yields
          refine yields.mono fun outcome leg' told => ?_
          obtain ⟨cost, tells⟩ := told
          have even : leg'.exchanges.length + tariff.acks (peers.rounds (k + 1)).messages =
              peers.bill tariff (k + 1) := by
            rw [List.length_nil, Nat.zero_mul, Nat.add_zero] at paid
            rw [cost, paid]
          exact getsOn_of_tells proper open_ tells even (by omega)
      | cons first rest =>
          obtain ⟨fragment, room, declares, _⟩ := utters.goesOn 0
          have yields := faithful.more context leg _ _ eapBytes packet underway here parsed fragment
            (fun n told => (declares n told).trans_le size) (room.trans size)
          refine yields.mono fun outcome leg' conveyed reply code eap => ?_
          obtain ⟨cost, ack, conveys, isAck, held⟩ := conveyed
          obtain ⟨_, _, _, later⟩ := utters.goesOn ack.identifier
          rw [Peers.receives_packet code eap conveys, Peers.hears_ack isAck rfl]
          have encodable : (first.under ack.identifier).Encodable := by
            cases utters with
            | fragments inFragments => exact (inFragments.2.1.under ack.identifier).encodable
          refine ⟨k, _, advances_within ?_, .up open_ (parse_layout encodable) later held ?_⟩
          · rw [List.length_cons]
            omega
          · rw [List.length_cons, Nat.succ_mul] at paid
            rw [cost]
            omega
  | @down _ _ gathered piece tlsRecord pieces ack _ _ open_ parsed isAck answer whole held paid =>
      cases next
      have yields := faithful.next context leg _ _ _ eapBytes ack underway
        (faithful.bare bare held) parsed isAck
      refine yields.mono fun outcome leg' conveyed reply code eap => ?_
      obtain ⟨cost, packet, conveys, fragment, data, later⟩ := conveyed
      rw [Peers.receives_packet code eap conveys]
      have all : gathered ++ (packet.tlsData ++ pieces.flatten) = tlsRecord := by
        rw [data, ← whole]
        rfl
      have even : leg'.exchanges.length + pieces.length * tariff.next =
          peers.bill tariff (k + 1) := by
        rw [Nat.succ_mul] at paid
        rw [cost]
        omega
      exact piece_stage proper open_ answer fragment all later even (Nat.lt_succ_self _) _
  | done => cases next

/-! ## Conversations -/

/-- The supplicant and the proxy after so many packets of the supplicant. Each was handled before
the next, and no reply was lost. -/
inductive Conversation (peers : Peers) (env : Env) : ℕ → Caller → Server → Prop where
  | start : Conversation peers env 0 peers.caller (initial env)
  | step {n : ℕ} {caller : Caller} {σ σ' : Server} {eapBytes : Bytes} {datagram : Datagram}
      {request : ApRequest} {replies : List BuiltReply} (before : Conversation peers env n caller σ)
      (next : caller.next = some eapBytes) (forwards : Forwards eapBytes datagram request σ)
      (served : Served env datagram σ σ') (replied : σ'.replies = σ.replies ++ replies) :
      Conversation peers env (n + 1) (peers.receives caller (replies.map (·.reply))) σ'

/-- If there is a next request, it finds the session, which has no verdict. -/
def Listed (env : Env) (caller : Caller) (σ : Server) : Prop :=
  caller.next ≠ none → (σ.atHand env 0).result = none ∧
    ∃ state, lastState σ = some state ∧ σ.table.lookup ("st:" ++ hex state) = some 0

/-- What holds of a conversation after so many packets. -/
inductive OnTheWay (peers : Peers) (env : Env) (holds : Holding) (tariff : Tariff) :
    ℕ → Caller → Server → Prop where
  | start : OnTheWay peers env holds tariff 0 peers.caller (initial env)
  | within {n k left : ℕ} {caller : Caller} {σ : Server} (regular : σ.Regular env)
      (named : σ.Named) (listed : Listed env caller σ)
      (stage : Stage peers holds tariff k left caller (σ.atHand env 0) σ.exchanges)
      (bound : n + left ≤ peers.due (k + 1)) : OnTheWay peers env holds tariff n caller σ

/-- After the reply the next request finds the session again. -/
theorem listed_of_answered {outcome : Outcome} {leg' : Leg} {sent : BuiltReply} {σ σ' : Server}
    (answered : AnsweredBy env 0 outcome leg' sent σ σ')
    (unfinished : (σ.atHand env 0).result = none) (caller : Caller) :
    Listed env (peers.receives caller [sent.reply]) σ' := by
  intro next
  have open_ : outcome.action.verdict = none := by
    by_contra ended
    obtain ⟨verdict, said⟩ := Option.ne_none_iff_exists'.mp ended
    rw [Peers.receives_verdict answered.code said] at next
    exact next rfl
  obtain ⟨result, state, told, listed⟩ := answered.unfinished open_ unfinished
  refine ⟨result, state, ?_, listed⟩
  rw [lastState, answered.replies, List.getLast?_concat]
  exact told

/-- **Every packet is answered, and the conversation stays on its way.** -/
theorem OnTheWay.step (faithful : Faithful peers env limit holds tariff) (proper : peers.Proper)
    (within : peers.Within limit) (genuine : Genuine env) {n : ℕ} {caller : Caller} {σ : Server}
    (onTheWay : OnTheWay peers env holds tariff n caller σ) {eapBytes : Bytes}
    (next : caller.next = some eapBytes) {datagram : Datagram} {request : ApRequest}
    (forwards : Forwards eapBytes datagram request σ) :
    ∃ sent σ', Served env datagram σ σ' ∧ σ'.replies = σ.replies ++ [sent] ∧
      OnTheWay peers env holds tariff (n + 1) (peers.receives caller [sent.reply]) σ' := by
  cases onTheWay with
  | start =>
      cases next
      obtain ⟨context, leg, bare, _, same, answers⟩ :=
        answered_of_routes genuine (regular_initial env) (named_initial env) forwards.opens
      have new : (initial env).atHand env 0 = Session.create 0 "" env.cfg 0 :=
        if_neg (Nat.not_lt_zero 0)
      rw [new] at bare
      obtain ⟨outcome, leg', routes, cost, packet, conveys, start, held⟩ :=
        faithful.start context leg bare same
      obtain ⟨sent, σ', served, answered⟩ := answers outcome leg' routes
      have paid : leg'.exchanges.length = peers.bill tariff 0 := by
        rw [cost, same]
        rfl
      obtain ⟨left, below, stage⟩ :=
        @say_stage peers holds tariff _ _ proper 0 rfl held paid packet.identifier
      have hears : peers.receives peers.caller [sent.reply] =
          peers.say (peers.rounds 0).records packet.identifier := by
        rw [Peers.receives_packet answered.code answered.eap conveys, Peers.hears_start start]
        rfl
      rw [← hears] at stage
      have later := stage.of_bare faithful answered.session
      rw [← answered.exchanges] at later
      have due : peers.due (0 + 1) = 1 + peers.cost 0 := rfl
      refine ⟨sent, σ', served, answered.replies,
        .within answered.regular answered.named ?_ later ?_⟩
      · exact listed_of_answered answered (congrArg Session.result new) peers.caller
      · omega
  | within regular named listed stage bound =>
      obtain ⟨unfinished, state, last, there⟩ := listed (by rw [next]; simp)
      obtain ⟨context, leg, bare, configured, same, answers⟩ :=
        answered_of_routes genuine regular named (forwards.retransmits last there)
      obtain ⟨outcome, leg', routes, getsOn⟩ :=
        stage.getsOn faithful proper within next context bare same
          ⟨configured, (congrArg Session.result bare).trans unfinished⟩
      obtain ⟨sent, σ', served, answered⟩ := answers outcome leg' routes
      obtain ⟨k', left', advances, stage'⟩ := getsOn sent.reply answered.code answered.eap
      have later := stage'.of_bare faithful answered.session
      rw [← answered.exchanges] at later
      refine ⟨sent, σ', served, answered.replies,
        .within answered.regular answered.named ?_ later ?_⟩
      · exact listed_of_answered answered unfinished caller
      · exact advances _ bound

/-- **Conversations stay on their way.** -/
theorem Conversation.onTheWay (faithful : Faithful peers env limit holds tariff)
    (proper : peers.Proper)
    (within : peers.Within limit) (genuine : Genuine env) {n : ℕ} {caller : Caller} {σ : Server}
    (conversation : Conversation peers env n caller σ) :
    OnTheWay peers env holds tariff n caller σ := by
  induction conversation with
  | start => exact .start
  | step _ next forwards served replied ih =>
      obtain ⟨sent, after, served', replied', onTheWay⟩ :=
        ih.step faithful proper within genuine next forwards
      obtain rfl := served.unique served'
      obtain rfl := List.append_cancel_left (replied.symm.trans replied')
      exact onTheWay

/-! ## How far a conversation has come -/

/-- The conversation as far as it has come: the messages that have reached the server, the records
that have reached the supplicant, and the verdict that has reached the AP. -/
def Peers.soFar (peers : Peers) (caller : Caller) (σ : Server) : Talk where
  messages := (peers.callee σ.exchanges).heard
  records := caller.heard
  verdict := caller.result

theorem Peers.soFar_eq (talk : Talk) {caller : Caller} {σ : Server}
    (messages : (peers.callee σ.exchanges).heard = talk.messages)
    (records : caller.heard = talk.records) (verdict : caller.result = talk.verdict) :
    peers.soFar caller σ = talk := by
  rw [Peers.soFar, messages, records, verdict]

/-- **In a round** a conversation has come to the beginning of the round, and goes on to its end. -/
theorem Stage.between (faithful : Faithful peers env limit holds tariff) {k left : ℕ}
    {caller : Caller}
    {σ : Server} (stage : Stage peers holds tariff k left caller session σ.exchanges) :
    (peers.rounds k).Before (peers.soFar caller σ) ∧
      (peers.soFar caller σ).Before (peers.rounds (k + 1)) := by
  cases stage with
  | up open_ parsed utters held =>
      rw [Peers.soFar_eq (peers.rounds k) (faithful.heard held) rfl open_.symm]
      exact ⟨.refl _, Peers.before_round _⟩
  | down open_ parsed isAck answer whole held =>
      have round := @Peers.before_round peers (peers.rounds k)
      have heard := faithful.heard held
      constructor
      · constructor
        · rw [Peers.soFar, heard]
          exact round.messages
        · exact List.prefix_rfl
        · exact fun ended => absurd open_ ended
      · constructor
        · exact heard ▸ List.prefix_rfl
        · exact round.records
        · exact fun ended => absurd rfl ended
  | @done k _ _ _ open_ ended heard =>
      rw [Peers.soFar_eq (peers.rounds (k + 1)) heard rfl ended.symm]
      exact ⟨.refl _, Peers.before_round _⟩

/-- **A conversation says nothing but what the peers say.** -/
theorem OnTheWay.before (faithful : Faithful peers env limit holds tariff) {n : ℕ} {caller : Caller}
    {σ : Server} (onTheWay : OnTheWay peers env holds tariff n caller σ) :
    ∃ k, (peers.soFar caller σ).Before (peers.rounds k) := by
  cases onTheWay with
  | start => exact ⟨0, .refl _⟩
  | @within _ k left _ _ regular named listed stage bound =>
      exact ⟨k + 1, (stage.between faithful).2⟩

theorem Stage.running {k left : ℕ} {caller : Caller}
    (stage : Stage peers holds tariff k left caller session exchanges)
    (open_ : (peers.rounds k).verdict = none) : 0 < left ∧ caller.next ≠ none := by
  cases stage with
  | up => exact ⟨by omega, Option.some_ne_none _⟩
  | down => exact ⟨Nat.succ_pos _, Option.some_ne_none _⟩
  | done _ ended => exact absurd (ended.symm.trans open_) (Option.some_ne_none _)

/-- **A conversation ends with a verdict.** -/
theorem OnTheWay.result {n : ℕ} {caller : Caller} {σ : Server}
    (onTheWay : OnTheWay peers env holds tariff n caller σ) (ended : caller.next = none) :
    caller.result ≠ none := by
  cases onTheWay with
  | start => cases ended
  | within regular named listed stage bound =>
      cases stage with
      | up => cases ended
      | down => cases ended
      | done => exact Option.some_ne_none _

/-- **What a conversation has cost at its end.** -/
theorem OnTheWay.cost {n : ℕ} {caller : Caller} {σ : Server}
    (onTheWay : OnTheWay peers env holds tariff n caller σ) (finished : caller.next = none) {k : ℕ}
    (open_ : (peers.rounds k).verdict = none) (ended : (peers.rounds (k + 1)).verdict ≠ none) :
    σ.exchanges.length = peers.bill tariff (k + 1) := by
  cases onTheWay with
  | start => cases finished
  | within regular named listed stage bound =>
      cases stage with
      | up => cases finished
      | down => cases finished
      | @done j _ _ _ before verdict heard paid =>
          have some : (peers.rounds (j + 1)).verdict ≠ none := by
            rw [verdict]
            exact Option.some_ne_none _
          have early : j ≤ k := by
            by_contra late
            rw [(Peers.rounds_before (Nat.lt_of_not_le late)).verdict ended] at before
            exact ended before
          have late : k ≤ j := by
            by_contra early
            rw [(Peers.rounds_before (Nat.lt_of_not_le early)).verdict some] at open_
            exact some open_
          obtain rfl := Nat.le_antisymm early late
          exact paid

theorem Peers.due_pos (peers : Peers) (k : ℕ) : 0 < peers.due k :=
  (@Peers.due_mono peers 0 k (Nat.zero_le k)).trans_lt' Nat.zero_lt_one

/-- **Every round is reached**, unless there is a verdict before. -/
theorem OnTheWay.reaches (faithful : Faithful peers env limit holds tariff) {n : ℕ} {caller : Caller}
    {σ : Server} (onTheWay : OnTheWay peers env holds tariff n caller σ) {k : ℕ}
    (late : peers.due k ≤ n ∨ caller.next = none) :
    (peers.rounds k).Before (peers.soFar caller σ) := by
  cases onTheWay with
  | start =>
      rcases late with late | ended
      · exact absurd late (Nat.not_le.mpr (peers.due_pos k))
      · cases ended
  | @within _ j left _ _ regular named listed stage bound =>
      have far := (stage.between faithful).1
      rcases Nat.le_total k j with early | past
      · exact (Peers.rounds_before early).trans far
      · by_cases open_ : (peers.rounds j).verdict = none
        · obtain ⟨some, next⟩ := stage.running open_
          have long := late.resolve_right next
          have here : k ≤ j := by
            by_contra later
            have due := @Peers.due_mono peers (j + 1) k (by omega)
            omega
          exact (Peers.rounds_before here).trans far
        · rw [(Peers.rounds_before past).verdict open_]
          exact far

end EapAccel
