import EapAccel.Upstream.Wire

/-!
# The retry loop

`_BigReplyClient._SendPacket` of `proxy/upstream_radius.py`. A request is sent, replies are
awaited for `timeout`, and the request is sent again, up to `retries` times. Every datagram that
comes to the socket is decoded and verified; one that pyrad refuses with a `PacketError`, or that
does not verify, is passed over.

The socket is a list of arrivals. What is in it and what comes to it, from whom, and when, is
up to the network. pyrad's `VerifyReply` is a parameter.
-/

set_option autoImplicit false

namespace EapAccel

open Foundations

/-! ## The socket -/

/-- A datagram and the time at which it is there to be received. -/
structure Arrival where
  time : ℕ
  raw : Bytes
  deriving DecidableEq, Repr

/-- The client's socket: the clock, what is there or will come, and how often it has sent. -/
structure Socket where
  now : ℕ
  arrivals : List Arrival
  sent : ℕ
  deriving DecidableEq, Repr

/-- pyrad's client for one request: how it decodes, `VerifyReply`, and its patience. -/
structure RetryingClient where
  pyrad : Pyrad
  verifyReply : RadiusPacket → Bytes → Except Raised Bool
  timeout : ℕ
  retries : ℕ

namespace Wire

/-- `except packet.PacketError`. -/
def isPacketError : Raised → Bool
  | .other name => "PacketError: ".toList.isPrefixOf name.toList
  | _ => false

theorem isPacketError_packetError (message : String) : isPacketError (packetError message) = true := by
  rw [packetError, isPacketError, String.toList_append]
  exact List.isPrefixOf_iff_prefix.mpr (List.prefix_append _ _)

end Wire

namespace RetryingClient

open Wire

variable (client : RetryingClient)

/-- What the loop makes of a datagram: `CreateReply` decodes it and `VerifyReply` judges it. -/
def readReply (rawreply : Bytes) : Except Raised (Option RadiusPacket) :=
  let verified : Except Raised (Option RadiusPacket) := do
    let reply ← decodePacketAllowLarge client.pyrad rawreply
    let verdict ← client.verifyReply reply rawreply
    return if verdict then some reply else none
  match verified with
  | .error e => if isPacketError e then .ok none else .error e
  | result => result

/-- What the decoder refuses is passed over. -/
theorem readReply_of_refused {rawreply : Bytes} {message : String}
    (refused : decodePacketAllowLarge client.pyrad rawreply = .error (packetError message)) :
    client.readReply rawreply = .ok none := by
  rw [readReply, refused]
  exact if_pos (isPacketError_packetError message)

/-- `recv(65535)`. -/
def recv (arrival : Arrival) : Bytes := arrival.raw.take 65535

/-- The inner loop: wait for a reply until `waitto`. Returns it with the time and what is left in
the socket. -/
def awaitReply (waitto : ℕ) : ℕ → List Arrival →
    Except Raised (Option RadiusPacket) × ℕ × List Arrival
  | now, [] => (.ok none, max now waitto, [])
  | now, arrival :: arrivals =>
      if now < waitto then
        -- `poll` returns when the datagram is there, or when the time is up.
        if arrival.time < waitto then
          match client.readReply (recv arrival) with
          | .ok none => awaitReply waitto (max now arrival.time) arrivals
          | result => (result, max now arrival.time, arrivals)
        else (.ok none, waitto, arrival :: arrivals)
      else (.ok none, now, arrival :: arrivals)

/-- The outer loop, with so many attempts left. -/
def attempts : ℕ → Act Raised Socket RadiusPacket
  | 0 => Act.raise .timeout
  | left + 1 => do
      Act.modify fun socket => { socket with sent := socket.sent + 1 }
      let socket ← Act.read
      let (result, now, arrivals) :=
        client.awaitReply (socket.now + client.timeout) socket.now socket.arrivals
      Act.modify fun socket => { socket with now := now, arrivals := arrivals }
      match ← Act.lift result with
      | some reply => return reply
      | none => attempts left

/-- `_SendPacket`. -/
def sendPacket : Act Raised Socket RadiusPacket := client.attempts client.retries

/-! ## One window -/

variable {client}

/-- The datagrams come in the order of their times. -/
def InOrder (arrivals : List Arrival) : Prop :=
  arrivals.Pairwise fun early late => early.time ≤ late.time

/-- Nothing worth anything is there before `waitto`: the window ends without a reply. -/
structure Quiet (client : RetryingClient) (waitto : ℕ) (arrivals : List Arrival)
    (result : Except Raised (Option RadiusPacket) × ℕ × List Arrival) : Prop where
  ignored : ∃ before, arrivals = before ++ result.2.2 ∧
    ∀ arrival ∈ before, client.readReply (recv arrival) = .ok none
  late : ∀ arrival ∈ result.2.2, waitto ≤ arrival.time
  nothing : result.1 = .ok none
  ends : result.2.1 = waitto

/-- The first arrival that is not passed over comes in the window, and ends it. -/
structure Heard (client : RetryingClient) (waitto now : ℕ) (arrivals : List Arrival)
    (result : Except Raised (Option RadiusPacket) × ℕ × List Arrival) (arrival : Arrival) :
    Prop where
  ignored : ∃ before, arrivals = before ++ arrival :: result.2.2 ∧
    ∀ other ∈ before, client.readReply (recv other) = .ok none
  early : arrival.time < waitto
  judged : result.1 = client.readReply (recv arrival)
  stops : client.readReply (recv arrival) ≠ .ok none
  ends : result.2.1 = max now arrival.time

/-- **A window is quiet, or it ends with the first arrival that is not passed over.** -/
theorem awaitReply_cases {waitto : ℕ} {arrivals : List Arrival} : ∀ {now : ℕ}, now < waitto →
    InOrder arrivals → Quiet client waitto arrivals (client.awaitReply waitto now arrivals) ∨
      ∃ arrival, Heard client waitto now arrivals (client.awaitReply waitto now arrivals) arrival := by
  induction arrivals with
  | nil =>
      intro now running _
      refine .inl ⟨⟨[], rfl, ?_⟩, ?_, rfl, max_eq_right running.le⟩
      · intro arrival member
        cases member
      · intro arrival member
        cases member
  | cons first arrivals ih =>
      intro now running ordered
      obtain ⟨least, later⟩ := List.pairwise_cons.mp ordered
      rw [awaitReply, if_pos running]
      by_cases early : first.time < waitto
      · rw [if_pos early]
        rcases judged : client.readReply (recv first) with e | _ | reply
        · refine .inr ⟨first, ⟨[], rfl, ?_⟩, early, judged.symm, ?_, rfl⟩
          · intro arrival member
            cases member
          · rw [judged]
            intro same
            cases same
        · rcases ih (max_lt running early) later with quiet | ⟨arrival, heard⟩
          · obtain ⟨before, split, ignored⟩ := quiet.ignored
            refine .inl ⟨⟨first :: before, ?_, ?_⟩, quiet.late, quiet.nothing, quiet.ends⟩
            · exact congrArg (first :: ·) split
            · exact List.forall_mem_cons.mpr ⟨judged, ignored⟩
          · obtain ⟨before, split, ignored⟩ := heard.ignored
            have order : first.time ≤ arrival.time := by
              apply least
              rw [split]
              exact List.mem_append_right _ List.mem_cons_self
            refine .inr ⟨arrival, ⟨first :: before, ?_, ?_⟩, heard.early, heard.judged, heard.stops, ?_⟩
            · exact congrArg (first :: ·) split
            · exact List.forall_mem_cons.mpr ⟨judged, ignored⟩
            · rw [heard.ends, max_assoc, max_eq_right order]
        · refine .inr ⟨first, ⟨[], rfl, ?_⟩, early, judged.symm, ?_, rfl⟩
          · intro arrival member
            cases member
          · rw [judged]
            intro same
            cases same
      · rw [if_neg early]
        refine .inl ⟨⟨[], rfl, ?_⟩, ?_, rfl, rfl⟩
        · intro arrival member
          cases member
        · intro arrival member
          rcases List.mem_cons.mp member with rfl | later
          · exact Nat.not_lt.mp early
          · exact (Nat.not_lt.mp early).trans (least arrival later)

/-! ## All attempts -/

/-- Nothing worth anything is there before the deadline: `Timeout`, at the deadline, after one
request in every window. -/
structure TimedOut (client : RetryingClient) (left : ℕ) (socket : Socket)
    (result : Except Raised RadiusPacket × Socket) : Prop where
  ignored : ∃ before, socket.arrivals = before ++ result.2.arrivals ∧
    ∀ arrival ∈ before, client.readReply (recv arrival) = .ok none
  late : 0 < left → ∀ arrival ∈ result.2.arrivals,
    socket.now + left * client.timeout ≤ arrival.time
  raises : result.1 = .error .timeout
  ends : result.2.now = socket.now + left * client.timeout
  sent : result.2.sent = socket.sent + left

/-- The first arrival that is not passed over comes before the deadline: it decides, at the time
at which it is there, after one request in every window up to then. -/
structure Decided (client : RetryingClient) (left : ℕ) (socket : Socket)
    (result : Except Raised RadiusPacket × Socket) (arrival : Arrival) : Prop where
  ignored : ∃ before, socket.arrivals = before ++ arrival :: result.2.arrivals ∧
    ∀ other ∈ before, client.readReply (recv other) = .ok none
  early : arrival.time < socket.now + left * client.timeout
  judged : client.readReply (recv arrival) = some <$> result.1
  ends : result.2.now = max socket.now arrival.time
  sent : result.2.sent = socket.sent + 1 + (result.2.now - socket.now) / client.timeout

/-- The first window of a socket. -/
def window (client : RetryingClient) (socket : Socket) :
    Except Raised (Option RadiusPacket) × ℕ × List Arrival :=
  client.awaitReply (socket.now + client.timeout) socket.now socket.arrivals

/-- After a window the reply is returned, or the request is sent again. -/
theorem attempts_succ (left : ℕ) (socket : Socket) :
    client.attempts (left + 1) socket =
      (Act.lift (client.window socket).1 >>= fun reply => match reply with
        | some reply => pure reply
        | none => client.attempts left)
        ⟨(client.window socket).2.1, (client.window socket).2.2, socket.sent + 1⟩ := rfl

theorem attempts_quiet {socket : Socket} {left : ℕ}
    (quiet : Quiet client (socket.now + client.timeout) socket.arrivals (client.window socket)) :
    client.attempts (left + 1) socket = client.attempts left
      ⟨socket.now + client.timeout, (client.window socket).2.2, socket.sent + 1⟩ := by
  rw [attempts_succ, quiet.nothing, quiet.ends]
  rfl

theorem attempts_heard {socket : Socket} {left : ℕ} {arrival : Arrival}
    (heard : Heard client (socket.now + client.timeout) socket.now socket.arrivals
      (client.window socket) arrival) :
    client.readReply (recv arrival) = some <$> (client.attempts (left + 1) socket).1 ∧
      (client.attempts (left + 1) socket).2 =
        ⟨max socket.now arrival.time, (client.window socket).2.2, socket.sent + 1⟩ := by
  rw [attempts_succ, heard.judged, heard.ends]
  rcases judged : client.readReply (recv arrival) with e | _ | reply
  · exact ⟨rfl, rfl⟩
  · exact absurd judged heard.stops
  · exact ⟨rfl, rfl⟩

/-- The socket after a quiet window. -/
def afterWindow (client : RetryingClient) (socket : Socket) : Socket where
  now := socket.now + client.timeout
  arrivals := (client.window socket).2.2
  sent := socket.sent + 1

theorem deadline_succ (client : RetryingClient) (left : ℕ) (socket : Socket) :
    socket.now + (left + 1) * client.timeout =
      (client.afterWindow socket).now + left * client.timeout := by
  have now : (client.afterWindow socket).now = socket.now + client.timeout := rfl
  rw [now, Nat.succ_mul]
  omega

theorem TimedOut.later {left : ℕ} {socket : Socket} {result : Except Raised RadiusPacket × Socket}
    (quiet : Quiet client (socket.now + client.timeout) socket.arrivals (client.window socket))
    (out : TimedOut client left (client.afterWindow socket) result) :
    TimedOut client (left + 1) socket result := by
  obtain ⟨before, split, ignored⟩ := quiet.ignored
  obtain ⟨before', split', ignored'⟩ := out.ignored
  have rest : (client.window socket).2.2 = before' ++ result.2.arrivals := split'
  constructor
  · refine ⟨before ++ before', ?_, List.forall_mem_append.mpr ⟨ignored, ignored'⟩⟩
    rw [split, rest, List.append_assoc]
  · intro _ arrival member
    rw [deadline_succ]
    rcases Nat.eq_zero_or_pos left with none | more
    · rw [none, Nat.zero_mul]
      apply quiet.late
      rw [rest]
      exact List.mem_append_right _ member
    · exact out.late more arrival member
  · exact out.raises
  · rw [deadline_succ]
    exact out.ends
  · have sent : result.2.sent = socket.sent + 1 + left := out.sent
    omega

theorem Decided.later (patient : 0 < client.timeout) {left : ℕ} {socket : Socket}
    {result : Except Raised RadiusPacket × Socket} {arrival : Arrival}
    (quiet : Quiet client (socket.now + client.timeout) socket.arrivals (client.window socket))
    (decided : Decided client left (client.afterWindow socket) result arrival) :
    Decided client (left + 1) socket result arrival := by
  obtain ⟨before, split, ignored⟩ := quiet.ignored
  obtain ⟨before', split', ignored'⟩ := decided.ignored
  have rest : (client.window socket).2.2 = before' ++ arrival :: result.2.arrivals := split'
  have late : socket.now + client.timeout ≤ arrival.time := by
    apply quiet.late
    rw [rest]
    exact List.mem_append_right _ List.mem_cons_self
  have ends : result.2.now = max (socket.now + client.timeout) arrival.time := decided.ends
  constructor
  · refine ⟨before ++ before', ?_, List.forall_mem_append.mpr ⟨ignored, ignored'⟩⟩
    rw [split, rest, List.append_assoc]
  · rw [deadline_succ]
    exact decided.early
  · exact decided.judged
  · rw [ends]
    omega
  · have sent : result.2.sent = socket.sent + 1 + 1 +
        (result.2.now - (socket.now + client.timeout)) / client.timeout := decided.sent
    have window : (result.2.now - socket.now) / client.timeout =
        (result.2.now - (socket.now + client.timeout)) / client.timeout + 1 := by
      have whole : result.2.now - socket.now =
          result.2.now - (socket.now + client.timeout) + client.timeout := by omega
      rw [whole, Nat.add_div_right _ patient]
    omega

/-- **Without a reply in time the loop raises `Timeout`; else the first one decides.** -/
theorem attempts_cases (patient : 0 < client.timeout) : ∀ left {socket : Socket},
    InOrder socket.arrivals → TimedOut client left socket (client.attempts left socket) ∨
      ∃ arrival, Decided client left socket (client.attempts left socket) arrival := by
  intro left
  induction left with
  | zero =>
      intro socket _
      refine .inl ⟨⟨[], rfl, ?_⟩, fun none => absurd none (Nat.lt_irrefl 0), rfl, ?_, rfl⟩
      · intro arrival member
        cases member
      · exact (congrArg (socket.now + ·) (Nat.zero_mul _)).symm
  | succ left ih =>
      intro socket ordered
      have first : socket.now < socket.now + client.timeout := Nat.lt_add_of_pos_right patient
      rcases @awaitReply_cases client _ _ _ first ordered with quiet | ⟨arrival, heard⟩
      · obtain ⟨before, split, _⟩ := quiet.ignored
        have rest : InOrder (client.afterWindow socket).arrivals := by
          rw [InOrder, split] at ordered
          exact (List.pairwise_append.mp ordered).2.1
        have goes : client.attempts (left + 1) socket =
            client.attempts left (client.afterWindow socket) := attempts_quiet quiet
        rw [goes]
        rcases ih rest with out | ⟨arrival, decided⟩
        · exact .inl (out.later quiet)
        · exact .inr ⟨arrival, decided.later patient quiet⟩
      · obtain ⟨before, split, ignored⟩ := heard.ignored
        obtain ⟨judged, ends⟩ := @attempts_heard client socket left arrival heard
        refine .inr ⟨arrival, ⟨before, ?_, ignored⟩, ?_, judged, ?_, ?_⟩
        · rw [ends]
          exact split
        · rw [deadline_succ]
          exact heard.early.trans_le (Nat.le_add_right _ _)
        · rw [ends]
        · have within : (max socket.now arrival.time - socket.now) / client.timeout = 0 := by
            apply Nat.div_eq_of_lt
            have early := heard.early
            omega
          rw [ends]
          exact (congrArg (socket.sent + 1 + ·) within).symm

/-! ## One patient listener -/

/-- What the loop makes of an arrival, and when: nothing, if it passes it over. -/
def verdictOn (client : RetryingClient) (arrival : Arrival) :
    Option (Except Raised RadiusPacket × ℕ) :=
  match client.readReply (recv arrival) with
  | .ok none => none
  | .ok (some reply) => some (.ok reply, arrival.time)
  | .error e => some (.error e, arrival.time)

/-- The time until which replies are awaited. -/
def deadline (client : RetryingClient) (socket : Socket) : ℕ :=
  socket.now + client.retries * client.timeout

/-- What a single listener would do who waits until the deadline: the outcome, the time of it, and
the number of requests that are out by then, one for each `timeout` that has begun. -/
def listen (client : RetryingClient) (socket : Socket) : Except Raised RadiusPacket × ℕ × ℕ :=
  match (socket.arrivals.filter fun arrival => arrival.time < client.deadline socket).findSome?
      client.verdictOn with
  | some (outcome, time) => (outcome, max socket.now time,
      socket.sent + 1 + (max socket.now time - socket.now) / client.timeout)
  | none => (.error .timeout, client.deadline socket, socket.sent + client.retries)

theorem verdictOn_eq_none {arrival : Arrival} :
    client.verdictOn arrival = none ↔ client.readReply (recv arrival) = .ok none := by
  rw [verdictOn]
  rcases client.readReply (recv arrival) with e | _ | reply
  · constructor <;> intro same <;> cases same
  · exact iff_of_true rfl rfl
  · constructor <;> intro same <;> cases same

theorem verdictOn_of_judged {arrival : Arrival} {outcome : Except Raised RadiusPacket}
    (judged : client.readReply (recv arrival) = some <$> outcome) :
    client.verdictOn arrival = some (outcome, arrival.time) := by
  rw [verdictOn, judged]
  cases outcome <;> rfl

/-- What the loop returns, when, and how often it has sent, a listener returns. -/
theorem sendPacket_eq_listen (patient : 0 < client.timeout) (tries : 0 < client.retries)
    {socket : Socket} (ordered : InOrder socket.arrivals) :
    ((client.sendPacket socket).1, (client.sendPacket socket).2.now,
      (client.sendPacket socket).2.sent) = client.listen socket := by
  rcases attempts_cases patient client.retries ordered with out | ⟨arrival, decided⟩
  · obtain ⟨before, split, ignored⟩ := out.ignored
    have nothing : (socket.arrivals.filter fun arrival =>
        arrival.time < client.deadline socket).findSome? client.verdictOn = none := by
      rw [List.findSome?_eq_none_iff]
      intro arrival member
      obtain ⟨there, early⟩ := List.mem_filter.mp member
      rw [split] at there
      rcases List.mem_append.mp there with heard | unheard
      · exact verdictOn_eq_none.mpr (ignored arrival heard)
      · exact absurd (of_decide_eq_true early) (Nat.not_lt.mpr (out.late tries arrival unheard))
    rw [listen, nothing, sendPacket, out.raises, out.ends, out.sent]
    rfl
  · obtain ⟨before, split, ignored⟩ := decided.ignored
    have first : (socket.arrivals.filter fun arrival =>
        arrival.time < client.deadline socket).findSome? client.verdictOn =
          some ((client.sendPacket socket).1, arrival.time) := by
      rw [split, List.filter_append, List.findSome?_append]
      have nothing : (before.filter fun arrival =>
          arrival.time < client.deadline socket).findSome? client.verdictOn = none := by
        rw [List.findSome?_eq_none_iff]
        intro other member
        exact verdictOn_eq_none.mpr (ignored other (List.mem_filter.mp member).1)
      have kept : decide (arrival.time < client.deadline socket) = true :=
        decide_eq_true decided.early
      rw [nothing, Option.none_or, List.filter_cons, if_pos kept, List.findSome?_cons,
        verdictOn_of_judged decided.judged]
      rfl
    rw [listen, first]
    simp only
    rw [← decided.ends, ← decided.sent]
    rfl

/-- **The retry loop is one patient listener**: when it sends again does not change what it
hears. -/
theorem sendPacket_listens (patient : 0 < client.timeout) (tries : 0 < client.retries)
    {socket : Socket} (ordered : InOrder socket.arrivals) :
    ((client.sendPacket socket).1, (client.sendPacket socket).2.now,
      (client.sendPacket socket).2.sent) = client.listen socket :=
  sendPacket_eq_listen patient tries ordered

/-- An Access-Accept without attributes. -/
def bareAccept : RadiusPacket where
  code := accessAccept
  id := 7
  authenticator := List.replicate 16 0

/-- The same in octets. -/
def bareAcceptOctets : Bytes := packetOctets accessAccept 7 (List.replicate 16 0) []

/-- A client that verifies a reply by its Identifier, and waits three times ten ticks. -/
def identifying : RetryingClient where
  pyrad := Pyrad.ofDictData (fun _ attributes => .ok ([], attributes))
    fun _ _ attributes => .ok attributes
  verifyReply := fun reply _ => .ok (reply.id == 7)
  timeout := 10
  retries := 3

theorem readReply_bareAccept : identifying.readReply bareAcceptOctets = .ok (some bareAccept) := by
  have decoded : decodePacketAllowLarge identifying.pyrad bareAcceptOctets = .ok bareAccept := by
    rw [bareAcceptOctets, decodePacketAllowLarge_octets rfl (by decide)]
    exact decodeAttributes.eq_1 _ _
  rw [readReply, decoded]
  rfl

/-- What is no RADIUS packet comes in the first window, and the reply in the second. -/
theorem sendPacket_listens_sample :
    (identifying.sendPacket ⟨0, [⟨1, []⟩, ⟨12, bareAcceptOctets⟩], 0⟩).1 = .ok bareAccept ∧
      (identifying.sendPacket ⟨0, [⟨1, []⟩, ⟨12, bareAcceptOctets⟩], 0⟩).2.now = 12 ∧
      (identifying.sendPacket ⟨0, [⟨1, []⟩, ⟨12, bareAcceptOctets⟩], 0⟩).2.sent = 2 := by
  have listens := @sendPacket_listens identifying (by decide) (by decide)
    ⟨0, [⟨1, []⟩, ⟨12, bareAcceptOctets⟩], 0⟩ (by simp [InOrder])
  have judged : identifying.verdictOn ⟨12, bareAcceptOctets⟩ = some (.ok bareAccept, 12) :=
    verdictOn_of_judged readReply_bareAccept
  have heard : identifying.listen ⟨0, [⟨1, []⟩, ⟨12, bareAcceptOctets⟩], 0⟩ =
      (.ok bareAccept, 12, 2) := by
    have search : ([⟨1, []⟩, ⟨12, bareAcceptOctets⟩] : List Arrival).findSome? identifying.verdictOn =
        some (.ok bareAccept, 12) := by
      rw [List.findSome?_cons, verdictOn_eq_none.mpr rfl, List.findSome?_cons, judged]
    have early : (([⟨1, []⟩, ⟨12, bareAcceptOctets⟩] : List Arrival).filter fun arrival =>
        arrival.time < identifying.deadline ⟨0, [⟨1, []⟩, ⟨12, bareAcceptOctets⟩], 0⟩) =
          [⟨1, []⟩, ⟨12, bareAcceptOctets⟩] := rfl
    rw [listen, early, search]
    rfl
  have whole := Prod.mk.inj (listens.trans heard)
  exact ⟨whole.1, Prod.mk.inj whole.2⟩

end RetryingClient
end EapAccel
