import EapAccel.EapTls.Framing

/-!
# Messages in a stream of packets

A peer sends its messages one after another, and the M bit tells where one ends. Of a
stream of its packets, `lastMessage` is the message that is under way, or that was finished
last. A reassembler that is fed the stream holds this message (`Holds.feed`), as long as no
packet in the middle of a message was refused.
-/

set_option autoImplicit false

namespace EapAccel.EapTls

open Foundations Reassembler

/-! ## Messages -/

/-- The message after one more packet. ACKs have no part in it. A data packet goes on with a
message that is not at its end, and else opens the next one. -/
def nextMessage (message : List EapTlsPacket) (packet : EapTlsPacket) : List EapTlsPacket :=
  if packet.isAck then message
  else if message.all (·.moreFragments) then message ++ [packet]
  else [packet]

/-- The message that is under way after these packets, or was finished last. -/
def lastMessage (packets : List EapTlsPacket) : List EapTlsPacket := packets.foldl nextMessage []

/-- The message goes from its first packet to one with M clear. -/
def Finished (message : List EapTlsPacket) : Prop :=
  ∃ init last, message = init ++ [last] ∧ (∀ packet ∈ init, packet.moreFragments = true) ∧
    last.moreFragments = false

/-- The bytes are the whole of the last message of the stream. -/
def Whole (packets : List EapTlsPacket) (message : Bytes) : Prop :=
  Finished (lastMessage packets) ∧ message = joined (lastMessage packets)

/-- No message is under way. -/
def BetweenMessages (packets : List EapTlsPacket) : Prop :=
  lastMessage packets = [] ∨ Finished (lastMessage packets)

theorem lastMessage_concat (packets : List EapTlsPacket) (packet : EapTlsPacket) :
    lastMessage (packets ++ [packet]) = nextMessage (lastMessage packets) packet := by
  simp [lastMessage]

theorem nextMessage_ack {packet : EapTlsPacket} (ack : packet.isAck = true)
    (message : List EapTlsPacket) : nextMessage message packet = message := by
  rw [nextMessage, if_pos ack]

/-- A message under way goes on. -/
theorem nextMessage_more {message : List EapTlsPacket} {packet : EapTlsPacket}
    (data : packet.isAck = false) (more : ∀ packet ∈ message, packet.moreFragments = true) :
    nextMessage message packet = message ++ [packet] := by
  rw [nextMessage, if_neg (by rw [data]; decide), if_pos (List.all_eq_true.mpr more)]

/-- After a finished message the next one begins. -/
theorem nextMessage_finished {message : List EapTlsPacket} {packet : EapTlsPacket}
    (data : packet.isAck = false) (finished : Finished message) :
    nextMessage message packet = [packet] := by
  obtain ⟨init, last, rfl, _, final⟩ := finished
  rw [nextMessage, if_neg (by rw [data]; decide), if_neg]
  simp [final]

theorem nextMessage_between {packets : List EapTlsPacket} {packet : EapTlsPacket}
    (data : packet.isAck = false) (between : BetweenMessages packets) :
    nextMessage (lastMessage packets) packet = [packet] := by
  rcases between with empty | finished
  · rw [empty]
    exact nextMessage_more data (by simp)
  · exact nextMessage_finished data finished

/-! ## What a reassembler holds of the stream -/

namespace Reassembler

/-- The reassembler after some packets, whatever each of them returned or raised. -/
def feed (reassembler : Reassembler) (packets : List EapTlsPacket) : Reassembler :=
  packets.foldl (fun r packet => (ingest packet r).2) reassembler

@[simp] theorem feed_nil (reassembler : Reassembler) : reassembler.feed [] = reassembler := rfl

theorem feed_cons (reassembler : Reassembler) (packet : EapTlsPacket)
    (packets : List EapTlsPacket) :
    reassembler.feed (packet :: packets) = Reassembler.feed (ingest packet reassembler).2 packets :=
  rfl

theorem feed_ack {packet : EapTlsPacket} (ack : packet.isAck = true) (reassembler : Reassembler) :
    reassembler.feed [packet] = reassembler := by
  rw [feed_cons, feed_nil, ingest_ack ack]

theorem feed_concat (reassembler : Reassembler) (packets : List EapTlsPacket)
    (packet : EapTlsPacket) :
    reassembler.feed (packets ++ [packet]) = (ingest packet (reassembler.feed packets)).2 := by
  simp [feed]

/-- Every packet but the first finds a message open. -/
def StaysOpen (reassembler : Reassembler) (packets : List EapTlsPacket) : Prop :=
  ∀ init packet rest, packets = init ++ packet :: rest → init ≠ [] →
    (reassembler.feed init).state = .inProgress

theorem staysOpen_nil (reassembler : Reassembler) : reassembler.StaysOpen [] := by
  intro init packet rest split
  simp at split

theorem StaysOpen.concat {reassembler : Reassembler} {packets : List EapTlsPacket}
    (stays : reassembler.StaysOpen packets)
    (here : packets ≠ [] → (reassembler.feed packets).state = .inProgress)
    (packet : EapTlsPacket) : reassembler.StaysOpen (packets ++ [packet]) := by
  intro init last rest split some
  rcases List.eq_nil_or_concat rest with rfl | ⟨rest, final, rfl⟩
  · obtain ⟨rfl, _⟩ := List.append_inj' split rfl
    exact here some
  · rw [List.concat_eq_append, ← List.cons_append, ← List.append_assoc] at split
    exact stays init last rest (List.append_inj' split rfl).1 some

theorem StaysOpen.of_concat {reassembler : Reassembler} {packets : List EapTlsPacket}
    {packet : EapTlsPacket} (stays : reassembler.StaysOpen (packets ++ [packet])) :
    reassembler.StaysOpen packets ∧
      (packets ≠ [] → (reassembler.feed packets).state = .inProgress) := by
  refine ⟨fun init last rest split some => ?_, stays packets packet [] rfl⟩
  exact stays init last (rest ++ [packet]) (by rw [split]; simp) some

end Reassembler

/-- What a reassembler holds of the stream that it was fed: the message that is under way, or
the one that was finished last. Once the open message is over the limit, nothing completes. -/
structure Holds (packets : List EapTlsPacket) (reassembler : Reassembler) : Prop where
  complete : reassembler.state = .complete → Whole packets reassembler.buffer
  underway : reassembler.state = .inProgress →
    ((∀ packet ∈ lastMessage packets, packet.moreFragments = true) ∧
        reassembler.buffer = joined (lastMessage packets)) ∨
      reassembler.maxMessageLen < reassembler.buffer.length

theorem holds_idle {packets : List EapTlsPacket} {reassembler : Reassembler}
    (idle : reassembler.state = .idle) : Holds packets reassembler := by
  constructor
  · intro complete
    rw [idle] at complete
    cases complete
  · intro inProgress
    rw [idle] at inProgress
    cases inProgress

/-- **One packet.** What opens a message in the reassembler has to begin one in the stream. -/
theorem Holds.ingest {packets : List EapTlsPacket} {reassembler : Reassembler}
    (holds : Holds packets reassembler) {packet : EapTlsPacket}
    (begins : packet.isAck = false → reassembler.state ≠ .inProgress → BetweenMessages packets) :
    Holds (packets ++ [packet]) (ingest packet reassembler).2 := by
  rcases ack : packet.isAck with _ | _
  · by_cases refused : reassembler.Refuses packet
    · obtain ⟨rest, n, declares, large⟩ := refused
      rw [ingest_refused ack rest declares large]
      exact holds_idle rfl
    -- Either the message in the buffer goes on in the stream, or both begin one, or the
    -- buffer is over the limit.
    have buffered : ((∀ p ∈ lastMessage packets, p.moreFragments = true) ∧
        reassembler.pending = joined (lastMessage packets) ∧
          nextMessage (lastMessage packets) packet = lastMessage packets ++ [packet]) ∨
        (reassembler.pending = [] ∧ nextMessage (lastMessage packets) packet = [packet]) ∨
          reassembler.maxMessageLen < reassembler.pending.length := by
      by_cases inProgress : reassembler.state = .inProgress
      · have pending : reassembler.pending = reassembler.buffer := by
          rw [pending, if_pos inProgress]
        rcases holds.underway inProgress with ⟨more, buffer⟩ | exceeds
        · exact .inl ⟨more, pending.trans buffer, nextMessage_more ack more⟩
        · exact .inr (.inr (pending ▸ exceeds))
      · exact .inr (.inl ⟨pending_of_not_inProgress inProgress,
          nextMessage_between ack (begins ack inProgress)⟩)
    have next := lastMessage_concat packets packet
    rw [ingest_data ack refused, extend_buffer]
    by_cases exceeds : (reassembler.pending ++ packet.tlsData).length > reassembler.maxMessageLen
    · rw [if_pos exceeds]
      refine ⟨fun complete => ?_, fun _ => .inr exceeds⟩
      cases complete
    rw [if_neg exceeds]
    have fits : ¬ reassembler.maxMessageLen < reassembler.pending.length := by
      rw [List.length_append] at exceeds
      omega
    cases more : packet.moreFragments with
    | true =>
        refine ⟨fun complete => ?_, fun _ => .inl ?_⟩
        · cases complete
        rcases buffered with ⟨all, buffer, goes⟩ | ⟨none, begun⟩ | large
        · rw [next, goes]
          refine ⟨?_, by simp [buffer]⟩
          intro p member
          rcases List.mem_append.mp member with old | last
          · exact all p old
          · rw [List.mem_singleton.mp last]
            exact more
        · rw [next, begun]
          exact ⟨by simpa using more, by simp [none]⟩
        · exact absurd large fits
    | false =>
        refine ⟨fun _ => ?_, fun inProgress => ?_⟩
        · rw [Whole, next]
          rcases buffered with ⟨all, buffer, goes⟩ | ⟨none, begun⟩ | large
          · rw [goes]
            exact ⟨⟨_, packet, rfl, all, more⟩, by simp [buffer]⟩
          · rw [begun]
            exact ⟨⟨[], packet, rfl, by simp, more⟩, by simp [none]⟩
          · exact absurd large fits
        · cases inProgress
  · rw [ingest_ack ack]
    have same : lastMessage (packets ++ [packet]) = lastMessage packets := by
      rw [lastMessage_concat, nextMessage_ack ack]
    refine ⟨fun complete => ?_, fun inProgress => ?_⟩
    · rw [Whole, same]
      exact holds.complete complete
    · rw [same]
      exact holds.underway inProgress

/-- **A run of packets**, all but the first of which find a message open. -/
theorem Holds.feed {packets : List EapTlsPacket} {reassembler : Reassembler}
    (holds : Holds packets reassembler) {more : List EapTlsPacket}
    (begins : ∀ packet, more.head? = some packet → packet.isAck = false →
      reassembler.state ≠ .inProgress → BetweenMessages packets)
    (stays : reassembler.StaysOpen more) : Holds (packets ++ more) (reassembler.feed more) := by
  induction more using List.reverseRecOn with
  | nil => simpa using holds
  | append_singleton more packet ih =>
      obtain ⟨stays, here⟩ := stays.of_concat
      rw [feed_concat, ← List.append_assoc]
      rcases List.eq_nil_or_concat more with rfl | ⟨init, last, rfl⟩
      · rw [List.append_nil]
        exact holds.ingest fun data rest => begins packet rfl data rest
      · have some : init.concat last ≠ [] := by simp
        have before : Holds (packets ++ init.concat last) (reassembler.feed (init.concat last)) := by
          refine ih (fun p head => begins p ?_) stays
          rw [List.head?_append, head]
          rfl
        exact before.ingest fun _ rest => absurd (here some) rest

/-! ## Where the bytes in the buffer come from -/

/-- The buffer has the data of the last packets of the stream, or nothing. -/
def Took (packets : List EapTlsPacket) (message : Bytes) : Prop :=
  ∃ taken, taken <:+ packets ∧ message = joined taken

theorem took_nil (packets : List EapTlsPacket) : Took packets [] :=
  ⟨[], List.nil_suffix, rfl⟩

theorem Took.concat {packets : List EapTlsPacket} {message : Bytes} (took : Took packets message)
    (packet : EapTlsPacket) : Took (packets ++ [packet]) (message ++ packet.tlsData) := by
  obtain ⟨taken, ⟨before, rfl⟩, rfl⟩ := took
  exact ⟨taken ++ [packet], ⟨before, by simp⟩, by simp⟩

/-- What is in the buffer after a data packet: its data, behind what was taken before or alone. -/
theorem ingest_took {packets : List EapTlsPacket} {reassembler : Reassembler}
    {packet : EapTlsPacket} (data : packet.isAck = false)
    (pending : Took packets reassembler.pending) :
    Took (packets ++ [packet]) (ingest packet reassembler).2.buffer := by
  by_cases refused : reassembler.Refuses packet
  · obtain ⟨rest, n, declares, large⟩ := refused
    rw [ingest_refused data rest declares large]
    exact took_nil _
  · have extended := pending.concat packet
    rw [ingest_data data refused]
    split
    · exact extended
    · split
      · exact extended
      · exact extended

/-- A data packet that opens a message leaves nothing older in the buffer. -/
theorem took_opened {packets : List EapTlsPacket} {reassembler : Reassembler}
    {packet : EapTlsPacket} (data : packet.isAck = false)
    (rest : reassembler.state ≠ .inProgress) :
    Took (packets ++ [packet]) (ingest packet reassembler).2.buffer := by
  refine ingest_took data ?_
  rw [pending_of_not_inProgress rest]
  exact took_nil _

theorem Took.ingest {packets : List EapTlsPacket} {reassembler : Reassembler}
    (took : Took packets reassembler.buffer) (packet : EapTlsPacket) :
    Took (packets ++ [packet]) (ingest packet reassembler).2.buffer := by
  rcases ack : packet.isAck with _ | _
  · by_cases inProgress : reassembler.state = .inProgress
    · refine ingest_took ack ?_
      rw [pending, if_pos inProgress]
      exact took
    · exact took_opened ack inProgress
  · rw [ingest_ack ack]
    have same := took.concat packet
    rwa [data_of_ack ack, List.append_nil] at same

theorem Took.feed {more : List EapTlsPacket} : ∀ {packets : List EapTlsPacket}
    {reassembler : Reassembler}, Took packets reassembler.buffer →
      Took (packets ++ more) (reassembler.feed more).buffer := by
  induction more with
  | nil => simp
  | cons packet more ih =>
      intro packets reassembler took
      have later := ih (took.ingest packet)
      rwa [List.append_assoc] at later

/-- The same from a reassembler with an old message, if the first packet has data. -/
theorem took_feed {packets more : List EapTlsPacket} {reassembler : Reassembler}
    (rest : reassembler.state ≠ .inProgress) {packet : EapTlsPacket}
    (head : more.head? = some packet) (data : packet.isAck = false) :
    Took (packets ++ more) (reassembler.feed more).buffer := by
  cases more with
  | nil => cases head
  | cons first more =>
      cases head
      have opened : Took (packets ++ [packet] ++ more)
          (Reassembler.feed (ingest packet reassembler).2 more).buffer := (took_opened data rest).feed
      rwa [List.append_assoc] at opened

end EapAccel.EapTls
