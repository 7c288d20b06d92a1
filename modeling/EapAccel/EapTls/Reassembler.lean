import EapAccel.EapTls.Packet
import EapAccel.Foundations.Chunks

/-!
# Reassembly and fragmentation

`proxy/eap_tls.py`, the reassembly state machine and the fragmentation helper.
A `Reassembler` accumulates the fragments of one direction. A fragment that is not
an ACK opens a new message when the reassembler is idle or complete, and extends
the open message when it is in progress. The M bit alone marks the end of a
message; a declared length only guards the size.

An exception leaves the object as it was when the exception was raised, so
`ingest` is a computation over the reassembler.
-/

set_option autoImplicit false

namespace EapAccel.EapTls

open Foundations

inductive ReassemblyState where
  | idle
  | inProgress
  | complete
  deriving DecidableEq, Repr

structure Reassembler where
  maxMessageLen : ℕ := 256 * 1024
  state : ReassemblyState := .idle
  buffer : Bytes := []
  expectedLen : Option ℕ := none
  fragmentCount : ℕ := 0
  deriving DecidableEq, Repr

namespace Reassembler

def reset (reassembler : Reassembler) : Reassembler :=
  { reassembler with state := .idle, buffer := [], expectedLen := none, fragmentCount := 0 }

/-- The first fragment of a message: forget the previous message and check the
declared length, which is stored before the check. -/
def openMessage (packet : EapTlsPacket) : Act Raised Reassembler Unit := do
  Act.modify reset
  let reassembler ← Act.read
  match packet.lengthIncluded, packet.tlsMessageLength with
  | true, some declared =>
      Act.modify fun r => { r with expectedLen := some declared }
      if declared > reassembler.maxMessageLen then
        Act.raise (.eapTlsError
          s!"declared TLS message length {declared} exceeds max {reassembler.maxMessageLen}")
      else
        Act.modify fun r => { r with state := .inProgress }
  | _, _ => Act.modify fun r => { r with state := .inProgress }

/-- Append the data of a fragment to the open message and check its size. Without
the M bit the message is complete; a length that differs from the declared one is
not an error. -/
def accumulate (packet : EapTlsPacket) : Act Raised Reassembler (Option Bytes) := do
  Act.modify fun r =>
    { r with buffer := r.buffer ++ packet.tlsData, fragmentCount := r.fragmentCount + 1 }
  let reassembler ← Act.read
  if reassembler.buffer.length > reassembler.maxMessageLen then
    Act.raise (.eapTlsError "reassembly buffer exceeded max message length")
  else if packet.moreFragments then
    return none
  else
    Act.modify fun r => { r with state := .complete }
    return some reassembler.buffer

/-- Feed one fragment. Returns the complete message when the final fragment
arrives, and `none` for an ACK or while more fragments are expected. -/
def ingest (packet : EapTlsPacket) : Act Raised Reassembler (Option Bytes) := do
  if packet.isAck then
    return none
  else
    let reassembler ← Act.read
    if reassembler.state = .idle ∨ reassembler.state = .complete then
      openMessage packet
    accumulate packet

end Reassembler

/-- Split a message into payload chunks no larger than `fragmentSize`. An empty
message is one empty chunk. -/
def fragment (tlsMessage : Bytes) (fragmentSize : ℕ) : Except Raised (List Bytes) :=
  if fragmentSize = 0 then .error (.eapTlsError "fragment_size must be positive")
  else if tlsMessage = [] then .ok [[]]
  else .ok (chunks fragmentSize tlsMessage)

namespace Reassembler

/-! ## One fragment -/

@[simp] theorem ingest_ack {packet : EapTlsPacket} (ack : packet.isAck = true)
    (reassembler : Reassembler) : ingest packet reassembler = (.ok none, reassembler) := by
  simp [ingest, ack]

theorem isAck_of_more {packet : EapTlsPacket} (more : packet.moreFragments = true) :
    packet.isAck = false := by
  simp [EapTlsPacket.isAck, more]

/-- The bytes of the open message: what the buffer holds, unless the next fragment
is going to reset it. -/
def pending (reassembler : Reassembler) : Bytes :=
  if reassembler.state = .inProgress then reassembler.buffer else []

/-- The length a packet declares: the TLS Message Length of a packet with the L bit. -/
def declared (packet : EapTlsPacket) : Option ℕ :=
  if packet.lengthIncluded then packet.tlsMessageLength else none

/-- The reassembler opens a message with this packet and finds its declared length
above the limit. -/
def Refuses (reassembler : Reassembler) (packet : EapTlsPacket) : Prop :=
  reassembler.state ≠ .inProgress ∧ ∃ n ∈ declared packet, reassembler.maxMessageLen < n

/-- The reassembler with the data of one more fragment, before the size check. -/
def extend (reassembler : Reassembler) (packet : EapTlsPacket) : Reassembler where
  maxMessageLen := reassembler.maxMessageLen
  state := .inProgress
  buffer := reassembler.pending ++ packet.tlsData
  expectedLen :=
    if reassembler.state = .inProgress then reassembler.expectedLen else declared packet
  fragmentCount :=
    if reassembler.state = .inProgress then reassembler.fragmentCount + 1 else 1

/-- The reassembler after the final fragment of a message. -/
def close (reassembler : Reassembler) (packet : EapTlsPacket) : Reassembler :=
  { reassembler.extend packet with state := .complete }

@[simp] theorem extend_maxMessageLen (reassembler : Reassembler) (packet : EapTlsPacket) :
    (reassembler.extend packet).maxMessageLen = reassembler.maxMessageLen := rfl

@[simp] theorem extend_state (reassembler : Reassembler) (packet : EapTlsPacket) :
    (reassembler.extend packet).state = .inProgress := rfl

@[simp] theorem extend_buffer (reassembler : Reassembler) (packet : EapTlsPacket) :
    (reassembler.extend packet).buffer = reassembler.pending ++ packet.tlsData := rfl

@[simp] theorem pending_extend (reassembler : Reassembler) (packet : EapTlsPacket) :
    (reassembler.extend packet).pending = reassembler.pending ++ packet.tlsData := rfl

@[simp] theorem close_maxMessageLen (reassembler : Reassembler) (packet : EapTlsPacket) :
    (reassembler.close packet).maxMessageLen = reassembler.maxMessageLen := rfl

@[simp] theorem close_state (reassembler : Reassembler) (packet : EapTlsPacket) :
    (reassembler.close packet).state = .complete := rfl

@[simp] theorem close_buffer (reassembler : Reassembler) (packet : EapTlsPacket) :
    (reassembler.close packet).buffer = reassembler.pending ++ packet.tlsData := rfl

@[simp] theorem pending_close (reassembler : Reassembler) (packet : EapTlsPacket) :
    (reassembler.close packet).pending = [] := rfl

theorem pending_of_not_inProgress {reassembler : Reassembler}
    (rest : reassembler.state ≠ .inProgress) : reassembler.pending = [] := by
  simp [pending, rest]

/-- Opening a message for a packet whose length is not refused. -/
theorem openMessage_eq {reassembler : Reassembler} {packet : EapTlsPacket}
    (accepted : ∀ n ∈ declared packet, n ≤ reassembler.maxMessageLen) :
    openMessage packet reassembler =
      (.ok (), { reassembler.reset with state := .inProgress, expectedLen := declared packet }) := by
  rcases hL : packet.lengthIncluded with _ | _
  · simp [openMessage, hL, declared, reset]
  · rcases hn : packet.tlsMessageLength with _ | n
    · simp [openMessage, hL, hn, declared, reset]
    · have bound : ¬ n > reassembler.maxMessageLen := by
        have := accepted n (by simp [declared, hL, hn])
        omega
      simp [openMessage, hL, hn, declared, reset, bound]

/-- Appending to an opened message gives the extended reassembler, which then
raises, waits or closes. -/
theorem accumulate_eq {reassembler opened : Reassembler} {packet : EapTlsPacket}
    (appended : Reassembler.mk opened.maxMessageLen opened.state (opened.buffer ++ packet.tlsData)
      opened.expectedLen (opened.fragmentCount + 1) = reassembler.extend packet) :
    accumulate packet opened =
      if (reassembler.extend packet).buffer.length > reassembler.maxMessageLen then
        (.error (.eapTlsError "reassembly buffer exceeded max message length"),
          reassembler.extend packet)
      else if packet.moreFragments then (.ok none, reassembler.extend packet)
      else (.ok (some (reassembler.pending ++ packet.tlsData)), reassembler.close packet) := by
  simp only [accumulate, Act.modify_bind, Act.read_bind, appended]
  simp only [Act.ite_apply]
  rfl

/-- **What `ingest` does with a data fragment that is not refused.** -/
theorem ingest_data {reassembler : Reassembler} {packet : EapTlsPacket}
    (data : packet.isAck = false) (accepted : ¬ reassembler.Refuses packet) :
    ingest packet reassembler =
      if (reassembler.extend packet).buffer.length > reassembler.maxMessageLen then
        (.error (.eapTlsError "reassembly buffer exceeded max message length"),
          reassembler.extend packet)
      else if packet.moreFragments then (.ok none, reassembler.extend packet)
      else (.ok (some (reassembler.pending ++ packet.tlsData)), reassembler.close packet) := by
  by_cases rest : reassembler.state = .inProgress
  · simp only [ingest, data, Bool.false_eq_true, if_false, Act.read_bind, rest, reduceCtorEq,
      or_self]
    refine accumulate_eq ?_
    simp [extend, pending, rest]
  · have opens : reassembler.state = .idle ∨ reassembler.state = .complete := by
      cases h : reassembler.state <;> simp_all
    have fits : ∀ n ∈ declared packet, n ≤ reassembler.maxMessageLen := by
      intro n declares
      by_contra large
      exact accepted ⟨rest, n, declares, by omega⟩
    simp only [ingest, data, Bool.false_eq_true, if_false, Act.read_bind, opens, if_true]
    rw [Act.bind_of_ok (openMessage_eq fits)]
    refine accumulate_eq ?_
    simp [extend, pending, rest, reset]

/-- **A refused packet raises**, and leaves the reassembler idle and empty. -/
theorem ingest_refused {reassembler : Reassembler} {packet : EapTlsPacket} {n : ℕ}
    (data : packet.isAck = false) (rest : reassembler.state ≠ .inProgress)
    (declares : declared packet = some n) (large : reassembler.maxMessageLen < n) :
    ingest packet reassembler =
      (.error (.eapTlsError
        s!"declared TLS message length {n} exceeds max {reassembler.maxMessageLen}"),
        { reassembler.reset with expectedLen := some n }) := by
  have opens : reassembler.state = .idle ∨ reassembler.state = .complete := by
    cases h : reassembler.state <;> simp_all
  have flags : packet.lengthIncluded = true ∧ packet.tlsMessageLength = some n := by
    rw [declared] at declares
    split at declares
    · exact ⟨‹_›, declares⟩
    · cases declares
  have limit : n > reassembler.reset.maxMessageLen := large
  simp only [ingest, data, Bool.false_eq_true, if_false, Act.read_bind, opens, if_true]
  refine Act.bind_of_error ?_
  simp only [openMessage, Act.modify_bind, Act.read_bind, flags, if_pos limit]
  rfl

/-- Feeding a fragment does not change the limit. -/
theorem ingest_maxMessageLen (packet : EapTlsPacket) (reassembler : Reassembler) :
    (ingest packet reassembler).2.maxMessageLen = reassembler.maxMessageLen := by
  rcases hack : packet.isAck with _ | _
  · by_cases refused : reassembler.Refuses packet
    · obtain ⟨rest, n, declares, large⟩ := refused
      rw [ingest_refused hack rest declares large]
      rfl
    · rw [ingest_data hack refused]
      split
      · rfl
      · split <;> rfl
  · rw [ingest_ack hack]

theorem ingest_more {reassembler : Reassembler} {packet : EapTlsPacket}
    (more : packet.moreFragments = true) (accepted : ¬ reassembler.Refuses packet)
    (room : (reassembler.pending ++ packet.tlsData).length ≤ reassembler.maxMessageLen) :
    ingest packet reassembler = (.ok none, reassembler.extend packet) := by
  rw [ingest_data (isAck_of_more more) accepted, if_neg (by rw [extend_buffer]; omega), if_pos more]

theorem ingest_last {reassembler : Reassembler} {packet : EapTlsPacket}
    (data : packet.isAck = false) (last : packet.moreFragments = false)
    (accepted : ¬ reassembler.Refuses packet)
    (room : (reassembler.pending ++ packet.tlsData).length ≤ reassembler.maxMessageLen) :
    ingest packet reassembler =
      (.ok (some (reassembler.pending ++ packet.tlsData)), reassembler.close packet) := by
  rw [ingest_data data accepted, if_neg (by rw [extend_buffer]; omega), last]
  rfl

/-- **How `ingest` ends**: what it was fed and what it leaves. -/
theorem ingest_ends (packet : EapTlsPacket) (reassembler : Reassembler) :
    match ingest packet reassembler with
    | (.ok none, after) => (packet.isAck = true ∧ after = reassembler) ∨
        (packet.isAck = false ∧ packet.moreFragments = true ∧ after.state = .inProgress)
    | (.ok (some message), after) =>
        packet.isAck = false ∧ after.state = .complete ∧ message = after.buffer
    | (.error _, after) => packet.isAck = false ∧ after.state ≠ .complete := by
  rcases ack : packet.isAck with _ | _
  · by_cases refused : reassembler.Refuses packet
    · obtain ⟨rest, n, declares, large⟩ := refused
      rw [ingest_refused ack rest declares large]
      exact ⟨rfl, by simp [reset]⟩
    · rw [ingest_data ack refused]
      by_cases exceeds : (reassembler.extend packet).buffer.length > reassembler.maxMessageLen
      · rw [if_pos exceeds]
        exact ⟨rfl, by simp⟩
      · rw [if_neg exceeds]
        cases more : packet.moreFragments with
        | true => exact .inr ⟨rfl, rfl, rfl⟩
        | false => exact ⟨rfl, rfl, rfl⟩
  · rw [ingest_ack ack]
    exact .inl ⟨rfl, rfl⟩

/-- What a message that is completed is made of. -/
theorem record_of_ingest {packet : EapTlsPacket} {reassembler : Reassembler} {message : List UInt8}
    (completes : (ingest packet reassembler).1 = .ok (some message)) :
    packet.isAck = false ∧ packet.moreFragments = false ∧
      message = reassembler.pending ++ packet.tlsData ∧
      message.length ≤ reassembler.maxMessageLen := by
  rcases ack : packet.isAck with _ | _
  · by_cases refused : reassembler.Refuses packet
    · obtain ⟨rest, n, declares, large⟩ := refused
      rw [ingest_refused ack rest declares large] at completes
      cases completes
    · rw [ingest_data ack refused] at completes
      by_cases exceeds : (reassembler.extend packet).buffer.length > reassembler.maxMessageLen
      · rw [if_pos exceeds] at completes
        cases completes
      · rw [if_neg exceeds] at completes
        cases more : packet.moreFragments with
        | true =>
            rw [more] at completes
            cases completes
        | false =>
            rw [more] at completes
            cases completes
            exact ⟨rfl, rfl, rfl, Nat.le_of_not_lt exceeds⟩
  · rw [ingest_ack ack] at completes
    cases completes

theorem data_of_ack {packet : EapTlsPacket} (ack : packet.isAck = true) : packet.tlsData = [] := by
  simp only [EapTlsPacket.isAck, Bool.and_eq_true, List.isEmpty_iff] at ack
  exact ack.2

/-- A packet that completes nothing leaves its data pending. -/
theorem pending_of_ingest {packet : EapTlsPacket} {reassembler after : Reassembler}
    (fed : ingest packet reassembler = (.ok none, after)) :
    after.pending = reassembler.pending ++ packet.tlsData := by
  rcases ack : packet.isAck with _ | _
  · by_cases refused : reassembler.Refuses packet
    · obtain ⟨rest, n, declares, large⟩ := refused
      rw [ingest_refused ack rest declares large] at fed
      cases fed
    · rw [ingest_data ack refused] at fed
      split at fed
      · cases fed
      · split at fed
        · cases fed
          rfl
        · cases fed
  · rw [ingest_ack ack] at fed
    cases fed
    rw [data_of_ack ack, List.append_nil]

end Reassembler
end EapAccel.EapTls
