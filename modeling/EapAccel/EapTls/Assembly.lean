import EapAccel.EapTls.Framing

/-!
# What a reassembler is for

A reassembler gathers one message at a time. What matters of it is the open message, if
there is one (`Reassembler.opened`). `assemble` says what a data packet does to it, and
`ingest` refines `assemble` (`ingest_assembles`): a packet that is refused or that goes
over the limit raises, and in the second case its data stays in the open message.
-/

set_option autoImplicit false

namespace EapAccel.EapTls

open Foundations

/-- What comes of a data packet. -/
inductive Assembled where
  | raises
  | waits
  | completes (message : Bytes)
  deriving DecidableEq, Repr

/-- The packet declares a length above the limit. -/
def overLimit (limit : ℕ) (packet : EapTlsPacket) : Bool :=
  (Reassembler.declared packet).any fun n => limit < n

/-- What a data packet does to the open message. -/
def assemble (limit : ℕ) (packet : EapTlsPacket) (opened : Option Bytes) :
    Assembled × Option Bytes :=
  if opened = none ∧ overLimit limit packet = true then (.raises, none)
  else
    let message := opened.getD [] ++ packet.tlsData
    if limit < message.length then (.raises, some message)
    else if packet.moreFragments then (.waits, some message)
    else (.completes message, none)

/-- What `ingest` returns, as an outcome of `assemble`. -/
def Assembled.ofResult : Except Raised (Option Bytes) → Assembled
  | .error _ => .raises
  | .ok none => .waits
  | .ok (some message) => .completes message

namespace Reassembler

/-- The open message. -/
def opened (reassembler : Reassembler) : Option Bytes :=
  if reassembler.state = .inProgress then some reassembler.buffer else none

theorem opened_of_rest {reassembler : Reassembler} (rest : reassembler.state ≠ .inProgress) :
    reassembler.opened = none := by
  rw [opened, if_neg rest]

theorem opened_eq_none {reassembler : Reassembler} :
    reassembler.opened = none ↔ reassembler.state ≠ .inProgress := by
  by_cases rest : reassembler.state = .inProgress <;> simp [opened, rest]

theorem pending_eq (reassembler : Reassembler) : reassembler.pending = reassembler.opened.getD [] := by
  by_cases rest : reassembler.state = .inProgress <;> simp [opened, pending, rest]

theorem opened_extend (reassembler : Reassembler) (packet : EapTlsPacket) :
    (reassembler.extend packet).opened = some (reassembler.pending ++ packet.tlsData) := rfl

theorem refuses_iff {reassembler : Reassembler} {packet : EapTlsPacket} :
    reassembler.Refuses packet ↔
      reassembler.opened = none ∧ overLimit reassembler.maxMessageLen packet = true := by
  simp [Refuses, opened_eq_none, overLimit, Option.any_eq_true]

/-- **`ingest` refines `assemble`.** -/
theorem ingest_assembles {packet : EapTlsPacket} (data : packet.isAck = false)
    (reassembler : Reassembler) :
    Assembled.ofResult (ingest packet reassembler).1 =
        (assemble reassembler.maxMessageLen packet reassembler.opened).1 ∧
      (ingest packet reassembler).2.opened =
        (assemble reassembler.maxMessageLen packet reassembler.opened).2 := by
  by_cases refused : reassembler.Refuses packet
  · rw [assemble, if_pos (refuses_iff.mp refused)]
    obtain ⟨rest, n, declares, large⟩ := refused
    rw [ingest_refused data rest declares large]
    exact ⟨rfl, rfl⟩
  · rw [ingest_data data refused, assemble, if_neg (fun both => refused (refuses_iff.mpr both))]
    rw [extend_buffer, pending_eq]
    by_cases exceeds : reassembler.maxMessageLen < (reassembler.opened.getD [] ++ packet.tlsData).length
    · rw [if_pos exceeds, if_pos exceeds]
      exact ⟨rfl, by rw [opened_extend, pending_eq]⟩
    · rw [if_neg exceeds, if_neg exceeds]
      cases packet.moreFragments with
      | true => exact ⟨rfl, by rw [if_pos rfl, if_pos rfl, opened_extend, pending_eq]⟩
      | false => exact ⟨rfl, rfl⟩

end Reassembler

/-! ## Fragments that do not end a message -/

/-- The open message after a list of packets. -/
def assembleAll (limit : ℕ) (packets : List EapTlsPacket) (opened : Option Bytes) : Option Bytes :=
  packets.foldl (fun opened packet => (assemble limit packet opened).2) opened

@[simp] theorem assembleAll_nil (limit : ℕ) (opened : Option Bytes) :
    assembleAll limit [] opened = opened := rfl

theorem assembleAll_cons (limit : ℕ) (packet : EapTlsPacket) (packets : List EapTlsPacket)
    (opened : Option Bytes) :
    assembleAll limit (packet :: packets) opened =
      assembleAll limit packets (assemble limit packet opened).2 := rfl

theorem assemble_refused {limit : ℕ} {packet : EapTlsPacket}
    (exceeds : overLimit limit packet = true) : assemble limit packet none = (.raises, none) := by
  rw [assemble, if_pos ⟨rfl, exceeds⟩]

/-- A fragment that announces more stays in the open message, also when it raises. -/
theorem assemble_more {limit : ℕ} {packet : EapTlsPacket} {opened : Option Bytes}
    (more : packet.moreFragments = true)
    (accepted : ¬ (opened = none ∧ overLimit limit packet = true)) :
    (assemble limit packet opened).2 = some (opened.getD [] ++ packet.tlsData) := by
  rw [assemble, if_neg accepted]
  simp only [more, if_true]
  split <;> rfl

theorem assemble_more_fst {limit : ℕ} {packet : EapTlsPacket} {opened : Option Bytes}
    (more : packet.moreFragments = true) :
    (assemble limit packet opened).1 = .raises ∨ (assemble limit packet opened).1 = .waits := by
  rw [assemble]
  simp only [more, if_true]
  split
  · exact .inl rfl
  · split
    · exact .inl rfl
    · exact .inr rfl

theorem assemble_last_fst {limit : ℕ} {packet : EapTlsPacket} {opened : Option Bytes}
    (last : packet.moreFragments = false) :
    (assemble limit packet opened).1 = .raises ∨
      ∃ message, (assemble limit packet opened).1 = .completes message := by
  rw [assemble]
  simp only [last, Bool.false_eq_true, if_false]
  split
  · exact .inl rfl
  · split
    · exact .inl rfl
    · exact .inr ⟨_, rfl⟩

/-- A message that is completed is within the limit, and open no more. -/
theorem assemble_completes {limit : ℕ} {packet : EapTlsPacket} {opened : Option Bytes}
    {message : Bytes} (completes : (assemble limit packet opened).1 = .completes message) :
    message = opened.getD [] ++ packet.tlsData ∧ message.length ≤ limit ∧
      (assemble limit packet opened).2 = none := by
  rw [assemble] at completes ⊢
  simp only at completes ⊢
  split at completes
  · cases completes
  next accepted =>
    split at completes
    · cases completes
    next room =>
      split at completes
      · cases completes
      next last =>
        cases completes
        refine ⟨rfl, by omega, ?_⟩
        rw [if_neg accepted, if_neg room, if_neg last]

theorem assembleAll_more_some {limit : ℕ} {packets : List EapTlsPacket}
    (more : ∀ packet ∈ packets, packet.moreFragments = true) : ∀ message : Bytes,
    assembleAll limit packets (some message) = some (message ++ joined packets) := by
  induction packets with
  | nil => exact fun message => by rw [assembleAll_nil, joined_nil, List.append_nil]
  | cons packet packets ih =>
      intro message
      rw [assembleAll_cons, assemble_more (more packet (by simp)) (by simp), Option.getD_some,
        ih (fun p member => more p (by simp [member])), joined_cons, List.append_assoc]

/-- What is gathered of a list of fragments: nothing while they are refused, and then all. -/
def kept (limit : ℕ) (packets : List EapTlsPacket) : List EapTlsPacket :=
  packets.dropWhile (overLimit limit)

/-- **The open message after fragments that announce more.** -/
theorem assembleAll_more {limit : ℕ} {packets : List EapTlsPacket}
    (more : ∀ packet ∈ packets, packet.moreFragments = true) :
    assembleAll limit packets none =
      if kept limit packets = [] then none else some (joined (kept limit packets)) := by
  induction packets with
  | nil => rfl
  | cons packet packets ih =>
      have more' : ∀ p ∈ packets, p.moreFragments = true := fun p member => more p (by simp [member])
      rw [assembleAll_cons, kept, List.dropWhile_cons]
      by_cases exceeds : overLimit limit packet = true
      · rw [if_pos exceeds, assemble_refused exceeds]
        exact ih more'
      · rw [if_neg exceeds, assemble_more (more packet (by simp)) (fun both => exceeds both.2),
          assembleAll_more_some more', if_neg (List.cons_ne_nil _ _)]
        rfl

/-! ## Fragments that arrive more than once -/

/-- The messages that a list of data packets completes. -/
def messages (limit : ℕ) : List EapTlsPacket → Option Bytes → List Bytes
  | [], _ => []
  | packet :: packets, opened =>
      match assemble limit packet opened with
      | (.completes message, opened') => message :: messages limit packets opened'
      | (_, opened') => messages limit packets opened'

theorem messages_cons_of_completes {limit : ℕ} {packet : EapTlsPacket}
    {packets : List EapTlsPacket} {opened : Option Bytes} {message : Bytes}
    (completes : (assemble limit packet opened).1 = .completes message) :
    messages limit (packet :: packets) opened =
      message :: messages limit packets (assemble limit packet opened).2 := by
  rw [messages]
  rcases h : assemble limit packet opened with ⟨outcome, opened'⟩
  rw [h] at completes
  cases completes
  rfl

theorem messages_cons_of_not {limit : ℕ} {packet : EapTlsPacket} {packets : List EapTlsPacket}
    {opened : Option Bytes}
    (goes_on : (assemble limit packet opened).1 = .raises ∨
      (assemble limit packet opened).1 = .waits) :
    messages limit (packet :: packets) opened =
      messages limit packets (assemble limit packet opened).2 := by
  rw [messages]
  rcases h : assemble limit packet opened with ⟨outcome, opened'⟩
  rw [h] at goes_on
  rcases goes_on with raises | waits
  · cases raises
    rfl
  · cases waits
    rfl

/-- Fragments that announce more complete nothing. -/
theorem messages_more_append {limit : ℕ} {packets : List EapTlsPacket}
    (more : ∀ packet ∈ packets, packet.moreFragments = true) (rest : List EapTlsPacket) :
    ∀ opened, messages limit (packets ++ rest) opened =
      messages limit rest (assembleAll limit packets opened) := by
  induction packets with
  | nil => exact fun _ => rfl
  | cons packet packets ih =>
      intro opened
      rw [List.cons_append, messages_cons_of_not (assemble_more_fst (more packet (by simp))),
        ih (fun p member => more p (by simp [member])), assembleAll_cons]

/-- A message over the limit is never completed. -/
theorem messages_stuck {limit : ℕ} (packets : List EapTlsPacket) : ∀ {message : Bytes},
    limit < message.length → messages limit packets (some message) = [] := by
  induction packets with
  | nil => exact fun _ => rfl
  | cons packet packets ih =>
      intro message exceeds
      have longer : limit < (message ++ packet.tlsData).length := by
        rw [List.length_append]
        omega
      have raises : assemble limit packet (some message) =
          (.raises, some (message ++ packet.tlsData)) := by
        rw [assemble, if_neg (by simp), Option.getD_some, if_pos longer]
      rw [messages_cons_of_not (.inl (by rw [raises])), raises]
      exact ih longer

/-- Copies of a last fragment alone: each is a message, unless it is refused. -/
theorem messages_last_alone {limit : ℕ} {last : EapTlsPacket} (final : last.moreFragments = false)
    (room : last.tlsData.length ≤ limit) (n : ℕ) :
    messages limit (List.replicate n last) none =
      if overLimit limit last = true then [] else List.replicate n last.tlsData := by
  induction n with
  | zero => simp [messages]
  | succ n ih =>
      rw [List.replicate_succ]
      by_cases exceeds : overLimit limit last = true
      · rw [messages_cons_of_not (.inl (by rw [assemble_refused exceeds])),
          assemble_refused exceeds, ih,
          if_pos exceeds, if_pos exceeds]
      · have completes : assemble limit last none = (.completes last.tlsData, none) := by
          rw [assemble, if_neg (fun both => exceeds both.2)]
          simp only [Option.getD_none, List.nil_append, final, Bool.false_eq_true, if_false]
          rw [if_neg (by omega)]
        rw [messages_cons_of_completes (by rw [completes]), completes, ih, if_neg exceeds,
          if_neg exceeds,
          List.replicate_succ]

/-- What is open before a last fragment, and the fragment, are what is kept of them all. -/
theorem kept_append_last {limit : ℕ} {copies : List EapTlsPacket} {last : EapTlsPacket}
    (more : ∀ packet ∈ copies, packet.moreFragments = true) :
    (kept limit (copies ++ [last]) = [] ↔
      assembleAll limit copies none = none ∧ overLimit limit last = true) ∧
    (kept limit (copies ++ [last]) ≠ [] →
      (assembleAll limit copies none).getD [] ++ last.tlsData =
        joined (kept limit (copies ++ [last]))) := by
  rw [assembleAll_more more, kept, kept, List.dropWhile_append]
  by_cases nothing : copies.dropWhile (overLimit limit) = []
  · rw [if_pos nothing, nothing]
    by_cases exceeds : overLimit limit last = true
    · simp [exceeds]
    · simp [exceeds]
  · rw [if_neg nothing]
    simp [nothing]

/-- **What copies of the fragments of a record complete**: what is kept up to the first copy
of the last fragment, and then that fragment alone for every other copy of it. -/
theorem messages_copies {limit : ℕ} {copies : List EapTlsPacket} {last : EapTlsPacket}
    (more : ∀ packet ∈ copies, packet.moreFragments = true) (final : last.moreFragments = false)
    (n : ℕ) :
    messages limit (copies ++ List.replicate (n + 1) last) none =
      if kept limit (copies ++ [last]) = [] ∨
          limit < (joined (kept limit (copies ++ [last]))).length then []
      else
        joined (kept limit (copies ++ [last])) ::
          if overLimit limit last = true then [] else List.replicate n last.tlsData := by
  obtain ⟨refused, whole⟩ := @kept_append_last limit copies last more
  rw [messages_more_append more]
  by_cases nothing : kept limit (copies ++ [last]) = []
  · rw [if_pos (.inl nothing)]
    obtain ⟨closed, exceeds⟩ := refused.mp nothing
    rw [closed]
    have alone : ∀ m, messages limit (List.replicate m last) none = [] := by
      intro m
      induction m with
      | zero => rfl
      | succ m ih =>
          rw [List.replicate_succ, messages_cons_of_not (.inl (by rw [assemble_refused exceeds])),
            assemble_refused exceeds]
          exact ih
    exact alone (n + 1)
  · have message := whole nothing
    have accepted := mt refused.mpr nothing
    generalize assembleAll limit copies none = opened at message accepted
    rw [List.replicate_succ]
    by_cases exceeds : limit < (joined (kept limit (copies ++ [last]))).length
    · rw [if_pos (.inr exceeds)]
      have raises : assemble limit last opened =
          (.raises, some (joined (kept limit (copies ++ [last])))) := by
        rw [assemble, if_neg accepted]
        simp only [message]
        rw [if_pos exceeds]
      rw [messages_cons_of_not (.inl (by rw [raises])), raises]
      exact messages_stuck _ exceeds
    · rw [if_neg (by simp [nothing, exceeds])]
      have completes : assemble limit last opened =
          (.completes (joined (kept limit (copies ++ [last]))), none) := by
        rw [assemble, if_neg accepted]
        simp only [message, final, Bool.false_eq_true, if_false]
        rw [if_neg exceeds]
      have room : last.tlsData.length ≤ limit := by
        rw [← message, List.length_append] at exceeds
        omega
      rw [messages_cons_of_completes (by rw [completes]), completes,
        messages_last_alone final room]

/-- A packet with its copies. -/
def repeated (copies : List (EapTlsPacket × ℕ)) : List EapTlsPacket :=
  copies.flatMap fun copy => List.replicate copy.2 copy.1

@[simp] theorem repeated_cons (copy : EapTlsPacket × ℕ) (copies : List (EapTlsPacket × ℕ)) :
    repeated (copy :: copies) = List.replicate copy.2 copy.1 ++ repeated copies := rfl

theorem length_joined_replicate (n : ℕ) (packet : EapTlsPacket) :
    (joined (List.replicate n packet)).length = n * packet.tlsData.length := by
  simp [joined]

/-- Copies only make the data longer. -/
theorem length_joined_repeated {copies : List (EapTlsPacket × ℕ)}
    (arrive : ∀ copy ∈ copies, 1 ≤ copy.2) :
    (joined (copies.map (·.1))).length ≤ (joined (repeated copies)).length := by
  induction copies with
  | nil => exact le_rfl
  | cons copy copies ih =>
      have rest := ih fun c member => arrive c (by simp [member])
      have once := Nat.mul_le_mul_right copy.1.tlsData.length (arrive copy (by simp))
      rw [repeated_cons, joined_append, List.map_cons, joined_cons, List.length_append,
        List.length_append, length_joined_replicate]
      omega

/-- **Copies leave the data as it is exactly when only empty fragments are repeated.** -/
theorem joined_repeated_iff {copies : List (EapTlsPacket × ℕ)}
    (arrive : ∀ copy ∈ copies, 1 ≤ copy.2) :
    joined (repeated copies) = joined (copies.map (·.1)) ↔
      ∀ copy ∈ copies, 1 < copy.2 → copy.1.tlsData = [] := by
  induction copies with
  | nil => simp [repeated]
  | cons copy copies ih =>
      have arrive' : ∀ c ∈ copies, 1 ≤ c.2 := fun c member => arrive c (by simp [member])
      have harmless : (1 < copy.2 → copy.1.tlsData = []) →
          joined (List.replicate copy.2 copy.1) = copy.1.tlsData := by
        intro empty
        rcases (arrive copy (by simp)).lt_or_eq with twice | once
        · have none := length_joined_replicate copy.2 copy.1
          rw [empty twice, List.length_nil, Nat.mul_zero] at none
          rw [empty twice]
          exact List.length_eq_zero_iff.mp none
        · rw [← once]
          simp [joined]
      rw [repeated_cons, joined_append, List.map_cons, joined_cons, List.forall_mem_cons]
      constructor
      · intro same
        have lengths := congrArg List.length same
        have rest := length_joined_repeated arrive'
        rw [List.length_append, List.length_append, length_joined_replicate] at lengths
        have empty : 1 < copy.2 → copy.1.tlsData = [] := by
          intro twice
          have more := Nat.mul_le_mul_right copy.1.tlsData.length twice
          exact List.length_eq_zero_iff.mp (by omega)
        rw [harmless empty] at same
        exact ⟨empty, (ih arrive').mp (List.append_cancel_left same)⟩
      · rintro ⟨empty, rest⟩
        rw [harmless empty, (ih arrive').mpr rest]

/-- Copies of the fragments of a record do no harm: either only empty fragments before the
last one are repeated, and the last one is repeated only if it is the whole record, or
nothing is completed that could be sent. -/
def Harmless (limit : ℕ) (record : Bytes) (firsts : List (EapTlsPacket × ℕ))
    (final : EapTlsPacket × ℕ) : Prop :=
  if record.length ≤ limit then
    (joined (repeated firsts ++ [final.1])).length ≤ limit →
      ((joined (repeated firsts ++ [final.1])).length < 2 ^ 32 →
        ∀ copy ∈ firsts, 1 < copy.2 → copy.1.tlsData = []) ∧
      (1 < final.2 → final.1.tlsData.length < 2 ^ 32 → ∀ copy ∈ firsts, copy.1.tlsData = [])
  else
    kept limit (repeated firsts ++ [final.1]) ≠ [] →
      (joined (kept limit (repeated firsts ++ [final.1]))).length ≤ limit →
      2 ^ 32 ≤ (joined (kept limit (repeated firsts ++ [final.1]))).length ∧
      (1 < final.2 → overLimit limit final.1 = false → 2 ^ 32 ≤ final.1.tlsData.length)

theorem mem_repeated {copies : List (EapTlsPacket × ℕ)} {packet : EapTlsPacket}
    (member : packet ∈ repeated copies) : packet ∈ copies.map (·.1) := by
  obtain ⟨copy, inside, same⟩ := List.mem_flatMap.mp member
  rw [List.eq_of_mem_replicate same]
  exact List.mem_map_of_mem inside

/-- Data that is empty for every packet is empty together. -/
theorem kept_eq_self {limit : ℕ} {packets : List EapTlsPacket}
    (small : ∀ packet ∈ packets, overLimit limit packet = false) : kept limit packets = packets := by
  cases packets with
  | nil => rfl
  | cons packet packets => rw [kept, List.dropWhile_cons, small packet (by simp)]; rfl

section Copies

variable {limit : ℕ} {record : Bytes} {firsts : List (EapTlsPacket × ℕ)} {final : EapTlsPacket × ℕ}

/-- Where the record has room, the declared lengths of its fragments have. -/
theorem overLimit_of_room (division : Division record (firsts.map (·.1)) final.1)
    (room : record.length ≤ limit) :
    ∀ packet ∈ repeated firsts ++ [final.1], overLimit limit packet = false := by
  intro packet member
  have inside : packet ∈ firsts.map (·.1) ++ [final.1] := by
    rcases List.mem_append.mp member with first | last
    · exact List.mem_append_left _ (mem_repeated first)
    · exact List.mem_append_right _ last
  rw [overLimit, Bool.eq_false_iff, ne_eq, Option.any_eq_true]
  rintro ⟨m, declares, exceeds⟩
  rw [division.trueLength packet inside m declares, decide_eq_true_eq] at exceeds
  omega

/-- What the copies complete is the record exactly where only empty fragments are repeated. -/
theorem joined_copies_iff (division : Division record (firsts.map (·.1)) final.1)
    (arrive : ∀ copy ∈ firsts, 1 ≤ copy.2) :
    joined (repeated firsts ++ [final.1]) = record ↔
      ∀ copy ∈ firsts, 1 < copy.2 → copy.1.tlsData = [] := by
  have whole : joined (firsts.map (·.1)) ++ final.1.tlsData = record := by
    simpa using division.whole
  rw [← joined_repeated_iff arrive, ← whole, joined_append, joined_cons, joined_nil,
    List.append_nil, List.append_left_inj]

/-- The last fragment is the record exactly where the others are empty. -/
theorem last_alone_iff (division : Division record (firsts.map (·.1)) final.1) :
    final.1.tlsData = record ↔ ∀ copy ∈ firsts, copy.1.tlsData = [] := by
  have whole : joined (firsts.map (·.1)) ++ final.1.tlsData = record := by
    simpa using division.whole
  rw [← whole, List.self_eq_append_left, joined_eq_nil_iff, List.forall_mem_map]

/-- Copies of a record that has room. -/
theorem harmless_of_room (division : Division record (firsts.map (·.1)) final.1)
    (arrive : ∀ copy ∈ firsts, 1 ≤ copy.2) (arrives : 1 ≤ final.2) (room : record.length ≤ limit) :
    (∀ r ∈ messages limit (repeated firsts ++ List.replicate final.2 final.1) none,
        r.length < 2 ^ 32 → r = record) ↔ Harmless limit record firsts final := by
  have more : ∀ packet ∈ repeated firsts, packet.moreFragments = true :=
    fun packet member => division.more packet (mem_repeated member)
  have small := overLimit_of_room division room
  have gathered := joined_copies_iff division arrive
  have alone := last_alone_iff division
  obtain ⟨n, copies⟩ : ∃ n, final.2 = n + 1 := ⟨final.2 - 1, by omega⟩
  rw [copies, messages_copies more division.final, Harmless, copies, if_pos room,
    kept_eq_self small, if_neg (show ¬ overLimit limit final.1 = true by
      rw [small final.1 (by simp)]; decide)]
  by_cases exceeds : limit < (joined (repeated firsts ++ [final.1])).length
  · rw [if_pos (.inr exceeds)]
    constructor
    · intro _ fits
      omega
    · intro _ r member
      cases member
  · rw [if_neg (not_or.mpr ⟨by simp, exceeds⟩), List.forall_mem_cons, gathered]
    constructor
    · rintro ⟨first, rest⟩ _
      refine ⟨first, fun twice small' => alone.mp (rest _ ?_ small')⟩
      exact List.mem_replicate.mpr ⟨by omega, rfl⟩
    · intro harmless
      obtain ⟨first, rest⟩ := harmless (by omega)
      refine ⟨first, fun r member small' => ?_⟩
      obtain ⟨some, rfl⟩ := List.mem_replicate.mp member
      exact alone.mpr (rest (by omega) small')

/-- Copies of a record that is too long: what they complete cannot be sent. -/
theorem harmless_of_excess (division : Division record (firsts.map (·.1)) final.1)
    (arrives : 1 ≤ final.2) (large : ¬ record.length ≤ limit) :
    (∀ r ∈ messages limit (repeated firsts ++ List.replicate final.2 final.1) none,
        r.length < 2 ^ 32 → r = record) ↔ Harmless limit record firsts final := by
  have more : ∀ packet ∈ repeated firsts, packet.moreFragments = true :=
    fun packet member => division.more packet (mem_repeated member)
  have wrong : ∀ r : Bytes, r.length ≤ limit → (r.length < 2 ^ 32 → r = record) →
      2 ^ 32 ≤ r.length := by
    intro r fits right
    by_contra small'
    exact large (right (by omega) ▸ fits)
  obtain ⟨n, copies⟩ : ∃ n, final.2 = n + 1 := ⟨final.2 - 1, by omega⟩
  rw [copies, messages_copies more division.final, Harmless, copies, if_neg large]
  by_cases nothing : kept limit (repeated firsts ++ [final.1]) = []
  · rw [if_pos (.inl nothing)]
    simp [nothing]
  by_cases exceeds : limit < (joined (kept limit (repeated firsts ++ [final.1]))).length
  · rw [if_pos (.inr exceeds)]
    constructor
    · intro _ _ fits
      omega
    · intro _ r member
      cases member
  · rw [if_neg (by simp [nothing, exceeds]), List.forall_mem_cons]
    constructor
    · rintro ⟨first, rest⟩ _ fits
      refine ⟨wrong _ fits first, fun twice accepted => ?_⟩
      have within : final.1.tlsData.length ≤ limit := by
        rw [← (kept_append_last more).2 nothing, List.length_append] at fits
        omega
      refine wrong _ within (rest _ ?_)
      rw [if_neg (by rw [accepted]; decide)]
      exact List.mem_replicate.mpr ⟨by omega, rfl⟩
    · intro harmless
      obtain ⟨large, rest⟩ := harmless nothing (by omega)
      refine ⟨fun small' => by omega, fun r member small' => ?_⟩
      by_cases refused : overLimit limit final.1 = true
      · rw [if_pos refused] at member
        cases member
      · rw [if_neg refused] at member
        obtain ⟨some, rfl⟩ := List.mem_replicate.mp member
        have := rest (by omega) (by simpa using refused)
        omega

/-- **What copies of the fragments of a record complete and can be sent is that record
exactly when the copies do no harm.** -/
theorem harmless_iff (division : Division record (firsts.map (·.1)) final.1)
    (arrive : ∀ copy ∈ firsts, 1 ≤ copy.2) (arrives : 1 ≤ final.2) :
    (∀ r ∈ messages limit (repeated firsts ++ List.replicate final.2 final.1) none,
        r.length < 2 ^ 32 → r = record) ↔ Harmless limit record firsts final := by
  by_cases room : record.length ≤ limit
  · exact harmless_of_room division arrive arrives room
  · exact harmless_of_excess division arrives room

end Copies

end EapAccel.EapTls
