import EapAccel.EapTls.Reassembler

/-!
# Records and their fragments

What the framing is for: a record goes from one peer to the other cut into
fragments, and comes out whole. A `Division` is any way a sender may cut a record:
the M bit on all fragments but the last, a true total length wherever the L bit is
set, and a last fragment that cannot be taken for an ACK. A reassembler that is not
in the middle of a message turns a division back into its record
(`collect_division`).

The proxy's own fragments are more regular: the length on the first fragment only,
and every fragment within the size (`CutOf`). They are a division
(`CutOf.division`), whatever Identifiers they carry.
-/

set_option autoImplicit false

namespace EapAccel.EapTls

open Foundations Reassembler

/-- The TLS data of a list of packets, joined. -/
def joined (packets : List EapTlsPacket) : Bytes := (packets.map (·.tlsData)).flatten

@[simp] theorem joined_nil : joined [] = [] := rfl

@[simp] theorem joined_cons (packet : EapTlsPacket) (packets : List EapTlsPacket) :
    joined (packet :: packets) = packet.tlsData ++ joined packets := rfl

@[simp] theorem joined_append (first second : List EapTlsPacket) :
    joined (first ++ second) = joined first ++ joined second := by
  simp [joined]

theorem joined_eq_nil_iff {packets : List EapTlsPacket} :
    joined packets = [] ↔ ∀ packet ∈ packets, packet.tlsData = [] := by
  simp [joined]

/-! ## Divisions of a record -/

/-- The fragments `init` and then `last` divide `record`. -/
structure Division (record : Bytes) (init : List EapTlsPacket) (last : EapTlsPacket) : Prop where
  whole : joined (init ++ [last]) = record
  more : ∀ packet ∈ init, packet.moreFragments = true
  final : last.moreFragments = false
  data : last.isAck = false
  trueLength : ∀ packet ∈ init ++ [last], ∀ n ∈ declared packet, n = record.length

/-- A declared length within the limit is not refused. -/
theorem not_refuses {reassembler : Reassembler} {packet : EapTlsPacket}
    (small : ∀ n ∈ declared packet, n ≤ reassembler.maxMessageLen) :
    ¬ reassembler.Refuses packet := by
  rintro ⟨_, n, declares, large⟩
  exact absurd (small n declares) (by omega)

/-- The reassembler after a run of fragments with the M bit. -/
def Reassembler.extendAll (reassembler : Reassembler) (packets : List EapTlsPacket) : Reassembler :=
  packets.foldl Reassembler.extend reassembler

@[simp] theorem Reassembler.extendAll_nil (reassembler : Reassembler) :
    reassembler.extendAll [] = reassembler := rfl

@[simp] theorem Reassembler.extendAll_cons (reassembler : Reassembler) (packet : EapTlsPacket)
    (packets : List EapTlsPacket) :
    reassembler.extendAll (packet :: packets) = (reassembler.extend packet).extendAll packets := rfl

@[simp] theorem Reassembler.extendAll_maxMessageLen (packets : List EapTlsPacket) :
    ∀ reassembler : Reassembler,
      (reassembler.extendAll packets).maxMessageLen = reassembler.maxMessageLen := by
  induction packets with
  | nil => exact fun _ => rfl
  | cons packet packets ih => exact fun reassembler => ih _

@[simp] theorem Reassembler.pending_extendAll (packets : List EapTlsPacket) :
    ∀ reassembler : Reassembler,
      (reassembler.extendAll packets).pending = reassembler.pending ++ joined packets := by
  induction packets with
  | nil => simp
  | cons packet packets ih =>
      intro reassembler
      rw [extendAll_cons, ih, pending_extend, joined_cons, List.append_assoc]

/-- Fragments with the M bit are absorbed one by one. -/
theorem collect_more {packets : List EapTlsPacket}
    (more : ∀ packet ∈ packets, packet.moreFragments = true) :
    ∀ {reassembler : Reassembler},
      (∀ packet ∈ packets, ∀ n ∈ declared packet, n ≤ reassembler.maxMessageLen) →
      (reassembler.pending ++ joined packets).length ≤ reassembler.maxMessageLen →
      Act.collect ingest packets reassembler =
        (List.replicate packets.length (.ok none), reassembler.extendAll packets) := by
  induction packets with
  | nil => exact fun _ _ => rfl
  | cons packet packets ih =>
      intro reassembler small room
      rw [joined_cons, ← List.append_assoc] at room
      have head := ingest_more (more packet (by simp)) (not_refuses (small packet (by simp)))
        (by rw [List.length_append] at room; omega)
      have rest := @ih (fun p member => more p (by simp [member])) (reassembler.extend packet)
        (fun p member => small p (by simp [member])) (by simpa using room)
      exact Act.collect_cons head rest

/-- **A reassembler turns a division back into its record**, on the last fragment
and not earlier. -/
theorem collect_division {record : Bytes} {init : List EapTlsPacket} {last : EapTlsPacket}
    (division : Division record init last) {reassembler : Reassembler}
    (fresh : reassembler.pending = []) (room : record.length ≤ reassembler.maxMessageLen) :
    Act.collect ingest (init ++ [last]) reassembler =
      (List.replicate init.length (.ok none) ++ [.ok (some record)],
        (reassembler.extendAll init).close last) := by
  have total : joined init ++ last.tlsData = record := by simpa using division.whole
  have small : ∀ packet ∈ init ++ [last], ∀ n ∈ declared packet, n ≤ reassembler.maxMessageLen := by
    intro packet member n declares
    rw [division.trueLength packet member n declares]
    exact room
  have first := collect_more division.more
    (fun packet member => small packet (by simp [member]))
    (by rw [fresh, List.nil_append]; have := congrArg List.length total; simp at this; omega)
  refine Act.collect_append first (Act.collect_cons ?_ (Act.collect_nil _ _))
  have accepted : ¬ (reassembler.extendAll init).Refuses last :=
    not_refuses fun n declares => by
      rw [extendAll_maxMessageLen]
      exact small last (by simp) n declares
  have final := ingest_last division.data division.final accepted
    (by simpa [fresh, total] using room)
  simpa [fresh, total] using final

/-- ACKs leave a reassembler as it is. -/
theorem collect_acks {packets : List EapTlsPacket} (acks : ∀ packet ∈ packets, packet.isAck = true)
    (reassembler : Reassembler) :
    Act.collect ingest packets reassembler =
      (List.replicate packets.length (.ok none), reassembler) := by
  induction packets with
  | nil => rfl
  | cons packet packets ih =>
      exact Act.collect_cons (ingest_ack (acks packet (by simp)) reassembler)
        (ih fun p member => acks p (by simp [member]))

/-! ## The fragments the proxy cuts -/

/-- `packets` carry `record` in pieces of at most `size` bytes: the length of the
record on the first, the M bit on all but the last. -/
structure CutOf (record : Bytes) (size : ℕ) (packets : List EapTlsPacket) : Prop where
  count : packets.length = max 1 ((record.length + size - 1) / size)
  whole : joined packets = record
  small : ∀ packet ∈ packets, packet.tlsData.length ≤ size
  nonempty : record ≠ [] → ∀ packet ∈ packets, packet.tlsData ≠ []
  more : ∀ idx packet, packets[idx]? = some packet →
    packet.moreFragments = decide (idx + 1 < packets.length)
  length : ∀ idx packet, packets[idx]? = some packet →
    packet.tlsMessageLength = if idx = 0 then some record.length else none
  lengthFlag : ∀ packet ∈ packets, packet.lengthIncluded = packet.tlsMessageLength.isSome

/-- The chunk at `idx` out of `count`, wrapped. -/
def wrap (code : UInt8) (total count idx : ℕ) (identifier : UInt8) (chunk : Bytes) :
    EapTlsPacket :=
  described code identifier chunk (decide (idx < count - 1)) (if idx = 0 then some total else none)
    false

/-- Chunks of a record from index `idx` out of `count` on, wrapped under the given
Identifiers. -/
def wrapFrom (code : UInt8) (total count idx : ℕ) (identifiers : List UInt8)
    (chunks : List Bytes) : List EapTlsPacket :=
  (identifiers.zip chunks).mapIdx fun offset chunk =>
    wrap code total count (idx + offset) chunk.1 chunk.2

/-- All chunks of a record, wrapped under the given Identifiers. -/
def wrapAll (code : UInt8) (total : ℕ) (identifiers : List UInt8) (chunks : List Bytes) :
    List EapTlsPacket :=
  wrapFrom code total chunks.length 0 identifiers chunks

@[simp] theorem wrapFrom_nil (code : UInt8) (total count idx : ℕ) :
    wrapFrom code total count idx [] [] = [] := rfl

@[simp] theorem wrapFrom_cons (code : UInt8) (total count idx : ℕ) (identifier : UInt8)
    (identifiers : List UInt8) (chunk : Bytes) (chunks : List Bytes) :
    wrapFrom code total count idx (identifier :: identifiers) (chunk :: chunks) =
      wrap code total count idx identifier chunk ::
        wrapFrom code total count (idx + 1) identifiers chunks := by
  simp only [wrapFrom, List.zip_cons_cons, List.mapIdx_cons, Nat.add_zero, List.cons.injEq,
    true_and]
  simp only [Nat.add_assoc, Nat.add_comm 1]

/-- A wrapped chunk of a record fits its packet. -/
theorem encodable_wrap {code : UInt8} {total count idx : ℕ} {identifier : UInt8} {chunk : Bytes}
    (encodable : idx = 0 → total < 2 ^ 32) (short : chunk.length ≤ 65000) :
    (wrap code total count idx identifier chunk).Encodable := by
  refine ⟨rfl, Fits.of_length ?_ short⟩
  intro n declared
  simp only [wrap, described] at declared
  split at declared
  · cases declared
    exact encodable ‹_›
  · cases declared

theorem length_wrapAll {code : UInt8} {total : ℕ} {identifiers : List UInt8} {chunks : List Bytes}
    (enough : identifiers.length = chunks.length) :
    (wrapAll code total identifiers chunks).length = chunks.length := by
  simp [wrapAll, wrapFrom, enough]

theorem getElem?_wrapAll {code : UInt8} {total : ℕ} {identifiers : List UInt8}
    {chunks : List Bytes} {idx : ℕ} {packet : EapTlsPacket}
    (at_idx : (wrapAll code total identifiers chunks)[idx]? = some packet) :
    ∃ identifier chunk, identifiers[idx]? = some identifier ∧ chunks[idx]? = some chunk ∧
      packet = wrap code total chunks.length idx identifier chunk := by
  simp only [wrapAll, wrapFrom, Nat.zero_add, List.getElem?_mapIdx, Option.map_eq_some_iff,
    Prod.exists] at at_idx
  obtain ⟨identifier, chunk, pair, rfl⟩ := at_idx
  obtain ⟨hidentifier, hchunk⟩ := List.getElem?_zip_eq_some.mp pair
  exact ⟨identifier, chunk, hidentifier, hchunk, rfl⟩

theorem tlsData_wrapAll {code : UInt8} {total : ℕ} {identifiers : List UInt8} {chunks : List Bytes}
    (enough : identifiers.length = chunks.length) :
    (wrapAll code total identifiers chunks).map (·.tlsData) = chunks := by
  have data : (wrapAll code total identifiers chunks).map (·.tlsData) =
      (identifiers.zip chunks).map Prod.snd := by
    apply List.ext_getElem?
    intro idx
    simp [wrapAll, wrapFrom, wrap, described, Function.comp_def]
  rw [data, List.map_snd_zip (by omega)]

theorem code_wrapAll {code : UInt8} {total : ℕ} {identifiers : List UInt8} {chunks : List Bytes} :
    ∀ packet ∈ wrapAll code total identifiers chunks, packet.code = code := by
  intro packet inside
  obtain ⟨idx, at_idx⟩ := List.mem_iff_getElem?.mp inside
  obtain ⟨identifier, chunk, _, _, rfl⟩ := getElem?_wrapAll at_idx
  rfl

/-- The wrapped chunks of a record are parsed as they are. -/
theorem parse_wrapAll {code : UInt8} {total : ℕ} {identifiers : List UInt8} {chunks : List Bytes}
    (encodable : total < 2 ^ 32) (short : ∀ chunk ∈ chunks, chunk.length ≤ 65000) :
    ∀ packet ∈ wrapAll code total identifiers chunks, parse (layout packet) = .ok packet := by
  intro packet inside
  obtain ⟨idx, at_idx⟩ := List.mem_iff_getElem?.mp inside
  obtain ⟨identifier, chunk, _, at_chunk, rfl⟩ := getElem?_wrapAll at_idx
  exact parse_layout (encodable_wrap (fun _ => encodable) (short chunk (List.mem_of_getElem? at_chunk)))

/-- What `fragment` returns: chunks that join to the message. -/
theorem fragment_eq {message : Bytes} {size : ℕ} (positive : 0 < size) :
    fragment message size = .ok (if message = [] then [[]] else chunks size message) := by
  rw [fragment, if_neg (by omega)]
  split <;> rfl

/-- The first chunk, and the others. -/
theorem fragment_cut {size : ℕ} (positive : 0 < size) (message : Bytes) :
    fragment message size = .ok (message.take size :: chunks size (message.drop size)) := by
  rw [fragment_eq positive]
  by_cases empty : message = []
  · rw [if_pos empty, empty, List.take_nil, List.drop_nil, chunks_nil positive]
  · rw [if_neg empty, chunks_cut positive empty]

theorem positive_of_fragment {message : Bytes} {size : ℕ} {pieces : List Bytes}
    (cut : fragment message size = .ok pieces) : 0 < size := by
  by_contra zero
  rw [fragment, if_pos (by omega)] at cut
  cases cut

/-- The chunks join to the message. -/
theorem flatten_fragment {message : Bytes} {size : ℕ} {pieces : List Bytes}
    (cut : fragment message size = .ok pieces) : pieces.flatten = message := by
  have positive := positive_of_fragment cut
  rw [fragment_eq positive] at cut
  cases cut
  split
  next empty => simp [empty]
  next => exact flatten_chunks positive message

/-- No chunk is longer than the size. -/
theorem length_le_of_fragment {message : Bytes} {size : ℕ} {pieces : List Bytes}
    (cut : fragment message size = .ok pieces) : ∀ chunk ∈ pieces, chunk.length ≤ size := by
  rw [fragment] at cut
  split at cut
  · cases cut
  · split at cut
    · cases cut
      simp
    · cases cut
      exact fun chunk member => length_le_of_mem_chunks member

/-- A message is cut into as many chunks as it fills, and at least one. -/
theorem length_fragment {message : Bytes} {size : ℕ} {pieces : List Bytes}
    (cut : fragment message size = .ok pieces) :
    pieces.length = max 1 ((message.length + size - 1) / size) := by
  have positive := positive_of_fragment cut
  rw [fragment_eq positive] at cut
  cases cut
  split
  next empty =>
    have : (0 + size - 1) / size = 0 := Nat.div_eq_of_lt (by omega)
    simp only [empty, List.length_nil, this]
    rfl
  next nonempty =>
    have := List.length_pos_iff.mpr (chunks_ne_nil positive nonempty)
    rw [length_chunks] at this ⊢
    omega

theorem fragment_ne_nil {message : Bytes} {size : ℕ} {pieces : List Bytes}
    (cut : fragment message size = .ok pieces) : pieces ≠ [] := by
  have count := length_fragment cut
  rw [← List.length_pos_iff]
  omega

/-- Only the empty message has an empty chunk. -/
theorem ne_nil_of_mem_fragment {message : Bytes} {size : ℕ} {pieces : List Bytes}
    (cut : fragment message size = .ok pieces) (nonempty : message ≠ []) :
    ∀ chunk ∈ pieces, chunk ≠ [] := by
  have positive := positive_of_fragment cut
  rw [fragment_eq positive, if_neg nonempty] at cut
  cases cut
  exact ne_nil_of_mem_chunks positive

/-- **The wrapped chunks of a record are a cut of it, under any Identifiers.** -/
theorem cutOf_wrapAll {code : UInt8} {record : Bytes} {size : ℕ} {pieces : List Bytes}
    (cut : fragment record size = .ok pieces) {identifiers : List UInt8}
    (enough : identifiers.length = pieces.length) :
    CutOf record size (wrapAll code record.length identifiers pieces) := by
  have count := length_fragment cut
  have long : 0 < pieces.length := by omega
  have member : ∀ packet ∈ wrapAll code record.length identifiers pieces,
      packet.tlsData ∈ pieces := by
    intro packet inside
    rw [← @tlsData_wrapAll code record.length _ _ enough]
    exact List.mem_map_of_mem inside
  refine ⟨?_, ?_, ?_, ?_, ?_, ?_, ?_⟩
  · rw [length_wrapAll enough, count]
  · rw [joined, tlsData_wrapAll enough]
    exact flatten_fragment cut
  · exact fun packet inside => length_le_of_fragment cut _ (member packet inside)
  · exact fun nonempty packet inside => ne_nil_of_mem_fragment cut nonempty _ (member packet inside)
  · intro idx packet at_idx
    obtain ⟨identifier, chunk, _, _, rfl⟩ := getElem?_wrapAll at_idx
    rw [length_wrapAll enough]
    simp only [wrap, described]
    congr 1
    exact propext (by omega)
  · intro idx packet at_idx
    obtain ⟨identifier, chunk, _, _, rfl⟩ := getElem?_wrapAll at_idx
    rfl
  · intro packet inside
    obtain ⟨idx, at_idx⟩ := List.mem_iff_getElem?.mp inside
    obtain ⟨identifier, chunk, _, _, rfl⟩ := getElem?_wrapAll at_idx
    rfl

/-- **A cut is a division.** -/
theorem CutOf.division {record : Bytes} {size : ℕ} {packets : List EapTlsPacket}
    (cut : CutOf record size packets) :
    ∃ init last, packets = init ++ [last] ∧ Division record init last := by
  have long : 0 < packets.length := by have := cut.count; omega
  obtain ⟨init, last, rfl⟩ : ∃ init last, packets = init ++ [last] :=
    ⟨packets.dropLast, packets.getLast (List.length_pos_iff.mp long),
      (List.dropLast_append_getLast _).symm⟩
  refine ⟨init, last, rfl, cut.whole, ?_, ?_, ?_, ?_⟩
  · intro packet inside
    obtain ⟨idx, at_idx⟩ := List.mem_iff_getElem?.mp inside
    have bound := (List.getElem?_eq_some_iff.mp at_idx).1
    rw [cut.more idx packet (by rw [List.getElem?_append_left bound, at_idx])]
    simpa using bound
  · rw [cut.more init.length last (by simp)]
    simp
  · have flag := cut.lengthFlag last (by simp)
    have field := cut.length init.length last (by simp)
    by_cases alone : init = []
    · simp [EapTlsPacket.isAck, flag, field, alone]
    · have nonempty : record ≠ [] := by
        rintro rfl
        have := cut.count
        have none : (0 + size - 1) / size ≤ 1 := by
          rcases Nat.eq_zero_or_pos size with rfl | positive
          · simp
          · exact (Nat.div_eq_of_lt (by omega)).le.trans (by omega)
        have := List.length_pos_iff.mpr alone
        simp only [List.length_append, List.length_singleton, List.length_nil] at *
        omega
      have := cut.nonempty nonempty last (by simp)
      simp [EapTlsPacket.isAck, this]
  · intro packet inside n declares
    obtain ⟨idx, at_idx⟩ := List.mem_iff_getElem?.mp inside
    have field := cut.length idx packet at_idx
    simp only [declared] at declares
    split at declares
    · rw [field] at declares
      split at declares
      · exact (Option.some.inj declares).symm
      · cases declares
    · cases declares

/-- **A fresh reassembler makes the record of a cut of it**, on the last packet, and ACKs
that follow give nothing more. -/
theorem CutOf.collect_acks {record : Bytes} {size limit : ℕ} {packets pulls : List EapTlsPacket}
    (cut : CutOf record size packets) (room : record.length ≤ limit)
    (acks : ∀ packet ∈ pulls, packet.isAck = true) :
    (Act.collect ingest (packets ++ pulls) { maxMessageLen := limit }).1 =
      List.replicate (packets.length - 1) (.ok none) ++
        .ok (some record) :: List.replicate pulls.length (.ok none) := by
  obtain ⟨init, last, rfl, division⟩ := cut.division
  have whole := @collect_division _ _ _ division { maxMessageLen := limit } rfl room
  rw [Act.collect_append whole (EapTls.collect_acks acks _)]
  simp

/-- **A fresh reassembler makes the record of a cut of it**, on the last packet. -/
theorem CutOf.collect {record : Bytes} {size limit : ℕ} {packets : List EapTlsPacket}
    (cut : CutOf record size packets) (room : record.length ≤ limit) :
    (Act.collect ingest packets { maxMessageLen := limit }).1 =
      List.replicate (packets.length - 1) (.ok none) ++ [.ok (some record)] := by
  simpa using @CutOf.collect_acks record size limit packets [] cut room (by simp)

end EapAccel.EapTls
