import EapAccel.EapTls.Assembly

/-!
# Whole traces of a reassembler

What comes of any sequence of packets, those included that arrive after `ingest` has raised.
Within the limits the reassembler is a function of the trace: cut the data packets after each
one with the M bit clear, and the last packet of a group returns the group
(`trace_semantics`).

Beyond the limits the guard is weaker than it looks. The data that is too much is appended
before it is counted, and stays in the buffer with the message open: so the buffer is bounded
exactly as long as no packet goes over the limit (`buffer_bounded_iff`), and the next message
is read exactly when what was rejected was a declared length (`next_message_read_iff`).
-/

set_option autoImplicit false

namespace EapAccel.EapTls

open Foundations

namespace Reassembler

/-! ## The bound on the buffer -/

/-- The data of the packet takes the message it belongs to over the limit. -/
def Overflows (limit : ℕ) (packet : EapTlsPacket) (opened : Option Bytes) : Prop :=
  ¬ (opened = none ∧ overLimit limit packet = true) ∧
    limit < (opened.getD [] ++ packet.tlsData).length

instance (limit : ℕ) (packet : EapTlsPacket) (opened : Option Bytes) :
    Decidable (Overflows limit packet opened) :=
  inferInstanceAs (Decidable (_ ∧ _))

/-- **One call keeps the bound exactly when its data does not go over the limit.** -/
theorem bounded_ingest_iff {packet : EapTlsPacket} {reassembler : Reassembler}
    (bounded : reassembler.buffer.length ≤ reassembler.maxMessageLen) :
    (ingest packet reassembler).2.buffer.length ≤ reassembler.maxMessageLen ↔
      (packet.isAck = false →
        ¬ Overflows reassembler.maxMessageLen packet reassembler.opened) := by
  rcases ack : packet.isAck with _ | _
  · rw [imp_iff_right rfl]
    by_cases refused : reassembler.Refuses packet
    · have both := refuses_iff.mp refused
      obtain ⟨rest, n, declares, large⟩ := refused
      rw [ingest_refused ack rest declares large]
      exact iff_of_true (Nat.zero_le _) fun overflows => overflows.1 both
    · have gathered : (ingest packet reassembler).2.buffer =
          reassembler.opened.getD [] ++ packet.tlsData := by
        rw [ingest_data ack refused, ← pending_eq]
        split
        · rfl
        · split <;> rfl
      rw [gathered, Overflows, not_and, Nat.not_lt]
      exact (imp_iff_right fun both => refused (refuses_iff.mpr both)).symm
  · rw [ingest_ack ack]
    exact iff_of_true bounded nofun

/-- The message that is open after the data packets among `packets`. -/
def openedAfter (limit : ℕ) (packets : List EapTlsPacket) (opened : Option Bytes) : Option Bytes :=
  assembleAll limit (packets.filter (!·.isAck)) opened

/-- Whatever is fed, the open message is that of the trace. -/
theorem opened_collect (packets : List EapTlsPacket) : ∀ reassembler : Reassembler,
    (Act.collect ingest packets reassembler).2.maxMessageLen = reassembler.maxMessageLen ∧
      (Act.collect ingest packets reassembler).2.opened =
        openedAfter reassembler.maxMessageLen packets reassembler.opened := by
  induction packets with
  | nil => exact fun _ => ⟨rfl, rfl⟩
  | cons packet packets ih =>
      intro reassembler
      obtain ⟨limit, opened⟩ := ih (ingest packet reassembler).2
      rw [ingest_maxMessageLen] at limit opened
      refine ⟨limit, opened.trans ?_⟩
      rcases ack : packet.isAck with _ | _
      · rw [openedAfter, openedAfter, List.filter_cons_of_pos (by rw [ack]; rfl), assembleAll_cons,
          (ingest_assembles ack reassembler).2]
      · rw [openedAfter, openedAfter, List.filter_cons_of_neg (by rw [ack]; decide), ingest_ack ack]

/-- **The guard bounds the buffer exactly as long as no packet takes its message over the
limit.** -/
theorem buffer_bounded_iff {reassembler : Reassembler}
    (bounded : reassembler.buffer.length ≤ reassembler.maxMessageLen)
    (packets : List EapTlsPacket) :
    (∀ fed rest, packets = fed ++ rest →
      (Act.collect ingest fed reassembler).2.buffer.length ≤ reassembler.maxMessageLen) ↔
    ∀ fed packet rest, packets = fed ++ packet :: rest → packet.isAck = false →
      ¬ Overflows reassembler.maxMessageLen packet
        (openedAfter reassembler.maxMessageLen fed reassembler.opened) := by
  have next : ∀ fed packet, (Act.collect ingest (fed ++ [packet]) reassembler).2 =
      (ingest packet (Act.collect ingest fed reassembler).2).2 := by
    intro fed packet
    rw [Act.collect_concat]
  have step : ∀ fed packet,
      (Act.collect ingest fed reassembler).2.buffer.length ≤ reassembler.maxMessageLen →
        ((Act.collect ingest (fed ++ [packet]) reassembler).2.buffer.length ≤
          reassembler.maxMessageLen ↔ (packet.isAck = false →
            ¬ Overflows reassembler.maxMessageLen packet
              (openedAfter reassembler.maxMessageLen fed reassembler.opened))) := by
    intro fed packet so_far
    obtain ⟨limit, opened⟩ := opened_collect fed reassembler
    have one := @bounded_ingest_iff packet (Act.collect ingest fed reassembler).2
      (by rw [limit]; exact so_far)
    rw [limit, opened] at one
    rw [next]
    exact one
  constructor
  · intro all fed packet rest split data
    have here := all fed (packet :: rest) split
    have after := all (fed ++ [packet]) rest (by rw [split, List.append_assoc]; rfl)
    exact (step fed packet here).mp after data
  · intro fits fed
    induction fed using List.reverseRecOn with
    | nil => exact fun _ _ => bounded
    | append_singleton fed packet ih =>
        intro rest split
        have split' : packets = fed ++ packet :: rest := by
          rw [split, List.append_assoc]
          rfl
        exact (step fed packet (ih (packet :: rest) split')).mpr (fits fed packet rest split')

/-- A record in two fragments, and an ACK between them. -/
theorem buffer_bounded_sample :
    (Act.collect ingest [described 2 7 [1, 2] true (some 3) false, ackPacket 2 8,
      described 2 9 [3] false none false] { maxMessageLen := 3 }).2.buffer.length ≤ 3 := by
  have bounded : ({ maxMessageLen := 3 } : Reassembler).buffer.length ≤ 3 := by decide
  refine (buffer_bounded_iff bounded _).mpr ?_ _ [] (List.append_nil _).symm
  intro fed packet rest split data
  rcases fed with _ | ⟨first, _ | ⟨second, _ | ⟨third, fed⟩⟩⟩
  · cases split
    decide
  · cases split
    cases data
  · cases split
    decide
  · have lengths := congrArg List.length split
    simp at lengths

/-- With a limit of one octet, five octets in five fragments are all kept: each call raises
from the second one on, and the buffer grows. -/
theorem buffer_grows :
    (Act.collect ingest (List.replicate 5 (described 2 7 [1] true none false))
        { maxMessageLen := 1 }).2.buffer = [1, 1, 1, 1, 1] ∧
      ¬ ∀ fed rest, List.replicate 5 (described 2 7 [1] true none false) = fed ++ rest →
        (Act.collect ingest fed { maxMessageLen := 1 }).2.buffer.length ≤ 1 := by
  refine ⟨by decide, fun bounded => ?_⟩
  exact absurd (bounded _ [] (List.append_nil _).symm) (by decide)

/-! ## The message after a rejected one -/

/-- A message that is open beyond the limit is never completed: whatever data comes next
raises. -/
theorem ingest_beyond {packet : EapTlsPacket} (data : packet.isAck = false)
    {reassembler : Reassembler} (inProgress : reassembler.state = .inProgress)
    (beyond : reassembler.maxMessageLen < reassembler.buffer.length) :
    ∃ e, (ingest packet reassembler).1 = .error e := by
  have accepted : ¬ reassembler.Refuses packet := fun refused => refused.1 inProgress
  have pending : reassembler.pending = reassembler.buffer := if_pos inProgress
  have exceeds : (reassembler.extend packet).buffer.length > reassembler.maxMessageLen := by
    rw [extend_buffer, pending, List.length_append]
    omega
  rw [ingest_data data accepted, if_pos exceeds]
  exact ⟨_, rfl⟩

/-- **How `ingest` raises**: the declared length is refused, and nothing is open; or the data
goes over the limit, and the message stays open with it. -/
theorem ingest_raises {packet : EapTlsPacket} {reassembler : Reassembler} {e : Raised}
    (raised : (ingest packet reassembler).1 = .error e) :
    (reassembler.Refuses packet ∧ (ingest packet reassembler).2.pending = []) ∨
      (¬ reassembler.Refuses packet ∧ (ingest packet reassembler).2.state = .inProgress ∧
        reassembler.maxMessageLen < (ingest packet reassembler).2.buffer.length) := by
  rcases ack : packet.isAck with _ | _
  · by_cases refused : reassembler.Refuses packet
    · refine .inl ⟨refused, ?_⟩
      obtain ⟨rest, n, declares, large⟩ := refused
      rw [ingest_refused ack rest declares large]
      rfl
    · refine .inr ⟨refused, ?_⟩
      rw [ingest_data ack refused] at raised ⊢
      by_cases exceeds : (reassembler.extend packet).buffer.length > reassembler.maxMessageLen
      · rw [if_pos exceeds]
        exact ⟨rfl, exceeds⟩
      · rw [if_neg exceeds] at raised
        cases more : packet.moreFragments with
        | true =>
            rw [more] at raised
            cases raised
        | false =>
            rw [more] at raised
            cases raised
  · rw [ingest_ack ack] at raised
    cases raised

/-- **The message after a rejected packet is read exactly when the packet was rejected for
its declared length.** Data over the limit stays in the open message, and everything that
follows is rejected with it. -/
theorem next_message_read_iff {packets : List EapTlsPacket} {packet : EapTlsPacket}
    {reassembler : Reassembler} {e : Raised}
    (raised : (ingest packet (Act.collect ingest packets reassembler).2).1 = .error e)
    {record : Bytes} {init : List EapTlsPacket} {last : EapTlsPacket}
    (division : Division record init last) (room : record.length ≤ reassembler.maxMessageLen) :
    (Act.collect ingest (init ++ [last])
        (Act.collect ingest (packets ++ [packet]) reassembler).2).1 =
      List.replicate init.length (.ok none) ++ [.ok (some record)] ↔
    (Act.collect ingest packets reassembler).2.Refuses packet := by
  rw [Act.collect_concat ingest packets packet]
  obtain ⟨limit, _⟩ := opened_collect packets reassembler
  generalize (Act.collect ingest packets reassembler).2 = before at raised limit
  have limit' : (ingest packet before).2.maxMessageLen = reassembler.maxMessageLen :=
    (ingest_maxMessageLen packet before).trans limit
  rcases ingest_raises raised with ⟨refused, fresh⟩ | ⟨accepted, inProgress, beyond⟩
  · refine iff_of_true ?_ refused
    rw [collect_division division fresh (by rw [limit']; exact room)]
  · refine iff_of_false (fun read => ?_) accepted
    rw [limit, ← limit'] at beyond
    rcases init with _ | ⟨first, init⟩
    · obtain ⟨e', raises⟩ := ingest_beyond division.data inProgress beyond
      have head := congrArg List.head? read
      simp only [List.nil_append, Act.collect, List.head?_cons, raises] at head
      cases head
    · have data := isAck_of_more (division.more first List.mem_cons_self)
      obtain ⟨e', raises⟩ := ingest_beyond data inProgress beyond
      have head := congrArg List.head? read
      simp only [List.cons_append, Act.collect, List.head?_cons, raises, List.length_cons,
        List.replicate_succ] at head
      cases head

/-- A packet that declares five octets is refused, and a record of three octets is read. -/
theorem next_message_read_sample :
    (Act.collect ingest [described 2 8 [1, 2] true (some 3) false, described 2 9 [3] false none false]
      (Act.collect ingest ([] ++ [described 2 7 [1] true (some 5) false])
        { maxMessageLen := 3 }).2).1 = [.ok none, .ok (some [1, 2, 3])] := by
  have division : Division [1, 2, 3] [described 2 8 [1, 2] true (some 3) false]
      (described 2 9 [3] false none false) := by
    refine ⟨rfl, by simp [described], rfl, rfl, ?_⟩
    intro packet member n declares
    rcases List.mem_cons.mp member with rfl | member
    · cases declares
      rfl
    · cases List.mem_singleton.mp member
      cases declares
  have raised : (ingest (described 2 7 [1] true (some 5) false)
      (Act.collect ingest [] ({ maxMessageLen := 3 } : Reassembler)).2).1 =
        .error (.eapTlsError "declared TLS message length 5 exceeds max 3") := by decide
  exact (next_message_read_iff raised division (by decide)).mpr
    ⟨by decide, 5, rfl, by decide⟩

/-- Two octets are too much, and the record of one octet after them is rejected as well. -/
theorem next_message_rejected :
    (∃ e, (ingest (described 2 7 [1, 2] true none false)
      ({ maxMessageLen := 1 } : Reassembler)).1 = .error e) ∧
    Division [3] [] (described 2 8 [3] false (some 1) false) ∧
    (Act.collect ingest ([] ++ [described 2 8 [3] false (some 1) false])
      (ingest (described 2 7 [1, 2] true none false)
        ({ maxMessageLen := 1 } : Reassembler)).2).1 ≠
      List.replicate 0 (.ok none) ++ [.ok (some [3])] := by
  refine ⟨⟨.eapTlsError "reassembly buffer exceeded max message length", by decide⟩,
    ⟨rfl, by simp, rfl, rfl, ?_⟩, by decide⟩
  intro packet member n declares
  cases List.mem_singleton.mp member
  cases declares
  rfl

/-! ## The trace semantics -/

end Reassembler

/-- Packets cut after each one with the M bit clear. The last group may be open. -/
def cutMessages : List EapTlsPacket → List (List EapTlsPacket)
  | [] => []
  | packet :: packets =>
      if packet.moreFragments then
        match cutMessages packets with
        | [] => [[packet]]
        | group :: groups => (packet :: group) :: groups
      else [packet] :: cutMessages packets

/-- Fragments that announce more go into the group that follows. -/
theorem cutMessages_more {init : List EapTlsPacket}
    (more : ∀ packet ∈ init, packet.moreFragments = true) (last : EapTlsPacket)
    (final : last.moreFragments = false) (rest : List EapTlsPacket) :
    cutMessages (init ++ last :: rest) = (init ++ [last]) :: cutMessages rest := by
  induction init with
  | nil => rw [List.nil_append, cutMessages, if_neg (by rw [final]; decide), List.nil_append]
  | cons packet init ih =>
      rw [List.cons_append, cutMessages, if_pos (more packet List.mem_cons_self),
        ih fun p member => more p (List.mem_cons_of_mem _ member)]
      rfl

/-- Fragments that all announce more are one open group. -/
theorem cutMessages_open {packets : List EapTlsPacket}
    (more : ∀ packet ∈ packets, packet.moreFragments = true) (some : packets ≠ []) :
    cutMessages packets = [packets] := by
  induction packets with
  | nil => exact absurd rfl some
  | cons packet packets ih =>
      rw [cutMessages, if_pos (more packet List.mem_cons_self)]
      rcases packets with _ | ⟨second, packets⟩
      · rfl
      · rw [ih (fun p member => more p (List.mem_cons_of_mem _ member)) (List.cons_ne_nil _ _)]

/-- Any list of packets begins with a whole group, or all its packets announce more. -/
theorem first_group (packets : List EapTlsPacket) :
    (∀ packet ∈ packets, packet.moreFragments = true) ∨
      ∃ init last rest, packets = init ++ last :: rest ∧
        (∀ packet ∈ init, packet.moreFragments = true) ∧ last.moreFragments = false := by
  induction packets with
  | nil => exact .inl nofun
  | cons packet packets ih =>
      cases more : packet.moreFragments with
      | false => exact .inr ⟨[], packet, packets, rfl, nofun, more⟩
      | true =>
          rcases ih with all | ⟨init, last, rest, rfl, announce, final⟩
          · exact .inl (List.forall_mem_cons.mpr ⟨more, all⟩)
          · exact .inr ⟨packet :: init, last, rest, rfl,
              List.forall_mem_cons.mpr ⟨more, announce⟩, final⟩

/-- The data of a group is within the limit, and so is a length that its first packet
declares. -/
structure GroupWithin (limit : ℕ) (group : List EapTlsPacket) : Prop where
  data : (joined group).length ≤ limit
  declared : ∀ first ∈ group.head?, overLimit limit first = false

/-- What a group returns, packet by packet, with the fragment counts: nothing before its last
packet, and there the data of the group. -/
def groupTrace (group : List EapTlsPacket) : List (Except Raised (Option Bytes × ℕ)) :=
  group.mapIdx fun idx packet =>
    .ok (if packet.moreFragments then none else some (joined group), idx + 1)

namespace Reassembler

/-- `ingest`, and the fragment count that it leaves. -/
def ingestCounted (packet : EapTlsPacket) : Act Raised Reassembler (Option Bytes × ℕ) := do
  let returned ← ingest packet
  let reassembler ← Act.read
  return (returned, reassembler.fragmentCount)

theorem ingestCounted_of_ok {packet : EapTlsPacket} {reassembler after : Reassembler}
    {returned : Option Bytes} (fed : ingest packet reassembler = (.ok returned, after)) :
    ingestCounted packet reassembler = (.ok (returned, after.fragmentCount), after) := by
  rw [ingestCounted, Act.bind_of_ok fed]
  rfl

/-- The packets `group` are in the buffer. -/
structure HoldsGroup (limit : ℕ) (group : List EapTlsPacket) (reassembler : Reassembler) : Prop where
  limit : reassembler.maxMessageLen = limit
  pending : reassembler.pending = joined group
  count : reassembler.state = .inProgress → reassembler.fragmentCount = group.length
  opened : reassembler.state = .inProgress ↔ group ≠ []

/-- One more data packet of a group that is within the limit. -/
theorem HoldsGroup.ingest {limit : ℕ} {group : List EapTlsPacket} {packet : EapTlsPacket}
    {reassembler : Reassembler} (holds : HoldsGroup limit group reassembler)
    (data : packet.isAck = false) (first : group = [] → overLimit limit packet = false)
    (room : (joined (group ++ [packet])).length ≤ limit) :
    ∃ after, ingestCounted packet reassembler =
        (.ok (if packet.moreFragments then none else some (joined (group ++ [packet])),
          group.length + 1), after) ∧
      HoldsGroup limit (if packet.moreFragments then group ++ [packet] else []) after := by
  have gathered : reassembler.pending ++ packet.tlsData = joined (group ++ [packet]) := by
    rw [holds.pending, joined_append, joined_cons, joined_nil, List.append_nil]
  have accepted : ¬ reassembler.Refuses packet := by
    intro refused
    have alone : group = [] := by
      by_contra some
      exact refused.1 (holds.opened.mpr some)
    have exceeds := (refuses_iff.mp refused).2
    rw [holds.limit, first alone] at exceeds
    cases exceeds
  have fits : (reassembler.pending ++ packet.tlsData).length ≤ reassembler.maxMessageLen := by
    rw [gathered, holds.limit]
    exact room
  have count : (reassembler.extend packet).fragmentCount = group.length + 1 := by
    by_cases inProgress : reassembler.state = .inProgress
    · rw [← holds.count inProgress]
      exact if_pos inProgress
    · have alone : group = [] := not_not.mp (mt holds.opened.mpr inProgress)
      rw [alone]
      exact if_neg inProgress
  cases more : packet.moreFragments with
  | true =>
      have fed := ingestCounted_of_ok (ingest_more more accepted fits)
      rw [count] at fed
      refine ⟨_, fed, holds.limit, gathered, fun _ => ?_, iff_of_true rfl (by simp)⟩
      rw [count, if_pos rfl, List.length_append]
      rfl
  | false =>
      have fed := ingestCounted_of_ok (ingest_last data more accepted fits)
      have closed : (reassembler.close packet).fragmentCount = group.length + 1 := count
      rw [closed, gathered] at fed
      exact ⟨_, fed, holds.limit, rfl, nofun, iff_of_false nofun (by simp)⟩

/-- **Fragments that announce more return nothing**, and are counted. -/
theorem HoldsGroup.collect_more {limit : ℕ} {packets : List EapTlsPacket}
    (more : ∀ packet ∈ packets, packet.moreFragments = true) :
    ∀ {group : List EapTlsPacket} {reassembler : Reassembler}, HoldsGroup limit group reassembler →
      (group = [] → ∀ packet ∈ packets.head?, overLimit limit packet = false) →
      (joined (group ++ packets)).length ≤ limit →
      ∃ after, Act.collect ingestCounted packets reassembler =
          (packets.mapIdx fun idx _ => .ok (none, group.length + idx + 1), after) ∧
        HoldsGroup limit (group ++ packets) after := by
  induction packets with
  | nil =>
      intro group reassembler holds _ _
      rw [List.append_nil]
      exact ⟨reassembler, rfl, holds⟩
  | cons packet packets ih =>
      intro group reassembler holds first room
      have announces := more packet List.mem_cons_self
      have split : group ++ packet :: packets = group ++ [packet] ++ packets := by
        rw [List.append_assoc]
        rfl
      rw [split] at room ⊢
      have less : (joined (group ++ [packet])).length ≤ limit := by
        rw [joined_append, List.length_append] at room
        omega
      obtain ⟨mid, fed, held⟩ := holds.ingest (isAck_of_more announces)
        (fun alone => first alone packet rfl) less
      rw [announces, if_pos rfl] at held
      obtain ⟨after, rest, final⟩ := ih (fun p member => more p (List.mem_cons_of_mem _ member)) held
        (fun alone => absurd alone (by simp)) room
      refine ⟨after, ?_, final⟩
      rw [announces, if_pos rfl] at fed
      rw [Act.collect_cons fed rest, List.mapIdx_cons, List.length_append, List.length_singleton]
      simp only [Nat.add_zero, Nat.add_assoc, Nat.add_comm 1]

/-- Of fragments that announce more, a group returns nothing. -/
theorem mapIdx_more {init : List EapTlsPacket}
    (more : ∀ packet ∈ init, packet.moreFragments = true) (whole : Bytes) :
    (init.mapIdx fun idx packet => (.ok (if packet.moreFragments then none else some whole, idx + 1) :
      Except Raised (Option Bytes × ℕ))) = init.mapIdx fun idx _ => .ok (none, 0 + idx + 1) := by
  apply List.ext_getElem?
  intro idx
  rw [List.getElem?_mapIdx, List.getElem?_mapIdx]
  rcases there : init[idx]? with _ | packet
  · rfl
  · have announces := more packet (List.mem_of_getElem? there)
    rw [Option.map_some, Option.map_some, announces, if_pos rfl, Nat.zero_add]

theorem groupTrace_last {init : List EapTlsPacket}
    (more : ∀ packet ∈ init, packet.moreFragments = true) {last : EapTlsPacket}
    (final : last.moreFragments = false) :
    groupTrace (init ++ [last]) = (init.mapIdx fun idx _ => .ok (none, 0 + idx + 1)) ++
      [.ok (some (joined (init ++ [last])), init.length + 1)] := by
  rw [groupTrace, List.mapIdx_append, mapIdx_more more, List.mapIdx_cons, List.mapIdx_nil, final,
    if_neg (by decide), Nat.zero_add]

/-- **A trace of data packets returns its groups.** -/
theorem collect_groups {limit : ℕ} (size : ℕ) : ∀ {packets : List EapTlsPacket}
    {reassembler : Reassembler}, packets.length ≤ size → HoldsGroup limit [] reassembler →
    (∀ packet ∈ packets, packet.isAck = false) →
    (∀ group ∈ cutMessages packets, GroupWithin limit group) →
    (Act.collect ingestCounted packets reassembler).1 =
      (cutMessages packets).flatMap groupTrace := by
  induction size with
  | zero =>
      intro packets reassembler small _ _ _
      rw [List.length_eq_zero_iff.mp (Nat.le_zero.mp small)]
      rfl
  | succ size ih =>
      intro packets reassembler small rest data within
      rcases first_group packets with all | ⟨init, last, later, rfl, more, final⟩
      · rcases packets with _ | ⟨packet, packets⟩
        · rfl
        · rw [cutMessages_open all (List.cons_ne_nil _ _)] at within ⊢
          have own := within _ List.mem_cons_self
          obtain ⟨after, fed, _⟩ := rest.collect_more all (fun _ => own.declared) own.data
          rw [fed, List.flatMap_singleton]
          exact (mapIdx_more all _).symm
      · rw [cutMessages_more more last final] at within ⊢
        have own := within _ List.mem_cons_self
        have data' := fun packet member => data packet (List.mem_append_right _ member)
        have room : (joined ([] ++ init)).length ≤ limit := by
          have whole := own.data
          rw [joined_append, List.length_append] at whole
          rw [List.nil_append]
          omega
        have first : ∀ packet ∈ init.head?, overLimit limit packet = false := by
          intro packet member
          refine own.declared packet ?_
          rcases init with _ | ⟨head, init⟩
          · cases member
          · exact member
        obtain ⟨mid, fed, held⟩ := rest.collect_more more (fun _ => first) room
        rw [List.nil_append] at held
        obtain ⟨after, ended, closed⟩ := held.ingest (data' last List.mem_cons_self)
          (fun alone => own.declared last (by rw [alone]; rfl)) own.data
        rw [final, if_neg (by decide)] at ended closed
        have shorter : later.length ≤ size := by
          rw [List.length_append, List.length_cons] at small
          omega
        have others := ih shorter closed (fun packet member => data' packet
          (List.mem_cons_of_mem _ member)) fun group member => within group
            (List.mem_cons_of_mem _ member)
        rcases later_trace : Act.collect ingestCounted later after with ⟨trace, last_state⟩
        rw [later_trace] at others
        rw [Act.collect_append fed (Act.collect_cons ended later_trace), List.flatMap_cons, ← others,
          groupTrace_last more final, List.append_assoc]
        rfl

/-- What a trace returns on its data packets. -/
def onData {α : Type} (packets : List EapTlsPacket) (trace : List α) : List α :=
  ((packets.zip trace).filter fun fed => !fed.1.isAck).map (·.2)

/-- ACKs return nothing and leave everything as it is. -/
theorem collect_data (packets : List EapTlsPacket) : ∀ reassembler : Reassembler,
    onData packets (Act.collect ingestCounted packets reassembler).1 =
        (Act.collect ingestCounted (packets.filter (!·.isAck)) reassembler).1 ∧
      ∀ fed ∈ packets.zip (Act.collect ingestCounted packets reassembler).1,
        fed.1.isAck = true → ∃ count, fed.2 = .ok (none, count) := by
  induction packets with
  | nil => exact fun _ => ⟨rfl, nofun⟩
  | cons packet packets ih =>
      intro reassembler
      rcases ack : packet.isAck with _ | _
      · obtain ⟨same, nothing⟩ := ih (ingestCounted packet reassembler).2
        refine ⟨?_, ?_⟩
        · rw [onData, Act.collect, List.zip_cons_cons, List.filter_cons_of_pos (by rw [ack]; rfl),
            List.map_cons, List.filter_cons_of_pos (by rw [ack]; rfl), Act.collect, ← same]
          rfl
        · intro fed member isAck
          rw [Act.collect, List.zip_cons_cons] at member
          rcases List.mem_cons.mp member with rfl | later
          · rw [ack] at isAck
            cases isAck
          · exact nothing fed later isAck
      · have skips : ingestCounted packet reassembler =
            (.ok (none, reassembler.fragmentCount), reassembler) :=
          ingestCounted_of_ok (ingest_ack ack reassembler)
        obtain ⟨same, nothing⟩ := ih reassembler
        refine ⟨?_, ?_⟩
        · rw [onData, Act.collect, List.zip_cons_cons, List.filter_cons_of_neg (by rw [ack]; decide),
            List.filter_cons_of_neg (by rw [ack]; decide), skips]
          exact same
        · intro fed member isAck
          rw [Act.collect, List.zip_cons_cons, skips] at member
          rcases List.mem_cons.mp member with rfl | later
          · exact ⟨_, rfl⟩
          · exact nothing fed later isAck

/-- **The trace semantics.** Fed to a fresh reassembler, a trace within the limits returns
nothing on ACKs, and its data packets, cut after each one with the M bit clear, return group by
group nothing before the last packet and there the data of the group. -/
theorem trace_semantics {limit : ℕ} {packets : List EapTlsPacket}
    (within : ∀ group ∈ cutMessages (packets.filter (!·.isAck)), GroupWithin limit group) :
    let trace := (Act.collect ingestCounted packets { maxMessageLen := limit }).1
    onData packets trace = (cutMessages (packets.filter (!·.isAck))).flatMap groupTrace ∧
      ∀ fed ∈ packets.zip trace, fed.1.isAck = true → ∃ count, fed.2 = .ok (none, count) := by
  have fresh : HoldsGroup limit [] ({ maxMessageLen := limit } : Reassembler) :=
    ⟨rfl, rfl, nofun, iff_of_false nofun nofun⟩
  have data : ∀ packet ∈ packets.filter (!·.isAck), packet.isAck = false := by
    intro packet member
    simpa using (List.mem_filter.mp member).2
  obtain ⟨same, nothing⟩ := collect_data packets { maxMessageLen := limit }
  exact ⟨same.trans (collect_groups _ le_rfl fresh data within), nothing⟩

/-- Two messages, with an ACK inside the first one and a wrong length declared. -/
theorem trace_semantics_sample :
    onData [described 2 7 [1] true (some 3) false, ackPacket 2 8, described 2 9 [2] false none false,
        described 2 10 [3] false none false]
      (Act.collect ingestCounted [described 2 7 [1] true (some 3) false, ackPacket 2 8,
        described 2 9 [2] false none false, described 2 10 [3] false none false]
        { maxMessageLen := 3 }).1 =
      [.ok (none, 1), .ok (some [1, 2], 2), .ok (some [3], 1)] := by
  refine (trace_semantics ?_).1
  intro group member
  rcases List.mem_cons.mp member with rfl | member
  · refine ⟨by decide, fun first head => ?_⟩
    cases head
    decide
  · cases List.mem_singleton.mp member
    refine ⟨by decide, fun first head => ?_⟩
    cases head
    decide

end Reassembler
end EapAccel.EapTls
