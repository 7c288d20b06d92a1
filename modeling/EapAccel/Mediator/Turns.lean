import EapAccel.Mediator.Latent

/-!
# The supplicant's turns

A supplicant ACKs the fragments of a record one by one. On the latent leg the record was there as
a whole, so for the latent leg it might have been told of it at once. `Abreast` compares what it
knows with what it would then know: an ACK for a fragment with more to follow brings the two
closer and is not seen by the server (`release_abreast`), and in all other turns both hear the
same (`hands_abreast`).
-/

set_option autoImplicit false

namespace EapAccel

open Foundations EapTls

/-- What a supplicant has been told: whether there is a fragment to ACK, and if so, whether
more are to follow it; and how many records of the server have ended so far. -/
structure Supplicant where
  asked : Option Bool := none
  heard : ℕ := 0
  deriving DecidableEq, Repr

def Supplicant.told (fragment : Option Bool) (knows : Supplicant) : Supplicant where
  asked := fragment
  heard := if fragment = some false then knows.heard + 1 else knows.heard

/-- What a supplicant is told of a record that is sent in one fragment. -/
def whole (tlsRecord : Bytes) : Option Bool := if tlsRecord = [] then none else some false

/-- What a supplicant knows, and what it would know if records were sent in one fragment: the
same, or it has not heard the last fragments of a record, which wait for its ACKs. -/
inductive Abreast (session : Session) (knows knows' : Supplicant) : Prop where
  | same (released : session.downOutbox = []) (known : knows' = knows)
  | behind {idx : ℕ} {pieces : List Bytes} (queue : session.downOutbox = Session.queued idx pieces)
      (waits : pieces ≠ []) (chunks : ∀ chunk ∈ pieces, chunk ≠ [])
      (count : session.downNchunks = idx + pieces.length) (asked : knows.asked = some true)
      (known : knows' = knows.told (some false))

theorem Abreast.of_view {session session' : Session} {knows knows' : Supplicant}
    (outbox : session'.downOutbox = session.downOutbox)
    (count : session'.downNchunks = session.downNchunks) (abreast : Abreast session knows knows') :
    Abreast session' knows knows' := by
  cases abreast with
  | same released known => exact .same (outbox.trans released) known
  | behind queue waits chunks counted asked known =>
      exact .behind (outbox.trans queue) waits chunks (count.trans counted) asked known

/-- Where nothing waits, the supplicant knows all that there is to know. -/
theorem Abreast.of_released {session : Session} {knows knows' : Supplicant}
    (abreast : Abreast session knows knows') (released : session.downOutbox = []) :
    knows' = knows := by
  cases abreast with
  | same _ known => exact known
  | behind queue waits _ _ _ _ =>
      obtain ⟨chunk, rest, rfl⟩ := List.exists_cons_of_ne_nil waits
      rw [queue, Session.queued_cons] at released
      cases released

namespace Mediator

variable {client : UpstreamClient} {context : AuthContext} {fuel : ℕ}

/-! ## What the supplicant is told -/

/-- A fragment that is sent. -/
theorem sendNext_fragment {ackedId : Option UInt8} {idx : ℕ} {chunk : Bytes}
    {rest : List (ℕ × Bytes)} {leg leg' : Leg} {outcome : Outcome}
    (queue : leg.session.downOutbox = (idx, chunk) :: rest)
    (sent : sendNextDownstreamFragment ackedId leg = (.ok outcome, leg')) :
    outcome.fragment =
        (if chunk = [] then none else some (decide (idx < leg.session.downNchunks - 1))) ∧
      leg'.session.downOutbox = rest ∧ leg'.session.downNchunks = leg.session.downNchunks ∧
      leg'.session.latent = leg.session.latent ∧ leg'.session.upReasm = leg.session.upReasm ∧
      leg'.exchanges = leg.exchanges := by
  simp only [sendNextDownstreamFragment, Act.read_bind, queue, updateSession,
    Act.modify_bind] at sent
  rcases built : build codeRequest leg.session.nextDownId chunk
    (idx < leg.session.downNchunks - 1) (if idx = 0 then some leg.session.downTotal else none) false
    with e | eapFrag
  · rw [built] at sent
    cases sent
  · rw [built] at sent
    cases sent
    refine ⟨?_, rfl, rfl, rfl, rfl, rfl⟩
    simp [Outcome.fragment, fragmentIn, Action.verdict, parse_of_build built, described]

/-- **A record of the server that is cut for the supplicant.** -/
theorem deliver_abreast {tlsRecord : Bytes} {leg leg' : Leg} {outcome : Outcome}
    (delivered : deliverRecord tlsRecord leg = (.ok outcome, leg')) :
    leg'.session.latent = (leg.session.counted tlsRecord).latent ∧
      leg'.session.upReasm = leg.session.upReasm ∧ leg'.exchanges = leg.exchanges ∧
      ∀ knows : Supplicant,
        Abreast leg'.session (knows.told outcome.fragment) (knows.told (whole tlsRecord)) := by
  rw [deliverRecord_eq] at delivered
  rcases cut : fragment tlsRecord leg.session.downstreamFragmentSize with e | pieces
  · have raises : beginDownstreamFragmentation tlsRecord
        { leg with session := leg.session.counted tlsRecord } =
          (.error e, { leg with session := leg.session.counted tlsRecord }) := by
      simp only [beginDownstreamFragmentation, Act.read_bind]
      exact Act.bind_of_error (congrArg (·, _) cut)
    rw [raises] at delivered
    cases delivered
  obtain ⟨chunk, rest, rfl⟩ := List.exists_cons_of_ne_nil (fragment_ne_nil cut)
  rw [@begin_eq { leg with session := leg.session.counted tlsRecord } tlsRecord _ cut] at delivered
  obtain ⟨fragment, outbox, count, latent, upReasm, exchanges⟩ :=
    sendNext_fragment (Session.queued_cons 0 chunk rest) delivered
  refine ⟨latent, upReasm, exchanges, fun knows => ?_⟩
  by_cases empty : tlsRecord = []
  · have alone : [[]] = chunk :: rest := by
      rw [fragment_eq (positive_of_fragment cut), if_pos empty] at cut
      exact Except.ok.inj cut
    cases alone
    rw [fragment, whole, if_pos empty]
    exact .same outbox rfl
  · have chunks := ne_nil_of_mem_fragment cut empty
    have told : outcome.fragment = some (decide (0 < rest.length)) := by
      rw [fragment, if_neg (chunks chunk List.mem_cons_self)]
      rfl
    rw [told, whole, if_neg empty]
    cases rest with
    | nil => exact .same outbox rfl
    | cons next rest =>
        refine .behind outbox (List.cons_ne_nil _ _) ?_ ?_ rfl rfl
        · exact fun piece member => chunks piece (List.mem_cons_of_mem _ member)
        · rw [count]
          show (next :: rest).length + 1 = _
          exact Nat.add_comm _ _

/-- **An ACK while fragments wait** is not seen by the server. -/
theorem release_abreast {eapBytes : Bytes} {ack : EapTlsPacket} {leg leg' : Leg}
    {outcome : Outcome} {knows knows' : Supplicant} (reassembling : leg.session.mode = .reassemble)
    (parsed : parse eapBytes = .ok ack) (isAck : ack.isAck = true)
    (waits : leg.session.downOutbox ≠ []) (abreast : Abreast leg.session knows knows')
    (handled : handleSupplicantEap client fuel context eapBytes leg = (.ok outcome, leg')) :
    leg'.session.latent = leg.session.latent ∧ leg'.session.upReasm = leg.session.upReasm ∧
      leg'.exchanges = leg.exchanges ∧
      Abreast leg'.session (knows.told outcome.fragment) knows' := by
  cases abreast with
  | same released _ => exact absurd released waits
  | @behind idx pieces queue waits chunks counted asked known =>
      obtain ⟨chunk, rest, rfl⟩ := List.exists_cons_of_ne_nil waits
      have queue' : ({ leg with session := arrived leg.session ack } : Leg).session.downOutbox =
          (idx, chunk) :: Session.queued (idx + 1) rest := queue.trans (Session.queued_cons _ _ _)
      rw [handle_ack_eq reassembling parsed isAck, handleAck_queued (queue' ▸ List.cons_ne_nil _ _)]
        at handled
      obtain ⟨fragment, outbox, count, latent, upReasm, exchanges⟩ :=
        sendNext_fragment queue' handled
      refine ⟨latent, upReasm, exchanges, ?_⟩
      have told : outcome.fragment = some (decide (0 < rest.length)) := by
        rw [fragment, if_neg (chunks chunk List.mem_cons_self)]
        have number : (arrived leg.session ack).downNchunks = idx + (rest.length + 1) := counted
        rw [number]
        congr 1
        rw [decide_eq_decide]
        omega
      rw [told, known]
      cases rest with
      | nil => exact .same outbox rfl
      | cons next rest =>
          refine .behind outbox (List.cons_ne_nil _ _) ?_ ?_ rfl rfl
          · exact fun piece member => chunks piece (List.mem_cons_of_mem _ member)
          · rw [count]
            have number : (arrived leg.session ack).downNchunks = _ := counted
            rw [number, List.length_cons]
            omega

/-! ## On the latent leg -/

/-- What is left to do when the server's record is there, for the latent leg. -/
def hear : Option Bool ⊕ Bytes → Act Raised Leg (Option Bool)
  | .inl fragment => return fragment
  | .inr tlsRecord => do
      updateSession fun s => s.counted tlsRecord
      return whole tlsRecord

variable {answer : List Core → Core → Except Raised RadiusReply} {base : List Said} {n : ℕ}
  {side : Session}

/-- A turn ends alike on a leg and on one that has its latent part. -/
structure Turned (base : List Said) (n : ℕ) (start : Session) (outcome : Outcome)
    (fragment : Option Bool) (leg own : Leg) : Prop where
  session : own.session.latent = leg.session.latent
  cores : own.cores 0 = coresOf base ++ leg.cores n
  upReasm : leg.session.upReasm = start.upReasm
  abreast : ∀ knows : Supplicant,
    Abreast leg.session (knows.told outcome.fragment) (knows.told fragment)

theorem handOver_exchanges (rest : Outcome ⊕ Bytes) :
    Act.Keeps Leg.exchanges (handOver rest) := by
  cases rest with
  | inl outcome => exact Act.Keeps.pure outcome
  | inr tlsRecord => exact keeps_deliver tlsRecord

/-- **Handing over is hearing**, from legs with the same latent part. -/
theorem handOver_turns {rest : Outcome ⊕ Bytes} {leg own leg' : Leg} {outcome : Outcome}
    (shares : Leg.Shares base n side leg own) (released : leg.session.downOutbox = [])
    (hands : handOver rest leg = (.ok outcome, leg')) :
    ∃ fragment own', hear (gist rest) own = (.ok fragment, own') ∧
      Turned base n leg.session outcome fragment leg' own' := by
  cases rest with
  | inl other =>
      cases hands
      refine ⟨_, own, rfl, shares.session, shares.cores, rfl, ?_⟩
      exact fun _ => .same released rfl
  | inr tlsRecord =>
      obtain ⟨latent, upReasm, exchanges, abreast⟩ := deliver_abreast hands
      refine ⟨_, _, rfl, ?_, ?_, upReasm, abreast⟩
      · rw [latent]
        have counted := congrArg (fun s : Session => s.counted tlsRecord) shares.session
        exact counted
      · show own.cores 0 = _
        rw [shares.cores, Leg.cores, Leg.cores, exchanges]

/-- **A turn that the server sees ends alike**, on a leg where nothing waits and on one that has
its latent part. -/
theorem hands_abreast {x : Act Raised Leg (Outcome ⊕ Bytes)}
    {y z : Act Raised Leg (Option Bool ⊕ Bytes)}
    {leg own leg' : Leg} {outcome : Outcome} (same : (gist <$> x) leg = z leg)
    (simulates : SharesLatent answer base n leg.session.lanSide z y)
    (shares : Leg.Shares base n leg.session.lanSide leg own)
    (released : leg.session.downOutbox = []) (handled : (x >>= handOver) leg = (.ok outcome, leg'))
    (told : leg'.Told (byCore answer) base n) :
    ∃ fragment own', (y >>= hear) own = (.ok fragment, own') ∧
      Turned base n leg.session outcome fragment leg' own' := by
  obtain ⟨rest, mid, gathers, hands⟩ := Act.ok_of_bind handled
  have ends : z leg = (.ok (gist rest), mid) := by
    rw [← same, map_eq_pure_bind, Act.bind_of_ok gathers]
    rfl
  have exchanges : leg'.exchanges = mid.exchanges := by
    have kept := handOver_exchanges rest mid
    rw [hands] at kept
    exact kept
  have toldMid : (z leg).2.Told (byCore answer) base n := by
    rw [ends]
    rwa [Leg.Told, Leg.saidSince, exchanges] at told
  obtain ⟨result, sharesMid⟩ := simulates.same leg own shares toldMid
  rw [ends] at result sharesMid
  rcases gathers' : y own with ⟨_, ownMid⟩
  rw [gathers'] at result sharesMid
  cases result
  have outbox := congrArg Session.downOutbox sharesMid.side
  have upReasm := congrArg Session.upReasm sharesMid.side
  obtain ⟨fragment, own', hears, turned⟩ := handOver_turns sharesMid (outbox.trans released) hands
  refine ⟨fragment, own', (Act.bind_of_ok gathers').trans hears, turned.session, turned.cores,
    turned.upReasm.trans upReasm, turned.abreast⟩

/-! ## The supplicant's packets -/

/-- **An ACK when nothing waits.** -/
theorem poll_abreast {context' : AuthContext} {eapBytes : Bytes} {ack : EapTlsPacket}
    {leg own leg' : Leg} {outcome : Outcome} (reassembling : leg.session.mode = .reassemble)
    (parsed : parse eapBytes = .ok ack) (isAck : ack.isAck = true)
    (released : leg.session.downOutbox = []) (shares : Leg.Shares base n leg.session.lanSide leg own)
    (handled : handleSupplicantEap client fuel context eapBytes leg = (.ok outcome, leg'))
    (told : leg'.Told (byCore answer) base n) :
    ∃ fragment own', (poll (coreClient answer) fuel context' >>= hear) own = (.ok fragment, own') ∧
      Turned base n leg.session outcome fragment leg' own' := by
  rw [handle_ack_eq reassembling parsed isAck, handleAck_eq_gather] at handled
  have arrives : Leg.Shares base n (arrived leg.session ack).lanSide
      { leg with session := arrived leg.session ack } own :=
    ⟨shares.session, shares.cores, shares.since, rfl⟩
  have polled := @gatherAck_polls client context fuel
    { leg with session := arrived leg.session ack } ack released
  obtain ⟨fragment, own', polls, turned⟩ :=
    hands_abreast polled poll_shares arrives released handled told
  exact ⟨fragment, own', polls, turned.session, turned.cores, turned.upReasm, turned.abreast⟩

/-- Forwarding a record of the supplicant, up to the server's record. -/
def forwards (client : UpstreamClient) (fuel : ℕ) (context : AuthContext) (tlsRecord : Bytes) :
    Act Raised Leg (Option Bool ⊕ Bytes) := do
  updateSession fun s =>
    { s with up.bytesReassembled := s.up.bytesReassembled + tlsRecord.length }
  gist <$> gatherForward client fuel context tlsRecord

/-- **The fragment that ends a record of the supplicant.** -/
theorem forward_abreast {context' : AuthContext} {eapBytes : Bytes} {packet : EapTlsPacket}
    {leg own leg' : Leg} {outcome : Outcome} (reassembling : leg.session.mode = .reassemble)
    (parsed : parse eapBytes = .ok packet) (data : packet.isAck = false)
    (final : packet.moreFragments = false) (released : leg.session.downOutbox = [])
    (shares : Leg.Shares base n leg.session.lanSide leg own)
    (handled : handleSupplicantEap client fuel context eapBytes leg = (.ok outcome, leg'))
    (told : leg'.Told (byCore answer) base n) :
    ∃ fragment own', (forwards (coreClient answer) fuel context'
        (leg.session.upReasm.pending ++ packet.tlsData) >>= hear) own = (.ok fragment, own') ∧
      Turned base n { leg.session with upReasm := (Reassembler.ingest packet leg.session.upReasm).2 }
        outcome fragment leg' own' ∧ leg'.session.upReasm.state = .complete := by
  rw [handle_data_eq reassembling parsed data] at handled
  have ends := Reassembler.ingest_ends packet leg.session.upReasm
  rcases fed : Reassembler.ingest packet leg.session.upReasm with ⟨e | _ | tlsRecord, after⟩
  · rw [@handleData_raises client fuel { leg with session := arrived leg.session packet } context
      packet after e fed] at handled
    cases handled
  · rw [fed] at ends
    rcases ends with ⟨ack, _⟩ | ⟨_, more, _⟩
    · exact absurd (ack.symm.trans data) (by decide)
    · exact absurd (more.symm.trans final) (by decide)
  · rw [fed] at ends
    have made := (Reassembler.record_of_ingest (congrArg Prod.fst fed)).2.2.1
    rw [@handleData_complete client fuel { leg with session := arrived leg.session packet } context
      packet after tlsRecord fed, forward_eq_gather] at handled
    have counts := congrArg (fun s : Session =>
      { s with up.bytesReassembled := s.up.bytesReassembled + tlsRecord.length }) shares.session
    have completes : Leg.Shares base n
        (completed (arrived leg.session packet) after tlsRecord).lanSide
        { leg with session := completed (arrived leg.session packet) after tlsRecord }
        { own with session := { own.session with
            up.bytesReassembled := own.session.up.bytesReassembled + tlsRecord.length } } :=
      ⟨counts, shares.cores, shares.since, rfl⟩
    have same : (gist <$> gatherForward client fuel context tlsRecord)
        { leg with session := completed (arrived leg.session packet) after tlsRecord } =
          (gist <$> gatherForward client fuel context tlsRecord)
            { leg with session := completed (arrived leg.session packet) after tlsRecord } := rfl
    obtain ⟨fragment, own', hears, turned⟩ := hands_abreast same
      (@gatherForward_shares answer base n _ client context context' fuel tlsRecord) completes
      released handled told
    rw [← made]
    refine ⟨fragment, own', hears, ⟨turned.session, turned.cores, turned.upReasm, turned.abreast⟩,
      ?_⟩
    rw [turned.upReasm]
    exact ends.2.1

/-- A fragment of the supplicant before the last is ACKed at once. -/
theorem absorb_abreast {eapBytes : Bytes} {packet : EapTlsPacket} {leg leg' : Leg}
    {outcome : Outcome} (reassembling : leg.session.mode = .reassemble)
    (parsed : parse eapBytes = .ok packet) (more : packet.moreFragments = true)
    (handled : handleSupplicantEap client fuel context eapBytes leg = (.ok outcome, leg')) :
    leg'.session.latent = leg.session.latent ∧ leg'.exchanges = leg.exchanges ∧
      leg'.session.downOutbox = leg.session.downOutbox ∧
      leg'.session.upReasm.pending = leg.session.upReasm.pending ++ packet.tlsData := by
  rw [handle_data_eq reassembling parsed (Reassembler.isAck_of_more more)] at handled
  rcases fed : Reassembler.ingest packet leg.session.upReasm with ⟨e | _ | tlsRecord, after⟩
  · rw [@handleData_raises client fuel { leg with session := arrived leg.session packet } context
      packet after e fed] at handled
    cases handled
  · rw [@handleData_more client fuel { leg with session := arrived leg.session packet } context
      packet after fed] at handled
    cases handled
    exact ⟨rfl, rfl, rfl, Reassembler.pending_of_ingest fed⟩
  · have final := (Reassembler.record_of_ingest (congrArg Prod.fst fed)).2.1
    exact absurd (more.symm.trans final) (by decide)

end Mediator
end EapAccel
