import EapAccel.Opacity.ToSupplicant
import EapAccel.Downstream.Verdicts

/-!
# Two machines that talk in records

A supplicant and a server exchange messages in turn: the supplicant its TLS records, or empty
responses where it has nothing to say, the server its records, and at last a verdict (`Peers`).
What they say depends on what they have heard, so the conversation is settled by the two of them
(`rounds`).

In EAP-TLS packets a record goes in fragments, each but the last of which is ACKed before the next
is sent. `Caller` is the supplicant with the fragments that it has yet to send and the octets that
it has gathered, and `Callee` the server.
-/

set_option autoImplicit false

namespace EapAccel

open Foundations EapTls Mediator

/-- What the server has to say: its next record, or its verdict. -/
inductive Saying where
  | record (tlsRecord : Bytes)
  | verdict (verdict : Verdict)
  deriving DecidableEq, Repr

/-- A supplicant and a server that talk in records, and wrap them in packets. -/
structure Peers where
  /-- The supplicant's message after these records of the server; empty if it has nothing to
  say. -/
  supplicant : List Bytes → Bytes
  /-- What the server says after these messages. -/
  server : List Bytes → Saying
  /-- The packet of the supplicant before the server's Start. -/
  identity : Bytes
  /-- The Identifier of the Start. -/
  startId : UInt8
  /-- The packets of the message after these records. Each goes under the Identifier of the
  Request that it answers. -/
  wrapUp : List Bytes → List EapTlsPacket
  /-- The packets of the record after these messages. -/
  wrapDown : List Bytes → List EapTlsPacket

/-! ## Fragments -/

/-- A packet with data, and `more` data to follow it. -/
structure IsFragment (packet : EapTlsPacket) (more : Bool) : Prop where
  encodable : packet.Encodable
  start : packet.start = false
  data : packet.isAck = false
  more : packet.moreFragments = more

/-- Each packet announces the next. -/
def InFragments : List EapTlsPacket → Prop
  | [] => True
  | packet :: rest => IsFragment packet (!rest.isEmpty) ∧ InFragments rest

theorem inFragments_concat {init : List EapTlsPacket} {last : EapTlsPacket}
    (first : ∀ packet ∈ init, IsFragment packet true) (final : IsFragment last false) :
    InFragments (init ++ [last]) := by
  induction init with
  | nil => exact ⟨final, trivial⟩
  | cons packet init ih =>
      refine ⟨?_, ih fun packet member => first packet (List.mem_cons_of_mem _ member)⟩
      have several : (!(init ++ [last]).isEmpty) = true := by simp
      show IsFragment packet (!(init ++ [last]).isEmpty)
      rw [several]
      exact first packet List.mem_cons_self

/-- The packets wrap a record in fragments of any sizes. The last one has data, and where there are
several one of them tells the length of the record. -/
structure Wraps (code : UInt8) (tlsRecord : Bytes) (packets : List EapTlsPacket) : Prop where
  division : ∃ init last, packets = init ++ [last] ∧ Division tlsRecord init last ∧
    last.tlsData ≠ []
  encodable : ∀ packet ∈ packets, packet.Encodable
  code : ∀ packet ∈ packets, packet.code = code
  start : ∀ packet ∈ packets, packet.start = false
  length : 2 ≤ packets.length → ∃ first ∈ packets, Reassembler.declared first ≠ none

/-- The peers keep to the protocol. -/
structure Peers.Proper (peers : Peers) : Prop where
  identity : peers.identity[4]? ≠ some eapTypeTls
  up : ∀ heard, peers.supplicant heard ≠ [] →
    Wraps codeResponse (peers.supplicant heard) (peers.wrapUp heard)
  down : ∀ heard tlsRecord, peers.server heard = .record tlsRecord →
    tlsRecord ≠ [] ∧ Wraps codeRequest tlsRecord (peers.wrapDown heard)

/-- The message ends with this packet. -/
structure EndsMessage (message gathered : Bytes) (packet : EapTlsPacket) : Prop where
  start : packet.start = false
  final : packet.moreFragments = false
  whole : gathered ++ packet.tlsData = message
  fresh : packet.isAck = true → gathered = []
  data : packet.isAck = false → message ≠ []
  trueLength : ∀ n ∈ Reassembler.declared packet, n = message.length
  length : message.length < 2 ^ 32

/-- An ACK has no flags and no data. -/
theorem fields_of_ack {packet : EapTlsPacket} (isAck : packet.isAck = true) :
    packet.start = false ∧ packet.moreFragments = false ∧ packet.tlsData = [] ∧
      Reassembler.declared packet = none := by
  have data := Reassembler.data_of_ack isAck
  simp only [EapTlsPacket.isAck, Bool.and_eq_true, Bool.not_eq_true'] at isAck
  obtain ⟨⟨⟨included, more⟩, start⟩, _⟩ := isAck
  refine ⟨start, more, data, ?_⟩
  rw [Reassembler.declared, included]
  rfl

namespace Wraps

variable {code : UInt8} {tlsRecord : Bytes} {packets : List EapTlsPacket}

/-- The length of a wrapped record has four octets. -/
theorem length_lt (wraps : Wraps code tlsRecord packets) : tlsRecord.length < 2 ^ 32 := by
  obtain ⟨init, last, rfl, division, _⟩ := wraps.division
  by_cases several : 2 ≤ (init ++ [last]).length
  · obtain ⟨first, member, declares⟩ := wraps.length several
    obtain ⟨n, declares⟩ := Option.ne_none_iff_exists'.mp declares
    rw [← division.trueLength first member n declares]
    have told : first.tlsMessageLength = some n := by
      rw [Reassembler.declared] at declares
      split at declares
      · exact declares
      · cases declares
    exact (wraps.encodable first member).fits.messageLength n told
  · rw [List.length_append, List.length_singleton] at several
    obtain rfl : init = [] := List.eq_nil_of_length_eq_zero (by omega)
    have whole : last.tlsData = tlsRecord := by simpa using division.whole
    have total := (wraps.encodable last (by simp)).fits.total
    rw [← whole]
    omega

theorem whole (wraps : Wraps code tlsRecord packets) : joined packets = tlsRecord := by
  obtain ⟨init, last, rfl, division, _⟩ := wraps.division
  exact division.whole

theorem trueLength (wraps : Wraps code tlsRecord packets) {packet : EapTlsPacket}
    (member : packet ∈ packets) {n : ℕ} (declares : n ∈ Reassembler.declared packet) :
    n = tlsRecord.length := by
  obtain ⟨init, last, rfl, division, _⟩ := wraps.division
  exact division.trueLength packet member n declares

theorem ne_nil (wraps : Wraps code tlsRecord packets) : packets ≠ [] := by
  obtain ⟨init, last, rfl, _⟩ := wraps.division
  exact List.append_ne_nil_of_right_ne_nil _ (List.cons_ne_nil _ _)

/-- **What wraps a record, is in fragments.** -/
theorem inFragments (wraps : Wraps code tlsRecord packets) : InFragments packets := by
  obtain ⟨init, last, rfl, division, _⟩ := wraps.division
  apply inFragments_concat
  · intro packet member
    have there := List.mem_append_left [last] member
    have more := division.more packet member
    exact ⟨wraps.encodable packet there, wraps.start packet there,
      Reassembler.isAck_of_more more, more⟩
  · exact ⟨wraps.encodable last (by simp), wraps.start last (by simp), division.data, division.final⟩

end Wraps

/-! ## The conversation -/

/-- How far a conversation has come: the messages of the supplicant, the records of the server,
and the verdict. -/
structure Talk where
  messages : List Bytes := []
  records : List Bytes := []
  verdict : Option Verdict := none
  deriving DecidableEq, Repr

namespace Peers

variable (peers : Peers)

/-- One more message of the supplicant, and what the server says to it. -/
def round (talk : Talk) : Talk :=
  match talk.verdict with
  | some _ => talk
  | none =>
      let messages := talk.messages ++ [peers.supplicant talk.records]
      match peers.server messages with
      | .record tlsRecord => { messages := messages, records := talk.records ++ [tlsRecord] }
      | .verdict verdict =>
          { messages := messages, records := talk.records, verdict := some verdict }

/-- The conversation after so many rounds. -/
def rounds : ℕ → Talk
  | 0 => {}
  | k + 1 => peers.round (rounds k)

end Peers

/-- A conversation goes on from another, which has not come to its end or is the same. -/
structure Talk.Before (talk talk' : Talk) : Prop where
  messages : talk.messages <+: talk'.messages
  records : talk.records <+: talk'.records
  verdict : talk.verdict ≠ none → talk' = talk

theorem Talk.Before.refl (talk : Talk) : talk.Before talk :=
  ⟨List.prefix_rfl, List.prefix_rfl, fun _ => rfl⟩

theorem Talk.Before.trans {talk talk' talk'' : Talk} (first : talk.Before talk')
    (second : talk'.Before talk'') : talk.Before talk'' := by
  constructor
  · exact first.messages.trans second.messages
  · exact first.records.trans second.records
  · intro ended
    obtain rfl := first.verdict ended
    exact second.verdict ended

namespace Peers

variable {peers : Peers}

theorem round_of_verdict {talk : Talk} (ended : talk.verdict ≠ none) : peers.round talk = talk := by
  obtain ⟨verdict, ended⟩ := Option.ne_none_iff_exists'.mp ended
  rw [round, ended]

theorem round_of_record {talk : Talk} (open_ : talk.verdict = none) {tlsRecord : Bytes}
    (answer : peers.server (talk.messages ++ [peers.supplicant talk.records]) = .record tlsRecord) :
    peers.round talk =
      { messages := talk.messages ++ [peers.supplicant talk.records]
        records := talk.records ++ [tlsRecord] } := by
  rw [round, open_]
  simp only [answer]

theorem round_of_saidVerdict {talk : Talk} (open_ : talk.verdict = none) {verdict : Verdict}
    (answer : peers.server (talk.messages ++ [peers.supplicant talk.records]) = .verdict verdict) :
    peers.round talk =
      { messages := talk.messages ++ [peers.supplicant talk.records]
        records := talk.records
        verdict := some verdict } := by
  rw [round, open_]
  simp only [answer]

theorem before_round (talk : Talk) : talk.Before (peers.round talk) := by
  by_cases ended : talk.verdict = none
  · rcases answer : peers.server (talk.messages ++ [peers.supplicant talk.records]) with
      tlsRecord | verdict
    · rw [round_of_record ended answer]
      exact ⟨List.prefix_append _ _, List.prefix_append _ _, fun some => absurd ended some⟩
    · rw [round_of_saidVerdict ended answer]
      exact ⟨List.prefix_append _ _, List.prefix_rfl, fun some => absurd ended some⟩
  · rw [round_of_verdict ended]
    exact .refl talk

/-- **The conversation goes on**, from round to round. -/
theorem rounds_before {j k : ℕ} (early : j ≤ k) : (peers.rounds j).Before (peers.rounds k) := by
  induction early with
  | refl => exact .refl _
  | step _ ih => exact ih.trans (before_round _)

end Peers

/-! ## The supplicant -/

/-- A packet under another Identifier. -/
def EapTls.EapTlsPacket.under (identifier : UInt8) (packet : EapTlsPacket) : EapTlsPacket :=
  { packet with identifier := identifier }

/-- The supplicant: the packet that it sends next, the fragments that are to follow it, the octets
of the server's record so far, the records that it has heard, and the verdict. -/
structure Caller where
  next : Option Bytes
  rest : List EapTlsPacket := []
  gathered : Bytes := []
  heard : List Bytes := []
  result : Option Verdict := none
  deriving DecidableEq

namespace Peers

variable (peers : Peers)

/-- The supplicant begins its message after these records, with an answer to this Request. -/
def say (heard : List Bytes) (identifier : UInt8) : Caller :=
  if peers.supplicant heard = [] then
    { next := some (layout (ackPacket codeResponse identifier)), heard := heard }
  else
    match peers.wrapUp heard with
    | [] => { next := none, heard := heard }
    | first :: rest =>
        { next := some (layout (first.under identifier)), rest := rest, heard := heard }

/-- The supplicant before its first packet. -/
def caller : Caller where
  next := some peers.identity

/-- The supplicant hears a packet: a Start, an ACK, or a fragment of a record. -/
def hears (packet : EapTlsPacket) (caller : Caller) : Caller :=
  if packet.start then peers.say caller.heard packet.identifier
  else if packet.isAck then
    match caller.rest with
    | [] => { caller with next := none }
    | first :: rest =>
        { caller with next := some (layout (first.under packet.identifier)), rest := rest }
  else if packet.moreFragments then
    { caller with
      next := some (layout (ackPacket codeResponse packet.identifier))
      gathered := caller.gathered ++ packet.tlsData }
  else peers.say (caller.heard ++ [caller.gathered ++ packet.tlsData]) packet.identifier

/-- The supplicant, and its AP, get a reply. Without one they have nothing to send. -/
def receives (caller : Caller) : List ApReply → Caller
  | [reply] =>
      if reply.code = accessAccept then { caller with next := none, result := some .accept }
      else if reply.code = accessReject then { caller with next := none, result := some .reject }
      else
        match parse reply.eapMessage.flatten with
        | .ok packet => peers.hears packet caller
        | .error _ => { caller with next := none }
  | _ => { caller with next := none }

end Peers

/-! ## The server -/

/-- The server: the messages that it has heard, the octets of the next one so far, and the
fragments of its record that it has yet to send. -/
structure Callee where
  heard : List Bytes := []
  gathered : Bytes := []
  rest : List EapTlsPacket := []
  deriving DecidableEq

/-- What the server sends: an EAP-TLS packet, or its verdict. -/
inductive Sending where
  | packet (packet : EapTlsPacket)
  | verdict (verdict : Verdict)
  deriving DecidableEq

namespace Peers

variable (peers : Peers)

/-- The server's Start. -/
def start : EapTlsPacket := described codeRequest peers.startId [] false none true

/-- The server, when it has heard these messages, and what it sends. -/
def answers (heard : List Bytes) : Callee × Sending :=
  match peers.server heard, peers.wrapDown heard with
  | .verdict verdict, _ => ({ heard := heard }, .verdict verdict)
  | .record _, first :: rest => ({ heard := heard, rest := rest }, .packet first)
  | .record _, [] => ({ heard := heard }, .packet peers.start)

/-- The server hears an EAP packet, and what it sends. -/
def replies (eapBytes : Bytes) (callee : Callee) : Callee × Sending :=
  match parse eapBytes with
  | .error _ => (callee, .packet peers.start)
  | .ok packet =>
      if packet.isAck then
        match callee.rest with
        | [] => peers.answers (callee.heard ++ [[]])
        | first :: rest => ({ callee with rest := rest }, .packet first)
      else if packet.moreFragments then
        ({ callee with gathered := callee.gathered ++ packet.tlsData },
          .packet (ackPacket codeRequest (packet.identifier + 1)))
      else peers.answers (callee.heard ++ [callee.gathered ++ packet.tlsData])

/-- The server after these exchanges. -/
def callee (exchanges : List Exchange) : Callee :=
  exchanges.foldl (fun callee exchange => (peers.replies exchange.request.eap callee).1) {}

theorem callee_concat (exchanges : List Exchange) (exchange : Exchange) :
    peers.callee (exchanges ++ [exchange]) =
      (peers.replies exchange.request.eap (peers.callee exchanges)).1 := by
  rw [callee, List.foldl_concat]
  rfl

end Peers

namespace Peers

variable {peers : Peers} {eapBytes message : Bytes} {packet first : EapTlsPacket} {callee : Callee}
  {rest : List EapTlsPacket}

/-- A fragment before the last is ACKed. -/
theorem replies_more (parsed : parse eapBytes = .ok packet) (fragment : IsFragment packet true) :
    peers.replies eapBytes callee = ({ callee with gathered := callee.gathered ++ packet.tlsData },
      .packet (ackPacket codeRequest (packet.identifier + 1))) := by
  have data : ¬ packet.isAck = true := by rw [fragment.data]; decide
  simp only [replies, parsed]
  rw [if_neg data, if_pos fragment.more]

/-- An ACK gets the next fragment. -/
theorem replies_next (parsed : parse eapBytes = .ok packet) (isAck : packet.isAck = true)
    (waits : callee.rest = first :: rest) :
    peers.replies eapBytes callee = ({ callee with rest := rest }, .packet first) := by
  simp only [replies, parsed]
  rw [if_pos isAck, waits]

/-- The end of a message is answered. -/
theorem replies_ends (parsed : parse eapBytes = .ok packet)
    (ends : EndsMessage message callee.gathered packet) (nothing : callee.rest = []) :
    peers.replies eapBytes callee = peers.answers (callee.heard ++ [message]) := by
  simp only [replies, parsed]
  by_cases isAck : packet.isAck = true
  · have empty := ends.whole
    rw [ends.fresh isAck, (fields_of_ack isAck).2.2.1] at empty
    rw [if_pos isAck, nothing, ← empty]
    rfl
  · have final : ¬ packet.moreFragments = true := by rw [ends.final]; decide
    rw [if_neg isAck, if_neg final, ends.whole]

/-- A packet that is not EAP-TLS gets the Start. -/
theorem replies_other (other : eapBytes[4]? ≠ some eapTypeTls) :
    peers.replies eapBytes callee = (callee, .packet peers.start) := by
  obtain ⟨e, unparsed⟩ : ∃ e, parse eapBytes = .error e := by
    rcases parsed : parse eapBytes with e | packet
    · exact ⟨e, rfl⟩
    · exact absurd (type_of_parse parsed) other
  simp only [replies, unparsed]

theorem answers_verdict {heard : List Bytes} {verdict : Verdict}
    (answer : peers.server heard = .verdict verdict) :
    peers.answers heard = ({ heard := heard }, .verdict verdict) := by
  simp only [answers, answer]

theorem answers_record (proper : peers.Proper) {heard : List Bytes} {tlsRecord : Bytes}
    (answer : peers.server heard = .record tlsRecord) :
    ∃ first rest, peers.wrapDown heard = first :: rest ∧
      peers.answers heard = ({ heard := heard, rest := rest }, .packet first) := by
  rcases packets : peers.wrapDown heard with _ | ⟨first, rest⟩
  · exact absurd packets (proper.down heard tlsRecord answer).2.ne_nil
  · refine ⟨first, rest, rfl, ?_⟩
    simp only [answers, answer, packets]

theorem ackPacket_encodable (code identifier : UInt8) : (ackPacket code identifier).Encodable :=
  ⟨rfl, Fits.of_length (by simp [ackPacket, described]) (by simp [ackPacket, described])⟩

theorem start_encodable (peers : Peers) : peers.start.Encodable :=
  ⟨rfl, Fits.of_length (by simp [start, described]) (by simp [start, described])⟩

end Peers

/-- The reply has this in it. What else there is in it, a State or keys, is the server's affair. -/
def RadiusReply.Has (reply : RadiusReply) : Sending → Prop
  | .packet packet => reply.code = accessChallenge ∧ reply.eapMessage.flatten = layout packet
  | .verdict verdict => reply.code = verdict.code

instance (reply : RadiusReply) : (sending : Sending) → Decidable (reply.Has sending)
  | .packet _ => inferInstanceAs (Decidable (_ ∧ _))
  | .verdict _ => inferInstanceAs (Decidable (_ = _))

/-- The auth server is that of the peers. -/
def Peers.Serve (peers : Peers)
    (respond : List Exchange → AccessRequest → Except Raised RadiusReply) :
    Prop :=
  ∀ before request, ∃ reply, respond before request = .ok reply ∧
    reply.Has (peers.replies request.eap (peers.callee before)).2

/-- The auth server is that of the peers, and gets the requests as they are. -/
structure Peers.Behind (peers : Peers) (client : UpstreamClient) : Prop where
  serve : peers.Serve client.respond
  sends : ∀ request, client.wire request = .ok request

theorem Peers.behind_of_lossless {peers : Peers} {env : Env} (serve : peers.Serve env.respond)
    (lossless : env.Lossless) : peers.Behind env.client :=
  ⟨serve, lossless.wire_request⟩

/-- **What a request gets from the server.** -/
theorem Peers.Behind.outcome {peers : Peers} {client : UpstreamClient}
    (behind : peers.Behind client) (eapPayload : Bytes) (context : AuthContext) (leg : Leg) :
    ∃ reply, leg.outcome client eapPayload context = .ok reply ∧
      reply.Has (peers.replies eapPayload (peers.callee leg.exchanges)).2 := by
  have answered := behind.serve leg.exchanges (leg.request client eapPayload context)
  rw [Leg.eap_request] at answered
  rwa [Leg.outcome, UpstreamClient.answer_of_wire (behind.sends _)]

/-- What the server has become by a request. -/
theorem Peers.callee_exchanged (peers : Peers) (client : UpstreamClient) (eapPayload : Bytes)
    (context : AuthContext) (leg : Leg) :
    peers.callee (leg.exchanges ++ [leg.exchanged client eapPayload context]) =
      (peers.replies eapPayload (peers.callee leg.exchanges)).1 := by
  rw [peers.callee_concat, Leg.eap_exchanged]

/-- A challenge brings its packet. -/
theorem RadiusReply.Has.brings {reply : RadiusReply} {packet : EapTlsPacket}
    (has : reply.Has (.packet packet)) (encodable : packet.Encodable) :
    Mediator.Brings reply.normalise packet := by
  obtain ⟨challenge, carries⟩ := has
  have parsed : parse reply.eapMessage.flatten = .ok packet := by
    rw [carries, parse_layout encodable]
  exact ⟨(normalise_challenge challenge).1, (normalise_challenge challenge).2, _,
    eapMessages_normalise parsed, parsed⟩

end EapAccel
