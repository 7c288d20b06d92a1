import EapAccel.Upstream

/-!
# What pyrad sends

pyrad encodes the octet strings of a packet as they are set, and packs the packet when it is
sent. Octets that start with the ASCII text `0x` it reads as hexadecimal, and a packet that
does not fit its Length field it cannot pack. `Packs` says that it sends everything else as
it is, and `AccessRequest.Sendable` which requests these are (`Packs.wire`).
-/

set_option autoImplicit false

namespace EapAccel

open Foundations

/-! ## Octet strings -/

/-- The longest value of an attribute. -/
def maxValueLength : ℕ := 253

/-- The ASCII text `0x`. -/
def hexPrefix : Bytes := [0x30, 0x78]

/-- Octets that pyrad has no reason to change or to refuse. -/
def PlainOctets (value : Bytes) : Prop :=
  value.length ≤ maxValueLength ∧ ¬ hexPrefix <+: value

instance (value : Bytes) : Decidable (PlainOctets value) :=
  inferInstanceAs (Decidable (_ ∧ _))

/-- Octets that pyrad encodes as they are, if it encodes them. -/
def Verbatim (encodeOctets : Bytes → Except Raised Bytes) (value : Bytes) : Prop :=
  ∀ encoded, encodeOctets value = .ok encoded → encoded = value

/-- What pyrad's `EncodeOctets` does to octets: those that start with the ASCII text `0x` it
refuses, or decodes to fewer ones, and the others it refuses, or encodes as they are. -/
structure EncodesOctets (encodeOctets : Bytes → Except Raised Bytes) : Prop where
  plain : ∀ value, ¬ hexPrefix <+: value → Verbatim encodeOctets value
  hex : ∀ value, hexPrefix <+: value → ∀ encoded, encodeOctets value = .ok encoded →
    encoded.length < value.length

theorem splitEapMessage_flatten (eapBytes : Bytes) :
    (splitEapMessage eapBytes).flatten = eapBytes := by
  rw [splitEapMessage]
  split
  next empty => simp [empty]
  next => exact flatten_chunks (by decide) eapBytes

/-- An EAP packet is split such that a piece of it starts with the ASCII text `0x`. -/
def HexPiece (eap : Bytes) : Prop := ∃ value ∈ splitEapMessage eap, hexPrefix <+: value

instance (eap : Bytes) : Decidable (HexPiece eap) :=
  inferInstanceAs (Decidable (∃ value ∈ splitEapMessage eap, hexPrefix <+: value))

namespace EncodesOctets

variable {encodeOctets : Bytes → Except Raised Bytes}

theorem length_le (encodes : EncodesOctets encodeOctets) {value encoded : Bytes}
    (returned : encodeOctets value = .ok encoded) : encoded.length ≤ value.length := by
  by_cases hex : hexPrefix <+: value
  · exact (encodes.hex value hex encoded returned).le
  · rw [encodes.plain value hex encoded returned]

/-- Values do not get longer together, and shorter if one of them starts with `0x`. -/
theorem flatten_length (encodes : EncodesOctets encodeOctets) {values encoded : List Bytes}
    (returned : values.mapM encodeOctets = .ok encoded) :
    encoded.flatten.length ≤ values.flatten.length ∧
      ((∃ value ∈ values, hexPrefix <+: value) →
        encoded.flatten.length < values.flatten.length) := by
  induction values generalizing encoded with
  | nil =>
      cases returned
      exact ⟨le_rfl, by simp⟩
  | cons value values ih =>
      rw [List.mapM_cons] at returned
      obtain ⟨first, head, rest⟩ := Except.ok_of_bind returned
      obtain ⟨others, tail, same⟩ := Except.ok_of_bind rest
      cases same
      obtain ⟨bound, shorter⟩ := ih tail
      have first_le := encodes.length_le head
      simp only [List.flatten_cons, List.length_append]
      refine ⟨Nat.add_le_add first_le bound, ?_⟩
      rintro ⟨one, member, hex⟩
      rcases List.mem_cons.mp member with rfl | later
      · exact Nat.add_lt_add_of_lt_of_le (encodes.hex one hex first head) bound
      · exact Nat.add_lt_add_of_le_of_lt first_le (shorter ⟨one, later, hex⟩)

/-- **An EAP packet is encoded as it is** exactly when no piece of it starts with `0x`. -/
theorem flatten_iff (encodes : EncodesOctets encodeOctets) {eap : Bytes} {encoded : List Bytes}
    (returned : (splitEapMessage eap).mapM encodeOctets = .ok encoded) :
    encoded.flatten = eap ↔ ¬ HexPiece eap := by
  constructor
  · rintro same hex
    have shorter := (encodes.flatten_length returned).2 hex
    rw [same, splitEapMessage_flatten] at shorter
    exact absurd shorter (Nat.lt_irrefl _)
  · intro plain
    rw [Except.eq_of_mapM (fun value member => encodes.plain value fun hex =>
      plain ⟨value, member, hex⟩) returned]
    exact splitEapMessage_flatten eap

/-- The first piece of an EAP packet that does not start with `0x` is encoded as it is. -/
theorem head_of_encoded (encodes : EncodesOctets encodeOctets) {eap : Bytes}
    (plain : ¬ hexPrefix <+: eap) {encoded : List Bytes}
    (returned : (splitEapMessage eap).mapM encodeOctets = .ok encoded) {i : ℕ} {octet : UInt8}
    (early : i < maxValueLength) (there : eap[i]? = some octet) :
    encoded.flatten[i]? = some octet := by
  have nonempty : eap ≠ [] := by
    rintro rfl
    cases there
  obtain ⟨inside, _⟩ := List.getElem?_eq_some_iff.mp there
  have first : i < (eap.take maxValueLength).length := by
    rw [List.length_take]
    exact lt_min early inside
  have pieces : splitEapMessage eap =
      eap.take maxValueLength :: chunks maxValueLength (eap.drop maxValueLength) :=
    (if_neg nonempty).trans (chunks_cut (by decide) nonempty)
  rw [pieces, List.mapM_cons] at returned
  obtain ⟨head, heads, rest⟩ := Except.ok_of_bind returned
  obtain ⟨others, _, same⟩ := Except.ok_of_bind rest
  cases same
  have verbatim := encodes.plain _ (fun hex => plain (hex.trans (List.take_prefix _ _))) head heads
  rw [List.flatten_cons, verbatim, List.getElem?_append_left first,
    List.getElem?_take_of_lt early, there]

/-- An encoding that refuses all octets that start with `0x`. -/
def refuseHex (value : Bytes) : Except Raised Bytes :=
  if hexPrefix <+: value then .error (.other "binascii.Error") else .ok value

theorem refuseHex_encodes : EncodesOctets refuseHex := by
  constructor
  · intro value plain encoded returned
    rw [refuseHex, if_neg plain] at returned
    exact (Except.ok.inj returned).symm
  · intro value hex encoded returned
    rw [refuseHex, if_pos hex] at returned
    cases returned

end EncodesOctets

namespace UpstreamClient

variable {client : UpstreamClient} {request packet : AccessRequest}

/-! ## Encoding -/

/-- A request whose octet strings are encoded as they are is encoded as it is. -/
theorem encode_self (state : ∀ value ∈ request.state, client.encodeOctets value = .ok value)
    (eapMessage : ∀ value ∈ request.eapMessage, client.encodeOctets value = .ok value) :
    client.encode request = .ok request := by
  rw [encode, Except.option_mapM_self state, Except.ok_bind, Except.mapM_self eapMessage,
    Except.ok_bind]
  rfl

/-- A request that is encoded as it is, and is packed, is sent as it is. -/
theorem wire_self (encoded : client.encode request = .ok request)
    (packed : client.requestPacket request = .ok ()) : client.wire request = .ok request := by
  rw [wire, encoded, Except.ok_bind, packed]
  rfl

/-- **What encoding does to a request**: the State and the EAP-Message attributes are encoded, and
the rest stays. -/
theorem encode_cases (encoded : client.encode request = .ok packet) :
    ∃ state eapMessage, request.state.mapM client.encodeOctets = .ok state ∧
      request.eapMessage.mapM client.encodeOctets = .ok eapMessage ∧
      packet = { request with state := state, eapMessage := eapMessage } := by
  obtain ⟨state, encodedState, rest⟩ := Except.ok_of_bind encoded
  obtain ⟨eapMessage, encodedEap, returned⟩ := Except.ok_of_bind rest
  cases returned
  exact ⟨state, eapMessage, encodedState, encodedEap, rfl⟩

/-! ## Sending -/

/-- What is sent is the request as it is encoded. -/
theorem encode_of_wire (sent : client.wire request = .ok packet) :
    client.encode request = .ok packet := by
  obtain ⟨encoded, encodes, rest⟩ := Except.ok_of_bind sent
  obtain ⟨_, _, returned⟩ := Except.ok_of_bind rest
  cases returned
  exact encodes

/-- The State that is sent is the one of the request, where it is encoded as it is. -/
theorem state_of_wire (sent : client.wire request = .ok packet)
    (verbatim : ∀ value ∈ request.state, Verbatim client.encodeOctets value) :
    packet.state = request.state := by
  obtain ⟨state, eapMessage, encoded, _, rfl⟩ := encode_cases (encode_of_wire sent)
  exact Except.eq_of_option_mapM verbatim encoded

/-- So are the EAP-Message attributes. -/
theorem eapMessage_of_wire (sent : client.wire request = .ok packet)
    (verbatim : ∀ value ∈ request.eapMessage, Verbatim client.encodeOctets value) :
    packet.eapMessage = request.eapMessage := by
  obtain ⟨state, eapMessage, _, encoded, rfl⟩ := encode_cases (encode_of_wire sent)
  exact Except.eq_of_mapM verbatim encoded

/-- What comes of a request that is sent is what the server makes of it. -/
theorem answer_of_wire (sent : client.wire request = .ok packet) (before : List Exchange) :
    client.answer before request = client.respond before packet := by
  rw [answer, sent, Except.ok_bind]

/-- A request that pyrad refuses comes to what it raises. -/
theorem answer_of_refused {e : Raised} (refused : client.wire request = .error e)
    (before : List Exchange) : client.answer before request = .error e := by
  rw [answer, refused, Except.error_bind]

/-- A reply is what the server made of a request that was sent. -/
theorem sent_of_answer {before : List Exchange} {reply : RadiusReply}
    (answered : client.answer before request = .ok reply) :
    ∃ packet, client.wire request = .ok packet ∧ client.respond before packet = .ok reply :=
  Except.ok_of_bind answered

/-- pyrad took the attributes of a request that it sent. -/
theorem takes_of_wire (sent : client.wire request = .ok packet) : client.takes request = true := by
  rw [UpstreamClient.takes, encode_of_wire sent]
  rfl

/-- So it did of one that was answered. -/
theorem takes_of_answer {before : List Exchange} {reply : RadiusReply}
    (answered : client.answer before request = .ok reply) : client.takes request = true := by
  obtain ⟨packet, sent, _⟩ := sent_of_answer answered
  exact takes_of_wire sent

end UpstreamClient

/-- The request was answered. -/
def Exchange.Answered (exchange : Exchange) : Prop := ∃ reply, exchange.outcome = .ok reply

/-! ## What fits -/

/-- A request that pyrad has no reason to change or to refuse: its values fit their attributes,
the octet strings are plain, and the packet fits its Length field. -/
structure AccessRequest.Sendable (request : AccessRequest) : Prop where
  userName : request.userName.utf8ByteSize ≤ maxValueLength
  callingStationId : ∀ name ∈ request.callingStationId, name.utf8ByteSize ≤ maxValueLength
  calledStationId : ∀ name ∈ request.calledStationId, name.utf8ByteSize ≤ maxValueLength
  state : ∀ value ∈ request.state, PlainOctets value
  forwarded : ∀ attr ∈ request.forwarded, attr.1.valueLength attr.2 ≤ maxValueLength
  eapMessage : ∀ value ∈ request.eapMessage, PlainOctets value
  fits : request.encodedLength ≤ maxPacketLength

instance (request : AccessRequest) : Decidable request.Sendable :=
  decidable_of_iff (request.userName.utf8ByteSize ≤ maxValueLength ∧
      (∀ name ∈ request.callingStationId, name.utf8ByteSize ≤ maxValueLength) ∧
      (∀ name ∈ request.calledStationId, name.utf8ByteSize ≤ maxValueLength) ∧
      (∀ value ∈ request.state, PlainOctets value) ∧
      (∀ attr ∈ request.forwarded, attr.1.valueLength attr.2 ≤ maxValueLength) ∧
      (∀ value ∈ request.eapMessage, PlainOctets value) ∧ request.encodedLength ≤ maxPacketLength)
    ⟨fun ⟨a, b, c, d, e, f, g⟩ => ⟨a, b, c, d, e, f, g⟩,
      fun ⟨a, b, c, d, e, f, g⟩ => ⟨a, b, c, d, e, f, g⟩⟩

/-- pyrad sends what it has no reason to change or to refuse. -/
structure UpstreamClient.Packs (client : UpstreamClient) : Prop where
  octets : ∀ value, PlainOctets value → client.encodeOctets value = .ok value
  packet : ∀ request : AccessRequest, request.Sendable → client.requestPacket request = .ok ()

/-- **A sendable request is sent as it is.** -/
theorem UpstreamClient.Packs.wire {client : UpstreamClient} (packs : client.Packs)
    {request : AccessRequest} (sendable : request.Sendable) :
    client.wire request = .ok request := by
  have encoded := UpstreamClient.encode_self
    (fun value member => packs.octets value (sendable.state value member))
    (fun value member => packs.octets value (sendable.eapMessage value member))
  exact UpstreamClient.wire_self encoded (packs.packet request sendable)

/-- A packing that refuses what does not fit the Length field. -/
def refuseLarge (length : ℕ) : Except Raised Unit :=
  if length ≤ maxPacketLength then .ok () else .error (.other "struct.error")

/-- A client that refuses octets that start with `0x`, and packets that are too long. -/
theorem packs_of_refusing {client : UpstreamClient}
    (octets : client.encodeOctets = EncodesOctets.refuseHex)
    (packet : ∀ request, client.requestPacket request = refuseLarge request.encodedLength) :
    client.Packs := by
  constructor
  · intro value plain
    rw [octets, EncodesOctets.refuseHex, if_neg plain.2]
  · intro request sendable
    rw [packet, refuseLarge, if_pos sendable.fits]

end EapAccel
