import EapAccel.EapTls.Packet

/-!
# The grammar of EAP-TLS packets

What `parse` accepts, compared with what the EAP header declares. `parse_framed` says what it
does with six octets or more of the EAP-TLS type. From it: `build` and `parse` are inverse to
each other on packets without padding (`codec_round_trip`); the declared Length is honoured
unless it is too small for the header, which `parse` does not check
(`parse_honours_length_iff`); and a packet that ends before its flags octet is the one
malformed packet that raises an `IndexError` (`reported_iff`).
-/

set_option autoImplicit false

namespace EapAccel.EapTls

open Foundations

/-! ## Packets with a flags octet -/

/-- `declared_len`. -/
def declaredLen (packet : Bytes) : ℕ := fieldAt packet 2 2

/-- The octets in front of the TLS data, as the flags octet has it. -/
def headerLen (packet : Bytes) : ℕ :=
  if packet[5]?.getD 0 &&& flagLengthIncluded != 0 then 6 + eapTlsMsglenLen else 6

/-- The packet that `parse` returns when it finds nothing wrong. -/
def framed (packet : Bytes) (code identifier flags : UInt8) : EapTlsPacket where
  code := code
  identifier := identifier
  lengthIncluded := flags &&& flagLengthIncluded != 0
  moreFragments := flags &&& flagMoreFragments != 0
  start := flags &&& flagStart != 0
  tlsMessageLength :=
    if flags &&& flagLengthIncluded != 0 then some (fieldAt packet 6 eapTlsMsglenLen) else none
  tlsData :=
    if declaredLen packet ≠ 0 then (packet.take (declaredLen packet)).drop (headerLen packet)
    else packet.drop (headerLen packet)

variable {packet rest : Bytes} {code identifier high low flags : UInt8}

/-- **What `parse` does with an EAP-TLS packet that has a flags octet.** -/
theorem parse_framed
    (octets : packet = code :: identifier :: high :: low :: eapTypeTls :: flags :: rest) :
    parse packet =
      if packet.length < declaredLen packet then
        .error (.eapTlsError
          s!"EAP Length {declaredLen packet} exceeds buffer {packet.length}")
      else if packet.length < headerLen packet then
        .error (.eapTlsError "L bit set but TLS Message Length truncated")
      else .ok (framed packet code identifier flags) := by
  have header : headerLen packet =
      if flags &&& flagLengthIncluded != 0 then 6 + eapTlsMsglenLen else 6 := by
    rw [octets]
    rfl
  have long : ¬ packet.length < 6 := by
    rw [octets]
    simp
  rw [framed, header, parse.eq_def]
  unfold declaredLen
  rw [octets]
  simp only
  rw [← octets]
  simp only [ne_eq, not_true_eq_false, if_false, gt_iff_lt]
  cases included : flags &&& flagLengthIncluded != 0
  · simp only [Bool.false_eq_true, false_and, if_false, long]
  · simp only [true_and, if_true]

/-! ## What is raised -/

/-- An exception of the framing code itself. -/
def IsEapTlsError (e : Raised) : Prop := ∃ message, e = .eapTlsError message

/-- The packet ends before its flags octet: five octets of the EAP-TLS type, which the
check of the declared Length lets through. -/
def EndsBeforeFlags (packet : Bytes) : Prop :=
  packet.length = 5 ∧ packet[4]? = some eapTypeTls ∧ declaredLen packet ≤ 5

instance (packet : Bytes) : Decidable (EndsBeforeFlags packet) :=
  inferInstanceAs (Decidable (_ ∧ _ ∧ _))

/-- What is not EAP-TLS, or is too short to say so, is refused. -/
theorem parse_other {packet : Bytes} (other : packet[4]? ≠ some eapTypeTls) :
    ∃ message, parse packet = .error (.eapTlsError message) := by
  rw [parse.eq_def]
  split
  next code identifier _ _ eapType rest =>
    have different : eapType ≠ eapTypeTls := fun same => other (congrArg some same)
    exact ⟨_, if_pos different⟩
  next => exact ⟨_, rfl⟩

/-- A packet of five octets of the EAP-TLS type. -/
theorem parse_five (octets : packet = [code, identifier, high, low, eapTypeTls]) :
    parse packet =
      if 5 < declaredLen packet then
        .error (.eapTlsError s!"EAP Length {declaredLen packet} exceeds buffer {5}")
      else .error .indexError := by
  subst octets
  rfl

/-- A packet of the EAP-TLS type has five octets, or a flags octet as well. -/
theorem octets_of_tls {packet : Bytes} (tls : packet[4]? = some eapTypeTls) :
    ∃ code identifier high low rest,
      packet = code :: identifier :: high :: low :: eapTypeTls :: rest := by
  rcases packet with _ | ⟨code, _ | ⟨identifier, _ | ⟨high, _ | ⟨low, _ | ⟨type, rest⟩⟩⟩⟩⟩
  all_goals cases tls
  exact ⟨code, identifier, high, low, rest, rfl⟩

/-- **`parse` raises an `EapTlsError` or nothing, unless the packet ends before its flags
octet**, where it raises an `IndexError`. -/
theorem reported_iff (packet : Bytes) :
    (∀ e, parse packet = .error e → IsEapTlsError e) ↔ ¬ EndsBeforeFlags packet := by
  by_cases tls : packet[4]? = some eapTypeTls
  · obtain ⟨code, identifier, high, low, rest, octets⟩ := octets_of_tls tls
    rcases rest with _ | ⟨flags, rest⟩
    · have result := parse_five octets
      by_cases exceeds : 5 < declaredLen packet
      · rw [if_pos exceeds] at result
        refine iff_of_true (fun e raised => ?_) fun ends => absurd ends.2.2 (by omega)
        rw [result] at raised
        cases raised
        exact ⟨_, rfl⟩
      · rw [if_neg exceeds] at result
        refine iff_of_false (fun reported => ?_) fun absent => ?_
        · obtain ⟨message, same⟩ := reported _ result
          cases same
        · exact absent ⟨by rw [octets]; rfl, tls, by omega⟩
    · refine iff_of_true (fun e raised => ?_) fun ends => ?_
      · rw [parse_framed octets] at raised
        split at raised
        · cases raised
          exact ⟨_, rfl⟩
        · split at raised
          · cases raised
            exact ⟨_, rfl⟩
          · cases raised
      · have short := ends.1
        rw [octets] at short
        simp at short
  · refine iff_of_true (fun e raised => ?_) fun ends => tls ends.2.1
    obtain ⟨message, result⟩ := parse_other tls
    rw [result] at raised
    cases raised
    exact ⟨message, rfl⟩

/-! ## The declared Length -/

/-- The declared Length is what `parse` goes by: a packet is accepted exactly when the
Length covers its header and is covered by the buffer, and then padding has no influence. -/
structure HonoursLength (packet : Bytes) : Prop where
  accepts : (∃ parsed, parse packet = .ok parsed) ↔
    headerLen packet ≤ declaredLen packet ∧ declaredLen packet ≤ packet.length
  unpadded : ∀ parsed, parse packet = .ok parsed →
    parse (packet.take (declaredLen packet)) = .ok parsed
  refuses : ∀ e, parse packet = .error e → IsEapTlsError e

theorem fieldAt_take {packet : Bytes} {offset width size : ℕ} (inside : offset + width ≤ size) :
    fieldAt (packet.take size) offset width = fieldAt packet offset width := by
  rw [fieldAt, fieldAt, List.drop_take, List.take_take, min_eq_left (by omega)]

theorem six_le_headerLen (packet : Bytes) : 6 ≤ headerLen packet := by
  rw [headerLen]
  split <;> simp [eapTlsMsglenLen]

/-- Cutting the padding off changes neither the header nor the declared Length. -/
theorem header_take {packet : Bytes} {size : ℕ} (inside : 6 ≤ size) :
    headerLen (packet.take size) = headerLen packet ∧
      declaredLen (packet.take size) = declaredLen packet := by
  refine ⟨?_, fieldAt_take (by omega)⟩
  rw [headerLen, headerLen, List.getElem?_take_of_lt (by omega)]

/-- A packet without its padding is read as with it. -/
theorem framed_take {packet : Bytes} {code identifier flags : UInt8}
    (flagged : packet[5]? = some flags) (covers : headerLen packet ≤ declaredLen packet) :
    framed (packet.take (declaredLen packet)) code identifier flags =
      framed packet code identifier flags := by
  have six := six_le_headerLen packet
  obtain ⟨header, declared⟩ := @header_take packet (declaredLen packet) (by omega)
  have positive : declaredLen packet ≠ 0 := by omega
  have length : headerLen packet =
      if flags &&& flagLengthIncluded != 0 then 6 + eapTlsMsglenLen else 6 := by
    rw [headerLen, flagged]
    rfl
  rw [framed, framed, header, declared, if_pos positive, if_pos positive, List.take_take, min_self]
  cases included : flags &&& flagLengthIncluded != 0
  · rfl
  · rw [included, if_pos rfl] at length
    simp only [if_true]
    rw [fieldAt_take (by omega)]

/-- **`parse` honours the declared Length exactly where this covers the header**, or where
the buffer does not even hold the header. It never compares the two. -/
theorem parse_honours_length_iff {packet : Bytes} (long : 6 ≤ packet.length)
    (tls : packet[4]? = some eapTypeTls) :
    HonoursLength packet ↔
      headerLen packet ≤ declaredLen packet ∨ packet.length < headerLen packet := by
  obtain ⟨code, identifier, high, low, rest, octets⟩ := octets_of_tls tls
  rcases rest with _ | ⟨flags, rest⟩
  · rw [octets] at long
    exact absurd long (by simp)
  have flagged : packet[5]? = some flags := by
    rw [octets]
    rfl
  have result := parse_framed octets
  have reports := (reported_iff packet).mpr fun ends => absurd ends.1 (by omega)
  constructor
  · intro honours
    by_contra neither
    obtain ⟨uncovered, room⟩ := not_or.mp neither
    by_cases exceeds : packet.length < declaredLen packet
    · omega
    · rw [if_neg exceeds, if_neg room] at result
      exact uncovered (honours.accepts.mp ⟨_, result⟩).1
  · intro covers
    by_cases exceeds : packet.length < declaredLen packet
    · rw [if_pos exceeds] at result
      refine ⟨iff_of_false ?_ fun both => by omega, ?_, reports⟩
      · rintro ⟨parsed, accepted⟩
        rw [result] at accepted
        cases accepted
      · intro parsed accepted
        rw [result] at accepted
        cases accepted
    rw [if_neg exceeds] at result
    by_cases truncated : packet.length < headerLen packet
    · rw [if_pos truncated] at result
      refine ⟨iff_of_false ?_ fun both => by omega, ?_, reports⟩
      · rintro ⟨parsed, accepted⟩
        rw [result] at accepted
        cases accepted
      · intro parsed accepted
        rw [result] at accepted
        cases accepted
    rw [if_neg truncated] at result
    have enough := covers.resolve_right truncated
    refine ⟨iff_of_true ⟨_, result⟩ ⟨enough, by omega⟩, ?_, reports⟩
    intro parsed accepted
    rw [result] at accepted
    cases accepted
    have six := six_le_headerLen packet
    obtain ⟨header, declared⟩ := @header_take packet (declaredLen packet) (by omega)
    obtain ⟨more, later⟩ : ∃ more, declaredLen packet = more + 6 := ⟨declaredLen packet - 6, by omega⟩
    have octets' : packet.take (declaredLen packet) =
        code :: identifier :: high :: low :: eapTypeTls :: flags :: rest.take more := by
      rw [later, octets]
      rfl
    have size : (packet.take (declaredLen packet)).length = declaredLen packet := by
      rw [List.length_take, min_eq_left (by omega)]
    rw [parse_framed octets', size, header, declared, if_neg (lt_irrefl _),
      if_neg (Nat.not_lt.mpr enough), framed_take flagged enough]

/-- An ACK with one octet of padding. -/
theorem parse_honours_length_padded : HonoursLength [2, 7, 0, 6, 13, 0, 99] := by
  have long : 6 ≤ [(2 : UInt8), 7, 0, 6, 13, 0, 99].length := by decide
  exact (parse_honours_length_iff long rfl).mpr (.inl (by decide))

/-- A Length of three octets, in a packet of six, is taken for an ACK. -/
theorem short_length_accepted :
    6 ≤ [(2 : UInt8), 7, 0, 3, 13, 0].length ∧
      [(2 : UInt8), 7, 0, 3, 13, 0][4]? = some eapTypeTls ∧
      parse [2, 7, 0, 3, 13, 0] = .ok (ackPacket 2 7) ∧ ¬ HonoursLength [2, 7, 0, 3, 13, 0] := by
  have accepted : parse [2, 7, 0, 3, 13, 0] = .ok (ackPacket 2 7) := by decide
  refine ⟨by decide, rfl, accepted, fun honours => ?_⟩
  exact absurd (honours.accepts.mp ⟨_, accepted⟩).1 (by decide)

/-! ## Round trips -/

/-- The reserved bits of the flags octet. -/
def flagsReserved : UInt8 := 0x1F

/-- The flags octet without reserved bits is written as it was read. -/
theorem flagsOctet_flags {flags : UInt8} (clear : flags &&& flagsReserved = 0) :
    flagsOctet (flags &&& flagLengthIncluded != 0) (flags &&& flagMoreFragments != 0)
      (flags &&& flagStart != 0) = flags := by
  have all : ∀ n < 256, UInt8.ofNat n &&& flagsReserved = 0 →
      flagsOctet (UInt8.ofNat n &&& flagLengthIncluded != 0)
        (UInt8.ofNat n &&& flagMoreFragments != 0) (UInt8.ofNat n &&& flagStart != 0) =
          UInt8.ofNat n := by
    decide +kernel
  have own := all flags.toNat flags.toNat_lt
  rw [UInt8.ofNat_toNat] at own
  exact own clear

/-- A field that lies within the packet is written as it was read. -/
theorem toBytes_fieldAt {packet : Bytes} {offset width : ℕ}
    (inside : offset + width ≤ packet.length) :
    BigEndian.toBytes width (fieldAt packet offset width) = (packet.drop offset).take width := by
  have size : ((packet.drop offset).take width).length = width := by
    rw [List.length_take, List.length_drop]
    omega
  have written := BigEndian.toBytes_ofBytes ((packet.drop offset).take width)
  rw [size] at written
  exact written

theorem fieldAt_lt (packet : Bytes) (offset width : ℕ) : fieldAt packet offset width < 256 ^ width := by
  refine (BigEndian.ofBytes_lt _).trans_le ?_
  exact Nat.pow_le_pow_right (by decide) (List.length_take_le _ _)

/-- **What `parse` reads from a packet without padding or reserved bits is laid out as the
packet.** -/
theorem layout_of_parse {packet : Bytes} {parsed : EapTlsPacket}
    (accepted : parse packet = .ok parsed) (whole : declaredLen packet = packet.length)
    (clear : ∀ flags, packet[5]? = some flags → flags &&& flagsReserved = 0) :
    parsed.Encodable ∧ layout parsed = packet := by
  obtain ⟨code, identifier, high, low, rest, octets⟩ := octets_of_tls (type_of_parse accepted)
  rcases rest with _ | ⟨flags, rest⟩
  · rw [parse_five octets] at accepted
    split at accepted <;> cases accepted
  have flagged : packet[5]? = some flags := by
    rw [octets]
    rfl
  have size : packet.length = rest.length + 6 := by
    rw [octets]
    rfl
  have small : packet.length < 2 ^ 16 := by
    rw [← whole]
    exact fieldAt_lt packet 2 2
  have length : BigEndian.toBytes 2 packet.length = [high, low] := by
    rw [← whole, declaredLen, toBytes_fieldAt (by omega), octets]
    rfl
  have positive : declaredLen packet ≠ 0 := by omega
  rw [parse_framed octets, whole, if_neg (lt_irrefl _)] at accepted
  by_cases truncated : packet.length < headerLen packet
  · rw [if_pos truncated] at accepted
    cases accepted
  rw [if_neg truncated] at accepted
  cases accepted
  have header : headerLen packet =
      if flags &&& flagLengthIncluded != 0 then 6 + eapTlsMsglenLen else 6 := by
    rw [headerLen, flagged]
    rfl
  have data : (framed packet code identifier flags).tlsData = packet.drop (headerLen packet) := by
    rw [framed, if_pos positive, whole, List.take_length]
  -- The TLS Message Length and the TLS data are what follows the flags octet.
  have body : lengthField (framed packet code identifier flags).tlsMessageLength ++
      (framed packet code identifier flags).tlsData = rest := by
    have after : packet.drop 6 = rest := by
      rw [octets]
      rfl
    rw [data, header, framed]
    cases included : flags &&& flagLengthIncluded != 0
    · exact after
    · rw [included, if_pos rfl] at header
      simp only [if_true, lengthField]
      rw [toBytes_fieldAt (by rw [header] at truncated; omega), ← List.drop_drop, after,
        List.take_append_drop]
  have total : 6 + (lengthField (framed packet code identifier flags).tlsMessageLength).length +
      (framed packet code identifier flags).tlsData.length = packet.length := by
    have parts := congrArg List.length body
    rw [List.length_append] at parts
    omega
  have encodable : (framed packet code identifier flags).Encodable := by
    refine ⟨?_, ?_, by omega⟩
    · rw [framed]
      cases included : flags &&& flagLengthIncluded != 0 <;> rfl
    · intro n declares
      rw [framed] at declares
      cases included : flags &&& flagLengthIncluded != 0
      · rw [included] at declares
        cases declares
      · rw [included] at declares
        cases declares
        exact fieldAt_lt packet 6 eapTlsMsglenLen
  refine ⟨encodable, ?_⟩
  have octet : flagsOctet (framed packet code identifier flags).tlsMessageLength.isSome
      (framed packet code identifier flags).moreFragments
      (framed packet code identifier flags).start = flags := by
    rw [← encodable.lengthIncluded]
    exact flagsOctet_flags (clear flags flagged)
  rw [layout, total, length, octet, List.append_assoc [eapTypeTls, flags], body, octets]
  rfl

/-- The fields that a packet is built from. -/
structure Fields where
  code : UInt8
  identifier : UInt8
  tlsData : Bytes
  moreFragments : Bool
  tlsMessageLength : Option ℕ
  start : Bool
  deriving DecidableEq, Repr

/-- `build` on such fields. -/
def Fields.build (fields : Fields) : Except Raised Bytes :=
  EapTls.build fields.code fields.identifier fields.tlsData fields.moreFragments
    fields.tlsMessageLength fields.start

/-- The fields that `parse` reads. -/
def EapTlsPacket.fields (packet : EapTlsPacket) : Fields where
  code := packet.code
  identifier := packet.identifier
  tlsData := packet.tlsData
  moreFragments := packet.moreFragments
  tlsMessageLength := packet.tlsMessageLength
  start := packet.start

/-- The packet has its size for its Length and no reserved bits. -/
structure Canonical (packet : Bytes) : Prop where
  whole : declaredLen packet = packet.length
  clear : ∀ flags, packet[5]? = some flags → flags &&& flagsReserved = 0

/-- **The codec round trip**: fields of a size that fits are built and read back, a canonical
packet that is read is built again, and different fields are built into different packets. -/
theorem codec_round_trip :
    (∀ fields : Fields, (∀ n ∈ fields.tlsMessageLength, n < 2 ^ 32) →
      6 + (if fields.tlsMessageLength.isSome then 4 else 0) + fields.tlsData.length ≤ 65535 →
        ∃ packet parsed, fields.build = .ok packet ∧ parse packet = .ok parsed ∧
          parsed.fields = fields ∧
          parsed.lengthIncluded = fields.tlsMessageLength.isSome) ∧
    (∀ packet parsed, parse packet = .ok parsed → Canonical packet →
      parsed.fields.build = .ok packet) ∧
    ∀ (fields other : Fields) (packet : Bytes), fields.build = .ok packet →
      other.build = .ok packet → fields = other := by
  refine ⟨?_, ?_, ?_⟩
  · intro fields small total
    have fits : Fits fields.tlsData fields.tlsMessageLength := by
      refine ⟨small, ?_⟩
      rw [length_lengthField]
      omega
    have built := @build_eq_ok fields.code fields.identifier _ fields.moreFragments fields.start _ fits
    exact ⟨_, _, built, parse_of_build built, rfl, rfl⟩
  · intro packet parsed accepted canonical
    obtain ⟨encodable, written⟩ := layout_of_parse accepted canonical.whole canonical.clear
    have same : described parsed.code parsed.identifier parsed.tlsData parsed.moreFragments
        parsed.tlsMessageLength parsed.start = parsed := by
      rw [described, ← encodable.lengthIncluded]
    have built := @build_eq_ok parsed.code parsed.identifier _ parsed.moreFragments parsed.start _
      encodable.fits
    rw [same, written] at built
    exact built
  · intro fields other packet built built'
    have same := (parse_of_build built).symm.trans (parse_of_build built')
    exact congrArg EapTlsPacket.fields (Except.ok.inj same)

/-- A first fragment of three octets, out of nine, and its packet. -/
theorem codec_round_trip_sample :
    ∃ fields packet parsed, fields.build = .ok packet ∧
      packet = [2, 7, 0, 13, 13, 0xC0, 0, 0, 0, 9, 1, 2, 3] ∧ parse packet = .ok parsed ∧
      parsed.fields = fields ∧ parsed.fields.build = .ok packet := by
  have reads := codec_round_trip.1 ⟨2, 7, [1, 2, 3], true, some 9, false⟩
    (by intro n declared; cases declared; decide) (by decide)
  obtain ⟨packet, parsed, built, accepted, same, _⟩ := reads
  have octets : packet = [2, 7, 0, 13, 13, 0xC0, 0, 0, 0, 9, 1, 2, 3] := (Except.ok.inj built).symm
  have canonical : Canonical packet := by
    rw [octets]
    refine ⟨by decide, fun flags flagged => ?_⟩
    cases flagged
    decide
  exact ⟨_, packet, parsed, built, octets, accepted, same,
    codec_round_trip.2.1 packet parsed accepted canonical⟩

end EapAccel.EapTls
