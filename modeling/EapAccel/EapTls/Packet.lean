import EapAccel.Foundations.Act
import EapAccel.Foundations.BigEndian

/-!
# EAP-TLS packets

`proxy/eap_tls.py`, the codec. `parse` reads one EAP-TLS packet from the bytes of
an EAP packet, `build` writes one. Only the framing is looked at: the EAP header,
the flags octet and the optional TLS Message Length. The TLS data is opaque.

The Identifier and the code are octets here, so that the `ValueError` of
`bytes([code, identifier])` cannot arise; every caller passes an octet.
-/

set_option autoImplicit false

namespace EapAccel

open Foundations

abbrev Bytes := List UInt8

/-- The exceptions that handling a packet can raise. `other` is an exception of a
library outside the repository, such as an encoding or a socket error. -/
inductive Raised where
  | eapTlsError (message : String)
  | valueError (message : String)
  | indexError
  | overflowError
  | timeout
  | other (name : String)
  /-- Not an exception of the program: the bound on the number of iterations of
  the one unbounded loop was too small, or a function outside the program did not return. -/
  | outOfFuel
  deriving DecidableEq, Repr

namespace EapTls

/-! ## Constants -/

def eapTypeTls : UInt8 := 13
def eapHeaderLen : ℕ := 4
def eapTlsMsglenLen : ℕ := 4

def flagLengthIncluded : UInt8 := 0x80
def flagMoreFragments : UInt8 := 0x40
def flagStart : UInt8 := 0x20

/-- `EapCode`. -/
def codeRequest : UInt8 := 1
def codeResponse : UInt8 := 2
def codeSuccess : UInt8 := 3
def codeFailure : UInt8 := 4

/-! ## Packets -/

/-- A decoded EAP-TLS packet: one fragment, or a whole unfragmented message. -/
structure EapTlsPacket where
  code : UInt8
  identifier : UInt8
  lengthIncluded : Bool
  moreFragments : Bool
  start : Bool
  tlsMessageLength : Option ℕ
  tlsData : Bytes
  deriving DecidableEq, Repr

/-- A fragment ACK: no TLS data and none of the flags L, M, S. -/
def EapTlsPacket.isAck (packet : EapTlsPacket) : Bool :=
  !packet.lengthIncluded && !packet.moreFragments && !packet.start && packet.tlsData.isEmpty

/-- `packet[offset:offset + width]` read as a big-endian number. -/
def fieldAt (packet : Bytes) (offset width : ℕ) : ℕ :=
  BigEndian.ofBytes ((packet.drop offset).take width)

/-- Decode an EAP-TLS packet. Octets past the declared EAP Length are padding. -/
def parse (packet : Bytes) : Except Raised EapTlsPacket :=
  match packet with
  | code :: identifier :: _ :: _ :: eapType :: rest =>
      let declaredLen := fieldAt packet 2 2
      if eapType ≠ eapTypeTls then
        .error (.eapTlsError s!"not EAP-TLS: type={eapType}")
      else if declaredLen > packet.length then
        .error (.eapTlsError s!"EAP Length {declaredLen} exceeds buffer {packet.length}")
      else
        match rest with
        -- `packet[5]` of a packet of five octets
        | [] => .error .indexError
        | flags :: _ =>
            let lengthIncluded := flags &&& flagLengthIncluded != 0
            if lengthIncluded ∧ packet.length < 6 + eapTlsMsglenLen then
              .error (.eapTlsError "L bit set but TLS Message Length truncated")
            else
              let offset := if lengthIncluded then 6 + eapTlsMsglenLen else 6
              .ok {
                code := code
                identifier := identifier
                lengthIncluded := lengthIncluded
                moreFragments := flags &&& flagMoreFragments != 0
                start := flags &&& flagStart != 0
                tlsMessageLength :=
                  if lengthIncluded then some (fieldAt packet 6 eapTlsMsglenLen) else none
                tlsData :=
                  if declaredLen ≠ 0 then (packet.take declaredLen).drop offset
                  else packet.drop offset }
  | _ => .error (.eapTlsError s!"EAP-TLS packet too short: {packet.length} bytes")

/-- What `parse` accepts has the type of EAP-TLS. -/
theorem type_of_parse {bytes : Bytes} {packet : EapTlsPacket} (parsed : parse bytes = .ok packet) :
    bytes[4]? = some eapTypeTls := by
  rw [parse.eq_def] at parsed
  split at parsed
  next code identifier _ _ eapType rest =>
    by_cases other : eapType ≠ eapTypeTls
    · simp only [if_pos other] at parsed
      cases parsed
    · exact congrArg some (not_not.mp other)
  next => cases parsed

/-- What `parse` accepts has its Identifier in the second octet. -/
theorem identifier_of_parse {bytes : Bytes} {packet : EapTlsPacket}
    (parsed : parse bytes = .ok packet) : bytes[1]? = some packet.identifier := by
  have fields : ∀ {c : Prop} [Decidable c] {e : Raised} {x : Except Raised EapTlsPacket},
      (if c then Except.error e else x) = .ok packet → x = .ok packet := by
    intro c _ e x returned
    split at returned
    · cases returned
    · exact returned
  rw [parse.eq_def] at parsed
  split at parsed
  next code identifier _ _ eapType rest =>
    have framed := fields (fields parsed)
    cases rest with
    | nil => cases framed
    | cons flags rest =>
        cases fields framed
        rfl
  next => cases parsed

/-- `int.to_bytes(width, "big")`. -/
def intToBytes (width n : ℕ) : Except Raised Bytes :=
  if n < 256 ^ width then .ok (BigEndian.toBytes width n) else .error .overflowError

/-- The flags octet of a packet. -/
def flagsOctet (lengthIncluded moreFragments start : Bool) : UInt8 :=
  (if lengthIncluded then flagLengthIncluded else 0) |||
    (if moreFragments then flagMoreFragments else 0) ||| (if start then flagStart else 0)

/-- Encode one EAP-TLS packet. A TLS Message Length sets the L bit. -/
def build (code identifier : UInt8) (tlsData : Bytes) (moreFragments : Bool)
    (tlsMessageLength : Option ℕ) (start : Bool) : Except Raised Bytes := do
  let flags := flagsOctet tlsMessageLength.isSome moreFragments start
  let messageLength ← match tlsMessageLength with
    | some n => intToBytes eapTlsMsglenLen n
    | none => pure []
  let body := [eapTypeTls, flags] ++ messageLength ++ tlsData
  let totalLen := eapHeaderLen + body.length
  let length ← intToBytes 2 totalLen
  return [code, identifier] ++ length ++ body

/-- An empty EAP-TLS packet, which acknowledges a fragment. -/
def buildAck (code identifier : UInt8) : Except Raised Bytes :=
  build code identifier [] false none false

/-! ## What `build` writes, `parse` reads -/

/-- The packet that `build` describes. -/
def described (code identifier : UInt8) (tlsData : Bytes) (moreFragments : Bool)
    (tlsMessageLength : Option ℕ) (start : Bool) : EapTlsPacket where
  code := code
  identifier := identifier
  lengthIncluded := tlsMessageLength.isSome
  moreFragments := moreFragments
  start := start
  tlsMessageLength := tlsMessageLength
  tlsData := tlsData

/-- The octets of the optional TLS Message Length. -/
def lengthField : Option ℕ → Bytes
  | some n => BigEndian.toBytes eapTlsMsglenLen n
  | none => []

/-- The sizes that fit their fields: the TLS Message Length four octets, the EAP
Length two. -/
structure Fits (tlsData : Bytes) (tlsMessageLength : Option ℕ) : Prop where
  messageLength : ∀ n ∈ tlsMessageLength, n < 2 ^ 32
  total : 6 + (lengthField tlsMessageLength).length + tlsData.length < 2 ^ 16

theorem length_lengthField (tlsMessageLength : Option ℕ) :
    (lengthField tlsMessageLength).length = if tlsMessageLength.isSome then 4 else 0 := by
  cases tlsMessageLength with
  | none => rfl
  | some n => exact BigEndian.length_toBytes _ _

/-- Ten octets of framing are enough for every packet. -/
theorem Fits.of_length {tlsData : Bytes} {tlsMessageLength : Option ℕ}
    (messageLength : ∀ n ∈ tlsMessageLength, n < 2 ^ 32) (short : tlsData.length ≤ 65000) :
    Fits tlsData tlsMessageLength := by
  refine ⟨messageLength, ?_⟩
  rw [length_lengthField]
  split <;> omega

/-- The octets of a packet whose sizes fit. -/
def layout (packet : EapTlsPacket) : Bytes :=
  [packet.code, packet.identifier] ++
    BigEndian.toBytes 2
      (6 + (lengthField packet.tlsMessageLength).length + packet.tlsData.length) ++
    ([eapTypeTls, flagsOctet packet.tlsMessageLength.isSome packet.moreFragments packet.start] ++
      lengthField packet.tlsMessageLength ++ packet.tlsData)

theorem length_layout (packet : EapTlsPacket) :
    (layout packet).length =
      6 + (lengthField packet.tlsMessageLength).length + packet.tlsData.length := by
  simp only [layout, List.length_append, List.length_cons, List.length_nil,
    BigEndian.length_toBytes]
  omega

theorem build_eq_ok {code identifier : UInt8} {tlsData : Bytes} {moreFragments start : Bool}
    {tlsMessageLength : Option ℕ} (fits : Fits tlsData tlsMessageLength) :
    build code identifier tlsData moreFragments tlsMessageLength start =
      .ok (layout (described code identifier tlsData moreFragments tlsMessageLength start)) := by
  obtain ⟨small, total⟩ := fits
  have size : ∀ field : Bytes, eapHeaderLen + ([eapTypeTls,
      flagsOctet tlsMessageLength.isSome moreFragments start] ++ field ++ tlsData).length =
        6 + field.length + tlsData.length := by
    intro field
    simp only [List.length_append, List.length_cons, List.length_nil, eapHeaderLen]
    omega
  cases tlsMessageLength with
  | none =>
      simp only [lengthField] at total
      simp only [build, pure_bind, size, intToBytes]
      rw [if_pos (by simpa using total)]
      rfl
  | some n =>
      have field : n < 256 ^ eapTlsMsglenLen := by simpa [eapTlsMsglenLen] using small n rfl
      simp only [lengthField] at total
      simp only [build, intToBytes, if_pos field, Foundations.Except.ok_bind, size]
      rw [if_pos (by simpa using total)]
      rfl

theorem build_eq_overflow {code identifier : UInt8} {tlsData : Bytes} {moreFragments start : Bool}
    {n : ℕ} (large : 2 ^ 32 ≤ n) :
    build code identifier tlsData moreFragments (some n) start = .error .overflowError := by
  have : ¬ n < 256 ^ eapTlsMsglenLen := by simpa [eapTlsMsglenLen] using large
  simp only [build, intToBytes, if_neg this]
  rfl

theorem lt_of_intToBytes {width n : ℕ} {octets : Bytes} (written : intToBytes width n = .ok octets) :
    n < 256 ^ width := by
  by_contra large
  rw [intToBytes, if_neg large] at written
  cases written

/-- What `build` can write has sizes that fit. -/
theorem fits_of_build {code identifier : UInt8} {tlsData : Bytes} {moreFragments start : Bool}
    {tlsMessageLength : Option ℕ} {bytes : Bytes}
    (built : build code identifier tlsData moreFragments tlsMessageLength start = .ok bytes) :
    Fits tlsData tlsMessageLength := by
  have total : ∀ (flags : UInt8) (field : Bytes) (rest : Bytes → Bytes),
      (do
        let length ← intToBytes 2 (eapHeaderLen + ([eapTypeTls, flags] ++ field ++ tlsData).length)
        return rest length) = Except.ok bytes →
      6 + field.length + tlsData.length < 2 ^ 16 := by
    intro flags field rest written
    rcases octets : intToBytes 2 (eapHeaderLen + ([eapTypeTls, flags] ++ field ++ tlsData).length)
      with e | length
    · rw [octets] at written
      cases written
    · have small := lt_of_intToBytes octets
      simp only [List.length_append, List.length_cons, List.length_nil, eapHeaderLen] at small
      omega
  rw [build.eq_def] at built
  cases tlsMessageLength with
  | none => exact ⟨by simp, total _ [] _ built⟩
  | some n =>
      simp only at built
      rcases field : intToBytes eapTlsMsglenLen n with e | octets
      · rw [field] at built
        cases built
      · rw [field] at built
        have small : n < 2 ^ 32 := lt_of_intToBytes field
        have same : octets = BigEndian.toBytes eapTlsMsglenLen n := by
          rw [intToBytes, if_pos (lt_of_intToBytes field)] at field
          cases field
          rfl
        refine ⟨by simpa using small, ?_⟩
        have room := total _ octets _ built
        rw [same] at room
        exact room

theorem layout_of_build {code identifier : UInt8} {tlsData : Bytes} {moreFragments start : Bool}
    {tlsMessageLength : Option ℕ} {bytes : Bytes}
    (built : build code identifier tlsData moreFragments tlsMessageLength start = .ok bytes) :
    bytes = layout (described code identifier tlsData moreFragments tlsMessageLength start) := by
  have written := @build_eq_ok code identifier _ moreFragments start _ (fits_of_build built)
  rw [built] at written
  exact Except.ok.inj written

/-- What `build` writes starts with the code and the Identifier. -/
theorem head_of_build {code identifier : UInt8} {tlsData : Bytes} {moreFragments start : Bool}
    {tlsMessageLength : Option ℕ} {bytes : Bytes}
    (built : build code identifier tlsData moreFragments tlsMessageLength start = .ok bytes) :
    bytes[0]? = some code ∧ bytes[1]? = some identifier := by
  rw [layout_of_build built]
  exact ⟨rfl, rfl⟩

theorem flagsOctet_length (l m s : Bool) : (flagsOctet l m s &&& flagLengthIncluded != 0) = l := by
  cases l <;> cases m <;> cases s <;> decide

theorem flagsOctet_more (l m s : Bool) : (flagsOctet l m s &&& flagMoreFragments != 0) = m := by
  cases l <;> cases m <;> cases s <;> decide

theorem flagsOctet_start (l m s : Bool) : (flagsOctet l m s &&& flagStart != 0) = s := by
  cases l <;> cases m <;> cases s <;> decide

/-- A packet all of whose fields are written by `build`: L set exactly when there is a
TLS Message Length, and the sizes fit. -/
structure EapTlsPacket.Encodable (packet : EapTlsPacket) : Prop where
  lengthIncluded : packet.lengthIncluded = packet.tlsMessageLength.isSome
  fits : Fits packet.tlsData packet.tlsMessageLength

/-- **`parse` reads back the octets of an encodable packet.** -/
theorem parse_layout {packet : EapTlsPacket} (encodable : packet.Encodable) :
    parse (layout packet) = .ok packet := by
  obtain ⟨code, identifier, lengthIncluded, moreFragments, start, tlsMessageLength, tlsData⟩ := packet
  obtain ⟨flag, small, total⟩ := encodable
  simp only at flag small total
  subst flag
  generalize hpacket : layout _ = packet
  have size : packet.length = 6 + (lengthField tlsMessageLength).length + tlsData.length := by
    rw [← hpacket, length_layout]
  have octets : packet = code :: identifier :: packet[2]! :: packet[3]! :: eapTypeTls ::
      flagsOctet tlsMessageLength.isSome moreFragments start ::
        (lengthField tlsMessageLength ++ tlsData) := by
    rw [← hpacket]
    rfl
  -- The declared Length is the size of the whole packet, so there is no padding.
  have declared : fieldAt packet 2 2 = packet.length := by
    have fits : 6 + (lengthField tlsMessageLength).length + tlsData.length < 256 ^ 2 := by
      simpa using total
    rw [← hpacket, length_layout]
    exact BigEndian.ofBytes_toBytes fits
  have present : packet.length ≠ 0 := by omega
  have body : packet.drop 6 = lengthField tlsMessageLength ++ tlsData := by
    rw [← hpacket]
    rfl
  rw [parse.eq_def, octets]
  simp only
  rw [← octets, declared]
  simp only [flagsOctet_length, flagsOctet_more, flagsOctet_start, ne_eq, not_true_eq_false,
    if_false, gt_iff_lt, lt_irrefl, present, not_false_eq_true, if_true, List.take_length]
  cases tlsMessageLength with
  | none => simp [body, lengthField]
  | some n =>
      have field : n < 256 ^ eapTlsMsglenLen := by simpa [eapTlsMsglenLen] using small n rfl
      have enough : ¬ packet.length < 6 + eapTlsMsglenLen := by
        rw [size, length_lengthField]
        simp [eapTlsMsglenLen]
      have rest : packet.drop (6 + eapTlsMsglenLen) = tlsData := by
        rw [← List.drop_drop, body]
        simp [lengthField, List.drop_left']
      have value : fieldAt packet 6 eapTlsMsglenLen = n := by
        rw [fieldAt, body, lengthField, List.take_left' (BigEndian.length_toBytes _ _),
          BigEndian.ofBytes_toBytes field]
      simp [enough, rest, value]

/-- **`parse` reads back whatever `build` writes.** -/
theorem parse_of_build {code identifier : UInt8} {tlsData : Bytes} {moreFragments start : Bool}
    {tlsMessageLength : Option ℕ} {bytes : Bytes}
    (built : build code identifier tlsData moreFragments tlsMessageLength start = .ok bytes) :
    parse bytes =
      .ok (described code identifier tlsData moreFragments tlsMessageLength start) := by
  rw [layout_of_build built]
  exact parse_layout ⟨rfl, fits_of_build built⟩

/-- An empty EAP-TLS packet. -/
def ackPacket (code identifier : UInt8) : EapTlsPacket :=
  described code identifier [] false none false

theorem ackPacket_isAck (code identifier : UInt8) : (ackPacket code identifier).isAck = true := rfl

theorem buildAck_eq_ok (code identifier : UInt8) :
    buildAck code identifier = .ok (layout (ackPacket code identifier)) :=
  build_eq_ok (Fits.of_length (by simp) (by simp))

theorem parse_ack (code identifier : UInt8) :
    parse (layout (ackPacket code identifier)) = .ok (ackPacket code identifier) :=
  parse_layout ⟨rfl, Fits.of_length (by simp [ackPacket, described]) (by simp [ackPacket, described])⟩

end EapTls
end EapAccel
