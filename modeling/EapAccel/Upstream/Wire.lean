import EapAccel.Foundations.BigEndian
import EapAccel.Foundations.Dict
import EapAccel.Foundations.Shuffle
import EapAccel.Mediator.Spec

/-!
# RADIUS packets on the wire

`_decode_packet_allow_large` of `proxy/upstream_radius.py`, which replaces pyrad's
`Packet.DecodePacket` on both legs. What it calls on the packet itself (vendor attributes,
TLV attributes, names) is pyrad's and a parameter, `Pyrad`.

An EAP packet is split into EAP-Message attributes, and the other attributes may stand
between them. Decoding groups the values by attribute type, so joining the EAP-Message ones
gives the packet back, and no attribute loses its place among those of its type
(`eap_survives_wire`).
-/

set_option autoImplicit false

namespace EapAccel

open Foundations

/-! ## Packets as pyrad keeps them -/

/-- The key of an attribute: its type, or a vendor and the vendor's type. -/
inductive AttrKey where
  | plain (type : UInt8)
  | vendor (vendor : ℕ) (type : UInt8)
  deriving DecidableEq, Repr

/-- The values of a packet by key. -/
abbrev Attributes := List (AttrKey × List Bytes)

structure RadiusPacket where
  code : UInt8
  id : UInt8
  authenticator : Bytes
  messageAuthenticator : Bool := false
  attributes : Attributes := []
  deriving DecidableEq, Repr

/-- What pyrad does for `_decode_packet_allow_large`: the key of a name, whether a type is
TLV, and the decoding of vendor and TLV attributes. Both may write to the packet. -/
structure Pyrad where
  encodeKey : String → Option AttrKey
  isTlvAttribute : UInt8 → Bool
  decodeVendorAttribute : Bytes → Attributes → Except Raised (List (AttrKey × Bytes) × Attributes)
  decodeTlvAttribute : UInt8 → Bytes → Attributes → Except Raised Attributes

/-- The types of attributes that pyrad tells apart here. -/
inductive AttrType where
  | string
  | ipaddr
  | integer
  | octets
  | tlv
  deriving DecidableEq, Repr

/-- `_DICT_DATA`. -/
def dictData : List (String × AttrKey × AttrType) :=
  [("User-Name", .plain 1, .string), ("NAS-IP-Address", .plain 4, .ipaddr),
    ("NAS-Port", .plain 5, .integer), ("Service-Type", .plain 6, .integer),
    ("Framed-MTU", .plain 12, .integer), ("State", .plain 24, .octets),
    ("Class", .plain 25, .octets), ("Called-Station-Id", .plain 30, .string),
    ("Calling-Station-Id", .plain 31, .string), ("NAS-Identifier", .plain 32, .string),
    ("NAS-Port-Type", .plain 61, .integer), ("EAP-Message", .plain 79, .octets),
    ("Message-Authenticator", .plain 80, .octets),
    ("MS-MPPE-Send-Key", .vendor 311 16, .octets), ("MS-MPPE-Recv-Key", .vendor 311 17, .octets)]

/-- pyrad with the dictionary of both legs. A vendor attribute of less than six octets stays
as it is, a longer one is left to `decodeLong`. -/
def Pyrad.ofDictData
    (decodeLong : Bytes → Attributes → Except Raised (List (AttrKey × Bytes) × Attributes))
    (decodeTlv : UInt8 → Bytes → Attributes → Except Raised Attributes) : Pyrad where
  encodeKey name := (dictData.lookup name).map Prod.fst
  isTlvAttribute type := dictData.any fun entry => entry.2 = (.plain type, .tlv)
  decodeVendorAttribute value attributes :=
    if value.length < 6 then return ([(.plain 26, value)], attributes)
    else decodeLong value attributes
  decodeTlvAttribute := decodeTlv

/-- The dictionary has no TLV attribute. -/
theorem Pyrad.ofDictData_isTlvAttribute
    (decodeLong : Bytes → Attributes → Except Raised (List (AttrKey × Bytes) × Attributes))
    (decodeTlv : UInt8 → Bytes → Attributes → Except Raised Attributes) (type : UInt8) :
    (Pyrad.ofDictData decodeLong decodeTlv).isTlvAttribute type = false := by
  simp [Pyrad.ofDictData, dictData]

/-- `pkt[name]`, with no values where the name is not in the packet. -/
def RadiusPacket.values (pyrad : Pyrad) (name : String) (packet : RadiusPacket) : List Bytes :=
  match pyrad.encodeKey name with
  | some key => valuesOf key packet.attributes
  | none => []

/-- What `send_eap` reads of a reply. -/
def RadiusPacket.reply (pyrad : Pyrad) (packet : RadiusPacket) : RadiusReply where
  code := packet.code
  state := (packet.values pyrad "State").head?
  eapMessage := packet.values pyrad "EAP-Message"
  msMppeSendKey := (packet.values pyrad "MS-MPPE-Send-Key").head?
  msMppeRecvKey := (packet.values pyrad "MS-MPPE-Recv-Key").head?

/-! ## Decoding -/

namespace Wire

def vendorSpecific : UInt8 := 26
def eapMessage : UInt8 := 79
def messageAuthenticator : UInt8 := 80

def packetError (message : String) : Raised := .other ("PacketError: " ++ message)

variable (pyrad : Pyrad)

/-- One attribute of the loop. -/
def decodeAttribute (key : UInt8) (value : Bytes) (packet : RadiusPacket) :
    Except Raised RadiusPacket :=
  if key = vendorSpecific then do
    let (entries, attributes) ← pyrad.decodeVendorAttribute value packet.attributes
    return { packet with attributes := grouped entries attributes }
  else if key = messageAuthenticator then
    return { packet with
      messageAuthenticator := true
      attributes := dictAppend (.plain key) value packet.attributes }
  else if pyrad.isTlvAttribute key then do
    let attributes ← pyrad.decodeTlvAttribute key value packet.attributes
    return { packet with attributes := attributes }
  else
    return { packet with attributes := dictAppend (.plain key) value packet.attributes }

/-- The loop: each turn takes the octets of one attribute. A value that is cut off by the
end of the packet is taken as it is. -/
def decodeAttributes : Bytes → RadiusPacket → Except Raised RadiusPacket
  | [], packet => return packet
  | [_], _ => throw (packetError "Attribute header is corrupt")
  | key :: attrlen :: rest, packet =>
      if attrlen < 2 then
        throw (packetError s!"Attribute length is too small ({attrlen.toNat})")
      else do
        let value := rest.take (attrlen.toNat - 2)
        let packet ← decodeAttribute pyrad key value packet
        decodeAttributes (rest.drop (attrlen.toNat - 2)) packet
  termination_by raw => raw.length
  decreasing_by
    simp only [List.length_drop, List.length_cons]
    omega

/-- `_decode_packet_allow_large`. -/
def decodePacketAllowLarge (raw : Bytes) : Except Raised RadiusPacket :=
  match raw.take 20 with
  | code :: id :: high :: low :: authenticator =>
      let length := BigEndian.ofBytes [high, low]
      if authenticator.length ≠ 16 then throw (packetError "Packet header is corrupt")
      else if raw.length ≠ length then throw (packetError "Packet has invalid length")
      else if 65535 < length then throw (packetError s!"Packet length is too long ({length})")
      else decodeAttributes pyrad (raw.drop 20) ⟨code, id, authenticator, false, []⟩
  | _ => throw (packetError "Packet header is corrupt")

/-! ## Encoding -/

/-- An attribute to be written. -/
structure Attribute where
  type : UInt8
  value : Bytes
  deriving DecidableEq, Repr

/-- Type, length and value. -/
def Attribute.octets (attr : Attribute) : Bytes :=
  attr.type :: UInt8.ofNat (attr.value.length + 2) :: attr.value

/-- The attributes in their order. -/
def attributeOctets (attributes : List Attribute) : Bytes := attributes.flatMap Attribute.octets

/-- The header in front of the attributes, with the length of the whole. -/
def packetOctets (code id : UInt8) (authenticator : Bytes) (attributes : List Attribute) : Bytes :=
  code :: id :: BigEndian.toBytes 2 (20 + (attributeOctets attributes).length) ++
    (authenticator ++ attributeOctets attributes)

/-- The EAP-Message attributes of an EAP packet. -/
def eapAttributes (eap : Bytes) : List Attribute := (splitEapMessage eap).map (⟨eapMessage, ·⟩)

/-- An attribute that is neither vendor-specific nor TLV, with a value that its length octet
can tell. -/
structure Attribute.Plain (attr : Attribute) : Prop where
  notVendor : attr.type ≠ vendorSpecific
  notTlv : pyrad.isTlvAttribute attr.type = false
  short : attr.value.length ≤ 253

/-! ## The loop on written attributes -/

variable {pyrad}

/-- A plain attribute is appended to those of its type. -/
theorem decodeAttribute_plain {attr : Attribute} (plain : attr.Plain pyrad)
    (packet : RadiusPacket) :
    ∃ flag, decodeAttribute pyrad attr.type attr.value packet =
      .ok { packet with
        messageAuthenticator := flag
        attributes := dictAppend (.plain attr.type) attr.value packet.attributes } := by
  rw [decodeAttribute, if_neg plain.notVendor]
  by_cases authenticates : attr.type = messageAuthenticator
  · exact ⟨true, if_pos authenticates⟩
  · rw [if_neg authenticates, plain.notTlv]
    exact ⟨packet.messageAuthenticator, rfl⟩

/-- The loop takes one written attribute, and no octet of the next one. -/
theorem decodeAttributes_octets {attr : Attribute} (short : attr.value.length ≤ 253)
    (rest : Bytes) (packet : RadiusPacket) :
    decodeAttributes pyrad (attr.octets ++ rest) packet =
      decodeAttribute pyrad attr.type attr.value packet >>=
        decodeAttributes pyrad rest := by
  have length : (UInt8.ofNat (attr.value.length + 2)).toNat = attr.value.length + 2 := by
    rw [UInt8.toNat_ofNat']
    omega
  have long : ¬ UInt8.ofNat (attr.value.length + 2) < 2 := by
    rw [UInt8.lt_iff_toNat_lt, length]
    exact Nat.not_lt.mpr (Nat.le_add_left 2 _)
  rw [Attribute.octets, List.cons_append, List.cons_append, decodeAttributes, if_neg long, length,
    Nat.add_sub_cancel, List.take_left, List.drop_left]

/-- The entries that plain attributes make. -/
def entries (attributes : List Attribute) : List (AttrKey × Bytes) :=
  attributes.map fun attr => (.plain attr.type, attr.value)

/-- **The loop groups the attributes by their types**, and raises nothing. -/
theorem decodeAttributes_plain {attributes : List Attribute}
    (plain : ∀ attr ∈ attributes, attr.Plain pyrad) (packet : RadiusPacket) :
    ∃ flag, decodeAttributes pyrad (attributeOctets attributes) packet =
      .ok { packet with
        messageAuthenticator := flag
        attributes := grouped (entries attributes) packet.attributes } := by
  induction attributes generalizing packet with
  | nil =>
      refine ⟨packet.messageAuthenticator, ?_⟩
      rw [attributeOctets, List.flatMap_nil, decodeAttributes]
      rfl
  | cons attr attributes ih =>
      rw [List.forall_mem_cons] at plain
      obtain ⟨flag, appended⟩ := decodeAttribute_plain plain.1 packet
      obtain ⟨last, decoded⟩ := ih plain.2 { packet with
        messageAuthenticator := flag
        attributes := dictAppend (.plain attr.type) attr.value packet.attributes }
      refine ⟨last, ?_⟩
      rw [attributeOctets, List.flatMap_cons, decodeAttributes_octets plain.1.short, appended]
      exact decoded

/-- The values of a type after the loop are the written ones, in their order. -/
theorem values_entries (type : UInt8) (attributes : List Attribute) :
    valuesOf (.plain type) (grouped (entries attributes) []) =
      (attributes.filter fun attr => attr.type = type).map Attribute.value := by
  rw [valuesOf_grouped, entries, List.filter_map, List.map_map]
  simp [valuesOf, Function.comp_def]

/-! ## The header -/

/-- **A written packet of at most 65535 octets is read from its first attribute on.** -/
theorem decodePacketAllowLarge_octets {code id : UInt8} {authenticator : Bytes}
    {attributes : List Attribute} (sixteen : authenticator.length = 16)
    (fits : (packetOctets code id authenticator attributes).length ≤ 65535) :
    decodePacketAllowLarge pyrad (packetOctets code id authenticator attributes) =
      decodeAttributes pyrad (attributeOctets attributes) ⟨code, id, authenticator, false, []⟩ := by
  obtain ⟨high, low, two⟩ : ∃ high low,
      BigEndian.toBytes 2 (20 + (attributeOctets attributes).length) = [high, low] :=
    List.length_eq_two.mp (BigEndian.length_toBytes _ _)
  have total : (packetOctets code id authenticator attributes).length =
      20 + (attributeOctets attributes).length := by
    simp only [packetOctets, List.length_append, List.length_cons, BigEndian.length_toBytes,
      sixteen]
    omega
  have told : BigEndian.ofBytes [high, low] = 20 + (attributeOctets attributes).length := by
    rw [← two]
    exact BigEndian.ofBytes_toBytes (by omega)
  have header : (packetOctets code id authenticator attributes).take 20 =
      code :: id :: high :: low :: authenticator := by
    rw [packetOctets, two]
    simp [sixteen]
  have body : (packetOctets code id authenticator attributes).drop 20 =
      attributeOctets attributes := by
    rw [packetOctets, two]
    simp [sixteen]
  rw [decodePacketAllowLarge, header]
  simp only [told]
  rw [if_neg (not_not.mpr sixteen), if_neg (not_not.mpr total), if_neg (by omega), body]

/-! ## EAP packets -/

theorem concatEapMessages_split {eap : Bytes} (nonempty : eap ≠ []) :
    concatEapMessages (splitEapMessage eap) = [eap] := by
  have joined := splitEapMessage_flatten eap
  rw [concatEapMessages, joined, if_neg nonempty, if_neg]
  intro none
  rw [none] at joined
  exact nonempty joined.symm

/-- The attributes of an EAP packet are plain, where pyrad knows EAP-Message as octets. -/
theorem eapAttributes_plain (octets : pyrad.isTlvAttribute eapMessage = false) {eap : Bytes}
    (nonempty : eap ≠ []) : ∀ attr ∈ eapAttributes eap, attr.Plain pyrad := by
  intro attr member
  rw [eapAttributes, splitEapMessage, if_neg nonempty] at member
  obtain ⟨chunk, cut, rfl⟩ := List.mem_map.mp member
  exact ⟨(by decide : eapMessage ≠ vendorSpecific), octets, length_le_of_mem_chunks cut⟩

/-- The values of EAP-Message in a shuffle of the attributes of an EAP packet with others. -/
theorem eapMessage_values {eap : Bytes} {others attributes : List Attribute}
    (different : ∀ attr ∈ others, attr.type ≠ eapMessage)
    (shuffle : Shuffle (eapAttributes eap) others attributes) :
    (attributes.filter fun attr => attr.type = eapMessage).map Attribute.value =
      splitEapMessage eap := by
  have own : ∀ attr ∈ eapAttributes eap, decide (attr.type = eapMessage) = true := by
    intro attr member
    obtain ⟨_, _, rfl⟩ := List.mem_map.mp member
    exact decide_eq_true rfl
  rw [shuffle.filter_left fun attr member => decide_eq_false (different attr member),
    List.filter_eq_self.mpr own, eapAttributes, List.map_map]
  exact List.map_id _

/-- The values of another type in such a shuffle. -/
theorem other_values {eap : Bytes} {others attributes : List Attribute} {type : UInt8}
    (different : type ≠ eapMessage) (shuffle : Shuffle (eapAttributes eap) others attributes) :
    (attributes.filter fun attr => attr.type = type).map Attribute.value =
      (others.filter fun attr => attr.type = type).map Attribute.value := by
  refine congrArg _ (shuffle.filter_right ?_)
  intro attr member
  obtain ⟨_, _, rfl⟩ := List.mem_map.mp member
  exact decide_eq_false different.symm

/-- **An EAP packet survives a RADIUS leg.** Its EAP-Message attributes are written in order,
with other plain attributes before, between and after them. The decoded packet joins to the
EAP packet, and every other type has its values in their order. -/
theorem eap_survives_wire {pyrad : Pyrad}
    (named : pyrad.encodeKey "EAP-Message" = some (.plain eapMessage))
    (octets : pyrad.isTlvAttribute eapMessage = false)
    {eap : Bytes} (nonempty : eap ≠ []) {others attributes : List Attribute}
    (plain : ∀ attr ∈ others, attr.Plain pyrad)
    (different : ∀ attr ∈ others, attr.type ≠ eapMessage)
    (shuffle : Shuffle (eapAttributes eap) others attributes)
    {code id : UInt8} {authenticator : Bytes} (sixteen : authenticator.length = 16)
    (fits : (packetOctets code id authenticator attributes).length ≤ 65535) :
    ∃ packet, decodePacketAllowLarge pyrad (packetOctets code id authenticator attributes) =
        .ok packet ∧
      (packet.code, packet.id, packet.authenticator) = (code, id, authenticator) ∧
      concatEapMessages (packet.values pyrad "EAP-Message") = [eap] ∧
      ∀ type ≠ eapMessage, valuesOf (.plain type) packet.attributes =
        (others.filter fun attr => attr.type = type).map Attribute.value := by
  have all : ∀ attr ∈ attributes, attr.Plain pyrad := by
    intro attr member
    rcases shuffle.mem.mp member with own | other
    · exact eapAttributes_plain octets nonempty attr own
    · exact plain attr other
  obtain ⟨flag, decoded⟩ :=
    decodeAttributes_plain all ⟨code, id, authenticator, false, []⟩
  refine ⟨_, (decodePacketAllowLarge_octets sixteen fits).trans decoded, rfl, ?_, ?_⟩
  · rw [RadiusPacket.values, named]
    change concatEapMessages (valuesOf _ (grouped (entries attributes) [])) = [eap]
    rw [values_entries, eapMessage_values different shuffle, concatEapMessages_split nonempty]
  · intro type other
    change valuesOf _ (grouped (entries attributes) []) = _
    rw [values_entries, other_values other shuffle]

/-- An EAP packet of two EAP-Message attributes, with a NAS-Port between them and a Class
behind. -/
theorem eap_survives_wire_interleaved :
    ∃ packet,
      decodePacketAllowLarge (Pyrad.ofDictData (fun _ attributes => .ok ([], attributes))
          fun _ _ attributes => .ok attributes)
        (packetOctets accessChallenge 7 (List.replicate 16 0)
          [⟨eapMessage, List.replicate 253 1⟩, ⟨5, [0, 0, 0, 1]⟩, ⟨eapMessage, [1, 1]⟩,
            ⟨25, [9]⟩]) = .ok packet ∧
      (packet.code, packet.id, packet.authenticator) =
        (accessChallenge, 7, List.replicate 16 0) ∧
      concatEapMessages (packet.values (Pyrad.ofDictData
          (fun _ attributes => .ok ([], attributes)) fun _ _ attributes => .ok attributes)
        "EAP-Message") = [List.replicate 255 1] ∧
      ∀ type ≠ eapMessage, valuesOf (.plain type) packet.attributes =
        (([⟨5, [0, 0, 0, 1]⟩, ⟨25, [9]⟩] : List Attribute).filter fun attr =>
          attr.type = type).map Attribute.value := by
  have written : eapAttributes (List.replicate 255 1) =
      [⟨eapMessage, List.replicate 253 1⟩, ⟨eapMessage, [1, 1]⟩] := by decide +kernel
  refine eap_survives_wire rfl (Pyrad.ofDictData_isTlvAttribute _ _ _) (by decide) ?_ (by decide)
    ?_ (by decide) (by decide +kernel)
  · intro attr member
    have short : attr.type ≠ vendorSpecific ∧ attr.value.length ≤ 253 := by
      revert attr
      decide
    exact ⟨short.1, Pyrad.ofDictData_isTlvAttribute _ _ _, short.2⟩
  · rw [written]
    exact .left (.right (.left (.right .nil)))

end Wire
end EapAccel
