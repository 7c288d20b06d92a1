import EapAccel.Session

/-!
# The upstream leg

`proxy/upstream_radius.py`: the proxy as a RADIUS client of the auth server. The
server and the transport to it are a parameter, `UpstreamClient.respond`: it may
depend on everything sent before, and it may answer, time out, or raise anything
else. Every use of `send_eap` is recorded, with the session it belongs to.

RADIUS packets are kept as pyrad presents them, attributes by name. An EAP packet
travels in a list of EAP-Message attributes. pyrad encodes the attributes as they are set,
and packs the packet when it is sent; it may refuse either, and what it does to octet strings
is a parameter (`UpstreamClient.wire`).
-/

set_option autoImplicit false

namespace EapAccel

open Foundations

/-! ## RADIUS packets -/

def accessAccept : UInt8 := 2
def accessReject : UInt8 := 3
def accessChallenge : UInt8 := 11

/-- `_split_eap_message`: an EAP packet as EAP-Message attributes of at most 253 octets. -/
def splitEapMessage (eapBytes : Bytes) : List Bytes :=
  if eapBytes = [] then [[]] else chunks 253 eapBytes

/-- `_concat_eap_messages`: the EAP packet in the EAP-Message attributes, if any. -/
def concatEapMessages (eapMessage : List Bytes) : List Bytes :=
  if eapMessage = [] then []
  else if eapMessage.flatten = [] then []
  else [eapMessage.flatten]

/-- The part of the AP's request that identifies the client: User-Name,
Calling-Station-Id and Called-Station-Id. -/
structure AuthContext where
  username : String
  callingStation : Option String
  calledStation : Option String
  deriving DecidableEq, Repr

/-- An Access-Request as `send_eap` asks pyrad for it. `authenticator` is `none` when pyrad draws
a fresh one. -/
structure AccessRequest where
  authenticator : Option Bytes
  userName : String
  callingStationId : Option String
  calledStationId : Option String
  state : Option Bytes
  forwarded : List (ForwardedAttr × AttrValue)
  eapMessage : List Bytes
  deriving DecidableEq, Repr

/-- The EAP packet an Access-Request carries. -/
def AccessRequest.eap (request : AccessRequest) : Bytes := request.eapMessage.flatten

/-- A reply of the server. -/
structure RadiusReply where
  code : UInt8
  state : Option Bytes
  eapMessage : List Bytes
  msMppeSendKey : Option Bytes := none
  msMppeRecvKey : Option Bytes := none
  deriving DecidableEq, Repr

/-- One use of `send_eap`: the session it was for, the request that pyrad was asked to send, and
what came of it. What pyrad sent is `UpstreamClient.wire` of the request; where it refused the
request, nothing was sent and the outcome is what it raised. -/
structure Exchange where
  session : ℕ
  request : AccessRequest
  outcome : Except Raised RadiusReply
  deriving DecidableEq

/-- The normalised reply that `send_eap` returns. -/
structure Reply where
  code : UInt8
  eapMessages : List Bytes
  state : Option Bytes
  accept : Bool
  reject : Bool
  challenge : Bool
  deriving DecidableEq, Repr

/-- The reply as `send_eap` normalises it. -/
def RadiusReply.normalise (reply : RadiusReply) : Reply where
  code := reply.code
  eapMessages := concatEapMessages reply.eapMessage
  state := reply.state
  accept := reply.code == accessAccept
  reject := reply.code == accessReject
  challenge := reply.code == accessChallenge

/-! ## The size of a packet -/

/-- An attribute: type and length in front of the value. -/
def attributeLength (value : ℕ) : ℕ := 2 + value

/-- The value of an attribute of the AP: NAS-Identifier is a string, the others are an
address and integers. -/
def ForwardedAttr.valueLength : ForwardedAttr → AttrValue → ℕ
  | .nasIdentifier, .text value => value.utf8ByteSize
  | _, _ => 4

def optionalLength {α : Type} (length : α → ℕ) (value : Option α) : ℕ :=
  (value.map fun value => attributeLength (length value)).getD 0

/-- The EAP-Message attributes. -/
def eapMessageLength (eapMessage : List Bytes) : ℕ :=
  (eapMessage.map fun value => attributeLength value.length).sum

def headerLength : ℕ := 20

def messageAuthenticatorLength : ℕ := attributeLength 16

def AccessRequest.encodedLength (request : AccessRequest) : ℕ :=
  headerLength + attributeLength request.userName.utf8ByteSize +
    optionalLength String.utf8ByteSize request.callingStationId +
    optionalLength String.utf8ByteSize request.calledStationId +
    optionalLength List.length request.state +
    (request.forwarded.map fun attr => attributeLength (attr.1.valueLength attr.2)).sum +
    eapMessageLength request.eapMessage + messageAuthenticatorLength

/-- What fits a Length field of two octets. -/
def maxPacketLength : ℕ := 65535

/-! ## The client -/

structure UpstreamClient where
  framedMtuOverride : Option ℕ := none
  stripFramedMtu : Bool := false
  /-- pyrad's `EncodeOctets`, which the values of State and EAP-Message go through. -/
  encodeOctets : Bytes → Except Raised Bytes := .ok
  /-- pyrad's `RequestPacket`: whether it can pack the request. -/
  requestPacket : AccessRequest → Except Raised Unit := fun _ => .ok ()
  /-- What comes back for a request that was sent, after the given exchanges. -/
  respond : List Exchange → AccessRequest → Except Raised RadiusReply
  /-- How long that takes. -/
  elapsed : List Exchange → AccessRequest → ℕ := fun _ _ => 0

/-- The state while a session is handled: the session, the exchanges so far (of every
session), and the monotonic clock. -/
structure Leg where
  session : Session
  exchanges : List Exchange
  clock : ℕ

def updateSession (f : Session → Session) : Act Raised Leg Unit :=
  Act.modify fun leg => { leg with session := f leg.session }

namespace UpstreamClient

/-- The captured attributes of the AP, with the Framed-MTU of a reassembling session
stripped or overridden. -/
def forwardedAttrs (client : UpstreamClient) (session : Session) :
    List (ForwardedAttr × AttrValue) :=
  let reassembling := session.mode = .reassemble
  let stripMtu := client.stripFramedMtu ∧ reassembling
  session.apAttrs.filterMap fun attr =>
    if attr.1 = .framedMtu then
      if stripMtu then none
      else
        match client.framedMtuOverride with
        | some mtu => if reassembling then some (.framedMtu, .integer mtu) else some attr
        | none => some attr
    else some attr

/-- The Access-Request for an EAP packet. -/
def accessRequestFor (client : UpstreamClient) (session : Session) (eapPayload : Bytes)
    (context : AuthContext) (state : Option Bytes) : AccessRequest where
  authenticator := session.lastApAuthenticator
  userName := context.username
  callingStationId := context.callingStation.filter (· ≠ "")
  calledStationId := context.calledStation.filter (· ≠ "")
  state := state
  forwarded := client.forwardedAttrs session
  eapMessage := splitEapMessage eapPayload

/-- The request with its octet strings encoded. The strings come from a decoded request of the
AP, and pyrad takes them again. -/
def encode (client : UpstreamClient) (request : AccessRequest) : Except Raised AccessRequest := do
  let state ← request.state.mapM client.encodeOctets
  let eapMessage ← request.eapMessage.mapM client.encodeOctets
  return { request with state := state, eapMessage := eapMessage }

/-- What pyrad sends for a request, or what it raises. -/
def wire (client : UpstreamClient) (request : AccessRequest) : Except Raised AccessRequest := do
  let packet ← client.encode request
  client.requestPacket packet
  return packet

/-- What comes of asking pyrad to send a request. -/
def answer (client : UpstreamClient) (exchanges : List Exchange) (request : AccessRequest) :
    Except Raised RadiusReply := do
  let packet ← client.wire request
  client.respond exchanges packet

/-- How long that takes. -/
def duration (client : UpstreamClient) (exchanges : List Exchange) (request : AccessRequest) : ℕ :=
  match client.wire request with
  | .ok packet => client.elapsed exchanges packet
  | .error _ => 0

/-- pyrad takes the attributes of the request. -/
def takes (client : UpstreamClient) (request : AccessRequest) : Bool := (client.encode request).isOk

/-- The counter of a session moves when pyrad has taken the attributes, before it packs them. -/
def countTrip (client : UpstreamClient) (request : AccessRequest) (session : Session) : Session :=
  { session with
    upstreamRoundTrips := session.upstreamRoundTrips + if client.takes request then 1 else 0 }

/-- What a session learns from a reply: the Identifier of an EAP-Request, and the keys
of an Access-Accept. -/
def learn (reply : RadiusReply) (session : Session) : Session :=
  let session :=
    match concatEapMessages reply.eapMessage with
    | (code :: identifier :: _) :: _ =>
        if code = EapTls.codeRequest then { session with upstreamLastEapReqId := some identifier }
        else session
    | _ => session
  if reply.code = accessAccept then
    { session with
      msMppeSendKey := reply.msMppeSendKey.or session.msMppeSendKey
      msMppeRecvKey := reply.msMppeRecvKey.or session.msMppeRecvKey }
  else session

/-- `send_eap`: one Access-Request carrying `eapPayload`, and its reply. -/
def sendEap (client : UpstreamClient) (eapPayload : Bytes) (context : AuthContext)
    (state : Option Bytes) : Act Raised Leg Reply := do
  let leg ← Act.read
  let request := client.accessRequestFor leg.session eapPayload context state
  updateSession (client.countTrip request)
  let outcome := client.answer leg.exchanges request
  Act.modify fun leg =>
    { leg with
      exchanges := leg.exchanges ++ [⟨leg.session.ident, request, outcome⟩]
      clock := leg.clock + client.duration leg.exchanges request }
  let reply ← Act.lift outcome
  updateSession (learn reply)
  return reply.normalise

end UpstreamClient
end EapAccel
