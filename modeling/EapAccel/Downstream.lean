import EapAccel.Foundations.Dict
import EapAccel.Foundations.Runs
import EapAccel.Mediator
import Mathlib.Logic.Function.Basic

/-!
# The downstream server

`proxy/downstream_server.py` and `SessionTable` of `proxy/session.py`: the RADIUS
server the APs talk to. A datagram is decoded by pyrad, its session is looked up or
created, the EAP packet is routed to the mediator or forwarded as it is, and a reply
is built and sent. `serve_forever` swallows whatever a datagram raises.

Session objects live in `objects`, addressed by the order of their creation, and the
table maps keys to them. So an object can be followed after the table has dropped it,
and the table can be asked whether two keys hold the same object.
-/

set_option autoImplicit false

namespace EapAccel

open Foundations EapTls

/-! ## Requests and replies of the AP -/

def accessRequest : UInt8 := 1

/-- An Access-Request of an AP as pyrad decodes it. An attribute is decoded when it is read: those
that are read before a session is looked up have their values, and the forwarded ones what reading
them gives. -/
structure ApRequest where
  code : UInt8
  authenticator : Bytes
  /-- Whether the Message-Authenticator is present, and the verdict of pyrad's
  `verify_message_authenticator` when pyrad has it. -/
  messageAuthenticator : Bool
  verifier : Option (Except Raised Bool)
  userName : Option String
  callingStationId : Option String
  calledStationId : Option String
  state : Option Bytes
  nasAttrs : List (ForwardedAttr × Except Raised AttrValue)
  eapMessage : List Bytes
  deriving DecidableEq

/-- A datagram: where it comes from, when it is received, and what pyrad makes of it. -/
structure Datagram where
  addr : String × ℕ
  receivedAt : ℕ
  decoded : Except Raised ApRequest
  deriving DecidableEq

/-- A reply to an AP. -/
structure ApReply where
  code : UInt8
  state : Option Bytes := none
  msMppeSendKey : Option Bytes := none
  msMppeRecvKey : Option Bytes := none
  eapMessage : List Bytes := []
  messageAuthenticator : Bool := false
  deriving DecidableEq, Repr

/-- A reply that was built: the session it is for, the request it answers, and how many upstream
exchanges had been made by then. Whether it went out, and how, `Env.send` says. -/
structure BuiltReply where
  session : ℕ
  answers : ApRequest
  reply : ApReply
  exchangesBefore : ℕ
  deriving DecidableEq

/-- An attribute of a vendor: the vendor, and the vendor's own attribute. -/
def vendorAttributeLength (value : ℕ) : ℕ := attributeLength (4 + attributeLength value)

def ApReply.encodedLength (reply : ApReply) : ℕ :=
  headerLength + optionalLength List.length reply.state +
    ((reply.msMppeSendKey.map fun key => vendorAttributeLength key.length).getD 0) +
    ((reply.msMppeRecvKey.map fun key => vendorAttributeLength key.length).getD 0) +
    eapMessageLength reply.eapMessage +
    if reply.messageAuthenticator then messageAuthenticatorLength else 0

/-! ## The server -/

/-- The server: the session objects, the table of the live ones, and what was
exchanged, built for the APs and reported so far. -/
structure Server where
  objects : ℕ → Session
  created : ℕ
  table : List (String × ℕ)
  exchanges : List Exchange
  replies : List BuiltReply
  reports : List (ℕ × Session.Summary)
  /-- The number of State tokens minted so far. -/
  minted : ℕ
  clock : ℕ

/-- The surroundings of the server: its configuration, the upstream, the random State
tokens, what pyrad does to octet strings and packets, and whether sending and reporting succeed. -/
structure Env where
  cfg : Config
  respond : List Exchange → AccessRequest → Except Raised RadiusReply
  elapsed : List Exchange → AccessRequest → ℕ := fun _ _ => 0
  /-- pyrad's `EncodeOctets`. -/
  encodeOctets : Bytes → Except Raised Bytes := .ok
  /-- pyrad's `RequestPacket` and `ReplyPacket`: whether it can pack a packet. -/
  requestPacket : AccessRequest → Except Raised Unit := fun _ => .ok ()
  replyPacket : ApReply → Except Raised Unit := fun _ => .ok ()
  /-- The draws of `secrets.token_bytes(16)`. -/
  token : ℕ → Bytes
  /-- Handing a packed reply to the socket, after the given replies. -/
  transmit : List BuiltReply → BuiltReply → Except Raised Unit := fun _ _ => .ok ()
  /-- Printing and writing a report, after the given reports. -/
  report : List (ℕ × Session.Summary) → ℕ × Session.Summary → Except Raised Unit :=
    fun _ _ => .ok ()

/-- The client that `main` builds from the configuration. -/
def Env.client (env : Env) : UpstreamClient where
  framedMtuOverride := env.cfg.upstream.framedMtu
  stripFramedMtu := env.cfg.upstream.stripFramedMtu
  encodeOctets := env.encodeOctets
  requestPacket := env.requestPacket
  respond := env.respond
  elapsed := env.elapsed

/-- What pyrad makes of a reply, or what it raises. -/
def Env.wire (env : Env) (reply : ApReply) : Except Raised ApReply := do
  let state ← reply.state.mapM env.encodeOctets
  let msMppeSendKey ← reply.msMppeSendKey.mapM env.encodeOctets
  let msMppeRecvKey ← reply.msMppeRecvKey.mapM env.encodeOctets
  let eapMessage ← reply.eapMessage.mapM env.encodeOctets
  let packet : ApReply :=
    { reply with
      state := state
      msMppeSendKey := msMppeSendKey
      msMppeRecvKey := msMppeRecvKey
      eapMessage := eapMessage }
  env.replyPacket packet
  return packet

/-- What goes out to the AP for a reply, after the given ones, or what is raised. -/
def Env.send (env : Env) (before : List BuiltReply) (built : BuiltReply) :
    Except Raised ApReply := do
  let packet ← env.wire built.reply
  env.transmit before built
  return packet

namespace Downstream

variable (env : Env) (fuel : ℕ)

/-! ## The session table -/

/-- A lower-case hexadecimal digit. -/
def hexDigit (n : ℕ) : Char := Nat.digitChar n

/-- `bytes.hex()`. -/
def hex (bytes : Bytes) : String :=
  String.ofList (bytes.flatMap fun byte => [hexDigit (byte.toNat / 16), hexDigit (byte.toNat % 16)])

/-- `SessionTable.get_or_create`. -/
def getOrCreate (key : String) : Act Raised Server ℕ := do
  let server ← Act.read
  match server.table.lookup key with
  | some ref => return ref
  | none =>
      Act.modify fun σ =>
        { σ with
          objects := Function.update σ.objects σ.created
            (Session.create σ.created key env.cfg σ.clock)
          created := σ.created + 1
          table := dictSet key σ.created σ.table }
      return server.created

/-- `SessionTable.rekey`. -/
def rekey (oldKey newKey : String) : Act Raised Server Unit :=
  Act.modify fun σ =>
    match σ.table.lookup oldKey with
    | none => σ
    | some ref =>
        if oldKey = newKey then σ
        else
          { σ with
            table := dictSet newKey ref (dictPop oldKey σ.table)
            objects := Function.update σ.objects ref { σ.objects ref with key := newKey } }

/-- `SessionTable.drop`. -/
def drop (key : String) : Act Raised Server Unit :=
  Act.modify fun σ => { σ with table := dictPop key σ.table }

/-- `SessionTable.reap_idle`, with its `idle_timeout_s`. -/
def reapIdle (idleTimeout : ℕ) : Act Raised Server Unit :=
  Act.modify fun σ =>
    let stale := σ.table.filter fun entry =>
      (σ.objects entry.2).completedAt = none ∧ idleTimeout < σ.clock - (σ.objects entry.2).startedAt
    { σ with table := stale.foldl (fun table entry => dictPop entry.1 table) σ.table }

/-- The key of a request: the State if there is one, else a synthetic key. -/
def sessionKey (request : ApRequest) (addr : String × ℕ) (eapBytes : Bytes) : String :=
  match request.state with
  | some state => "st:" ++ hex state
  | none =>
      match request.callingStationId.filter (· ≠ "") with
      | some calling => "new:" ++ calling
      | none => s!"new:{addr.1}:{addr.2}:{(eapBytes[1]?.getD 0).toNat}"

/-! ## One datagram -/

/-- Work on one session object and the upstream leg. -/
def onSession {α : Type} (ref : ℕ) (work : Act Raised Leg α) : Act Raised Server α :=
  Act.zoom (fun σ => ⟨σ.objects ref, σ.exchanges, σ.clock⟩)
    (fun leg σ =>
      { σ with
        objects := Function.update σ.objects ref leg.session
        exchanges := leg.exchanges
        clock := leg.clock })
    work

/-- `_check_message_authenticator`. -/
def checkMessageAuthenticator (request : ApRequest) : Bool :=
  if request.messageAuthenticator then
    match request.verifier with
    | some (.ok verdict) => verdict
    | some (.error _) => false
    | none => true
  else false

/-- The order of `_FORWARDED_ATTRS`. -/
def forwardedAttrNames : List ForwardedAttr :=
  [.nasIpAddress, .nasIdentifier, .nasPort, .nasPortType, .framedMtu, .serviceType]

/-- The forwarded attributes that a request has, in this order, up to the first one that does not
decode. -/
def captureAttrs (request : ApRequest) : List ForwardedAttr → Act Raised Leg Unit
  | [] => return ()
  | name :: names =>
      match request.nasAttrs.lookup name with
      | none => captureAttrs request names
      | some decoded => do
          let value ← Act.lift decoded
          updateSession fun s => { s with apAttrs := s.apAttrs ++ [(name, value)] }
          captureAttrs request names

/-- Mirror the AP's authenticator, and capture its attributes on first sight. -/
def noteRequest (request : ApRequest) : Act Raised Leg Unit := do
  updateSession fun s => { s with lastApAuthenticator := some request.authenticator }
  let leg ← Act.read
  if leg.session.apAttrs = [] then captureAttrs request forwardedAttrNames

/-- `_passthrough_non_tls`. -/
def passthroughNonTls (context : AuthContext) (eapBytes : Bytes) : Act Raised Leg Outcome := do
  let reply ← Mediator.exchange env.client eapBytes context
  let eap := reply.eapMessages.head?
  if reply.accept then
    Act.modify fun leg => { leg with session := leg.session.finish .accept leg.clock }
    return { action := .accept, eapBytes := eap, echoId := none }
  else if reply.reject then
    Act.modify fun leg => { leg with session := leg.session.finish .reject leg.clock }
    return { action := .reject, eapBytes := eap, echoId := none }
  else
    return { action := .challenge, eapBytes := eap, echoId := none }

/-- The routing by EAP type: EAP-TLS to the mediator, anything else straight upstream. -/
def route (context : AuthContext) (eapBytes : Bytes) : Act Raised Leg Outcome :=
  if eapBytes[4]? = some eapTypeTls then
    Mediator.handleSupplicantEap env.client fuel context eapBytes
  else passthroughNonTls env context eapBytes

/-- The State of a challenge: minted on the first one of the session, which rekeys the
session in the table. -/
def challengeState (ref : ℕ) : Act Raised Server Bytes := do
  let server ← Act.read
  match (server.objects ref).downstreamState with
  | some state => return state
  | none =>
      let state := env.token server.minted
      Act.modify fun σ =>
        { σ with
          minted := σ.minted + 1
          objects := Function.update σ.objects ref
            { σ.objects ref with downstreamState := some state } }
      rekey (server.objects ref).key ("st:" ++ hex state)
      return state

/-- The first half of `_build_reply`: the reply without EAP. pyrad encodes the values as they are
set, which `Env.wire` does for all of them. -/
def bareReply (ref : ℕ) (action : Action) : Act Raised Server ApReply := do
  let server ← Act.read
  match action with
  | .accept =>
      return {
        code := accessAccept
        msMppeSendKey := (server.objects ref).msMppeSendKey
        msMppeRecvKey := (server.objects ref).msMppeRecvKey }
  | .reject => return { code := accessReject }
  | .ack | .challenge => do
      let state ← challengeState env ref
      return { code := accessChallenge, state := some state }

/-- The second half of `_build_reply`: the EAP packet, if it is not empty. -/
def withEap (eapBytes : Option Bytes) (reply : ApReply) : ApReply :=
  match eapBytes with
  | some (byte :: rest) =>
      { reply with eapMessage := splitEapMessage (byte :: rest), messageAuthenticator := true }
  | _ => reply

/-- `_build_reply`. -/
def buildReply (ref : ℕ) (outcome : Outcome) : Act Raised Server ApReply := do
  let reply ← bareReply env ref outcome.action
  return withEap outcome.eapBytes reply

/-- Encode, pack and send a reply. It is kept whether or not it gets out. -/
def sendReply (ref : ℕ) (request : ApRequest) (reply : ApReply) : Act Raised Server Unit := do
  let server ← Act.read
  let built : BuiltReply := ⟨ref, request, reply, server.exchanges.length⟩
  Act.modify fun σ => { σ with replies := σ.replies ++ [built] }
  let _packet ← Act.lift (env.send server.replies built)
  return ()

/-- Report a finished session and drop it from the table. -/
def reportAndDrop (ref : ℕ) : Act Raised Server Unit := do
  let server ← Act.read
  let session := server.objects ref
  if session.result.isSome then
    Act.modify fun σ => { σ with reports := σ.reports ++ [(ref, session.summary)] }
    Act.lift (env.report server.reports (ref, session.summary))
    drop session.key

/-- `_handle_datagram` for an Access-Request that passed the checks. -/
def handleRequest (addr : String × ℕ) (request : ApRequest) : Act Raised Server Unit := do
  let context : AuthContext := {
    username := request.userName.getD ""
    callingStation := request.callingStationId
    calledStation := request.calledStationId }
  let eapBytes := request.eapMessage.flatten
  let ref ← getOrCreate env (sessionKey request addr eapBytes)
  onSession ref (noteRequest request)
  let outcome ← onSession ref (route env fuel context eapBytes)
  let reply ← buildReply env ref outcome
  sendReply env ref request reply
  reportAndDrop env ref

/-- A request that is not dropped right away. -/
def Admitted (request : ApRequest) : Prop :=
  request.code = accessRequest ∧ request.eapMessage ≠ [] ∧
    checkMessageAuthenticator request = true

instance (request : ApRequest) : Decidable (Admitted request) :=
  inferInstanceAs (Decidable (_ ∧ _ ∧ _))

/-- `_handle_datagram`. -/
def handleDatagram (datagram : Datagram) : Act Raised Server Unit := do
  let request ← Act.lift datagram.decoded
  if Admitted request then handleRequest env fuel datagram.addr request
  else return ()

/-! ## Runs -/

/-- One turn of `serve_forever`: whatever the datagram raises is swallowed. There is no
next state when the handling does not come to an end within `fuel`. -/
def serve (datagram : Datagram) (server : Server) : Option Server :=
  let handled := handleDatagram env fuel datagram
    { server with clock := max server.clock datagram.receivedAt }
  if handled.1 = .error .outOfFuel then none else some handled.2

/-- `serve_forever` on a finite sequence of datagrams. -/
def run : List Datagram → Server → Option Server := runAll (serve env fuel)

/-- What happens to a server: a datagram comes in, or `reap_idle` is called at some time. -/
inductive Event where
  | datagram (datagram : Datagram)
  | reap (now : ℕ)
  deriving DecidableEq

/-- One event. -/
def occur (idleTimeout : ℕ) : Event → Server → Option Server
  | .datagram datagram, server => serve env fuel datagram server
  | .reap now, server =>
      some (reapIdle idleTimeout { server with clock := max server.clock now }).2

/-- The server when it starts. The contents of `objects` are not looked at before an
object is created. -/
def initial : Server where
  objects := fun ref => Session.create ref "" env.cfg 0
  created := 0
  table := []
  exchanges := []
  replies := []
  reports := []
  minted := 0
  clock := 0

end Downstream
end EapAccel
