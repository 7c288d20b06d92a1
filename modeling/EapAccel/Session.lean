import EapAccel.Config
import EapAccel.EapTls.Framing

/-!
# Sessions

`proxy/session.py`. One `Session` object per authentication: a reassembler for each
direction, the queue of fragments waiting for the supplicant's ACKs, the
correlation of the two RADIUS conversations, and the counters that are reported.

`ident` is the identity of the object; two sessions of the program are the same
object exactly when it agrees. The limit `max_message_len` is kept in the two
reassemblers, where `__post_init__` puts it.
-/

set_option autoImplicit false

namespace EapAccel

open EapTls

/-- Counters for one direction of the exchange. -/
structure DirectionMetrics where
  fragmentsIn : ℕ := 0
  fragmentsOut : ℕ := 0
  acksGenerated : ℕ := 0
  bytesReassembled : ℕ := 0
  deriving DecidableEq, Repr

/-- `session.result` once it is set. -/
inductive Verdict where
  | accept
  | reject
  deriving DecidableEq, Repr

/-- `_FORWARDED_ATTRS`: the attributes of the AP's request that are replayed upstream. -/
inductive ForwardedAttr where
  | nasIpAddress
  | nasIdentifier
  | nasPort
  | nasPortType
  | framedMtu
  | serviceType
  deriving DecidableEq, Repr

/-- The value of a RADIUS attribute, as its dictionary type decodes it. -/
inductive AttrValue where
  | text (value : String)
  | integer (value : ℕ)
  deriving DecidableEq, Repr

structure Session where
  ident : ℕ
  key : String
  mode : Mode
  upstreamFragmentSize : ℕ
  downstreamFragmentSize : ℕ
  /-- The upstream server's State, echoed on the next request to it. -/
  radiusState : Option Bytes := none
  /-- The State minted for the AP. -/
  downstreamState : Option Bytes := none
  apAttrs : List (ForwardedAttr × AttrValue) := []
  msMppeSendKey : Option Bytes := none
  msMppeRecvKey : Option Bytes := none
  lastApAuthenticator : Option Bytes := none
  /-- The Identifier of the last EAP-Request received from upstream. -/
  upstreamLastEapReqId : Option UInt8 := none
  /-- The Identifier of the last EAP-Request the supplicant saw. -/
  downLastReqId : Option UInt8 := none
  upReasm : Reassembler
  downReasm : Reassembler
  /-- Chunks waiting for the supplicant's ACKs, with their indices. -/
  downOutbox : List (ℕ × Bytes) := []
  upNextId : UInt8 := 0
  downNextId : UInt8 := 0
  up : DirectionMetrics := {}
  down : DirectionMetrics := {}
  startedAt : ℕ
  completedAt : Option ℕ := none
  upstreamRoundTrips : ℕ := 0
  result : Option Verdict := none
  pendingSuccess : Option Bytes := none
  pendingFailure : Option Bytes := none
  /-- Length and number of chunks of the record in `downOutbox`. The two attributes
  exist from the first time the outbox is filled, and are read only while it is
  not empty. -/
  downTotal : ℕ := 0
  downNchunks : ℕ := 0
  deriving DecidableEq, Repr

namespace Session

/-- A new session of `SessionTable.get_or_create`. -/
def create (ident : ℕ) (key : String) (cfg : Config) (now : ℕ) : Session where
  ident := ident
  key := key
  mode := cfg.sessionMode
  upstreamFragmentSize := cfg.upstream.fragmentSize
  downstreamFragmentSize := cfg.downstream.fragmentSize
  upReasm := { maxMessageLen := cfg.maxMessageLen }
  downReasm := { maxMessageLen := cfg.maxMessageLen }
  startedAt := now

/-- The attributes that a session takes from the configuration, and keeps. -/
structure Configured (cfg : Config) (session : Session) : Prop where
  mode : session.mode = cfg.sessionMode
  upstreamFragmentSize : session.upstreamFragmentSize = cfg.upstream.fragmentSize
  downstreamFragmentSize : session.downstreamFragmentSize = cfg.downstream.fragmentSize
  upLimit : session.upReasm.maxMessageLen = cfg.maxMessageLen
  downLimit : session.downReasm.maxMessageLen = cfg.maxMessageLen

theorem configured_create (ident : ℕ) (key : String) (cfg : Config) (now : ℕ) :
    (create ident key cfg now).Configured cfg :=
  ⟨rfl, rfl, rfl, rfl, rfl⟩

/-- The next Identifier toward the supplicant, which the caller stores. -/
def nextDownId (session : Session) : UInt8 := session.downNextId + 1

/-- The next Identifier toward the server, which the caller stores. -/
def nextUpId (session : Session) : UInt8 := session.upNextId + 1

def finish (session : Session) (result : Verdict) (now : ℕ) : Session :=
  { session with completedAt := some now, result := some result }

/-- `summary`: the record that is reported. -/
structure Summary where
  key : String
  mode : Mode
  result : Option Verdict
  /-- Start and end of the authentication; the report shows their difference. -/
  startedAt : ℕ
  completedAt : Option ℕ
  upstreamRoundTrips : ℕ
  downstreamFragmentSize : ℕ
  upstreamFragmentSize : ℕ
  up : DirectionMetrics
  down : DirectionMetrics
  deriving DecidableEq, Repr

def summary (session : Session) : Summary where
  key := session.key
  mode := session.mode
  result := session.result
  startedAt := session.startedAt
  completedAt := session.completedAt
  upstreamRoundTrips := session.upstreamRoundTrips
  downstreamFragmentSize := session.downstreamFragmentSize
  upstreamFragmentSize := session.upstreamFragmentSize
  up := session.up
  down := session.down

end Session
end EapAccel
