import EapAccel.Downstream.Context

/-!
# The size of RADIUS packets

A RADIUS packet has a Length field of two octets, so an encoding of more than 65535 octets
cannot be sent. The packets that carry the chunks of a reassembled record are the largest:
the fragment size, the framing of the chunk, two octets for every EAP-Message attribute, and
the attributes around them. `validate` bounds the fragment sizes alone.

All packets of an accepted configuration fit exactly where the fragment sizes, or the
records, are small enough (`encodable_iff`).
-/

set_option autoImplicit false

namespace EapAccel

open Foundations EapTls

/-! ## Encoded lengths -/

/-- **An EAP packet costs two more octets for every 253 of its own.** -/
theorem eapMessageLength_split {eap : Bytes} (nonempty : eap ≠ []) :
    eapMessageLength (splitEapMessage eap) = eap.length + 2 * ((eap.length + 252) / 253) := by
  have octets : ∀ values : List Bytes,
      eapMessageLength values = 2 * values.length + values.flatten.length := by
    intro values
    induction values with
    | nil => rfl
    | cons value values ih =>
        rw [eapMessageLength, List.map_cons, List.sum_cons, ← eapMessageLength, ih, attributeLength,
          List.length_cons, List.flatten_cons, List.length_append]
        omega
  rw [octets, splitEapMessage, if_neg nonempty, flatten_chunks (by decide), length_chunks]
  omega

/-! ## The chunks of a record -/

/-- A reassembled record: what a reassembler of the configuration returns. -/
def Config.Reassembled (cfg : Config) (record : Bytes) : Prop :=
  ∃ (reassembler : Reassembler) (packet : EapTlsPacket),
    reassembler.maxMessageLen = cfg.maxMessageLen ∧
      (Reassembler.ingest packet reassembler).1 = .ok (some record)

/-- The EAP packet of a chunk of a record that is cut to a size. -/
def ChunkOf (code : UInt8) (size : ℕ) (record eap : Bytes) : Prop :=
  ∃ pieces, fragment record size = .ok pieces ∧
    ∃ (idx : ℕ) (chunk : Bytes) (identifier : UInt8), pieces[idx]? = some chunk ∧
      build code identifier chunk (decide (idx < pieces.length - 1))
        (if idx = 0 then some record.length else none) false = .ok eap

/-- **A reassembled record** is any octets within the limit. -/
theorem Config.reassembled_iff {cfg : Config} {record : Bytes} :
    cfg.Reassembled record ↔ record.length ≤ cfg.maxMessageLen := by
  constructor
  · rintro ⟨reassembler, packet, limit, returned⟩
    rcases ack : packet.isAck with _ | _
    · by_cases refused : reassembler.Refuses packet
      · obtain ⟨rest, n, declares, large⟩ := refused
        rw [Reassembler.ingest_refused ack rest declares large] at returned
        cases returned
      · rw [Reassembler.ingest_data ack refused] at returned
        by_cases exceeds :
            (reassembler.extend packet).buffer.length > reassembler.maxMessageLen
        · rw [if_pos exceeds] at returned
          cases returned
        · rw [if_neg exceeds] at returned
          rw [Reassembler.extend_buffer, limit] at exceeds
          cases more : packet.moreFragments with
          | true =>
              rw [more] at returned
              cases returned
          | false =>
              rw [more] at returned
              cases returned
              exact Nat.not_lt.mp exceeds
    · rw [Reassembler.ingest_ack ack] at returned
      cases returned
  · intro short
    refine ⟨{ maxMessageLen := cfg.maxMessageLen },
      described codeResponse 0 record false (some record.length) false, rfl, ?_⟩
    have accepted : ¬ ({ maxMessageLen := cfg.maxMessageLen } : Reassembler).Refuses
        (described codeResponse 0 record false (some record.length) false) := by
      rintro ⟨_, n, declares, large⟩
      cases declares
      exact Nat.not_lt.mpr short large
    rw [Reassembler.ingest_last (by simp [EapTlsPacket.isAck, described]) rfl accepted short]
    rfl

/-- A chunk has at most ten octets of framing. -/
theorem ChunkOf.length_le {code : UInt8} {size : ℕ} {record eap : Bytes}
    (chunk : ChunkOf code size record eap) :
    eap ≠ [] ∧ eap.length ≤ 10 + min size record.length := by
  obtain ⟨pieces, cut, idx, data, identifier, there, built⟩ := chunk
  have framing := layout_of_build built
  have length : eap.length =
      6 + (lengthField (if idx = 0 then some record.length else none)).length + data.length := by
    rw [framing]
    exact length_layout _
  have field : ∀ declared : Option ℕ, (lengthField declared).length ≤ 4 := by
    intro declared
    rw [length_lengthField]
    split <;> decide
  have room := field (if idx = 0 then some record.length else none)
  have small := length_le_of_fragment cut data (List.mem_of_getElem? there)
  have part : data.length ≤ record.length := by
    rw [← flatten_fragment cut]
    exact (List.sublist_flatten_of_mem (List.mem_of_getElem? there)).length_le
  refine ⟨?_, ?_⟩
  · rw [← List.length_pos_iff]
    omega
  · omega

/-- The first chunk of a record has ten octets of framing. -/
theorem exists_first_chunk (code : UInt8) {size : ℕ} {record : Bytes} (nonempty : record ≠ [])
    (short : record.length ≤ 65000) (small : record.length ≤ size) :
    ∃ eap, ChunkOf code size record eap ∧ eap.length = 10 + record.length := by
  have long := List.length_pos_iff.mpr nonempty
  have cut : fragment record size = .ok [record] := by
    rw [fragment_eq (by omega), if_neg nonempty, chunks_cut (by omega) nonempty,
      List.take_of_length_le small, List.drop_of_length_le small, chunks_nil (by omega)]
  have fits : Fits record (some record.length) := by
    refine Fits.of_length ?_ short
    rintro n ⟨⟩
    omega
  refine ⟨_, ⟨[record], cut, 0, record, 0, rfl, build_eq_ok fits⟩, ?_⟩
  rw [length_layout, length_lengthField]
  rfl

/-! ## The attributes around them -/

/-- What a request for a session is made of besides the EAP packet: values of RADIUS attributes,
which have at most 253 octets each. The attributes of the AP were captured from one of its
requests. -/
structure RequestParts (cfg : Config) where
  session : Session
  context : AuthContext
  state : Option Bytes
  configured : session.Configured cfg
  reassembling : session.mode = .reassemble
  captured : ∃ request : ApRequest, session.apAttrs = request.attributes ∧
    ∀ attr ∈ request.attributes, attr.1.valueLength attr.2 ≤ maxValueLength
  userName : context.username.utf8ByteSize ≤ maxValueLength
  callingStation : ∀ name ∈ context.callingStation, name.utf8ByteSize ≤ maxValueLength
  calledStation : ∀ name ∈ context.calledStation, name.utf8ByteSize ≤ maxValueLength
  stateLength : ∀ octets ∈ state, octets.length ≤ maxValueLength

/-- The most that the attributes of a request take. -/
def Config.requestOverhead (cfg : Config) : ℕ :=
  if cfg.upstream.stripFramedMtu then 1337 else 1343

/-- The most that an attribute of the AP takes upstream. -/
def Config.carriedLength (cfg : Config) : ForwardedAttr → ℕ
  | .nasIdentifier => attributeLength maxValueLength
  | .framedMtu => if cfg.upstream.stripFramedMtu then 0 else attributeLength 4
  | _ => attributeLength 4

theorem optionalLength_le {α : Type} {length : α → ℕ} {value : Option α}
    (short : ∀ v ∈ value, length v ≤ maxValueLength) :
    optionalLength length value ≤ attributeLength maxValueLength := by
  cases value with
  | none => exact Nat.zero_le _
  | some v => exact Nat.add_le_add_left (short v rfl) 2

/-- A name that is left out when it is empty. -/
theorem nameLength_le {name : Option String}
    (short : ∀ text ∈ name, text.utf8ByteSize ≤ maxValueLength) :
    optionalLength String.utf8ByteSize (name.filter (· ≠ "")) ≤ attributeLength maxValueLength :=
  optionalLength_le fun text member => short text (Option.mem_filter_iff.mp member).1

/-- Every attribute but NAS-Identifier has four octets. -/
theorem valueLength_eq {name : ForwardedAttr} (other : name ≠ .nasIdentifier) (value : AttrValue) :
    name.valueLength value = 4 := by
  cases name with
  | nasIdentifier => exact absurd rfl other
  | nasIpAddress | nasPort | nasPortType | framedMtu | serviceType => rfl

/-- An attribute that is carried upstream takes no more than its name may. -/
theorem carriedAttr_le {cfg : Config} (reassemble : cfg.sessionMode = .reassemble)
    {attr carried : ForwardedAttr × AttrValue} (short : attr.1.valueLength attr.2 ≤ maxValueLength)
    (carries : cfg.carriedAttr attr = some carried) :
    attributeLength (carried.1.valueLength carried.2) ≤ cfg.carriedLength attr.1 := by
  rw [Config.carriedAttr] at carries
  by_cases mtu : attr.1 = .framedMtu
  · rw [if_pos ⟨reassemble, mtu⟩] at carries
    cases strip : cfg.upstream.stripFramedMtu with
    | true =>
        rw [strip] at carries
        cases carries
    | false =>
        rw [strip] at carries
        cases carries
        simp only [mtu, Config.carriedLength, strip]
        exact Nat.le_refl _
  · rw [if_neg (fun both => mtu both.2)] at carries
    cases carries
    by_cases identifier : attr.1 = .nasIdentifier
    · rw [identifier] at short ⊢
      exact Nat.add_le_add_left short 2
    · rw [valueLength_eq identifier]
      obtain ⟨name, value⟩ := attr
      cases name with
      | nasIdentifier => exact absurd rfl identifier
      | framedMtu => exact absurd rfl mtu
      | nasIpAddress | nasPort | nasPortType | serviceType => exact Nat.le_refl _

/-- What is read of an AP's request takes no more upstream than each attribute at its longest. -/
theorem carried_capture_le {cfg : Config} (reassemble : cfg.sessionMode = .reassemble)
    {request : ApRequest} : ∀ {names : List ForwardedAttr},
    (∀ attr ∈ (request.capture names).2, attr.1.valueLength attr.2 ≤ maxValueLength) →
      ((cfg.carried (request.capture names).2).map fun attr =>
        attributeLength (attr.1.valueLength attr.2)).sum ≤ (names.map cfg.carriedLength).sum := by
  intro names
  induction names with
  | nil => exact fun _ => Nat.le_refl 0
  | cons name names ih =>
      rw [ApRequest.capture, List.map_cons, List.sum_cons]
      rcases request.nasAttrs.lookup name with _ | (e | value)
      · exact fun short => (ih short).trans (Nat.le_add_left _ _)
      · exact fun _ => Nat.zero_le _
      · intro short
        have rest := ih fun attr member => short attr (List.mem_cons_of_mem _ member)
        rw [Config.carried, List.filterMap_cons, ← Config.carried]
        cases carries : cfg.carriedAttr (name, value) with
        | none => exact rest.trans (Nat.le_add_left _ _)
        | some carried =>
            rw [List.map_cons, List.sum_cons]
            exact Nat.add_le_add
              (carriedAttr_le reassemble (short (name, value) List.mem_cons_self) carries) rest

/-- **The attributes of the AP** take no more upstream than each of them at its longest. -/
theorem forwarded_le {cfg : Config} (reassemble : cfg.sessionMode = .reassemble)
    {request : ApRequest}
    (short : ∀ attr ∈ request.attributes, attr.1.valueLength attr.2 ≤ maxValueLength) :
    ((cfg.carried request.attributes).map fun attr =>
        attributeLength (attr.1.valueLength attr.2)).sum ≤
      (Downstream.forwardedAttrNames.map cfg.carriedLength).sum :=
  carried_capture_le reassemble short

theorem sum_carriedLength (cfg : Config) :
    (Downstream.forwardedAttrNames.map cfg.carriedLength).sum =
      if cfg.upstream.stripFramedMtu then 279 else 285 := by
  cases strip : cfg.upstream.stripFramedMtu <;>
    simp [Downstream.forwardedAttrNames, Config.carriedLength, strip, attributeLength, maxValueLength]

namespace Downstream

variable {env : Env}

/-- **A request for a session** takes no more than its EAP packet and the longest attributes
around it. -/
theorem request_le (parts : RequestParts env.cfg) {eap : Bytes} (nonempty : eap ≠ []) :
    (env.client.accessRequestFor parts.session eap parts.context parts.state).encodedLength ≤
      env.cfg.requestOverhead + (eap.length + 2 * ((eap.length + 252) / 253)) := by
  obtain ⟨request, attributes, short⟩ := parts.captured
  have mode := parts.configured.mode
  have forwarded := forwarded_le (mode ▸ parts.reassembling) short
  rw [sum_carriedLength, ← attributes, ← forwardedAttrs_eq mode] at forwarded
  have userName := parts.userName
  have calling := nameLength_le parts.callingStation
  have called := nameLength_le parts.calledStation
  have state := optionalLength_le parts.stateLength
  simp only [AccessRequest.encodedLength, UpstreamClient.accessRequestFor,
    eapMessageLength_split nonempty]
  rw [Config.requestOverhead]
  simp only [attributeLength, maxValueLength, headerLength, messageAuthenticatorLength] at *
  cases strip : env.cfg.upstream.stripFramedMtu with
  | true =>
      simp only [strip, if_true] at forwarded ⊢
      omega
  | false =>
      simp only [strip, Bool.false_eq_true, if_false] at forwarded ⊢
      omega

/-- The most that the attributes of a challenge take: the State of 16 octets, and the
Message-Authenticator. -/
def challengeOverhead : ℕ := 56

/-- **A challenge** takes its EAP packet and the same attributes each time. -/
theorem challenge_length (tokens : ∀ n, (env.token n).length = 16) {server : Server} {ref : ℕ}
    (stated : ∀ state ∈ (server.objects ref).downstreamState, state.length = 16) {eap : Bytes}
    (nonempty : eap ≠ []) {echoId : Option UInt8} {reply : ApReply} {after : Server}
    (built : buildReply env ref
        { action := .challenge, eapBytes := some eap, echoId := echoId } server =
      (.ok reply, after)) :
    reply.encodedLength =
      challengeOverhead + (eap.length + 2 * ((eap.length + 252) / 253)) := by
  rw [buildReply_eq] at built
  cases built
  obtain ⟨byte, rest, rfl⟩ := List.exists_cons_of_ne_nil nonempty
  have state : ((server.stamped env ref).1).length = 16 := by
    rw [Server.stamped]
    cases minted : (server.objects ref).downstreamState with
    | none => exact tokens _
    | some state => exact stated state minted
  have message := eapMessageLength_split nonempty
  have addressed : (server.addressed env ref .challenge).1 = some (server.stamped env ref).1 := rfl
  simp only [replyFor, withEap, bareReplyFor, ApReply.encodedLength, addressed, message,
    reduceCtorEq, if_false, Option.map_none, Option.getD_none, optionalLength, Option.map_some,
    Option.getD_some, state, attributeLength, headerLength, messageAuthenticatorLength,
    challengeOverhead, if_true]
  omega

/-! ## The configurations whose packets fit -/

variable (env)

/-- All requests for the chunks of reassembled records fit. -/
def RequestsFit : Prop :=
  ∀ (parts : RequestParts env.cfg) (record eap : Bytes), env.cfg.Reassembled record →
    ChunkOf codeResponse parts.session.upstreamFragmentSize record eap →
      (env.client.accessRequestFor parts.session eap parts.context parts.state).encodedLength ≤
        maxPacketLength

/-- All challenges with the fragments of reassembled records fit. -/
def ChallengesFit : Prop :=
  ∀ (server : Server) (ref : ℕ), (server.objects ref).Configured env.cfg →
    (server.objects ref).mode = .reassemble →
    (∀ state ∈ (server.objects ref).downstreamState, state.length = 16) →
    ∀ record eap, env.cfg.Reassembled record →
      ChunkOf codeRequest (server.objects ref).downstreamFragmentSize record eap →
      ∀ echoId reply after,
        buildReply env ref { action := .challenge, eapBytes := some eap, echoId := echoId } server =
          (.ok reply, after) → reply.encodedLength ≤ maxPacketLength

variable {env}

/-- The longest chunk of a record toward the server that fits its request. -/
def requestRoom (cfg : Config) : ℕ := if cfg.upstream.stripFramedMtu then 63684 else 63678

/-- The longest fragment toward the supplicant that fits its challenge. -/
def challengeRoom : ℕ := 64955

theorem requestsFit_of_room
    (room : min env.cfg.upstream.fragmentSize env.cfg.maxMessageLen ≤ requestRoom env.cfg) :
    RequestsFit env := by
  intro parts record eap reassembled chunk
  obtain ⟨nonempty, length⟩ := chunk.length_le
  have fits := request_le parts nonempty
  have short := Config.reassembled_iff.mp reassembled
  rw [parts.configured.upstreamFragmentSize] at length
  rw [requestRoom] at room
  rw [Config.requestOverhead] at fits
  rw [maxPacketLength]
  cases strip : env.cfg.upstream.stripFramedMtu with
  | true =>
      simp only [strip, if_true] at room fits
      omega
  | false =>
      simp only [strip, Bool.false_eq_true, if_false] at room fits
      omega

theorem challengesFit_of_room (tokens : ∀ n, (env.token n).length = 16)
    (room : min env.cfg.downstream.fragmentSize env.cfg.maxMessageLen ≤ challengeRoom) :
    ChallengesFit env := by
  intro server ref configured _ stated record eap reassembled chunk echoId reply after built
  obtain ⟨nonempty, length⟩ := chunk.length_le
  have short := Config.reassembled_iff.mp reassembled
  rw [configured.downstreamFragmentSize] at length
  rw [challenge_length tokens stated nonempty built, maxPacketLength, challengeOverhead]
  rw [challengeRoom] at room
  omega

/-! ## The longest requests -/

theorem size_replicate (count : ℕ) :
    (String.ofList (List.replicate count 'a')).utf8ByteSize = count := by
  induction count with
  | zero => rfl
  | succ count ih =>
      rw [List.replicate_succ, String.ofList_cons, String.utf8ByteSize_append, ih, Nat.add_comm]
      rfl

/-- The longest name that an attribute can carry. -/
def longestName : String := String.ofList (List.replicate maxValueLength 'a')

theorem size_longestName : longestName.utf8ByteSize = maxValueLength := size_replicate maxValueLength

theorem longestName_le : ∀ name ∈ some longestName, name.utf8ByteSize ≤ maxValueLength := by
  intro name member
  rw [← Option.some.inj member, size_longestName]

/-- All attributes that are captured, and each as long as it can be. -/
def longestAttributes : List (ForwardedAttr × AttrValue) :=
  [(.nasIpAddress, .text "10.0.0.1"), (.nasIdentifier, .text longestName), (.nasPort, .integer 1),
    (.nasPortType, .integer 19), (.framedMtu, .integer 1400), (.serviceType, .integer 2)]

/-- An AP's request that has them. -/
def longestRequest : ApRequest where
  code := accessRequest
  authenticator := []
  messageAuthenticator := true
  verifier := none
  userName := some longestName
  callingStationId := some longestName
  calledStationId := some longestName
  state := none
  nasAttrs := longestAttributes.map fun attr => (attr.1, .ok attr.2)
  eapMessage := []

/-- The longest attributes that a request can have around its EAP packet. -/
def longestParts (cfg : Config) (mode : cfg.sessionMode = .reassemble) : RequestParts cfg where
  session := { Session.create 0 "" cfg 0 with apAttrs := longestRequest.attributes }
  context := ⟨longestName, some longestName, some longestName⟩
  state := some (List.replicate maxValueLength 0)
  configured := ⟨rfl, rfl, rfl, rfl, rfl⟩
  reassembling := mode
  captured := by
    refine ⟨longestRequest, rfl, ?_⟩
    have attributes : longestRequest.attributes = longestAttributes := rfl
    rw [attributes]
    simp [longestAttributes, ForwardedAttr.valueLength, size_longestName, maxValueLength]
  userName := Nat.le_of_eq size_longestName
  callingStation := longestName_le
  calledStation := longestName_le
  stateLength := by
    intro octets member
    rw [← Option.some.inj member, List.length_replicate]

theorem longestName_ne_empty : longestName ≠ "" := by
  intro empty
  have size := size_longestName
  rw [empty] at size
  cases size

/-- **The bound on the attributes of a request is reached.** -/
theorem longest_request (mode : env.cfg.sessionMode = .reassemble) {eap : Bytes}
    (nonempty : eap ≠ []) :
    (env.client.accessRequestFor (longestParts env.cfg mode).session eap
        (longestParts env.cfg mode).context (longestParts env.cfg mode).state).encodedLength =
      env.cfg.requestOverhead + (eap.length + 2 * ((eap.length + 252) / 253)) := by
  have configured := (longestParts env.cfg mode).configured
  have attributes : (longestParts env.cfg mode).session.apAttrs = longestAttributes := rfl
  have kept : (some longestName).filter (· ≠ "") = some longestName := by
    simp [longestName_ne_empty]
  have forwarded : ((env.cfg.carried longestAttributes).map fun attr =>
      attributeLength (attr.1.valueLength attr.2)).sum =
        if env.cfg.upstream.stripFramedMtu then 279 else 285 := by
    cases strip : env.cfg.upstream.stripFramedMtu <;>
      simp [Config.carried, Config.carriedAttr, mode, strip, longestAttributes,
        ForwardedAttr.valueLength, attributeLength, size_longestName, maxValueLength]
  have context : (longestParts env.cfg mode).context =
      ⟨longestName, some longestName, some longestName⟩ := rfl
  have state : (longestParts env.cfg mode).state = some (List.replicate maxValueLength 0) := rfl
  simp only [AccessRequest.encodedLength, UpstreamClient.accessRequestFor,
    eapMessageLength_split nonempty, forwardedAttrs_eq configured.mode, attributes, context, state,
    kept, forwarded, optionalLength, Option.map_some, Option.getD_some, size_longestName,
    List.length_replicate]
  simp only [attributeLength, maxValueLength, headerLength, messageAuthenticatorLength,
    Config.requestOverhead]
  split <;> omega

/-- A record as long as a chunk of it can be. -/
def fullRecord (size limit : ℕ) : Bytes := List.replicate (min size limit) 0

theorem room_of_requestsFit (valid : env.cfg.validate = .ok ())
    (mode : env.cfg.sessionMode = .reassemble) (fit : RequestsFit env) :
    min env.cfg.upstream.fragmentSize env.cfg.maxMessageLen ≤ requestRoom env.cfg := by
  obtain ⟨_, _, ⟨positive, upper⟩, _, large⟩ := Config.accepted_of_validate valid
  have length : (fullRecord env.cfg.upstream.fragmentSize env.cfg.maxMessageLen).length =
      min env.cfg.upstream.fragmentSize env.cfg.maxMessageLen := List.length_replicate
  obtain ⟨eap, chunk, size⟩ := @exists_first_chunk codeResponse env.cfg.upstream.fragmentSize
    (fullRecord env.cfg.upstream.fragmentSize env.cfg.maxMessageLen)
    (by rw [← List.length_pos_iff, length]; omega) (by omega) (by omega)
  have fits := fit (longestParts env.cfg mode) _ eap
    (Config.reassembled_iff.mpr (by rw [length]; omega)) chunk
  rw [longest_request mode chunk.length_le.1, size, length, maxPacketLength,
    Config.requestOverhead] at fits
  rw [requestRoom]
  cases strip : env.cfg.upstream.stripFramedMtu with
  | true =>
      simp only [strip, if_true] at fits ⊢
      omega
  | false =>
      simp only [strip, Bool.false_eq_true, if_false] at fits ⊢
      omega

theorem room_of_challengesFit (valid : env.cfg.validate = .ok ())
    (tokens : ∀ n, (env.token n).length = 16) (mode : env.cfg.sessionMode = .reassemble)
    (fit : ChallengesFit env) :
    min env.cfg.downstream.fragmentSize env.cfg.maxMessageLen ≤ challengeRoom := by
  obtain ⟨_, ⟨positive, upper⟩, _, _, large⟩ := Config.accepted_of_validate valid
  have length : (fullRecord env.cfg.downstream.fragmentSize env.cfg.maxMessageLen).length =
      min env.cfg.downstream.fragmentSize env.cfg.maxMessageLen := List.length_replicate
  obtain ⟨eap, chunk, size⟩ := @exists_first_chunk codeRequest env.cfg.downstream.fragmentSize
    (fullRecord env.cfg.downstream.fragmentSize env.cfg.maxMessageLen)
    (by rw [← List.length_pos_iff, length]; omega) (by omega) (by omega)
  have stated : ∀ state ∈ ((initial env).objects 0).downstreamState, state.length = 16 := by
    intro state none
    cases none
  have fits := fit (initial env) 0 (Session.configured_create 0 "" env.cfg 0) mode stated _ eap
    (Config.reassembled_iff.mpr (by rw [length]; omega)) chunk none _ _ (buildReply_eq 0 _ _)
  rw [challenge_length tokens stated chunk.length_le.1 (buildReply_eq 0 _ _), size, length,
    maxPacketLength, challengeOverhead] at fits
  rw [challengeRoom]
  omega

/-- **All packets of an accepted configuration fit exactly where it reassembles nothing, or its
fragment sizes or its records leave room for what is around a chunk.** -/
theorem encodable_iff (env : Env) (valid : env.cfg.validate = .ok ())
    (tokens : ∀ n, (env.token n).length = 16) :
    RequestsFit env ∧ ChallengesFit env ↔
      env.cfg.mode = "passthrough" ∨
        (min env.cfg.upstream.fragmentSize env.cfg.maxMessageLen ≤ requestRoom env.cfg ∧
          min env.cfg.downstream.fragmentSize env.cfg.maxMessageLen ≤ challengeRoom) := by
  by_cases passthrough : env.cfg.mode = "passthrough"
  · have mode : env.cfg.sessionMode = .passthrough := if_pos passthrough
    refine iff_of_true ⟨?_, ?_⟩ (.inl passthrough)
    · intro parts
      have reassembling := parts.configured.mode.symm.trans parts.reassembling
      rw [mode] at reassembling
      cases reassembling
    · intro server ref configured reassembling
      have same := configured.mode.symm.trans reassembling
      rw [mode] at same
      cases same
  · have mode : env.cfg.sessionMode = .reassemble := if_neg passthrough
    rw [or_iff_right passthrough]
    constructor
    · rintro ⟨requests, challenges⟩
      exact ⟨room_of_requestsFit valid mode requests,
        room_of_challengesFit valid tokens mode challenges⟩
    · rintro ⟨up, down⟩
      exact ⟨requestsFit_of_room up, challengesFit_of_room tokens down⟩

/-- The surroundings of a server with these fragment sizes. -/
def withFragments (downstream upstream : ℕ) : Env where
  cfg := { Config.sample "reassemble" with
    downstream := { fragmentSize := downstream }
    upstream := { fragmentSize := upstream } }
  respond := fun _ _ => .error .timeout
  token := fun n => List.replicate 15 0 ++ [UInt8.ofNat n]

/-- The sizes of the example file leave room. -/
theorem encodable_sample :
    RequestsFit (withFragments 1000 60000) ∧ ChallengesFit (withFragments 1000 60000) :=
  (encodable_iff (withFragments 1000 60000) rfl (fun _ => rfl)).mpr (.inr (by decide))

/-- A fragment size of 65000 is accepted. The request for a full chunk does not fit even with an
empty User-Name and nothing else, nor does the challenge with a full fragment. -/
theorem full_chunk_overflows :
    (withFragments 65000 65000).cfg.validate = .ok () ∧
      (∃ eap, ChunkOf codeResponse 65000 (List.replicate 65000 0) eap ∧
        ((withFragments 65000 65000).client.accessRequestFor
          (Session.create 0 "" (withFragments 65000 65000).cfg 0) eap ⟨"", none, none⟩
          none).encodedLength = 65564) ∧
      ¬ RequestsFit (withFragments 65000 65000) ∧ ¬ ChallengesFit (withFragments 65000 65000) := by
  refine ⟨rfl, ?_, fun requests => ?_, fun challenges => ?_⟩
  · have length : (List.replicate 65000 (0 : UInt8)).length = 65000 := List.length_replicate
    obtain ⟨eap, chunk, size⟩ := @exists_first_chunk codeResponse 65000 (List.replicate 65000 0)
      (by rw [← List.length_pos_iff, length]; decide) (by rw [length]) (by rw [length])
    refine ⟨eap, chunk, ?_⟩
    have message := eapMessageLength_split chunk.length_le.1
    rw [size, length] at message
    show headerLength + attributeLength "".utf8ByteSize + 0 + 0 + 0 + 0 +
      eapMessageLength (splitEapMessage eap) + messageAuthenticatorLength = 65564
    rw [message]
    rfl
  · exact absurd (room_of_requestsFit rfl rfl requests) (by decide)
  · exact absurd (room_of_challengesFit rfl (fun _ => rfl) rfl challenges) (by decide)

end Downstream
end EapAccel
