import EapAccel.Downstream.Spec
import EapAccel.Upstream.Packing

/-!
# What pyrad sends to the AP

Replies are encoded and packed as requests are (`Env.Packs`, `ApReply.Sendable`). A reply that
pyrad refuses is not sent, and the datagram it would have answered ends there.

Where pyrad changes and refuses nothing (`Env.Lossless`), requests and replies go out as they are
built.
-/

set_option autoImplicit false

namespace EapAccel

open Foundations

variable {env : Env}

/-! ## Replies -/

/-- **What encoding does to a reply**: the State, the keys and the EAP-Message attributes are
encoded, and the rest stays. -/
theorem Env.wire_cases {reply packet : ApReply} (sent : env.wire reply = .ok packet) :
    ∃ state sendKey recvKey eapMessage, reply.state.mapM env.encodeOctets = .ok state ∧
      reply.msMppeSendKey.mapM env.encodeOctets = .ok sendKey ∧
      reply.msMppeRecvKey.mapM env.encodeOctets = .ok recvKey ∧
      reply.eapMessage.mapM env.encodeOctets = .ok eapMessage ∧
      packet = { reply with
        state := state
        msMppeSendKey := sendKey
        msMppeRecvKey := recvKey
        eapMessage := eapMessage } := by
  obtain ⟨state, states, rest⟩ := Except.ok_of_bind sent
  obtain ⟨sendKey, sendKeys, rest⟩ := Except.ok_of_bind rest
  obtain ⟨recvKey, recvKeys, rest⟩ := Except.ok_of_bind rest
  obtain ⟨eapMessage, eapMessages, rest⟩ := Except.ok_of_bind rest
  obtain ⟨_, _, returned⟩ := Except.ok_of_bind rest
  cases returned
  exact ⟨state, sendKey, recvKey, eapMessage, states, sendKeys, recvKeys, eapMessages, rfl⟩

/-- A reply whose octet strings are encoded as they are goes out as it is. -/
theorem Env.wire_self {reply : ApReply}
    (state : ∀ value ∈ reply.state, env.encodeOctets value = .ok value)
    (sendKey : ∀ value ∈ reply.msMppeSendKey, env.encodeOctets value = .ok value)
    (recvKey : ∀ value ∈ reply.msMppeRecvKey, env.encodeOctets value = .ok value)
    (eapMessage : ∀ value ∈ reply.eapMessage, env.encodeOctets value = .ok value)
    (packed : env.replyPacket reply = .ok ()) : env.wire reply = .ok reply := by
  rw [Env.wire, Except.option_mapM_self state, Except.ok_bind, Except.option_mapM_self sendKey,
    Except.ok_bind, Except.option_mapM_self recvKey, Except.ok_bind,
    Except.mapM_self eapMessage, Except.ok_bind]
  show (env.replyPacket reply >>= fun _ => pure reply) = _
  rw [packed, Except.ok_bind]
  rfl

/-- The EAP-Message attributes that go out are those of the reply, where they are encoded as they
are. -/
theorem Env.eapMessage_of_wire {reply packet : ApReply} (sent : env.wire reply = .ok packet)
    (verbatim : ∀ value ∈ reply.eapMessage, Verbatim env.encodeOctets value) :
    packet.eapMessage = reply.eapMessage := by
  obtain ⟨_, _, _, eapMessage, _, _, _, encoded, rfl⟩ := Env.wire_cases sent
  exact Except.eq_of_mapM verbatim encoded

/-- The code goes out as it is. -/
theorem Env.code_of_wire {reply packet : ApReply} (sent : env.wire reply = .ok packet) :
    packet.code = reply.code := by
  obtain ⟨_, _, _, _, _, _, _, _, rfl⟩ := Env.wire_cases sent
  rfl

/-- A reply goes out as pyrad makes it, if the socket takes it. -/
theorem Env.wire_of_send {before : List BuiltReply} {built : BuiltReply} {packet : ApReply}
    (sent : env.send before built = .ok packet) :
    env.wire built.reply = .ok packet ∧ env.transmit before built = .ok () := by
  obtain ⟨wired, wires, rest⟩ := Except.ok_of_bind sent
  obtain ⟨_, transmits, returned⟩ := Except.ok_of_bind rest
  cases returned
  exact ⟨wires, transmits⟩

/-! ## What fits -/

/-- A reply that pyrad has no reason to change or to refuse. -/
structure ApReply.Sendable (reply : ApReply) : Prop where
  state : ∀ value ∈ reply.state, PlainOctets value
  msMppeSendKey : ∀ value ∈ reply.msMppeSendKey, PlainOctets value
  msMppeRecvKey : ∀ value ∈ reply.msMppeRecvKey, PlainOctets value
  eapMessage : ∀ value ∈ reply.eapMessage, PlainOctets value
  fits : reply.encodedLength ≤ maxPacketLength

instance (reply : ApReply) : Decidable reply.Sendable :=
  decidable_of_iff ((∀ value ∈ reply.state, PlainOctets value) ∧
      (∀ value ∈ reply.msMppeSendKey, PlainOctets value) ∧
      (∀ value ∈ reply.msMppeRecvKey, PlainOctets value) ∧
      (∀ value ∈ reply.eapMessage, PlainOctets value) ∧ reply.encodedLength ≤ maxPacketLength)
    ⟨fun ⟨a, b, c, d, e⟩ => ⟨a, b, c, d, e⟩, fun ⟨a, b, c, d, e⟩ => ⟨a, b, c, d, e⟩⟩

/-- pyrad sends what it has no reason to change or to refuse. -/
structure Env.Packs (env : Env) : Prop where
  octets : ∀ value, PlainOctets value → env.encodeOctets value = .ok value
  request : ∀ request : AccessRequest, request.Sendable → env.requestPacket request = .ok ()
  reply : ∀ reply : ApReply, reply.Sendable → env.replyPacket reply = .ok ()

theorem Env.Packs.client (packs : env.Packs) : env.client.Packs := ⟨packs.octets, packs.request⟩

/-- **A sendable reply goes out as it is.** -/
theorem Env.Packs.wire (packs : env.Packs) {reply : ApReply} (sendable : reply.Sendable) :
    env.wire reply = .ok reply :=
  Env.wire_self (fun value member => packs.octets value (sendable.state value member))
    (fun value member => packs.octets value (sendable.msMppeSendKey value member))
    (fun value member => packs.octets value (sendable.msMppeRecvKey value member))
    (fun value member => packs.octets value (sendable.eapMessage value member))
    (packs.reply reply sendable)

/-- The EAP packet of a reply. -/
theorem flatten_replyFor {session : Session} {state : Option Bytes} {outcome : Outcome}
    {eap : Bytes} (carries : outcome.eapBytes = some eap) (nonempty : eap ≠ []) :
    (Downstream.replyFor session state outcome).eapMessage.flatten = eap := by
  obtain ⟨byte, rest, rfl⟩ := List.exists_cons_of_ne_nil nonempty
  rw [Downstream.replyFor, carries]
  exact splitEapMessage_flatten (byte :: rest)

/-- The surroundings, with a pyrad that refuses octets that start with `0x`, and packets that do
not fit the Length field. -/
def Env.refusing (env : Env) : Env :=
  { env with
    encodeOctets := EncodesOctets.refuseHex
    requestPacket := fun request => refuseLarge request.encodedLength
    replyPacket := fun reply => refuseLarge reply.encodedLength }

theorem Env.refusing_packs (env : Env) : env.refusing.Packs where
  octets := fun _ plain => if_neg plain.2
  request := fun _ sendable => if_pos sendable.fits
  reply := fun _ sendable => if_pos sendable.fits

/-! ## Where everything goes out -/

/-- pyrad changes and refuses nothing. -/
structure Env.Lossless (env : Env) : Prop where
  octets : ∀ value, env.encodeOctets value = .ok value
  request : ∀ request, env.requestPacket request = .ok ()
  reply : ∀ reply, env.replyPacket reply = .ok ()

namespace Env.Lossless

theorem wire_request (lossless : env.Lossless) (request : AccessRequest) :
    env.client.wire request = .ok request := by
  have encoded := @UpstreamClient.encode_self env.client request
    (fun value _ => lossless.octets value) (fun value _ => lossless.octets value)
  have packed : env.client.requestPacket request = .ok () := lossless.request request
  rw [UpstreamClient.wire, encoded, Except.ok_bind, packed]
  rfl

theorem wire (lossless : env.Lossless) (reply : ApReply) : env.wire reply = .ok reply :=
  Env.wire_self (fun value _ => lossless.octets value) (fun value _ => lossless.octets value)
    (fun value _ => lossless.octets value) (fun value _ => lossless.octets value)
    (lossless.reply reply)

theorem verbatim (lossless : env.Lossless) (value : Bytes) : Verbatim env.encodeOctets value := by
  intro encoded returned
  exact Except.ok.inj (returned.symm.trans (lossless.octets value))

/-- Where the socket takes every reply, too, every reply gets out. -/
theorem sends (lossless : env.Lossless)
    (transmits : ∀ before built, env.transmit before built = .ok ()) : Downstream.Sends env := by
  intro before built
  refine ⟨built.reply, ?_⟩
  rw [Env.send, lossless.wire, Except.ok_bind, transmits]
  rfl

end Env.Lossless
end EapAccel
