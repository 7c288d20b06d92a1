import EapAccel.Peers.Equivalence

/-!
# What reassembling saves

In passthrough mode every fragment of the supplicant is a request to the server. In reassemble mode
a message goes in chunks of the configured size. The server's fragments take the same requests in
either mode. So a conversation saves, message by message, the fragments that its chunks make up for
(`reassembling_saves`).
-/

set_option autoImplicit false

namespace EapAccel

open Foundations EapTls Mediator Downstream

variable {peers : Peers} {env env' : Env}

/-- Chunks that are no smaller than the fragments are no more. -/
theorem chunkCount_le {size : ℕ} {packets : List EapTlsPacket} (some : packets ≠ [])
    (small : ∀ packet ∈ packets, packet.tlsData.length ≤ size) :
    chunkCount size (joined packets).length ≤ packets.length := by
  have total : (joined packets).length ≤ packets.length * size := by
    clear some
    induction packets with
    | nil => exact Nat.zero_le _
    | cons packet packets ih =>
        have here := small packet List.mem_cons_self
        have later := ih fun other member => small other (List.mem_cons_of_mem _ member)
        rw [joined_cons, List.length_append, List.length_cons, Nat.succ_mul]
        omega
  have positive := List.length_pos_iff.mpr some
  apply max_le positive
  rcases Nat.eq_zero_or_pos size with rfl | room
  · rw [Nat.div_zero]
    exact Nat.zero_le _
  · apply Nat.le_of_lt_succ
    rw [Nat.div_lt_iff_lt_mul room, Nat.succ_mul]
    omega

namespace Peers

/-- The fragments of the first messages that chunks of this size make up for. -/
def saved (peers : Peers) (size : ℕ) : ℕ → ℕ
  | 0 => 0
  | k + 1 => saved peers size k + (peers.fragmentsUp (peers.rounds k).records -
      chunkCount size (peers.supplicant (peers.rounds k).records).length)

/-- The supplicant's fragments fit the chunks. -/
def FitsChunks (peers : Peers) (size : ℕ) : Prop :=
  ∀ heard, ∀ packet ∈ peers.wrapUp heard, packet.tlsData.length ≤ size

theorem fragmentsUp_pos (proper : peers.Proper) (heard : List Bytes) :
    0 < peers.fragmentsUp heard := by
  by_cases silent : peers.supplicant heard = []
  · rw [fragmentsUp, if_pos silent]
    exact Nat.one_pos
  · rw [fragmentsUp, if_neg silent]
    exact List.length_pos_iff.mpr (proper.up heard silent).ne_nil

theorem chunkCount_le_fragmentsUp (proper : peers.Proper) {size : ℕ} (fits : peers.FitsChunks size)
    (heard : List Bytes) :
    chunkCount size (peers.supplicant heard).length ≤ peers.fragmentsUp heard := by
  by_cases silent : peers.supplicant heard = []
  · rw [fragmentsUp, if_pos silent, silent, List.length_nil, chunkCount_zero]
  · have wraps := proper.up heard silent
    rw [fragmentsUp, if_neg silent, ← wraps.whole]
    exact chunkCount_le wraps.ne_nil (fits heard)

theorem charge_passing (proper : peers.Proper) (k : ℕ) :
    peers.charge peers.passingTariff k = peers.fragmentsUp (peers.rounds k).records +
      (peers.answers (peers.rounds (k + 1)).messages).1.rest.length := by
  have positive := fragmentsUp_pos proper (peers.rounds k).records
  show (peers.fragmentsUp (peers.rounds k).records - 1) * 1 + 1 + _ = _
  rw [Nat.mul_one, Nat.sub_add_cancel positive]
  rfl

theorem charge_cutting (cfg : Config) {k : ℕ} (open_ : (peers.rounds k).verdict = none) :
    peers.charge (peers.cuttingTariff cfg) k =
      chunkCount cfg.upstream.fragmentSize (peers.supplicant (peers.rounds k).records).length +
        (peers.answers (peers.rounds (k + 1)).messages).1.rest.length := by
  have messages := messages_succ open_
  show (peers.fragmentsUp (peers.rounds k).records - 1) * 0 +
    (chunkCount _ ((peers.rounds (k + 1)).messages.getLastD []).length + _) + 0 = _
  rw [Nat.mul_zero, Nat.zero_add, Nat.add_zero, messages, List.getLastD_concat]

/-- **The bills of the two modes**, while there is no verdict. -/
theorem bill_passing (proper : peers.Proper) (cfg : Config)
    (fits : peers.FitsChunks cfg.upstream.fragmentSize) {k : ℕ}
    (open_ : ∀ j < k, (peers.rounds j).verdict = none) :
    peers.bill peers.passingTariff k =
      peers.bill (peers.cuttingTariff cfg) k + peers.saved cfg.upstream.fragmentSize k := by
  induction k with
  | zero => rfl
  | succ k ih =>
      have before := ih fun j early => open_ j (Nat.lt_succ_of_lt early)
      have enough := chunkCount_le_fragmentsUp proper fits (peers.rounds k).records
      rw [bill, bill, saved, before, charge_passing proper,
        charge_cutting cfg (open_ k (Nat.lt_succ_self k))]
      omega

end Peers

/-- Conversations come to an end by either proxy, and then the first has taken so many requests to
the server less. -/
structure Saves (peers : Peers) (env env' : Env) (requests : ℕ) : Prop where
  finishes : ∃ n caller σ, Conversation peers env n caller σ ∧ caller.next = none
  finishes' : ∃ n caller σ, Conversation peers env' n caller σ ∧ caller.next = none
  difference : ∀ {n n' : ℕ} {caller caller' : Caller} {σ σ' : Server},
    Conversation peers env n caller σ → Conversation peers env' n' caller' σ' →
      caller.next = none → caller'.next = none →
        σ'.exchanges.length = σ.exchanges.length + requests

theorem Concludes.finished {tariff : Tariff} {k : ℕ} (concludes : Concludes peers env tariff k) :
    ∃ n caller σ, Conversation peers env n caller σ ∧ caller.next = none := by
  obtain ⟨n, caller, σ, _, conversation, finished⟩ := concludes.finishes .start
  exact ⟨n, caller, σ, conversation, finished⟩

/-- **What reassembling saves**: of the fragments of each message all but the chunks that the
message is sent in. -/
theorem reassembling_saves (proper : peers.Proper) (valid : env.cfg.validate = .ok ())
    (reassembling : env.cfg.mode = "reassemble")
    (passing : env'.cfg.mode = "passthrough") (serve : peers.Serve env.respond)
    (serve' : peers.Serve env'.respond) (genuine : Genuine env) (genuine' : Genuine env')
    (carried : peers.Carried env) (carried' : peers.Carried env')
    (within : peers.Within env.cfg.maxMessageLen)
    (fits : peers.FitsChunks env.cfg.upstream.fragmentSize) {k : ℕ} {verdict : Verdict}
    (open_ : (peers.rounds k).verdict = none)
    (ended : (peers.rounds (k + 1)).verdict = some verdict) :
    Saves peers env env' (peers.saved env.cfg.upstream.fragmentSize (k + 1)) := by
  have mode : env.cfg.sessionMode = .reassemble := by
    rw [Config.sessionMode, reassembling]
    rfl
  have mode' : env'.cfg.sessionMode = .passthrough := by
    rw [Config.sessionMode, passing]
    rfl
  have behind := @Peers.behind_of_lossless peers env.faultless serve env.faultless_lossless
  have behind' := @Peers.behind_of_lossless peers env'.faultless serve' env'.faultless_lossless
  have faithful := @cutting_faithful peers env.faultless proper behind valid mode
  have faithful' := @passing_faithful peers env'.faultless proper behind' mode'
    env.cfg.maxMessageLen
  have concludes := (concludes_of_faithful faithful proper within genuine.faultless open_
    ended).of_faultless carried
  have concludes' := (concludes_of_faithful faithful' proper within genuine'.faultless open_
    ended).of_faultless carried'
  constructor
  · exact concludes.finished
  · exact concludes'.finished
  · intro n n' caller caller' σ σ' conversation conversation' finished finished'
    have cost := concludes.cost conversation finished
    have cost' := concludes'.cost conversation' finished'
    have before : ∀ j < k + 1, (peers.rounds j).verdict = none := by
      intro j early
      by_contra late
      rw [(Peers.rounds_before (Nat.le_of_lt_succ early)).verdict late] at open_
      exact late open_
    rw [cost, cost']
    exact Peers.bill_passing proper env.cfg fits before

/-- Of the two fragments of the first message one is saved. -/
theorem reassembling_saves_hello :
    Saves helloPeers (helloPeers.around (Config.sample "reassemble"))
      (helloPeers.around (Config.sample "passthrough")) 1 := by
  have fits : helloPeers.FitsChunks 60000 := by
    intro heard
    have small : ∀ packet ∈ inTwoFragments codeResponse [1, 2, 3], packet.tlsData.length ≤ 60000 := by
      decide
    exact small
  exact @reassembling_saves helloPeers (helloPeers.around (Config.sample "reassemble"))
    (helloPeers.around (Config.sample "passthrough")) helloPeers_proper (by decide) rfl rfl
    (helloPeers.around_serve _) (helloPeers.around_serve _) (helloPeers.around_genuine _)
    (helloPeers.around_genuine _) (helloPeers.around_carried _) (helloPeers.around_carried _)
    helloPeers_within fits 1 _ rfl rfl

end EapAccel
