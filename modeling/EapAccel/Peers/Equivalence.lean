import EapAccel.Peers.Carriage
import EapAccel.Peers.Cutting

/-!
# The two modes agree

Both modes are faithful, so a conversation through either goes through the rounds of the peers.
It comes to the verdict that the peers come to, within a number of packets that the peers alone
determine (`conversations_conclude`). What is said in one mode is said in the other (`modes_agree`),
and so it is whatever else the proxies differ in (`proxies_agree`).
-/

set_option autoImplicit false

namespace EapAccel

open Foundations EapTls Mediator Downstream

variable {peers : Peers} {env env' : Env}

/-- What the packets of the supplicant cost in the mode of the configuration. -/
def Peers.tariff (peers : Peers) (cfg : Config) : Tariff :=
  match cfg.sessionMode with
  | .reassemble => peers.cuttingTariff cfg
  | .passthrough => peers.passingTariff

/-- A proxy with an accepted configuration is faithful, whatever its mode. -/
theorem faithful_of_validate (proper : peers.Proper) (behind : peers.Behind env.client)
    (valid : env.cfg.validate = .ok ()) :
    ∃ holds, Faithful peers env env.cfg.maxMessageLen holds (peers.tariff env.cfg) := by
  rw [Peers.tariff]
  cases mode : env.cfg.sessionMode with
  | reassemble => exact ⟨_, cutting_faithful proper behind valid mode⟩
  | passthrough => exact ⟨_, passing_faithful proper behind mode _⟩

/-- The peers suit a proxy with this configuration: if it reassembles, the configuration is
accepted, and no record is longer than `max_message_len`. -/
def Peers.Suit (peers : Peers) (cfg : Config) : Prop :=
  cfg.sessionMode = .reassemble → cfg.validate = .ok () ∧ peers.Within cfg.maxMessageLen

/-- A proxy that the peers suit is faithful where nothing is changed or refused, within a limit that
they keep. -/
theorem faithful_of_suit (proper : peers.Proper) (serve : peers.Serve env.respond)
    (suit : peers.Suit env.cfg) :
    ∃ limit holds, peers.Within limit ∧
      Faithful peers env.faultless limit holds (peers.tariff env.cfg) := by
  have behind := @Peers.behind_of_lossless peers env.faultless serve env.faultless_lossless
  rw [Peers.tariff]
  cases mode : env.cfg.sessionMode with
  | reassemble =>
      obtain ⟨valid, within⟩ := suit mode
      exact ⟨_, _, within, @cutting_faithful peers env.faultless proper behind valid mode⟩
  | passthrough =>
      exact ⟨_, _, proper.within, @passing_faithful peers env.faultless proper behind mode _⟩

/-! ## To the end -/

/-- The AP forwards any packet. -/
theorem forwards_requestWith (eapBytes : Bytes) (σ : Server) :
    Forwards eapBytes (datagramOf (requestWith (lastState σ) eapBytes))
      (requestWith (lastState σ) eapBytes) σ := by
  constructor
  · rfl
  · exact ⟨rfl, List.cons_ne_nil _ _, rfl⟩
  · exact List.append_nil eapBytes
  · rfl
  · have name : ∀ name ∈ some "alice", name.utf8ByteSize ≤ maxValueLength := by decide
    constructor
    · exact name
    · simp [requestWith]
    · simp [requestWith]
    · intro attr member
      cases member
  · rfl

/-- While a conversation goes on, it is shorter than the rounds to the verdict. -/
theorem OnTheWay.brief {holds : Holding} {tariff : Tariff} {n : ℕ} {caller : Caller} {σ : Server}
    (onTheWay : OnTheWay peers env holds tariff n caller σ) (next : caller.next ≠ none) {k : ℕ}
    (ended : (peers.rounds k).verdict ≠ none) : n < peers.due k := by
  cases onTheWay with
  | start => exact peers.due_pos k
  | @within _ j left _ _ regular named listed stage bound =>
      have open_ : (peers.rounds j).verdict = none := by
        cases stage with
        | up open_ => exact open_
        | down open_ => exact open_
        | done => exact absurd rfl next
      have early : j < k := by
        by_contra late
        rw [(Peers.rounds_before (Nat.le_of_not_lt late)).verdict ended] at open_
        exact ended open_
      have some := (stage.running open_).1
      have due := @Peers.due_mono peers (j + 1) k early
      omega

/-- How the conversations of peers go that come to a verdict in so many rounds. -/
structure Concludes (peers : Peers) (env : Env) (tariff : Tariff) (k : ℕ) : Prop where
  goesOn : GoesOn peers env
  brief : ∀ {n : ℕ} {caller : Caller} {σ : Server}, Conversation peers env n caller σ →
    n ≤ peers.due k
  /-- Every conversation can be brought to its end. -/
  finishes : ∀ {n : ℕ} {caller : Caller} {σ : Server}, Conversation peers env n caller σ →
    ∃ n' caller' σ', n ≤ n' ∧ Conversation peers env n' caller' σ' ∧ caller'.next = none
  /-- At the end all has been said. -/
  said : ∀ {n : ℕ} {caller : Caller} {σ : Server}, Conversation peers env n caller σ →
    caller.next = none → peers.soFar caller σ = peers.rounds k
  /-- At the end this has been the number of requests to the server. -/
  cost : ∀ {n : ℕ} {caller : Caller} {σ : Server}, Conversation peers env n caller σ →
    caller.next = none → σ.exchanges.length = peers.bill tariff k

theorem concludes_of_faithful {holds : Holding} {tariff : Tariff} {limit : ℕ}
    (faithful : Faithful peers env limit holds tariff) (proper : peers.Proper)
    (within : peers.Within limit) (genuine : Genuine env) {k : ℕ} {verdict : Verdict}
    (open_ : (peers.rounds k).verdict = none)
    (ended : (peers.rounds (k + 1)).verdict = some verdict) :
    Concludes peers env tariff (k + 1) := by
  have some : (peers.rounds (k + 1)).verdict ≠ none := by rw [ended]; exact Option.some_ne_none _
  have way : ∀ {n : ℕ} {caller : Caller} {σ : Server}, Conversation peers env n caller σ →
      OnTheWay peers env holds tariff n caller σ :=
    fun conversation => conversation.onTheWay faithful proper within genuine
  have goesOn := goesOn_of_faithful faithful proper within genuine
  constructor
  · exact goesOn
  · intro n caller σ conversation
    cases conversation with
    | start => exact Nat.zero_le _
    | step before next _ _ _ =>
        apply (way before).brief _ some
        rw [next]
        exact Option.some_ne_none _
  · intro n caller σ conversation
    -- The packets that are left are fewer and fewer.
    obtain ⟨left, leaves⟩ : ∃ left, peers.due (k + 1) - n = left := ⟨_, rfl⟩
    induction left using Nat.strong_induction_on generalizing n caller σ with
    | _ left ih =>
        cases next : caller.next with
        | none => exact ⟨n, caller, σ, le_rfl, conversation, next⟩
        | some eapBytes =>
            have goes : caller.next ≠ none := by rw [next]; exact Option.some_ne_none _
            have short := (way conversation).brief goes some
            have forwards := forwards_requestWith eapBytes σ
            obtain ⟨sent, σ', served, replied⟩ := goesOn.answered conversation next forwards
            have longer := Conversation.step conversation next forwards served replied
            obtain ⟨n', caller', σ', later, conversation', none⟩ := ih _ (by omega) longer rfl
            exact ⟨n', caller', σ', Nat.le_of_succ_le later, conversation', none⟩
  · intro n caller σ conversation none
    exact ((way conversation).reaches faithful (.inr none)).verdict some
  · intro n caller σ conversation none
    exact (way conversation).cost none open_ some

theorem Concludes.of_faultless {tariff : Tariff} {k : ℕ}
    (concludes : Concludes peers env.faultless tariff k) (carried : peers.Carried env) :
    Concludes peers env tariff k := by
  have same := conversation_iff concludes.goesOn carried
  constructor
  · exact concludes.goesOn.of_faultless carried
  · rw [same]
    exact concludes.brief
  · rw [same]
    exact concludes.finishes
  · rw [same]
    exact concludes.said
  · rw [same]
    exact concludes.cost

/-- **Every conversation comes to the verdict of the peers**, in either mode. -/
theorem conversations_conclude (proper : peers.Proper) (valid : env.cfg.validate = .ok ())
    (serve : peers.Serve env.respond) (genuine : Genuine env) (carried : peers.Carried env)
    (within : peers.Within env.cfg.maxMessageLen) {k : ℕ} {verdict : Verdict}
    (open_ : (peers.rounds k).verdict = none)
    (ended : (peers.rounds (k + 1)).verdict = some verdict) :
    Concludes peers env (peers.tariff env.cfg) (k + 1) := by
  have behind := @Peers.behind_of_lossless peers env.faultless serve env.faultless_lossless
  obtain ⟨holds, faithful⟩ := @faithful_of_validate peers env.faultless proper behind valid
  have concludes := concludes_of_faithful faithful proper within genuine.faultless open_ ended
  exact concludes.of_faultless carried

/-! ## Two modes -/

/-- Whatever is said in a conversation by one proxy, is said in those by the other that are long
enough, or at their end. -/
def Retells (peers : Peers) (env env' : Env) : Prop :=
  ∀ {n : ℕ} {caller : Caller} {σ : Server}, Conversation peers env n caller σ →
    ∃ m, ∀ {n' : ℕ} {caller' : Caller} {σ' : Server}, Conversation peers env' n' caller' σ' →
      m ≤ n' ∨ caller'.next = none → (peers.soFar caller σ).Before (peers.soFar caller' σ')

theorem retells_of_faithful {holds holds' : Holding} {tariff tariff' : Tariff} {limit limit' : ℕ}
    (faithful : Faithful peers env limit holds tariff)
    (faithful' : Faithful peers env' limit' holds' tariff')
    (proper : peers.Proper) (within : peers.Within limit) (within' : peers.Within limit')
    (genuine : Genuine env) (genuine' : Genuine env') : Retells peers env env' := by
  intro n caller σ conversation
  obtain ⟨k, here⟩ := (conversation.onTheWay faithful proper within genuine).before faithful
  refine ⟨peers.due k, ?_⟩
  intro n' caller' σ' conversation' late
  have there := (conversation'.onTheWay faithful' proper within' genuine').reaches faithful' late
  exact here.trans there

/-- Two proxies between the same peers: neither breaks off a conversation, what is said through the
one is said through the other, and at the end it is the same messages, records and verdict. -/
structure Agree (peers : Peers) (env env' : Env) : Prop where
  goesOn : GoesOn peers env
  goesOn' : GoesOn peers env'
  retells : Retells peers env env'
  retells' : Retells peers env' env
  same : ∀ {n n' : ℕ} {caller caller' : Caller} {σ σ' : Server}, Conversation peers env n caller σ →
    Conversation peers env' n' caller' σ' → caller.next = none → caller'.next = none →
      peers.soFar caller σ = peers.soFar caller' σ'

theorem agree_of_faithful {holds holds' : Holding} {tariff tariff' : Tariff} {limit limit' : ℕ}
    (faithful : Faithful peers env limit holds tariff)
    (faithful' : Faithful peers env' limit' holds' tariff')
    (proper : peers.Proper) (within : peers.Within limit) (within' : peers.Within limit')
    (genuine : Genuine env) (genuine' : Genuine env') : Agree peers env env' := by
  have goesOn := goesOn_of_faithful faithful proper within genuine
  have retells : Retells peers env env' :=
    retells_of_faithful faithful faithful' proper within within' genuine genuine'
  constructor
  · exact goesOn
  · exact goesOn_of_faithful faithful' proper within' genuine'
  · exact retells
  · exact retells_of_faithful faithful' faithful proper within' within genuine' genuine
  · intro n n' caller caller' σ σ' conversation conversation' ends ends'
    obtain ⟨m, before⟩ := retells conversation
    exact ((before conversation' (.inr ends')).verdict (goesOn.result conversation ends)).symm

theorem Agree.of_faultless (agree : Agree peers env.faultless env'.faultless)
    (carried : peers.Carried env) (carried' : peers.Carried env') : Agree peers env env' := by
  have same := conversation_iff agree.goesOn carried
  have same' := conversation_iff agree.goesOn' carried'
  constructor
  · exact agree.goesOn.of_faultless carried
  · exact agree.goesOn'.of_faultless carried'
  · rw [Retells, same, same']
    exact agree.retells
  · rw [Retells, same, same']
    exact agree.retells'
  · rw [same, same']
    exact agree.same

/-- **The two modes agree.** -/
theorem modes_agree (proper : peers.Proper) (valid : env.cfg.validate = .ok ())
    (reassembling : env.cfg.mode = "reassemble")
    (passing : env'.cfg.mode = "passthrough") (serve : peers.Serve env.respond)
    (serve' : peers.Serve env'.respond) (genuine : Genuine env) (genuine' : Genuine env')
    (carried : peers.Carried env) (carried' : peers.Carried env')
    (within : peers.Within env.cfg.maxMessageLen) : Agree peers env env' := by
  have mode : env.cfg.sessionMode = .reassemble := by
    rw [Config.sessionMode, reassembling]
    rfl
  have mode' : env'.cfg.sessionMode = .passthrough := by
    rw [Config.sessionMode, passing]
    rfl
  have behind := @Peers.behind_of_lossless peers env.faultless serve env.faultless_lossless
  have behind' := @Peers.behind_of_lossless peers env'.faultless serve' env'.faultless_lossless
  have faithful := @cutting_faithful peers env.faultless proper behind valid mode
  have faithful' := @passing_faithful peers env'.faultless proper behind' mode'
    env.cfg.maxMessageLen
  have agree := agree_of_faithful faithful faithful' proper within within genuine.faultless
    genuine'.faultless
  exact agree.of_faultless carried carried'

/-- **What the peers say does not depend on the proxy between them**: not on its mode, nor on the
sizes that it cuts records to, nor on what else is configured. -/
theorem proxies_agree (proper : peers.Proper) (suit : peers.Suit env.cfg)
    (suit' : peers.Suit env'.cfg) (serve : peers.Serve env.respond)
    (serve' : peers.Serve env'.respond) (genuine : Genuine env) (genuine' : Genuine env')
    (carried : peers.Carried env) (carried' : peers.Carried env') : Agree peers env env' := by
  obtain ⟨limit, holds, within, faithful⟩ := faithful_of_suit proper serve suit
  obtain ⟨limit', holds', within', faithful'⟩ := faithful_of_suit proper serve' suit'
  have agree := agree_of_faithful faithful faithful' proper within within' genuine.faultless
    genuine'.faultless
  exact agree.of_faultless carried carried'

/-! ## Peers that agree -/

/-- A reply with this in it. -/
def replyWith : Sending → RadiusReply
  | .packet packet =>
      { code := accessChallenge, state := none, eapMessage := splitEapMessage (layout packet) }
  | .verdict verdict => { code := verdict.code, state := none, eapMessage := [] }

theorem replyWith_has (sending : Sending) : (replyWith sending).Has sending := by
  cases sending with
  | packet packet => exact ⟨rfl, splitEapMessage_flatten (layout packet)⟩
  | verdict verdict => rfl

/-- Surroundings with the server of the peers. -/
def Peers.around (peers : Peers) (cfg : Config) : Env where
  cfg := cfg
  respond := fun before request =>
    .ok (replyWith (peers.replies request.eap (peers.callee before)).2)
  token := fun n => [UInt8.ofNat n]

theorem Peers.around_serve (peers : Peers) (cfg : Config) :
    peers.Serve (peers.around cfg).respond :=
  fun _ _ => ⟨_, rfl, replyWith_has _⟩

theorem Peers.around_carried (peers : Peers) (cfg : Config) : peers.Carried (peers.around cfg) :=
  Peers.carried_of_lossless ⟨fun _ => rfl, fun _ => rfl, fun _ => rfl⟩ fun _ _ => rfl

theorem Peers.around_genuine (peers : Peers) (cfg : Config) : Genuine (peers.around cfg) := by
  constructor <;> simp [Peers.around]

/-- A record in two fragments. -/
def inTwoFragments (code : UInt8) (tlsRecord : Bytes) : List EapTlsPacket :=
  [described code 7 (tlsRecord.take 1) true (some tlsRecord.length) false,
    described code 8 (tlsRecord.drop 1) false none false]

theorem wraps_inTwoFragments (code : UInt8) {first second : UInt8} {rest : Bytes}
    (short : rest.length < 100) :
    Wraps code (first :: second :: rest) (inTwoFragments code (first :: second :: rest)) := by
  constructor
  · refine ⟨[_], _, rfl, ?_, List.cons_ne_nil _ _⟩
    constructor
    · simp [joined, described]
    · simp [described]
    · rfl
    · rfl
    · intro packet member n declares
      simp only [List.cons_append, List.nil_append, List.mem_cons, List.not_mem_nil, or_false]
        at member
      rcases member with rfl | rfl
      · exact (Option.some.inj declares).symm
      · cases declares
  · intro packet member
    simp only [inTwoFragments, List.mem_cons, List.not_mem_nil, or_false] at member
    rcases member with rfl | rfl
    · refine ⟨rfl, Fits.of_length ?_ ?_⟩
      · intro n declared
        cases declared
        simp only [List.length_cons]
        omega
      · simp [described]
    · refine ⟨rfl, Fits.of_length ?_ ?_⟩
      · intro n declared
        cases declared
      · simp [described]
        omega
  · simp [inTwoFragments, described]
  · simp [inTwoFragments, described]
  · intro _
    exact ⟨_, List.mem_cons_self, Option.some_ne_none _⟩

/-- The supplicant has one message, in two fragments, and so has the server a record. Then the
server accepts. -/
def helloPeers : Peers where
  supplicant := fun heard => if heard = [] then [1, 2, 3] else []
  server := fun heard => if heard.length = 1 then .record [4, 5, 6, 7] else .verdict .accept
  identity := [codeResponse, 7, 0, 6, 1, 97]
  startId := 1
  wrapUp := fun _ => inTwoFragments codeResponse [1, 2, 3]
  wrapDown := fun _ => inTwoFragments codeRequest [4, 5, 6, 7]

theorem helloPeers_proper : helloPeers.Proper := by
  constructor
  · decide
  · intro heard speaks
    have first : helloPeers.supplicant heard = [1, 2, 3] := by
      by_cases begins : heard = []
      · exact if_pos begins
      · exact absurd (if_neg begins) speaks
    rw [first]
    exact wraps_inTwoFragments codeResponse (by decide)
  · intro heard tlsRecord answer
    have told : [4, 5, 6, 7] = tlsRecord := by
      by_cases once : heard.length = 1
      · exact Saying.record.inj ((if_pos once).symm.trans answer)
      · cases (if_neg once).symm.trans answer
    rw [← told]
    exact ⟨List.cons_ne_nil _ _, wraps_inTwoFragments codeRequest (by decide)⟩

theorem helloPeers_rounds (k : ℕ) : (helloPeers.rounds k).Before (helloPeers.rounds 2) := by
  rcases Nat.le_total k 2 with early | late
  · exact Peers.rounds_before early
  · rw [(Peers.rounds_before late).verdict (by decide)]
    exact .refl _

theorem helloPeers_within : helloPeers.Within 262144 := by
  constructor
  · intro k message member
    have small : ∀ message ∈ (helloPeers.rounds 2).messages, message.length ≤ 262144 := by decide
    exact small message ((helloPeers_rounds k).messages.subset member)
  · intro k tlsRecord member
    have small : ∀ tlsRecord ∈ (helloPeers.rounds 2).records, tlsRecord.length ≤ 262144 := by decide
    exact small tlsRecord ((helloPeers_rounds k).records.subset member)

/-- The two peers come to their verdict in the second round. -/
theorem conversations_conclude_hello :
    Concludes helloPeers (helloPeers.around (Config.sample "reassemble"))
      (helloPeers.tariff (Config.sample "reassemble")) 2 :=
  conversations_conclude helloPeers_proper (by decide)
    (helloPeers.around_serve (Config.sample "reassemble")) (helloPeers.around_genuine _)
    (helloPeers.around_carried _) helloPeers_within rfl rfl

/-- What they say to each other, they say in either mode. -/
theorem modes_agree_hello :
    Agree helloPeers (helloPeers.around (Config.sample "reassemble"))
      (helloPeers.around (Config.sample "passthrough")) :=
  modes_agree helloPeers_proper (by decide) rfl rfl (helloPeers.around_serve _)
    (helloPeers.around_serve _) (helloPeers.around_genuine _) (helloPeers.around_genuine _)
    (helloPeers.around_carried _) (helloPeers.around_carried _) helloPeers_within

/-- A proxy that cuts records to two octets toward the server, and to three toward the AP. -/
def smallPieces : Config :=
  { Config.sample "reassemble" with
    upstream := { fragmentSize := 2 }
    downstream := { fragmentSize := 3 } }

/-- They say the same whatever sizes the proxy cuts their records to. -/
theorem proxies_agree_hello :
    Agree helloPeers (helloPeers.around (Config.sample "reassemble"))
      (helloPeers.around smallPieces) :=
  proxies_agree helloPeers_proper (fun _ => ⟨by decide, helloPeers_within⟩)
    (fun _ => ⟨by decide, helloPeers_within⟩) (helloPeers.around_serve _)
    (helloPeers.around_serve _) (helloPeers.around_genuine _) (helloPeers.around_genuine _)
    (helloPeers.around_carried _) (helloPeers.around_carried _)

end EapAccel
