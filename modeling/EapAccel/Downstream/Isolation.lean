import EapAccel.Downstream.Origins
import EapAccel.Downstream.Placement

/-!
# Authentications do not interfere

The datagrams of any number of authentications come in any order. `interleave` runs the
server on them and keeps, for every authentication, the turns of its own datagrams: what
was said to the upstream server, what the AP was answered, and the State tokens drawn. Where
the tokens are fresh, the authentications start with different keys and carry their own
States, and the upstream server answers each conversation by its own requests, every
authentication has the turns that it has alone (`interleaving_is_alone`).
-/

set_option autoImplicit false

namespace EapAccel

open Foundations EapTls

/-! ## Runs with many authentications -/

/-- A server, and the turns that the datagrams of each authentication have had. -/
structure Ledger (A : Type) where
  server : Server
  turns : A → List Downstream.Turn

namespace Ledger

variable {A : Type}

/-- What has been said to the upstream server for an authentication. -/
def exchanges (ledger : Ledger A) (a : A) : List Said :=
  (ledger.turns a).flatMap Downstream.Turn.exchanges

/-- The replies to its AP requests. -/
def replies (ledger : Ledger A) (a : A) : List (ApRequest × ApReply) :=
  (ledger.turns a).flatMap Downstream.Turn.replies

/-- The State tokens drawn for it. -/
def tokens (ledger : Ledger A) (a : A) : List Bytes :=
  (ledger.turns a).flatMap Downstream.Turn.tokens

end Ledger

namespace Downstream

open Mediator

variable {A : Type} {env : Env} {fuel : ℕ}

section Runs

variable [DecidableEq A]

/-- The turn of an authentication that ends in `server`, entered into the ledger. -/
def enter (env : Env) (ledger : Ledger A) (a : A) (server : Server) : Ledger A where
  server := server
  turns := Function.update ledger.turns a (ledger.turns a ++ [turnOf env ledger.server server])

/-- One datagram of an authentication. -/
def turn (env : Env) (fuel : ℕ) (labelled : A × Datagram) (ledger : Ledger A) :
    Option (Ledger A) :=
  (serve env fuel labelled.2 ledger.server).map (enter env ledger labelled.1)

/-- The datagrams of many authentications, in the order in which they come. -/
def interleave (env : Env) (fuel : ℕ) : List (A × Datagram) → Ledger A → Option (Ledger A) :=
  runAll (turn env fuel)

/-- Before the first datagram. -/
def opening (env : Env) : Ledger A := ⟨initial env, fun _ => []⟩

/-- Keeping the ledger does not change a run. -/
theorem interleave_run (labelled : List (A × Datagram)) : ∀ ledger : Ledger A,
    (interleave env fuel labelled ledger).map Ledger.server =
      run env fuel (labelled.map Prod.snd) ledger.server := by
  induction labelled with
  | nil => exact fun ledger => rfl
  | cons one labelled ih =>
      intro ledger
      rw [interleave, runAll, turn, List.map_cons, run, runAll]
      cases served : serve env fuel one.2 ledger.server with
      | none => rfl
      | some σ => exact ih _

end Runs

/-! ## The assumptions -/

/-- The key under which the session of a request without a State stands at first. -/
def syntheticKey (datagram : Datagram) : Option String :=
  match datagram.decoded with
  | .ok request =>
      if request.state = none then some (sessionKey request datagram.addr request.eap) else none
  | .error _ => none

/-- The tokens minted so far are fresh. -/
def FreshTokens (env : Env) (σ : Server) : Prop :=
  ∀ i < σ.minted, ∀ j < σ.minted, env.token i = env.token j → i = j

/-- Different authentications start with different synthetic keys. -/
def StartApart (labelled : List (A × Datagram)) : Prop :=
  ∀ one ∈ labelled, ∀ other ∈ labelled, syntheticKey one.2 ≠ none →
    syntheticKey one.2 = syntheticKey other.2 → one.1 = other.1

/-- A State in a datagram is one that the proxy sent to the same authentication. -/
def CarriesOwn (one : A × Datagram) (ledger : Ledger A) : Prop :=
  ∀ request state, one.2.decoded = .ok request → request.state = some state →
    ∃ answered ∈ ledger.replies one.1, answered.2.state = some state

instance (one : A × Datagram) (ledger : Ledger A) : Decidable (CarriesOwn one ledger) :=
  decidable_of_iff (∀ request ∈ one.2.decoded.toOption, ∀ state ∈ request.state,
      ∃ answered ∈ ledger.replies one.1, answered.2.state = some state)
    ⟨fun carries request state decoded => carries request (Except.mem_toOption.mpr decoded) state,
      fun carries request decoded state => carries request state (Except.mem_toOption.mp decoded)⟩

/-- Whether a reply can be sent depends on the reply and its request, and whether a session
can be reported on its summary, but for its times. -/
structure Evenhanded (env : Env) : Prop where
  transmit : ∀ before before' sent sent', BuiltReply.content sent' = BuiltReply.content sent →
    env.transmit before' sent' = env.transmit before sent
  report : ∀ before before' ref ref', ∀ session session' : Session,
    session'.timeless = session.timeless →
      env.report before' (ref', session'.summary) = env.report before (ref, session.summary)

/-- The surroundings of an authentication alone: the upstream server answers its requests,
and the tokens are the ones that were drawn for it. -/
def aloneEnv (env : Env) (answer : List AccessRequest → AccessRequest → Except Raised RadiusReply)
    (tokens : List Bytes) : Env :=
  { env with
    respond := fun before request => answer (before.map Exchange.request) request
    token := fun n => tokens.getD n [] }

theorem alone_aloneEnv (evenhanded : Evenhanded env)
    (answer : List AccessRequest → AccessRequest → Except Raised RadiusReply)
    (tokens : List Bytes) :
    Env.Alone (env.client.through answer) env (aloneEnv env answer tokens) := by
  refine ⟨rfl, rfl, rfl, fun _ _ => rfl, ?_, evenhanded.report⟩
  intro before before' sent sent' answers reply
  exact evenhanded.transmit before before' sent sent' (Prod.ext answers reply)

/-! ## Keys of different authentications differ -/

theorem hexDigit_injective : ∀ m < 16, ∀ n < 16, hexDigit m = hexDigit n → m = n := by
  decide

/-- `bytes.hex()` is injective. -/
theorem hex_injective : ∀ {bytes bytes' : Bytes}, hex bytes = hex bytes' → bytes = bytes' := by
  intro bytes
  have digits : ∀ byte : UInt8, byte.toNat / 16 < 16 ∧ byte.toNat % 16 < 16 := by
    intro byte
    have := byte.toNat_lt
    omega
  induction bytes with
  | nil =>
      intro bytes' same
      cases bytes' with
      | nil => rfl
      | cons byte rest => simp [hex] at same
  | cons byte rest ih =>
      intro bytes' same
      cases bytes' with
      | nil => simp [hex] at same
      | cons byte' rest' =>
          simp only [hex, String.ofList_inj, List.flatMap_cons, List.cons_append, List.nil_append,
            List.cons.injEq] at same
          obtain ⟨high, low, tail⟩ := same
          have high := hexDigit_injective _ (digits byte).1 _ (digits byte').1 high
          have low := hexDigit_injective _ (digits byte).2 _ (digits byte').2 low
          have value : byte.toNat = byte'.toNat := by omega
          rw [UInt8.toNat_inj.mp value, ih (congrArg String.ofList tail)]

theorem stateKey_injective {state state' : Bytes} (same : "st:" ++ hex state = "st:" ++ hex state') :
    state = state' :=
  hex_injective (String.append_right_inj "st:" |>.mp same)

/-- The keys of an authentication: those it starts with, and those of its tokens. -/
def OwnKeys (labelled : List (A × Datagram)) (ledger : Ledger A) (a : A) (key : String) : Prop :=
  (∃ one ∈ labelled, one.1 = a ∧ syntheticKey one.2 = some key) ∨
    ∃ token ∈ ledger.tokens a, key = "st:" ++ hex token

/-- A synthetic key starts with another letter than the key of a State. -/
theorem syntheticKey_ne {datagram : Datagram} {token : Bytes} :
    syntheticKey datagram ≠ some ("st:" ++ hex token) := by
  intro same
  unfold syntheticKey at same
  split at same
  · next request decoded =>
      by_cases stateless : request.state = none
      · rw [if_pos stateless] at same
        have letter := congrArg (fun key => key.toList.head?) (Option.some.inj same)
        unfold sessionKey at letter
        rw [stateless] at letter
        simp only at letter
        split at letter
        · simp at letter
        · simp [show toString "new:" = "new:" from rfl] at letter
      · rw [if_neg stateless] at same
        cases same
  · cases same

/-- **The keys of different authentications differ**, if they start apart and no token is
drawn for two of them. -/
theorem ownKeys_apart {labelled : List (A × Datagram)} {ledger : Ledger A}
    (apart : StartApart labelled)
    (once : ∀ a b token, token ∈ ledger.tokens a → token ∈ ledger.tokens b → a = b)
    {a b : A} {key : String} (own : OwnKeys labelled ledger a key)
    (own' : OwnKeys labelled ledger b key) : a = b := by
  rcases own with ⟨one, member, rfl, first⟩ | ⟨token, drawn, rfl⟩
  · rcases own' with ⟨other, member', rfl, first'⟩ | ⟨token, drawn, rfl⟩
    · refine apart one member other member' ?_ (first.trans first'.symm)
      rw [first]
      exact Option.some_ne_none key
    · exact absurd first syntheticKey_ne
  · rcases own' with ⟨other, member', rfl, first'⟩ | ⟨token', drawn', same⟩
    · exact absurd first' syntheticKey_ne
    · rw [← stateKey_injective same] at drawn'
      exact once a b token drawn drawn'

/-! ## A run of many, and runs alone -/

variable {answer : A → List AccessRequest → AccessRequest → Except Raised RadiusReply}
  {alone : A → Env} {keys : A → String → Prop} {final : Ledger A}

/-- Surroundings in which each authentication has keys of its own, tokens of its own and a
conversation of its own, up to a `final` ledger. -/
structure Arranged (env : Env)
    (answer : A → List AccessRequest → AccessRequest → Except Raised RadiusReply)
    (alone : A → Env) (keys : A → String → Prop) (final : Ledger A) : Prop where
  surround : ∀ a, Env.Alone (answer a) env (alone a)
  apart : ∀ a b key, keys a key → keys b key → a = b
  held : ∀ a, ∀ token ∈ final.tokens a, keys a ("st:" ++ hex token)
  token : ∀ a n token, (final.tokens a)[n]? = some token → (alone a).token n = token
  answered : ∀ a, Converses (answer a) [] (final.exchanges a)

/-- The ledger of the interleaved run so far, and the ledgers of the runs alone. -/
structure Coupled (keys : A → String → Prop) (ledger : Ledger A) (own : A → Ledger A) : Prop where
  turns : ∀ a, (own a).turns a = ledger.turns a
  tabled : ledger.server.Tabled
  ownTabled : ∀ a, (own a).server.Tabled
  projects : ∀ a, ∃ place, ledger.server.Projects (keys a) place (own a).server
  said : ∀ a, (own a).server.exchanges.map Exchange.said = ledger.exchanges a
  minted : ∀ a, (own a).server.minted = (ledger.tokens a).length
  states : ∀ a, ∀ answered ∈ ledger.replies a, ∀ state, answered.2.state = some state →
    keys a ("st:" ++ hex state)

/-- The request in a datagram looks up a key of its own authentication. -/
theorem under_own {ledger : Ledger A} {own : A → Ledger A} (coupled : Coupled keys ledger own)
    {one : A × Datagram} (starts : ∀ key, syntheticKey one.2 = some key → keys one.1 key)
    (carries : CarriesOwn one ledger) : Datagram.Under (keys one.1) one.2 := by
  intro request decoded
  rcases stated : request.state with _ | state
  · refine starts _ ?_
    rw [syntheticKey, decoded]
    exact if_pos stated
  · obtain ⟨answered, member, replied⟩ := carries request state decoded stated
    rw [sessionKey, stated]
    exact coupled.states one.1 answered member state replied

/-- Before the first datagram every server is empty. -/
theorem coupled_opening (tokens : A → List Bytes) :
    Coupled keys (opening env) fun a => opening (aloneEnv env (answer a) (tokens a)) := by
  refine ⟨fun _ => rfl, tabled_initial env, fun a => tabled_initial _, fun a => ⟨id, ?_⟩,
    fun _ => rfl, fun _ => rfl, ?_⟩
  · have nothing : ∀ ref, ¬ ref < (opening env : Ledger A).server.created := Nat.not_lt_zero
    exact ⟨fun _ _ => rfl, fun ref there => absurd there (nothing ref),
      fun ref there => absurd there (nothing ref), fun ref there => absurd there (nothing ref),
      fun ref there => absurd there (nothing ref), fun ref there => absurd there (nothing ref)⟩
  · intro a answered member
    cases member

/-! ## Tokens are drawn once -/

variable [DecidableEq A]

theorem turn_cases {one : A × Datagram} {ledger after : Ledger A}
    (turned : turn env fuel one ledger = some after) :
    serve env fuel one.2 ledger.server = some after.server ∧
      after.turns one.1 = ledger.turns one.1 ++ [turnOf env ledger.server after.server] ∧
      ∀ b, b ≠ one.1 → after.turns b = ledger.turns b := by
  obtain ⟨server, served, rfl⟩ := Option.map_eq_some_iff.mp turned
  exact ⟨served, Function.update_self .., fun b other => Function.update_of_ne other ..⟩

/-- Every token in the ledger was drawn for one authentication. -/
structure Ledger.Drawn (env : Env) (ledger : Ledger A) : Prop where
  tabled : ledger.server.Tabled
  minted : ∀ a, ∀ token ∈ ledger.tokens a, ∃ i < ledger.server.minted, env.token i = token
  once : ∀ a b token, token ∈ ledger.tokens a → token ∈ ledger.tokens b → a = b

theorem mem_drawn {σ σ' : Server} {token : Bytes} :
    token ∈ drawn env σ σ' ↔ ∃ i, σ.minted ≤ i ∧ i < σ'.minted ∧ env.token i = token := by
  rw [drawn, List.mem_map]
  refine exists_congr fun i => ?_
  rw [List.mem_range'_1, and_assoc]
  refine and_congr_right fun later => and_congr_left fun _ => ?_
  omega

theorem turn_minted {one : A × Datagram} {ledger after : Ledger A} (tabled : ledger.server.Tabled)
    (turned : turn env fuel one ledger = some after) :
    ledger.server.minted ≤ after.server.minted := by
  rcases serve_minted tabled (turn_cases turned).1 with same | next
  · exact same.ge
  · rw [next]
    exact Nat.le_succ _

/-- A token in the ledger after a turn was there before, or has just been drawn. -/
theorem turn_tokens {one : A × Datagram} {ledger after : Ledger A}
    (turned : turn env fuel one ledger = some after) {a : A} {token : Bytes}
    (member : token ∈ after.tokens a) :
    token ∈ ledger.tokens a ∨ (a = one.1 ∧ token ∈ drawn env ledger.server after.server) := by
  obtain ⟨_, own, others⟩ := turn_cases turned
  by_cases here : a = one.1
  · rw [Ledger.tokens, here, own, List.flatMap_append, List.mem_append] at member
    rcases member with old | new
    · exact .inl (here ▸ old)
    · rw [List.flatMap_singleton] at new
      exact .inr ⟨here, new⟩
  · rw [Ledger.tokens, others a here] at member
    exact .inl member

/-- A turn that draws a fresh token keeps the tokens apart. -/
theorem Ledger.Drawn.turn {one : A × Datagram} {ledger after : Ledger A}
    (drawn : Ledger.Drawn env ledger) (fresh : FreshTokens env after.server)
    (turned : Downstream.turn env fuel one ledger = some after) : Ledger.Drawn env after := by
  have grows := turn_minted drawn.tabled turned
  have new : ∀ a b token, token ∈ ledger.tokens a →
      token ∈ Downstream.drawn env ledger.server after.server → a = b := by
    intro a b token old young
    obtain ⟨i, before, rfl⟩ := drawn.minted a token old
    obtain ⟨j, later, last, same⟩ := mem_drawn.mp young
    have := fresh i (before.trans_le grows) j last same.symm
    omega
  refine ⟨serve_tabled drawn.tabled (turn_cases turned).1, ?_, ?_⟩
  · intro a token member
    rcases turn_tokens turned member with old | ⟨_, young⟩
    · obtain ⟨i, before, same⟩ := drawn.minted a token old
      exact ⟨i, before.trans_le grows, same⟩
    · obtain ⟨i, _, last, same⟩ := mem_drawn.mp young
      exact ⟨i, last, same⟩
  · intro a b token member member'
    rcases turn_tokens turned member with old | ⟨here, young⟩
    · rcases turn_tokens turned member' with old' | ⟨here', young'⟩
      · exact drawn.once a b token old old'
      · exact new a b token old young'
    · rcases turn_tokens turned member' with old' | ⟨here', young'⟩
      · exact (new b a token old' young).symm
      · exact here.trans here'.symm

/-- **In a run with fresh tokens every token is drawn for one authentication.** -/
theorem drawn_of_run {labelled : List (A × Datagram)} {ledger : Ledger A}
    (ran : interleave env fuel labelled (opening env) = some ledger)
    (fresh : FreshTokens env ledger.server) : Ledger.Drawn env ledger := by
  have step : ∀ (one : A × Datagram) (ledger after : Ledger A),
      (ledger.server.Tabled ∧ (FreshTokens env ledger.server → Ledger.Drawn env ledger)) →
        turn env fuel one ledger = some after →
          after.server.Tabled ∧ (FreshTokens env after.server → Ledger.Drawn env after) := by
    rintro one ledger after ⟨tabled, drawn⟩ turned
    refine ⟨serve_tabled tabled (turn_cases turned).1, fun fresh => ?_⟩
    have grows := turn_minted tabled turned
    have before : FreshTokens env ledger.server := fun i early j early' =>
      fresh i (early.trans_le grows) j (early'.trans_le grows)
    exact Ledger.Drawn.turn (drawn before) fresh turned
  have start : (opening env : Ledger A).server.Tabled ∧
      (FreshTokens env (opening env : Ledger A).server →
        Ledger.Drawn env (opening env : Ledger A)) := by
    refine ⟨tabled_initial env, fun _ => ⟨tabled_initial env, ?_, ?_⟩⟩
    · intro a token member
      cases member
    · intro a b token member
      cases member
  exact (runAll_keeps step start ran).2 fresh

/-! ## Step by step -/

/-- What is in the ledger stays there. -/
def Ledger.Before (ledger final : Ledger A) : Prop := ∀ a, ledger.turns a <+: final.turns a

theorem turn_before {one : A × Datagram} {ledger after : Ledger A}
    (turned : turn env fuel one ledger = some after) : Ledger.Before ledger after := by
  obtain ⟨_, own, others⟩ := turn_cases turned
  intro a
  by_cases here : a = one.1
  · rw [here, own]
    exact List.prefix_append _ _
  · exact ⟨[], by rw [List.append_nil, others a here]⟩

theorem interleave_before : ∀ {labelled : List (A × Datagram)} {ledger after : Ledger A},
    interleave env fuel labelled ledger = some after → Ledger.Before ledger after := by
  intro labelled
  induction labelled with
  | nil =>
      intro ledger after ran
      cases ran
      exact fun a => List.prefix_rfl
  | cons one labelled ih =>
      intro ledger after ran
      obtain ⟨mid, turned, ran⟩ := Option.bind_eq_some_iff.mp ran
      exact fun a => (turn_before turned a).trans (ih ran a)

/-- What a turn adds to an entry of the ledger. -/
theorem turn_flatMap {α : Type} {one : A × Datagram} {ledger after : Ledger A}
    (turned : turn env fuel one ledger = some after) (part : Turn → List α) :
    (after.turns one.1).flatMap part = (ledger.turns one.1).flatMap part ++
      part (turnOf env ledger.server after.server) := by
  rw [(turn_cases turned).2.1, List.flatMap_append, List.flatMap_singleton]

/-- What the server has said after a turn. -/
theorem turn_said {one : A × Datagram} {ledger after : Ledger A}
    (turned : turn env fuel one ledger = some after) :
    after.server.exchanges.map Exchange.said = ledger.server.exchanges.map Exchange.said ++
      (turnOf env ledger.server after.server).exchanges := by
  obtain ⟨new, grows⟩ := serve_grows (turn_cases turned).1
  rw [turnOf, ← grows, List.drop_left, List.map_append]

/-- How many tokens it has drawn. -/
theorem turn_count {one : A × Datagram} {ledger after : Ledger A} (tabled : ledger.server.Tabled)
    (turned : turn env fuel one ledger = some after) :
    after.server.minted =
      ledger.server.minted + (turnOf env ledger.server after.server).tokens.length := by
  have grows := turn_minted tabled turned
  rw [turnOf, drawn, List.length_map, List.length_range']
  exact (Nat.add_sub_cancel' grows).symm

/-- What a turn says and draws is in the final ledger. -/
theorem turn_in_final {one : A × Datagram} {ledger after : Ledger A} {own : A → Ledger A}
    (arranged : Arranged env answer alone keys final) (coupled : Coupled keys ledger own)
    (turned : turn env fuel one ledger = some after) (before : Ledger.Before after final) :
    Converses (answer one.1) [] ((own one.1).server.exchanges.map Exchange.said ++
        (turnOf env ledger.server after.server).exchanges) ∧
      ∀ token ∈ drawn env ledger.server after.server,
        (alone one.1).token (own one.1).server.minted = token ∧
          keys one.1 ("st:" ++ hex token) := by
  obtain ⟨later, final_eq⟩ := before one.1
  have tokens : final.tokens one.1 = ledger.tokens one.1 ++
      drawn env ledger.server after.server ++ later.flatMap Turn.tokens := by
    rw [Ledger.tokens, ← final_eq, List.flatMap_append, turn_flatMap turned]
    rfl
  constructor
  · have answered := arranged.answered one.1
    rw [Ledger.exchanges, ← final_eq, List.flatMap_append] at answered
    have now := (converses_append.mp answered).1
    rw [turn_flatMap turned] at now
    rw [coupled.said]
    exact now
  · intro token member
    have once : drawn env ledger.server after.server = [token] := by
      rcases serve_minted coupled.tabled (turn_cases turned).1 with same | next
      · rw [drawn_same same] at member
        cases member
      · rw [drawn_once next] at member ⊢
        rw [List.mem_singleton.mp member]
    constructor
    · refine arranged.token one.1 _ token ?_
      rw [tokens, coupled.minted, once, List.append_assoc]
      simp
    · refine arranged.held one.1 token ?_
      rw [tokens]
      exact List.mem_append_left _ (List.mem_append_right _ member)

/-! ### A turn and its twin

A turn of one authentication, and the turn that its datagram has in the run of its own. -/

section

variable {one : A × Datagram} {ledger after mine : Ledger A} {own : A → Ledger A}

theorem Coupled.turns_turn (coupled : Coupled keys ledger own)
    (turned : turn env fuel one ledger = some after)
    (turned' : turn (alone one.1) fuel one (own one.1) = some mine)
    (alike : turnOf (alone one.1) (own one.1).server mine.server =
      turnOf env ledger.server after.server) (a : A) :
    (Function.update own one.1 mine a).turns a = after.turns a := by
  obtain ⟨_, extended, others⟩ := turn_cases turned
  revert a
  apply (Function.forall_update_iff own fun a own => own.turns a = after.turns a).mpr
  constructor
  · rw [(turn_cases turned').2.1, extended, coupled.turns one.1, alike]
  · intro a other
    rw [others a other]
    exact coupled.turns a

theorem Coupled.said_turn (coupled : Coupled keys ledger own)
    (turned : turn env fuel one ledger = some after)
    (turned' : turn (alone one.1) fuel one (own one.1) = some mine)
    (alike : turnOf (alone one.1) (own one.1).server mine.server =
      turnOf env ledger.server after.server) (a : A) :
    (Function.update own one.1 mine a).server.exchanges.map Exchange.said = after.exchanges a := by
  revert a
  apply (Function.forall_update_iff own fun a own =>
    own.server.exchanges.map Exchange.said = after.exchanges a).mpr
  constructor
  · rw [turn_said turned', coupled.said, alike, Ledger.exchanges, Ledger.exchanges,
      turn_flatMap turned]
  · intro a other
    rw [coupled.said a, Ledger.exchanges, Ledger.exchanges, (turn_cases turned).2.2 a other]

theorem Coupled.minted_turn (coupled : Coupled keys ledger own)
    (turned : turn env fuel one ledger = some after)
    (turned' : turn (alone one.1) fuel one (own one.1) = some mine)
    (alike : turnOf (alone one.1) (own one.1).server mine.server =
      turnOf env ledger.server after.server) (a : A) :
    (Function.update own one.1 mine a).server.minted = (after.tokens a).length := by
  revert a
  apply (Function.forall_update_iff own fun a own =>
    own.server.minted = (after.tokens a).length).mpr
  constructor
  · rw [turn_count (coupled.ownTabled one.1) turned', coupled.minted, alike, Ledger.tokens,
      Ledger.tokens, turn_flatMap turned, List.length_append]
  · intro a other
    rw [coupled.minted a, Ledger.tokens, Ledger.tokens, (turn_cases turned).2.2 a other]

/-- The States that the AP was answered are keys of the authentication. -/
theorem Coupled.states_turn (coupled : Coupled keys ledger own)
    (turned : turn env fuel one ledger = some after)
    (states : ∀ answered ∈ (turnOf env ledger.server after.server).replies, ∀ state,
      answered.2.state = some state → keys one.1 ("st:" ++ hex state)) :
    ∀ a, ∀ answered ∈ after.replies a, ∀ state, answered.2.state = some state →
      keys a ("st:" ++ hex state) := by
  intro a answered member state replied
  by_cases here : a = one.1
  · rw [Ledger.replies, here, turn_flatMap turned] at member
    rcases List.mem_append.mp member with old | new
    · exact coupled.states a answered (here ▸ old) state replied
    · exact here ▸ states answered new state replied
  · rw [Ledger.replies, (turn_cases turned).2.2 a here] at member
    exact coupled.states a answered member state replied

/-- **One turn keeps the runs coupled.** -/
theorem coupled_turn (arranged : Arranged env answer alone keys final)
    (coupled : Coupled keys ledger own) (turned : turn env fuel one ledger = some after)
    (before : Ledger.Before after final)
    (starts : ∀ key, syntheticKey one.2 = some key → keys one.1 key)
    (carries : CarriesOwn one ledger) :
    ∃ mine, turn (alone one.1) fuel one (own one.1) = some mine ∧
      Coupled keys after (Function.update own one.1 mine) := by
  have served := (turn_cases turned).1
  have under := under_own coupled starts carries
  obtain ⟨told, tokens⟩ := turn_in_final arranged coupled turned before
  obtain ⟨place, projects⟩ := coupled.projects one.1
  obtain ⟨τ', served', alike⟩ := serve_projects (arranged.surround one.1) projects
    (coupled.ownTabled one.1) served under told tokens
  have spares := serve_spares coupled.tabled served under fun token member =>
    (tokens token member).2
  have turned' : turn (alone one.1) fuel one (own one.1) =
      some (enter (alone one.1) (own one.1) one.1 τ') := by rw [turn, served', Option.map_some]
  refine ⟨_, turned', ?_⟩
  constructor
  · exact coupled.turns_turn turned turned' alike.turn
  · exact serve_tabled coupled.tabled served
  · apply (Function.forall_update_iff own fun _ own => own.server.Tabled).mpr
    exact ⟨serve_tabled (coupled.ownTabled one.1) served', fun a _ => coupled.ownTabled a⟩
  · apply (Function.forall_update_iff own fun a own =>
      ∃ place, after.server.Projects (keys a) place own.server).mpr
    refine ⟨alike.projects, fun a other => ?_⟩
    obtain ⟨place', projects'⟩ := coupled.projects a
    refine ⟨place', Projects.spared projects' spares fun key held foreign => other ?_⟩
    exact arranged.apart a one.1 key held foreign
  · exact coupled.said_turn turned turned' alike.turn
  · exact coupled.minted_turn turned turned' alike.turn
  · exact coupled.states_turn turned alike.states

end

/-! ## The whole run -/

/-- **Coupled runs stay coupled**, by induction on the datagrams. -/
theorem coupled_run (arranged : Arranged env answer alone keys final) :
    ∀ {labelled : List (A × Datagram)} {ledger : Ledger A} {own : A → Ledger A},
      Coupled keys ledger own → interleave env fuel labelled ledger = some final →
      (∀ one ∈ labelled, ∀ key, syntheticKey one.2 = some key → keys one.1 key) →
      Along (turn env fuel) CarriesOwn labelled ledger → ∀ a,
        ∃ mine, interleave (alone a) fuel (labelled.filter fun one => one.1 = a) (own a) =
          some mine ∧ mine.turns a = final.turns a := by
  intro labelled
  induction labelled with
  | nil =>
      intro ledger own coupled ran _ _ a
      cases ran
      exact ⟨own a, rfl, coupled.turns a⟩
  | cons one labelled ih =>
      intro ledger own coupled ran starts carried a
      obtain ⟨mid, turned, ran⟩ := Option.bind_eq_some_iff.mp ran
      obtain ⟨mine, turned', coupled'⟩ := coupled_turn arranged coupled turned
        (interleave_before ran) (starts one List.mem_cons_self) carried.1
      obtain ⟨last, ran', same⟩ := ih coupled' ran
        (fun other member => starts other (List.mem_cons_of_mem _ member)) (carried.2 mid turned) a
      refine ⟨last, ?_, same⟩
      by_cases here : a = one.1
      · subst here
        rw [Function.update_self] at ran'
        rw [List.filter_cons_of_pos (by simp)]
        exact Option.bind_eq_some_iff.mpr ⟨mine, turned', ran'⟩
      · rw [Function.update_of_ne here] at ran'
        rwa [List.filter_cons_of_neg (by simpa using Ne.symm here)]

/-- **Authentications do not interfere.** Whatever the order in which the datagrams of many
authentications come, the turns of each are those it has when its datagrams are handled
alone: the same requests go upstream with the same outcomes, and the AP is answered the
same, also around datagrams whose handling raises. -/
theorem interleaving_is_alone {labelled : List (A × Datagram)} {ledger : Ledger A}
    (ran : interleave env fuel labelled (opening env) = some ledger)
    (fresh : FreshTokens env ledger.server) (apart : StartApart labelled)
    (carried : Along (turn env fuel) CarriesOwn labelled (opening env))
    (answered : ∀ a, Converses (env.client.through (answer a)) [] (ledger.exchanges a))
    (evenhanded : Evenhanded env) (a : A) :
    ∃ mine, interleave (aloneEnv env (answer a) (ledger.tokens a)) fuel
        (labelled.filter fun one => one.1 = a)
        (opening (aloneEnv env (answer a) (ledger.tokens a))) = some mine ∧
      mine.turns a = ledger.turns a := by
  have once := (drawn_of_run ran fresh).once
  have arranged : Arranged env (fun a => env.client.through (answer a))
      (fun a => aloneEnv env (answer a) (ledger.tokens a)) (OwnKeys labelled ledger) ledger := by
    refine ⟨fun a => alone_aloneEnv evenhanded _ _, fun a b key => ownKeys_apart apart once,
      fun a token member => .inr ⟨token, member, rfl⟩, ?_, answered⟩
    intro a n token drawn
    show (ledger.tokens a).getD n [] = token
    rw [List.getD_eq_getElem?_getD, drawn, Option.getD_some]
  refine coupled_run arranged (coupled_opening ledger.tokens) ran ?_ carried a
  exact fun one member key first => .inl ⟨one, member, rfl, first⟩

/-- Two clients start at the same AP, and each goes on with its own State. -/
def twoClients : List (Bool × Datagram) :=
  [(false, identityDatagram),
    (true, datagramOf (requestWith none [codeResponse, 8, 0, 6, 1, 98])),
    (false, datagramOf (requestWith (some [0]) [codeResponse, 8, 0, 6, 1, 97])),
    (true, datagramOf (requestWith (some [1]) [codeResponse, 9, 0, 6, 1, 98]))]

theorem interleaving_is_alone_sample :
    ∃ ledger, interleave (answering "reassemble" emptyChallenge) 0 twoClients
        (opening (answering "reassemble" emptyChallenge)) = some ledger ∧
      (ledger.replies true).map (·.2.state) = [some [1], some [1]] ∧
      ∀ a, ∃ mine, interleave (aloneEnv (answering "reassemble" emptyChallenge)
          (fun _ _ => .ok emptyChallenge) (ledger.tokens a)) 0
          (twoClients.filter fun one => one.1 = a)
          (opening (aloneEnv (answering "reassemble" emptyChallenge)
            (fun _ _ => .ok emptyChallenge) (ledger.tokens a))) = some mine ∧
        mine.turns a = ledger.turns a := by
  refine ⟨_, rfl, rfl, fun a => @interleaving_is_alone Bool (answering "reassemble" emptyChallenge)
    0 (fun _ _ _ => .ok emptyChallenge) _ twoClients _ rfl ?_ ?_ ?_ ?_ ?_ a⟩
  · show ∀ i < 2, ∀ j < 2, [UInt8.ofNat i] = [UInt8.ofNat j] → i = j
    decide
  · unfold StartApart
    decide
  · refine ⟨?_, fun mid turned => ⟨?_, fun mid' turned' => ⟨?_, fun mid'' turned'' =>
      ⟨?_, fun _ _ => trivial⟩⟩⟩⟩
    · rintro request state ⟨⟩ ⟨⟩
    · rintro request state ⟨⟩ ⟨⟩
    · cases turned
      cases turned'
      rintro request state ⟨⟩ ⟨⟩
      exact ⟨_, List.mem_cons_self, rfl⟩
    · cases turned
      cases turned'
      cases turned''
      rintro request state ⟨⟩ ⟨⟩
      exact ⟨_, List.mem_cons_self, rfl⟩
  · intro a
    cases a with
    | false => exact ⟨rfl, rfl, trivial⟩
    | true => exact ⟨rfl, rfl, trivial⟩
  · exact ⟨fun _ _ _ _ _ => rfl, fun _ _ _ _ _ _ _ => rfl⟩

end Downstream
end EapAccel
