import EapAccel.Downstream.Endings
import EapAccel.Downstream.Isolation
import EapAccel.Downstream.Liveness
import EapAccel.Peers.Equivalence

/-!
# Many conversations at once

Any number of authentications go through one proxy, and their packets come in any order. A
conversation of peers among them goes as it goes when it is the only one, whatever the others do
and whatever fails for them: in either mode it says what its peers have to say to each other and
comes to their verdict, at the price it has alone (`conversation_among_others`).
-/

set_option autoImplicit false

namespace EapAccel

open Foundations EapTls Mediator Downstream

/-! ## A conversation in its turns -/

namespace Peers

variable (peers : Peers)

/-- The supplicant after the turns that its packets have had. -/
def after (turns : List Turn) : Caller :=
  turns.foldl (fun caller turn => peers.receives caller (turn.replies.map Prod.snd)) peers.caller

/-- The server after these requests. -/
def calleeAfter (requests : List AccessRequest) : Callee :=
  requests.foldl (fun callee request => (peers.replies request.eap callee).1) {}

/-- How far a conversation has come in its turns. -/
def talk (turns : List Turn) : Talk where
  messages := (peers.calleeAfter ((turns.flatMap Turn.exchanges).map Prod.fst)).heard
  records := (peers.after turns).heard
  verdict := (peers.after turns).result

/-- What has been said upstream are answers of the server of the peers. What else there is in them
is the server's affair. -/
def Attends (said : List Said) : Prop :=
  ∀ before request outcome rest, said = before ++ (request, outcome) :: rest →
    ∃ reply, outcome = .ok reply ∧
      reply.Has (peers.replies request.eap (peers.calleeAfter (before.map Prod.fst))).2

variable {peers}

/-- It is enough to look at one exchange after the other. -/
theorem attends_iff {said : List Said} : peers.Attends said ↔
    ∀ n < said.length, ∃ one ∈ said[n]?, ∃ reply ∈ one.2.toOption,
      reply.Has (peers.replies one.1.eap (peers.calleeAfter ((said.take n).map Prod.fst))).2 := by
  constructor
  · intro attends n inside
    have split : said = said.take n ++ (said[n].1, said[n].2) :: said.drop (n + 1) := by simp
    obtain ⟨reply, came, has⟩ := attends _ _ _ _ split
    exact ⟨said[n], List.getElem?_eq_getElem inside, reply, Except.mem_toOption.mpr came, has⟩
  · rintro each before request outcome rest rfl
    obtain ⟨one, here, reply, came, has⟩ := each before.length (by simp)
    rw [Option.mem_def, List.getElem?_append_right le_rfl, Nat.sub_self] at here
    cases here
    rw [List.take_left] at has
    exact ⟨reply, Except.mem_toOption.mp came, has⟩

instance (peers : Peers) (said : List Said) : Decidable (peers.Attends said) :=
  decidable_of_iff _ attends_iff.symm

theorem after_concat (turns : List Turn) (turn : Turn) :
    peers.after (turns ++ [turn]) = peers.receives (peers.after turns) (turn.replies.map Prod.snd) :=
  List.foldl_concat ..

theorem callee_eq (exchanges : List Exchange) :
    peers.callee exchanges = peers.calleeAfter (exchanges.map Exchange.request) := by
  rw [callee, calleeAfter, List.foldl_map]

end Peers

/-! ## What was said, again -/

/-- It is enough that every outcome is the answer. -/
theorem converses_of_answers
    {answer : List AccessRequest → AccessRequest → Except Raised RadiusReply} {said : List Said}
    (answers : ∀ before one rest, said = before ++ one :: rest →
      one.2 = answer (before.map Prod.fst) one.1) : Converses answer [] said := by
  have from_ : ∀ rest before : List Said, said = before ++ rest →
      Converses answer (before.map Prod.fst) rest := by
    intro rest
    induction rest with
    | nil => exact fun _ _ => trivial
    | cons one rest ih =>
        intro before split
        constructor
        · exact answers before one rest split
        · have later := ih (before ++ [one]) (by rw [List.append_assoc]; exact split)
          rwa [List.map_append] at later
  exact from_ said [] rfl

/-- The server that says again what it has said, whatever it is asked. -/
def echo (said : List Said) (before : List AccessRequest) (_ : AccessRequest) :
    Except Raised RadiusReply :=
  (said[before.length]?).elim (.error .timeout) Prod.snd

/-- What was said is what comes of saying it again. What pyrad refused, it refuses again. -/
theorem converses_echo {client : UpstreamClient} {said : List Said}
    (refused : ∀ one ∈ said, ∀ e, client.wire one.1 = .error e → one.2 = .error e) :
    Converses (client.through (echo said)) [] said := by
  apply converses_of_answers
  rintro before one rest rfl
  rw [UpstreamClient.through]
  cases sent : client.wire one.1 with
  | error e =>
      rw [refused one (by simp) e sent]
      rfl
  | ok packet =>
      rw [Except.ok_bind, echo, List.length_map, List.getElem?_append_right le_rfl, Nat.sub_self]
      rfl

namespace Peers

variable {peers : Peers}

/-- The server that says again what it has said, and goes on as the server of the peers. -/
def script (peers : Peers) (said : List Said) (before : List AccessRequest)
    (request : AccessRequest) : Except Raised RadiusReply :=
  if (said.take (before.length + 1)).map Prod.fst = before ++ [request] then
    (said[before.length]?).elim (.error .timeout) Prod.snd
  else .ok (replyWith (peers.replies request.eap (peers.calleeAfter before)).2)

theorem script_append (before : List Said) (request : AccessRequest)
    (outcome : Except Raised RadiusReply) (rest : List Said) :
    peers.script (before ++ (request, outcome) :: rest) (before.map Prod.fst) request = outcome := by
  have same : ((before ++ (request, outcome) :: rest).take ((before.map Prod.fst).length + 1)).map
      Prod.fst = before.map Prod.fst ++ [request] := by
    rw [List.length_map, List.take_length_add_append]
    simp
  rw [script, if_pos same, List.length_map, List.getElem?_append_right le_rfl, Nat.sub_self]
  rfl

/-- What was said is what the script says, if pyrad sends the requests as they are. -/
theorem converses_script {client : UpstreamClient} {said : List Said}
    (sends : ∀ one ∈ said, client.wire one.1 = .ok one.1) :
    Converses (client.through (peers.script said)) [] said := by
  apply converses_of_answers
  rintro before one rest rfl
  rw [UpstreamClient.through, sends one (by simp), Except.ok_bind]
  exact (script_append before one.1 one.2 rest).symm

theorem split_of_again {said : List Said} {before : List AccessRequest} {request : AccessRequest}
    (again : (said.take (before.length + 1)).map Prod.fst = before ++ [request]) :
    ∃ earlier outcome rest, said = earlier ++ (request, outcome) :: rest ∧
      earlier.map Prod.fst = before := by
  obtain ⟨earlier, ending, split, same, last⟩ := List.map_eq_append_iff.mp again
  obtain ⟨⟨asked, outcome⟩, rfl, rfl⟩ := List.map_eq_singleton_iff.mp last
  refine ⟨earlier, outcome, said.drop (before.length + 1), ?_, same⟩
  calc said = said.take (before.length + 1) ++ said.drop (before.length + 1) :=
        (List.take_append_drop _ _).symm
    _ = earlier ++ [(asked, outcome)] ++ said.drop (before.length + 1) := by rw [split]
    _ = _ := List.append_assoc _ _ _

/-- The server with the script is the server of the peers. -/
theorem script_serves {said : List Said} (attends : peers.Attends said) :
    peers.Serve fun before request => peers.script said (before.map Exchange.request) request := by
  intro before request
  rw [callee_eq]
  by_cases again : (said.take ((before.map Exchange.request).length + 1)).map Prod.fst =
      before.map Exchange.request ++ [request]
  · obtain ⟨earlier, outcome, rest, rfl, same⟩ := split_of_again again
    obtain ⟨reply, rfl, has⟩ := attends earlier request outcome rest rfl
    simp only [← same]
    exact ⟨reply, script_append earlier request _ rest, has⟩
  · exact ⟨_, if_neg again, replyWith_has _⟩

end Peers

/-! ## One conversation, alone -/

/-- The State of the last reply in these turns. -/
def stateIn (turns : List Turn) : Option Bytes :=
  (turns.flatMap Turn.replies).getLast?.bind fun answered => answered.2.state

/-- The AP forwards the next packet of the supplicant, with the State of the last reply. What else
of the request is forwarded decodes, and fits an attribute. -/
def Plays (peers : Peers) (turns : List Turn) (datagram : Datagram) : Prop :=
  ∃ request, (peers.after turns).next = some request.eap ∧ datagram.decoded = .ok request ∧
    Admitted request ∧ request.Legible ∧ request.Fits ∧ request.state = stateIn turns

instance (peers : Peers) (turns : List Turn) (datagram : Datagram) :
    Decidable (Plays peers turns datagram) :=
  decidable_of_iff (∃ request ∈ datagram.decoded.toOption,
      (peers.after turns).next = some request.eap ∧ Admitted request ∧ request.Legible ∧
        request.Fits ∧ request.state = stateIn turns)
    ⟨fun ⟨request, decoded, next, rest⟩ => ⟨request, next, Except.mem_toOption.mp decoded, rest⟩,
      fun ⟨request, next, decoded, rest⟩ => ⟨request, Except.mem_toOption.mpr decoded, next, rest⟩⟩

section Alone

variable {A : Type} [DecidableEq A] {peers : Peers} {env : Env} {fuel : ℕ}

/-- The turns of a conversation are those it has had when it is the only one. -/
structure Lone (peers : Peers) (env : Env) (turns : List Turn) (σ : Server) : Prop where
  conversation : Conversation peers env turns.length (peers.after turns) σ
  replies : σ.replies.map BuiltReply.content = turns.flatMap Turn.replies
  answered : ∀ turn ∈ turns, ∃ answered, turn.replies = [answered]

theorem lone_initial (peers : Peers) (env : Env) : Lone peers env [] (initial env) := by
  constructor
  · exact .start
  · rfl
  · intro turn member
    cases member

theorem Lone.state {turns : List Turn} {σ : Server} (lone : Lone peers env turns σ) :
    lastState σ = stateIn turns := by
  rw [lastState, stateIn, ← lone.replies, List.getLast?_map, Option.bind_map]
  rfl

/-- **One more packet of the supplicant.** -/
theorem Lone.turn (goesOn : GoesOn peers env) {turns : List Turn} {σ σ' : Server}
    (lone : Lone peers env turns σ) {datagram : Datagram} (plays : Plays peers turns datagram)
    (served : serve env fuel datagram σ = some σ') :
    Lone peers env (turns ++ [turnOf env σ σ']) σ' := by
  obtain ⟨request, next, decoded, admitted, legible, fits, state⟩ := plays
  have forwards : Forwards request.eap datagram request σ :=
    ⟨decoded, admitted, rfl, legible, fits, state.trans lone.state.symm⟩
  have serves : Served env datagram σ σ' := ⟨fuel, fun _ enough => serve_prolongs enough served⟩
  obtain ⟨sent, σ'', serves', replied⟩ := goesOn.answered lone.conversation next forwards
  obtain rfl := serves.unique serves'
  have one : (turnOf env σ σ').replies = [sent.content] := by
    rw [turnOf, replied, List.drop_left]
    rfl
  constructor
  · rw [Peers.after_concat, one, List.length_append]
    exact .step lone.conversation next forwards serves replied
  · rw [replied, List.map_append, lone.replies, List.flatMap_append, List.flatMap_singleton, one]
    rfl
  · intro turn member
    rcases List.mem_append.mp member with old | new
    · exact lone.answered turn old
    · rw [List.mem_singleton.mp new]
      exact ⟨_, one⟩

end Alone

/-! ## Among others -/

variable {A : Type} [DecidableEq A] {peers : Peers} {env : Env} {fuel : ℕ} {a : A}
  {labelled : List (A × Datagram)} {ledger : Ledger A}

/-- The datagrams of `a` are a conversation of the peers, which the others do not get mixed up
with. What is said in it, is carried as it is. -/
structure Among (peers : Peers) (env : Env) (fuel : ℕ) (a : A) (labelled : List (A × Datagram))
    (ledger : Ledger A) : Prop where
  ran : interleave env fuel labelled (opening env) = some ledger
  fresh : FreshTokens env ledger.server
  apart : StartApart labelled
  own : Along (turn env fuel) CarriesOwn labelled (opening env)
  plays : Along (turn env fuel) (fun one before => one.1 = a → Plays peers (before.turns a) one.2)
    labelled (opening env)
  attends : peers.Attends (ledger.exchanges a)
  requests : ∀ one ∈ ledger.exchanges a, env.client.wire one.1 = .ok one.1
  replies : ∀ answered ∈ ledger.replies a, ∀ before built, BuiltReply.content built = answered →
    env.send before built = .ok answered.2

/-- What is in the ledger was said by the server. -/
theorem said_of_run (ran : interleave env fuel labelled (opening env) = some ledger) (b : A) :
    ∀ one ∈ ledger.exchanges b, ∃ exchange ∈ ledger.server.exchanges, exchange.said = one := by
  have step : ∀ (labelled : A × Datagram) (before after : Ledger A),
      (∀ one ∈ before.exchanges b, ∃ exchange ∈ before.server.exchanges, exchange.said = one) →
        turn env fuel labelled before = some after →
          ∀ one ∈ after.exchanges b, ∃ exchange ∈ after.server.exchanges, exchange.said = one := by
    intro labelled before after holds turned one member
    have grows := serve_grows (turn_cases turned).1
    have old : one ∈ before.exchanges b →
        ∃ exchange ∈ after.server.exchanges, exchange.said = one := by
      intro there
      obtain ⟨exchange, made, same⟩ := holds one there
      exact ⟨exchange, grows.subset made, same⟩
    by_cases here : b = labelled.1
    · subst here
      rw [Ledger.exchanges, turn_flatMap turned] at member
      rcases List.mem_append.mp member with early | late
      · exact old early
      · obtain ⟨exchange, made, same⟩ := List.mem_map.mp late
        exact ⟨exchange, List.mem_of_mem_drop made, same⟩
    · rw [Ledger.exchanges, (turn_cases turned).2.2 b here] at member
      exact old member
  apply runAll_keeps step _ ran
  intro one member
  cases member

/-- What pyrad refused came to what it raised. -/
theorem refused_of_run (ran : interleave env fuel labelled (opening env) = some ledger) (b : A) :
    ∀ one ∈ ledger.exchanges b, ∀ e, env.client.wire one.1 = .error e → one.2 = .error e := by
  intro one member e refused
  obtain ⟨exchange, made, rfl⟩ := said_of_run ran b one member
  obtain ⟨before, after, split⟩ := List.append_of_mem made
  have ran' : run env fuel (labelled.map Prod.snd) (initial env) = some ledger.server := by
    have same := @interleave_run A env fuel _ labelled (opening env)
    rw [ran] at same
    exact same.symm
  have came := asReturned_of_run ran' before exchange after split
  exact came.trans (UpstreamClient.answer_of_refused refused before)

/-- The server says again what it has said: to `a` it goes on as the server of the peers. -/
def retold (peers : Peers) (final : Ledger A) (a b : A) :
    List AccessRequest → AccessRequest → Except Raised RadiusReply :=
  if b = a then peers.script (final.exchanges b) else echo (final.exchanges b)

theorem retold_self (peers : Peers) (final : Ledger A) (a : A) :
    retold peers final a a = peers.script (final.exchanges a) := if_pos rfl

/-- The surroundings that an authentication has alone: the server says to it what it has said. -/
def retoldEnv (peers : Peers) (env : Env) (final : Ledger A) (a b : A) : Env :=
  aloneEnv env (retold peers final a b) (final.tokens b)

theorem Downstream.Genuine.retoldEnv {final : Ledger A} {b : A} (genuine : Genuine env)
    (serve : peers.Serve (retoldEnv peers env final a b).respond) :
    Genuine (retoldEnv peers env final a b) := by
  constructor
  · intro before request
    obtain ⟨reply, answered, _⟩ := serve before request
    rw [answered]
    simp
  · exact genuine.encodes
  · exact genuine.packsRequest
  · exact genuine.packsReply
  · exact genuine.transmits
  · exact genuine.reports

/-- The authentications are arranged so that each could be alone. -/
theorem Among.arranged (among : Among peers env fuel a labelled ledger)
    (evenhanded : Evenhanded env) :
    Arranged env (fun b => env.client.through (retold peers ledger a b))
      (retoldEnv peers env ledger a) (OwnKeys labelled ledger) ledger := by
  have once := (drawn_of_run among.ran among.fresh).once
  constructor
  · exact fun b => alone_aloneEnv evenhanded _ _
  · exact fun b c key => ownKeys_apart among.apart once
  · exact fun b token member => .inr ⟨token, member, rfl⟩
  · intro b n token drawn
    show (ledger.tokens b).getD n [] = token
    rw [List.getD_eq_getElem?_getD, drawn, Option.getD_some]
  · intro b
    by_cases here : b = a
    · rw [here, retold_self]
      exact Peers.converses_script among.requests
    · rw [retold, if_neg here]
      exact converses_echo (refused_of_run among.ran b)

/-- What the server has made for `a`, is carried as it is. -/
theorem Among.carried (among : Among peers env fuel a labelled ledger) {turns : List Turn}
    {σ : Server} (early : turns <+: ledger.turns a)
    (said : σ.exchanges.map Exchange.said = turns.flatMap Turn.exchanges)
    (replied : σ.replies.map BuiltReply.content = turns.flatMap Turn.replies) :
    σ.Carried (retoldEnv peers env ledger a a) := by
  constructor
  · intro exchange member
    have there : exchange.said ∈ ledger.exchanges a := by
      obtain ⟨later, split⟩ := early
      rw [Ledger.exchanges, ← split, List.flatMap_append, ← said]
      exact List.mem_append_left _ (List.mem_map_of_mem member)
    exact among.requests _ there
  · intro before built made
    have there : built.content ∈ ledger.replies a := by
      obtain ⟨later, split⟩ := early
      rw [Ledger.replies, ← split, List.flatMap_append, ← replied]
      exact List.mem_append_left _ (List.mem_map_of_mem (made.subset (by simp)))
    exact among.replies _ there before built rfl

/-- **Step by step the conversation goes as it goes alone**, by induction on the datagrams. -/
theorem Among.lone_run (among : Among peers env fuel a labelled ledger)
    (evenhanded : Evenhanded env)
    (goesOn : GoesOn peers (retoldEnv peers env ledger a a).faultless) :
    ∀ {rest : List (A × Datagram)} {before : Ledger A} {own : A → Ledger A},
      Coupled (OwnKeys labelled ledger) before own →
      Lone peers (retoldEnv peers env ledger a a).faultless (before.turns a) (own a).server →
      interleave env fuel rest before = some ledger → (∀ one ∈ rest, one ∈ labelled) →
      Along (turn env fuel) CarriesOwn rest before →
      Along (turn env fuel) (fun one before => one.1 = a → Plays peers (before.turns a) one.2) rest
        before →
      ∃ σ, Lone peers (retoldEnv peers env ledger a a).faultless (ledger.turns a) σ ∧
        σ.exchanges.map Exchange.said = ledger.exchanges a := by
  intro rest
  induction rest with
  | nil =>
      intro before own coupled lone ran _ _ _
      cases ran
      exact ⟨_, lone, coupled.said a⟩
  | cons one rest ih =>
      intro before own coupled lone ran known carries plays
      obtain ⟨mid, turned, ran⟩ := Option.bind_eq_some_iff.mp ran
      have starts : ∀ key, syntheticKey one.2 = some key → OwnKeys labelled ledger one.1 key :=
        fun key first => .inl ⟨one, known one List.mem_cons_self, rfl, first⟩
      obtain ⟨mine, turned', coupled'⟩ := coupled_turn (among.arranged evenhanded) coupled turned
        (interleave_before ran) starts carries.1
      apply ih coupled' _ ran (fun other member => known other (List.mem_cons_of_mem _ member))
        (carries.2 mid turned) (plays.2 mid turned)
      by_cases here : one.1 = a
      · subst here
        obtain ⟨served, extended, _⟩ := turn_cases turned'
        have turns := coupled'.turns one.1
        have said := coupled'.said one.1
        rw [Function.update_self] at said
        rw [Function.update_self, extended, coupled.turns one.1] at turns
        have replied : mine.server.replies.map BuiltReply.content =
            (mid.turns one.1).flatMap Turn.replies := by
          obtain ⟨new, grows⟩ := serve_replies served
          rw [← turns, List.flatMap_append, List.flatMap_singleton, turnOf, ← grows,
            List.drop_left, List.map_append, lone.replies]
        have carried := among.carried (interleave_before ran one.1) said replied
        rw [Function.update_self, ← turns]
        exact lone.turn goesOn (plays.1 rfl) (serve_faultless served carried)
      · rw [Function.update_of_ne (Ne.symm here), (turn_cases turned).2.2 a (Ne.symm here)]
        exact lone

/-! ## How it has gone -/

/-- How a conversation has gone in its turns. -/
structure GoneBy (peers : Peers) (tariff : Tariff) (turns : List Turn) : Prop where
  answered : ∀ turn ∈ turns, ∃ answered, turn.replies = [answered]
  said : ∃ k, (peers.talk turns).Before (peers.rounds k)
  far : ∀ k, peers.due k ≤ turns.length → (peers.rounds k).Before (peers.talk turns)
  /-- When the supplicant has no more to send, there is a verdict, and all has been said. -/
  ended : (peers.after turns).next = none → ∃ k verdict, (peers.rounds k).verdict = none ∧
    (peers.rounds (k + 1)).verdict = some verdict ∧ peers.talk turns = peers.rounds (k + 1) ∧
      turns.length ≤ peers.due (k + 1) ∧
      (turns.flatMap Turn.exchanges).length = peers.bill tariff (k + 1)

/-- A conversation that is over has come to a verdict in some round. -/
theorem OnTheWay.ended {holds : Holding} {tariff : Tariff} {n : ℕ} {caller : Caller} {σ : Server}
    (onTheWay : OnTheWay peers env holds tariff n caller σ) (finished : caller.next = none) :
    ∃ k verdict, (peers.rounds k).verdict = none ∧ (peers.rounds (k + 1)).verdict = some verdict := by
  cases onTheWay with
  | start => cases finished
  | within regular named listed stage bound =>
      cases stage with
      | up => cases finished
      | down => cases finished
      | done open_ ended => exact ⟨_, _, open_, ended⟩

theorem talk_eq {turns : List Turn} {σ : Server}
    (same : σ.exchanges.map Exchange.said = turns.flatMap Turn.exchanges) :
    peers.talk turns = peers.soFar (peers.after turns) σ := by
  have requests : (turns.flatMap Turn.exchanges).map Prod.fst = σ.exchanges.map Exchange.request := by
    rw [← same, List.map_map]
    rfl
  rw [Peers.talk, Peers.soFar, requests, Peers.callee_eq]

/-- **A conversation among others** goes as the peers have it, whatever the others do and whatever
fails for them. -/
theorem conversation_among_others (proper : peers.Proper) (valid : env.cfg.validate = .ok ())
    (genuine : Genuine env) (evenhanded : Evenhanded env)
    (within : peers.Within env.cfg.maxMessageLen)
    (among : Among peers env fuel a labelled ledger) :
    GoneBy peers (peers.tariff env.cfg) (ledger.turns a) := by
  have serve : peers.Serve (retoldEnv peers env ledger a a).respond := by
    have serves := Peers.script_serves among.attends
    rwa [← retold_self] at serves
  have lossless := (retoldEnv peers env ledger a a).faultless_lossless
  have behind := @Peers.behind_of_lossless peers (retoldEnv peers env ledger a a).faultless serve
    lossless
  have alone := genuine.retoldEnv serve
  obtain ⟨holds, faithful⟩ :=
    @faithful_of_validate peers (retoldEnv peers env ledger a a).faultless proper behind valid
  have goesOn := goesOn_of_faithful faithful proper within alone.faultless
  have coupled := @coupled_opening A env (fun b => retold peers ledger a b)
    (OwnKeys labelled ledger) ledger.tokens
  obtain ⟨σ, lone, said⟩ := among.lone_run evenhanded goesOn coupled (lone_initial peers _)
    among.ran (fun _ => id) among.own among.plays
  have way := lone.conversation.onTheWay faithful proper within alone.faultless
  have talk := @talk_eq peers (ledger.turns a) σ said
  constructor
  · exact lone.answered
  · rw [talk]
    exact way.before faithful
  · intro k late
    rw [talk]
    exact way.reaches faithful (.inl late)
  · intro finished
    obtain ⟨k, verdict, open_, ended⟩ := way.ended finished
    have concludes := concludes_of_faithful faithful proper within alone.faultless open_ ended
    refine ⟨k, verdict, open_, ended, ?_, concludes.brief lone.conversation, ?_⟩
    · rw [talk]
      exact concludes.said lone.conversation finished
    · have cost := concludes.cost lone.conversation finished
      have count := congrArg List.length said
      rw [List.length_map] at count
      exact count.symm.trans cost

/-- The server of the peers, which takes the first session for theirs, behind a pyrad that refuses
octets that start with `0x`, and packets that do not fit the Length field. -/
def aroundFirst (peers : Peers) (mode : String) : Env :=
  Env.refusing {
    cfg := Config.sample mode
    respond := fun before request =>
      .ok (replyWith (peers.replies request.eap (peers.callee (ownExchanges before 0))).2)
    token := fun n => [UInt8.ofNat n] }

theorem aroundFirst_genuine (peers : Peers) (mode : String) : Genuine (aroundFirst peers mode) := by
  constructor
  · simp [aroundFirst, Env.refusing]
  · intro value
    by_cases hex : hexPrefix <+: value <;>
      simp [aroundFirst, Env.refusing, EncodesOctets.refuseHex, hex]
  · intro request
    by_cases fits : request.encodedLength ≤ maxPacketLength <;>
      simp [aroundFirst, Env.refusing, refuseLarge, fits]
  · intro reply
    by_cases fits : reply.encodedLength ≤ maxPacketLength <;>
      simp [aroundFirst, Env.refusing, refuseLarge, fits]
  · simp [aroundFirst, Env.refusing]
  · simp [aroundFirst, Env.refusing]

/-- Two clients start at one AP. The first one's supplicant has a conversation with the server to
its verdict. In between the second one's sends a packet that pyrad refuses to send on. -/
def helloAmongOthers : List (Bool × Datagram) :=
  [(false, identityDatagram),
    (true, datagramOf (requestWith none [codeResponse, 8, 0, 6, 1, 98])),
    (false, datagramOf (requestWith (some [0]) [codeResponse, 1, 0, 11, 13, 0xc0, 0, 0, 0, 3, 1])),
    (true, datagramOf (requestWith (some [1]) [0x30, 0x78, 0, 6, 1, 98])),
    (false, datagramOf (requestWith (some [0]) [codeResponse, 2, 0, 8, 13, 0, 2, 3])),
    (false, datagramOf (requestWith (some [0]) [codeResponse, 3, 0, 6, 13, 0]))]

/-- The ledger at the end. -/
def helloLedger : Ledger Bool :=
  (interleave (aroundFirst helloPeers "reassemble") 1 helloAmongOthers
    (opening (aroundFirst helloPeers "reassemble"))).get (by decide +kernel)

theorem helloLedger_among :
    Among helloPeers (aroundFirst helloPeers "reassemble") 1 false helloAmongOthers helloLedger where
  ran := (Option.some_get _).symm
  fresh := by
    have minted : helloLedger.server.minted = 2 := by decide +kernel
    rw [FreshTokens, minted]
    decide
  apart := by
    unfold StartApart
    decide
  own := by decide +kernel
  plays := by decide +kernel
  attends := by decide +kernel
  requests := by decide +kernel
  replies := by
    have wires : ∀ answered ∈ helloLedger.replies false,
        (aroundFirst helloPeers "reassemble").wire answered.2 = .ok answered.2 := by decide +kernel
    rintro answered member before built rfl
    have sent : (aroundFirst helloPeers "reassemble").wire built.reply = .ok built.reply :=
      wires _ member
    rw [Env.send, sent]
    rfl

/-- The first conversation comes to its verdict in four turns. The other one's second packet is not
answered. -/
theorem conversation_among_others_hello :
    (helloLedger.turns false).length = 4 ∧ (helloPeers.after (helloLedger.turns false)).next = none ∧
      helloPeers.talk (helloLedger.turns false) = ⟨[[1, 2, 3], []], [[4, 5, 6, 7]], some .accept⟩ ∧
      (helloLedger.turns true).map (·.replies.length) = [1, 0] ∧
      GoneBy helloPeers (helloPeers.tariff (Config.sample "reassemble"))
        (helloLedger.turns false) := by
  refine ⟨by decide +kernel, by decide +kernel, by decide +kernel, by decide +kernel, ?_⟩
  exact conversation_among_others helloPeers_proper rfl (aroundFirst_genuine _ _)
    ⟨fun _ _ _ _ _ => rfl, fun _ _ _ _ _ _ _ => rfl⟩ helloPeers_within helloLedger_among

end EapAccel
