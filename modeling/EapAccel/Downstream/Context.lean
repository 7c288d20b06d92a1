import EapAccel.Downstream.Asking
import EapAccel.Downstream.Origins

/-!
# The context of an authentication

A request to the server tells it of the client and its AP: User-Name, the two station
identifiers, and the attributes of the AP, of which Framed-MTU may be rewritten on the way.
The attributes are captured once for a session, from its first request that has any
(`contextHistory_of_run`). The names are those of the AP's request at hand. So the context is
constant exactly as far as the AP repeats the names, and brings no attributes late
(`context_constant_iff`).
-/

set_option autoImplicit false

namespace EapAccel

open Foundations EapTls

/-! ## What the server is told -/

/-- What a request tells the server of the client and its AP. -/
structure ClientContext where
  userName : String
  callingStationId : Option String
  calledStationId : Option String
  attributes : List (ForwardedAttr × AttrValue)
  deriving DecidableEq, Repr

def AccessRequest.clientContext (request : AccessRequest) : ClientContext where
  userName := request.userName
  callingStationId := request.callingStationId
  calledStationId := request.calledStationId
  attributes := request.forwarded

/-- An attribute of the AP as it is carried upstream: in reassemble mode Framed-MTU is
removed or overridden, if the configuration has it. -/
def Config.carriedAttr (cfg : Config) (attr : ForwardedAttr × AttrValue) :
    Option (ForwardedAttr × AttrValue) :=
  if cfg.sessionMode = .reassemble ∧ attr.1 = .framedMtu then
    if cfg.upstream.stripFramedMtu then none
    else some (.framedMtu, (cfg.upstream.framedMtu.map AttrValue.integer).getD attr.2)
  else some attr

/-- The attributes of the AP as they are carried upstream. -/
def Config.carried (cfg : Config) (attrs : List (ForwardedAttr × AttrValue)) :
    List (ForwardedAttr × AttrValue) :=
  attrs.filterMap cfg.carriedAttr

/-- What the server is told on behalf of an AP's request, for a session that has these
attributes. -/
def ApRequest.clientContext (request : ApRequest) (cfg : Config)
    (attrs : List (ForwardedAttr × AttrValue)) : ClientContext where
  userName := request.userName.getD ""
  callingStationId := request.callingStationId.filter (· ≠ "")
  calledStationId := request.calledStationId.filter (· ≠ "")
  attributes := cfg.carried attrs

/-- All requests to the server that are built for a session tell it the same. -/
def ContextConstant (exchanges : List Exchange) : Prop :=
  ∀ ref, ∀ first ∈ ownExchanges exchanges ref, ∀ later ∈ ownExchanges exchanges ref,
    later.request.clientContext = first.request.clientContext

/-! ## What the AP tells -/

/-- The names in a request of the AP, where an absent one is empty. -/
def ApRequest.names (request : ApRequest) : String × Option String × Option String :=
  (request.userName.getD "", request.callingStationId.filter (· ≠ ""),
    request.calledStationId.filter (· ≠ ""))

/-- A request that comes for a session, and whether it goes upstream. -/
structure ApTurn where
  request : ApRequest
  goesUp : Bool

/-- The attributes of the first of these requests that has any. -/
def firstAttributes : List ApTurn → List (ForwardedAttr × AttrValue)
  | [] => []
  | turn :: turns =>
      if turn.request.attributes = [] then firstAttributes turns else turn.request.attributes

theorem firstAttributes_append (turns more : List ApTurn) :
    firstAttributes (turns ++ more) =
      if firstAttributes turns = [] then firstAttributes more else firstAttributes turns := by
  induction turns with
  | nil => rfl
  | cons turn turns ih =>
      rw [List.cons_append, firstAttributes, firstAttributes]
      by_cases none : turn.request.attributes = []
      · rw [if_pos none, if_pos none, ih]
      · rw [if_neg none, if_neg none, if_neg none]

theorem firstAttributes_singleton (turn : ApTurn) :
    firstAttributes [turn] = turn.request.attributes := by
  rw [firstAttributes, firstAttributes]
  split
  next none => exact none.symm
  next => rfl

/-- **The AP repeats the context** in the requests for a session that go upstream: they have the
same names, and when one of them comes before any attribute, none that is carried comes later. -/
structure RepeatsContext (cfg : Config) (turns : List ApTurn) : Prop where
  names : ∀ one ∈ turns, ∀ other ∈ turns, one.goesUp = true → other.goesUp = true →
    other.request.names = one.request.names
  attributes : ∀ before first between last after,
    turns = before ++ first :: (between ++ last :: after) → first.goesUp = true →
      last.goesUp = true → firstAttributes (before ++ [first]) = [] →
        cfg.carried (firstAttributes (between ++ [last])) = []

/-- An AP that repeats the names, and brings attributes at once, repeats the context. -/
theorem RepeatsContext.of_names {cfg : Config} {turns : List ApTurn}
    {told : String × Option String × Option String}
    (names : ∀ turn ∈ turns, turn.request.names = told)
    (brings : ∀ turn ∈ turns.head?, turn.request.attributes ≠ []) : RepeatsContext cfg turns := by
  constructor
  · intro one member other member' _ _
    exact (names other member').trans (names one member).symm
  · rintro before first between last after rfl _ _ none
    cases before with
    | nil =>
        rw [List.nil_append, firstAttributes_singleton] at none
        exact absurd none (brings first rfl)
    | cons turn before =>
        rw [List.cons_append, firstAttributes, if_neg (brings turn rfl)] at none
        exact absurd none (brings turn rfl)

/-- The server is told this by a request among the turns: its names, and the attributes that
came first. -/
def ContextAmong (cfg : Config) (turns : List ApTurn) (context : ClientContext) : Prop :=
  ∃ before turn after, turns = before ++ turn :: after ∧ turn.goesUp = true ∧
    context = turn.request.clientContext cfg (firstAttributes (before ++ [turn]))

theorem ApRequest.clientContext_eq_iff {request request' : ApRequest} {cfg : Config}
    {attrs attrs' : List (ForwardedAttr × AttrValue)} :
    request.clientContext cfg attrs = request'.clientContext cfg attrs' ↔
      request.names = request'.names ∧ cfg.carried attrs = cfg.carried attrs' := by
  simp only [ApRequest.clientContext, ApRequest.names, ClientContext.mk.injEq, Prod.mk.injEq,
    and_assoc]

theorem contextAmong_concat {cfg : Config} {turns : List ApTurn} {turn : ApTurn}
    {context : ClientContext} :
    ContextAmong cfg (turns ++ [turn]) context ↔ ContextAmong cfg turns context ∨
      (turn.goesUp = true ∧
        context = turn.request.clientContext cfg (firstAttributes (turns ++ [turn]))) := by
  constructor
  · rintro ⟨before, one, after, split, up, rfl⟩
    rcases List.eq_nil_or_concat after with rfl | ⟨after, last, rfl⟩
    · obtain ⟨rfl, same⟩ := List.append_inj' split rfl
      cases same
      exact .inr ⟨up, rfl⟩
    · rw [List.concat_eq_append, ← List.cons_append, ← List.append_assoc] at split
      exact .inl ⟨before, one, after, (List.append_inj' split rfl).1, up, rfl⟩
  · rintro (⟨before, one, after, rfl, up, rfl⟩ | ⟨up, rfl⟩)
    · exact ⟨before, one, after ++ [turn], by simp, up, rfl⟩
    · exact ⟨turns, turn, [], rfl, up, rfl⟩

/-- A later request tells what an earlier one told, where the AP repeats the context. -/
theorem RepeatsContext.later {cfg : Config} {turns before between after : List ApTurn}
    {first last : ApTurn} (repeats : RepeatsContext cfg turns)
    (split : turns = before ++ first :: (between ++ last :: after)) (up : first.goesUp = true)
    (up' : last.goesUp = true) :
    last.request.clientContext cfg (firstAttributes (before ++ first :: between ++ [last])) =
      first.request.clientContext cfg (firstAttributes (before ++ [first])) := by
  rw [ApRequest.clientContext_eq_iff]
  refine ⟨repeats.names first (by simp [split]) last (by simp [split]) up up', ?_⟩
  have joined : before ++ first :: between ++ [last] =
      before ++ [first] ++ (between ++ [last]) := by
    simp
  rw [joined, firstAttributes_append]
  split
  next none =>
    rw [none, repeats.attributes before first between last after split up up' none]
    rfl
  next => rfl

/-- **The server is told one context exactly when the AP repeats it.** -/
theorem repeatsContext_iff {cfg : Config} {turns : List ApTurn} :
    RepeatsContext cfg turns ↔
      ∀ context, ContextAmong cfg turns context →
        ∀ context', ContextAmong cfg turns context' → context' = context := by
  constructor
  · rintro repeats _ ⟨before, one, after, split, up, rfl⟩
      _ ⟨before', other, after', split', up', rfl⟩
    rw [split] at split'
    rcases List.append_eq_append_iff.mp split' with ⟨between, rfl, rest⟩ | ⟨between, rfl, rest⟩
    · cases between with
      | nil =>
          cases rest
          rw [List.append_nil]
      | cons _ between =>
          cases rest
          exact repeats.later split up up'
    · cases between with
      | nil =>
          cases rest
          rw [List.append_nil]
      | cons _ between =>
          cases rest
          rw [List.append_assoc] at split
          exact (repeats.later split up' up).symm
  · intro same
    constructor
    · intro one member other member' up up'
      obtain ⟨before, after, rfl⟩ := List.append_of_mem member
      obtain ⟨before', after', split⟩ := List.append_of_mem member'
      have equal := same _ ⟨before, one, after, rfl, up, rfl⟩ _
        ⟨before', other, after', split, up', rfl⟩
      exact (ApRequest.clientContext_eq_iff.mp equal).1
    · intro before first between last after split up up' none
      have equal := same _ ⟨before, first, between ++ last :: after, split, up, rfl⟩ _
        ⟨before ++ first :: between, last, after, by simp [split], up', rfl⟩
      have carried := (ApRequest.clientContext_eq_iff.mp equal).2
      have joined : before ++ first :: between ++ [last] =
          before ++ [first] ++ (between ++ [last]) := by
        simp
      rw [joined, firstAttributes_append, if_pos none, none] at carried
      exact carried

namespace Downstream

open Mediator

variable {env : Env} {fuel : ℕ}

/-- **The attributes of a session as they are carried upstream.** -/
theorem forwardedAttrs_eq {session : Session} (mode : session.mode = env.cfg.sessionMode) :
    env.client.forwardedAttrs session = env.cfg.carried session.apAttrs := by
  rw [UpstreamClient.forwardedAttrs, Config.carried]
  congr 1
  funext attr
  rw [Config.carriedAttr, mode]
  by_cases mtu : attr.1 = .framedMtu
  · cases reassembling : env.cfg.sessionMode with
    | passthrough =>
        simp only [mtu, if_true, reduceCtorEq, and_false, if_false, false_and]
        cases env.client.framedMtuOverride <;> rfl
    | reassemble =>
        simp only [mtu, if_true, and_true, Env.client]
        cases env.cfg.upstream.stripFramedMtu with
        | true => rfl
        | false =>
            cases env.cfg.upstream.framedMtu with
            | none => simp [← mtu]
            | some n => rfl
  · simp [mtu]

/-! ## One request -/

/-- The attributes that the session of a request has from then on. -/
theorem startOf_attributes (addr : String × ℕ) (request : ApRequest) (σ : Server) :
    (startOf env addr request σ).session.apAttrs =
      if ((found env addr request σ).2.objects (found env addr request σ).1).apAttrs = [] then
        request.attributes
      else ((found env addr request σ).2.objects (found env addr request σ).1).apAttrs := rfl

/-- **What the server is told while a request is handled.** -/
theorem handled_clientContext {σ : Server} (regular : σ.Regular env) (addr : String × ℕ)
    (request : ApRequest) {exchange : Exchange}
    (member : exchange ∈ newExchanges (startOf env addr request σ)
      (handled env fuel addr request σ).2) :
    exchange.request.clientContext =
      request.clientContext env.cfg (startOf env addr request σ).session.apAttrs := by
  obtain ⟨_, new, grown, enveloped⟩ := @handled_enveloped env fuel addr request σ
  have same : newExchanges (startOf env addr request σ) (handled env fuel addr request σ).2 = new := by
    rw [newExchanges, grown, List.drop_left]
  have envelope := enveloped exchange (same ▸ member)
  have context := congrArg AccessRequest.clientContext envelope
  have mode := @startOf_mode env σ regular addr request
  refine context.trans ?_
  rw [ApRequest.clientContext, ← forwardedAttrs_eq mode]
  rfl

/-- The attributes of the sessions after a request. -/
theorem handleRequest_attributes (addr : String × ℕ) (request : ApRequest) (σ : Server) (ref : ℕ) :
    ((handleRequest env fuel addr request σ).2.objects ref).apAttrs =
      if ref = (found env addr request σ).1 then (startOf env addr request σ).session.apAttrs
      else ((found env addr request σ).2.objects ref).apAttrs := by
  have kept := congrArg (·.apAttrs) (@handleRequest_unnamed env fuel addr request σ ref)
  refine kept.trans ?_
  show ((afterHandling env fuel addr request σ).objects ref).apAttrs = _
  by_cases here : ref = (found env addr request σ).1
  · rw [if_pos here, here, afterHandling, Server.put_objects_self]
    have identity := (@handled_trail env fuel addr request σ).identity
    exact congrArg (fun session => session.apAttrs) identity
  · rw [if_neg here, afterHandling, Server.put_objects_of_ne _ _ here]

/-! ## Runs -/

/-- The turn of a session that a request makes. -/
def apTurnOf (env : Env) (addr : String × ℕ) (request : ApRequest) (σ : Server) (ref : ℕ) :
    Option ApTurn :=
  if (found env addr request σ).1 = ref then some ⟨request, decide (GoesUp env addr request σ)⟩
  else none

/-- The turn of the session that a datagram makes. -/
def apTurnFor (env : Env) (ref : ℕ) (datagram : Datagram) (σ : Server) : Option ApTurn :=
  match datagram.decoded with
  | .ok request =>
      if Admitted request then apTurnOf env datagram.addr request (σ.woken datagram) ref else none
  | .error _ => none

/-- The requests that a run brings the session `ref`, and which of them go upstream. -/
def apTurnsFor (env : Env) (fuel ref : ℕ) : List Datagram → Server → List ApTurn
  | [], _ => []
  | datagram :: datagrams, σ =>
      (apTurnFor env ref datagram σ).toList ++
        match serve env fuel datagram σ with
        | some σ' => apTurnsFor env fuel ref datagrams σ'
        | none => []

theorem apTurnsFor_concat {datagrams : List Datagram} {datagram : Datagram} (ref : ℕ) :
    ∀ {σ σ' : Server}, run env fuel datagrams σ = some σ' →
      apTurnsFor env fuel ref (datagrams ++ [datagram]) σ =
        apTurnsFor env fuel ref datagrams σ ++ (apTurnFor env ref datagram σ').toList := by
  induction datagrams with
  | nil =>
      intro σ σ' ran
      cases ran
      rw [List.nil_append, apTurnsFor, apTurnsFor, List.nil_append]
      cases serve env fuel datagram σ with
      | none => exact List.append_nil _
      | some σ' => exact List.append_nil _
  | cons first datagrams ih =>
      intro σ σ' ran
      obtain ⟨mid, served, rest⟩ := Option.bind_eq_some_iff.mp ran
      rw [List.cons_append, apTurnsFor, apTurnsFor, served, List.append_assoc]
      exact congrArg _ (ih rest)

/-- What the sessions have captured and the server was told is what the AP told in these turns. -/
structure ContextHistory (env : Env) (turns : ℕ → List ApTurn) (σ : Server) : Prop where
  captured : ∀ ref, (σ.objects ref).apAttrs = firstAttributes (turns ref)
  unborn : ∀ ref, σ.created ≤ ref → turns ref = []
  told : ∀ ref context, (∃ exchange ∈ ownExchanges σ.exchanges ref,
    exchange.request.clientContext = context) ↔ ContextAmong env.cfg (turns ref) context

namespace ContextHistory

variable {turns : ℕ → List ApTurn} {σ : Server}

/-- A session that is created for a request has captured nothing. -/
theorem found (history : ContextHistory env turns σ) (addr : String × ℕ) (request : ApRequest)
    (ref : ℕ) :
    ((found env addr request σ).2.objects ref).apAttrs = firstAttributes (turns ref) := by
  rcases opened_objects σ env (sessionKey request addr request.eap) ref with
    old | ⟨_, fresh, new⟩
  · exact (congrArg Session.apAttrs old).trans (history.captured ref)
  · rw [history.unborn ref fresh.ge]
    exact congrArg Session.apAttrs new

/-- The attributes of a session when its request has been noted. -/
theorem noted (history : ContextHistory env turns σ) (addr : String × ℕ) (request : ApRequest)
    (goesUp : Bool) :
    (startOf env addr request σ).session.apAttrs =
      firstAttributes (turns (Downstream.found env addr request σ).1 ++ [⟨request, goesUp⟩]) := by
  rw [firstAttributes_append, firstAttributes_singleton, startOf_attributes, history.found]

/-- **One request.** -/
theorem handleRequest (valid : env.cfg.validate = .ok ()) (regular : σ.Regular env)
    (history : ContextHistory env turns σ) (addr : String × ℕ) (request : ApRequest) :
    ContextHistory env (fun ref => turns ref ++ (apTurnOf env addr request σ ref).toList)
      (handleRequest env fuel addr request σ).2 where
  captured := by
    intro ref
    rw [handleRequest_attributes, apTurnOf]
    by_cases here : ref = (Downstream.found env addr request σ).1
    · rw [if_pos here, if_pos here.symm, Option.toList_some, here]
      exact history.noted addr request _
    · rw [if_neg here, if_neg (Ne.symm here), Option.toList_none, List.append_nil]
      exact history.found addr request ref
  unborn := by
    intro ref fresh
    have created := @handleRequest_created env fuel σ regular.tabled addr request
    rw [apTurnOf, if_neg (created.2.trans_le fresh).ne, history.unborn ref (created.1.trans fresh)]
    rfl
  told := by
    intro ref context
    rw [own_handleRequest regular, apTurnOf]
    by_cases here : ref = (Downstream.found env addr request σ).1
    · rw [if_pos here, if_pos here.symm, Option.toList_some, contextAmong_concat,
        ← history.told ref context]
      have quiet := @handleRequest_quiet_iff env fuel valid σ regular addr request
      have grows := @handleRequest_grows env fuel addr request σ
      have tells := fun exchange =>
        @handled_clientContext env fuel σ regular addr request exchange
      rw [history.noted addr request (decide (GoesUp env addr request σ)), ← here] at tells
      generalize newExchanges (startOf env addr request σ) (handled env fuel addr request σ).2 = new
        at grows tells
      simp only [List.mem_append, or_and_right, exists_or, decide_eq_true_eq]
      refine or_congr_right ⟨?_, ?_⟩
      · rintro ⟨exchange, member, rfl⟩
        refine ⟨?_, tells exchange member⟩
        by_contra silent
        rw [quiet.mpr silent] at grows
        rw [List.self_eq_append_right.mp grows] at member
        cases member
      · rintro ⟨up, rfl⟩
        have some : new ≠ [] := by
          rintro rfl
          exact quiet.mp (by rw [grows, List.append_nil]) up
        obtain ⟨exchange, member⟩ := List.exists_mem_of_ne_nil new some
        exact ⟨exchange, member, tells exchange member⟩
    · rw [if_neg here, if_neg (Ne.symm here), Option.toList_none, List.append_nil, List.append_nil]
      exact history.told ref context

end ContextHistory

/-- **What the server is told in a run is what the AP told.** -/
theorem contextHistory_of_run (valid : env.cfg.validate = .ok ()) {datagrams : List Datagram}
    {σ : Server} (ran : run env fuel datagrams (initial env) = some σ) :
    ContextHistory env (fun ref => apTurnsFor env fuel ref datagrams (initial env)) σ := by
  refine runAll_history (P := fun datagrams σ => ContextHistory env
    (fun ref => apTurnsFor env fuel ref datagrams (initial env)) σ) ?_ ?_ ran
  · refine ⟨fun _ => rfl, fun _ _ => rfl, fun ref context => iff_of_false ?_ ?_⟩
    · rintro ⟨exchange, member, _⟩
      cases member
    · rintro ⟨before, turn, after, split, _⟩
      cases before <;> cases split
  · intro past datagram σ σ' reached served history
    simp only [apTurnsFor_concat _ reached]
    have woken : ContextHistory env (fun ref => apTurnsFor env fuel ref past (initial env))
        (σ.woken datagram) := ⟨history.captured, history.unborn, history.told⟩
    by_cases comes : ∃ request, datagram.decoded = .ok request ∧ Admitted request
    · obtain ⟨request, decoded, admitted⟩ := comes
      have turn : ∀ ref, apTurnFor env ref datagram σ =
          apTurnOf env datagram.addr request (σ.woken datagram) ref := by
        intro ref
        rw [apTurnFor, decoded]
        exact if_pos admitted
      simp only [turn]
      rw [serve_admitted decoded admitted served]
      exact woken.handleRequest valid (Regular.woken (regular_of_run reached) datagram)
        datagram.addr request
    · have nothing : ∀ ref, apTurnFor env ref datagram σ = none := by
        intro ref
        rw [apTurnFor]
        rcases decoded : datagram.decoded with e | request
        · rfl
        · exact if_neg fun admitted => comes ⟨request, decoded, admitted⟩
      simp only [nothing, Option.toList_none, List.append_nil]
      rw [serve_dropped comes served]
      exact woken

end Downstream

/-- The context on the upstream leg of a run: in every session it is the same in all requests, and
each has the names of a request of the AP, and the attributes that the AP told first in the
session, with Framed-MTU overridden or removed as the configuration has it. -/
structure Server.KeepsContext (env : Env) (fuel : ℕ) (datagrams : List Datagram) (σ : Server) :
    Prop where
  constant : ContextConstant σ.exchanges
  carried : ∀ exchange ∈ σ.exchanges, ContextAmong env.cfg
    (Downstream.apTurnsFor env fuel exchange.session datagrams (Downstream.initial env))
    exchange.request.clientContext

namespace Downstream

variable {env : Env} {fuel : ℕ}

/-- **The context of an authentication is constant exactly when the AP repeats it.** -/
theorem context_constant_iff (valid : env.cfg.validate = .ok ()) {datagrams : List Datagram}
    {σ : Server} (ran : run env fuel datagrams (initial env) = some σ) :
    σ.KeepsContext env fuel datagrams ↔
      ∀ ref, RepeatsContext env.cfg (apTurnsFor env fuel ref datagrams (initial env)) := by
  have told := (contextHistory_of_run valid ran).told
  constructor
  · rintro ⟨constant, _⟩ ref
    rw [repeatsContext_iff]
    intro context among context' among'
    obtain ⟨first, member, rfl⟩ := (told ref context).mpr among
    obtain ⟨later, member', rfl⟩ := (told ref context').mpr among'
    exact constant ref first member later member'
  · intro repeats
    constructor
    · intro ref first member later member'
      exact repeatsContext_iff.mp (repeats ref) _ ((told ref _).mp ⟨first, member, rfl⟩) _
        ((told ref _).mp ⟨later, member', rfl⟩)
    · intro exchange member
      have own : exchange ∈ ownExchanges σ.exchanges exchange.session :=
        List.mem_filter.mpr ⟨member, decide_eq_true rfl⟩
      exact (told exchange.session _).mp ⟨exchange, own, rfl⟩

/-- The first request of an authentication. -/
def identityRequest : ApRequest := requestWith none [codeResponse, 7, 0, 6, 1, 97]

/-- The second request of an authentication. -/
def secondRequest : ApRequest := requestWith (some [0]) [codeResponse, 8, 0, 6, 1, 97]

/-- The request, with a NAS-Port. -/
def fromPort (port : ℕ) (request : ApRequest) : ApRequest :=
  { request with nasAttrs := [(.nasPort, .ok (.integer port))] }

/-- The AP repeats the User-Name `alice`. It is told with the NAS-Port of the first request,
whatever port the second one names. -/
theorem context_constant_sample :
    ∃ σ, run (answering "reassemble" emptyChallenge) 0
        [datagramOf (fromPort 7 identityRequest), datagramOf (fromPort 8 secondRequest)]
        (initial (answering "reassemble" emptyChallenge)) = some σ ∧
      σ.exchanges.map (fun exchange => (exchange.request.userName, exchange.request.forwarded)) =
        [("alice", [(.nasPort, .integer 7)]), ("alice", [(.nasPort, .integer 7)])] ∧
      σ.KeepsContext (answering "reassemble" emptyChallenge) 0
        [datagramOf (fromPort 7 identityRequest), datagramOf (fromPort 8 secondRequest)] := by
  refine ⟨_, rfl, rfl, ?_⟩
  refine (@context_constant_iff (answering "reassemble" emptyChallenge) 0 (by decide)
    [datagramOf (fromPort 7 identityRequest), datagramOf (fromPort 8 secondRequest)] _
    rfl).mpr fun ref => ?_
  cases ref with
  | zero =>
      have turns : apTurnsFor (answering "reassemble" emptyChallenge) 0 0
          [datagramOf (fromPort 7 identityRequest), datagramOf (fromPort 8 secondRequest)]
          (initial (answering "reassemble" emptyChallenge)) =
            [⟨fromPort 7 identityRequest, true⟩, ⟨fromPort 8 secondRequest, true⟩] := rfl
      rw [turns]
      refine @RepeatsContext.of_names _ _ ("alice", none, none) ?_ ?_
      · exact List.forall_mem_cons.mpr ⟨rfl, List.forall_mem_singleton.mpr rfl⟩
      · rintro turn ⟨⟩
        decide
  | succ ref =>
      have turns : apTurnsFor (answering "reassemble" emptyChallenge) 0 (ref + 1)
          [datagramOf (fromPort 7 identityRequest), datagramOf (fromPort 8 secondRequest)]
          (initial (answering "reassemble" emptyChallenge)) = [] := rfl
      rw [turns]
      exact @RepeatsContext.of_names _ _ ("alice", none, none) (by simp) (by simp)

/-- The AP leaves out the User-Name once it has a State: the server gets an empty one. -/
theorem userName_left_out :
    (answering "reassemble" emptyChallenge).cfg.validate = .ok () ∧
    ∃ σ, run (answering "reassemble" emptyChallenge) 0
        [identityDatagram, datagramOf { secondRequest with userName := none }]
        (initial (answering "reassemble" emptyChallenge)) = some σ ∧
      σ.exchanges.map (fun exchange => (exchange.session, exchange.request.userName)) =
        [(0, "alice"), (0, "")] ∧
      ¬ σ.KeepsContext (answering "reassemble" emptyChallenge) 0
        [identityDatagram, datagramOf { secondRequest with userName := none }] := by
  refine ⟨by decide, _, rfl, rfl, fun keeps => ?_⟩
  have same := keeps.constant 0 _ List.mem_cons_self _ (List.mem_cons_of_mem _ List.mem_cons_self)
  exact absurd (congrArg ClientContext.userName same) (by decide)

end Downstream
end EapAccel
