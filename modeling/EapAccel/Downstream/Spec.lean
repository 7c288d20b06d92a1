import EapAccel.Downstream
import EapAccel.EapTls.Grammar
import EapAccel.Mediator.Verdicts

/-!
# What the downstream server does with a request

A request of an AP is handled in three parts: its session object is found or created, the
EAP packet is handled on that object (`Handling`), and the outcome is answered, reported
and booked (`conclude`). `handleRequest_eq` puts the three together. The last part only
renames sessions: exchanges, clock, and the sessions apart from key and State stay as the
second part left them (`conclude_work`).
-/

set_option autoImplicit false

namespace EapAccel

open Foundations EapTls

/-! ## Session objects -/

/-- The state in which one session object is handled. -/
def Server.leg (σ : Server) (ref : ℕ) : Leg := ⟨σ.objects ref, σ.exchanges, σ.clock⟩

/-- The server after the session object has been handled. -/
def Server.put (σ : Server) (ref : ℕ) (leg : Leg) : Server :=
  { σ with
    objects := Function.update σ.objects ref leg.session
    exchanges := leg.exchanges
    clock := leg.clock }

@[simp] theorem Server.leg_put (σ : Server) (ref : ℕ) (leg : Leg) : (σ.put ref leg).leg ref = leg := by
  simp [Server.leg, Server.put]

@[simp] theorem Server.put_put (σ : Server) (ref : ℕ) (leg leg' : Leg) :
    (σ.put ref leg).put ref leg' = σ.put ref leg' := by
  simp [Server.put]

@[simp] theorem Server.put_objects_self (σ : Server) (ref : ℕ) (leg : Leg) :
    (σ.put ref leg).objects ref = leg.session := by
  simp [Server.put]

theorem Server.put_objects_of_ne (σ : Server) {ref other : ℕ} (leg : Leg) (different : other ≠ ref) :
    (σ.put ref leg).objects other = σ.objects other := by
  simp [Server.put, different]

/-- The server after a request for a key nobody holds has created a session. -/
def Server.grow (σ : Server) (env : Env) (key : String) : Server :=
  { σ with
    objects := Function.update σ.objects σ.created (Session.create σ.created key env.cfg σ.clock)
    created := σ.created + 1
    table := dictSet key σ.created σ.table }

/-- The session object for a key, and the server in which it exists. -/
def Server.opened (σ : Server) (env : Env) (key : String) : ℕ × Server :=
  match σ.table.lookup key with
  | some ref => (ref, σ)
  | none => (σ.created, σ.grow env key)

/-- The part of an AP's request that goes along upstream. -/
def ApRequest.context (request : ApRequest) : AuthContext where
  username := request.userName.getD ""
  callingStation := request.callingStationId
  calledStation := request.calledStationId

/-- The EAP packet of an AP's request. -/
def ApRequest.eap (request : ApRequest) : Bytes := request.eapMessage.flatten

namespace Downstream

variable {env : Env} {fuel : ℕ}

theorem getOrCreate_eq (key : String) (σ : Server) :
    getOrCreate env key σ = (.ok (σ.opened env key).1, (σ.opened env key).2) := by
  simp only [getOrCreate, Act.read_bind, Server.opened]
  cases σ.table.lookup key with
  | some ref => rfl
  | none => rfl

theorem onSession_eq {α : Type} (ref : ℕ) (work : Act Raised Leg α) (σ : Server) :
    onSession ref work σ = ((work (σ.leg ref)).1, σ.put ref (work (σ.leg ref)).2) := rfl

/-! ## Noting a request -/

end Downstream

/-- What reading these attributes of a request comes to, and those that were read by then. -/
def ApRequest.capture (request : ApRequest) :
    List ForwardedAttr → Except Raised Unit × List (ForwardedAttr × AttrValue)
  | [] => (.ok (), [])
  | name :: names =>
      match request.nasAttrs.lookup name with
      | none => request.capture names
      | some (.error e) => (.error e, [])
      | some (.ok value) =>
          ((request.capture names).1, (name, value) :: (request.capture names).2)

/-- The attributes that a session captures from a request: those that it has, in the order of
`_FORWARDED_ATTRS`, up to the first one that does not decode. -/
def ApRequest.attributes (request : ApRequest) : List (ForwardedAttr × AttrValue) :=
  (request.capture Downstream.forwardedAttrNames).2

/-- The forwarded attributes of a request decode. -/
def ApRequest.Legible (request : ApRequest) : Prop :=
  (request.capture Downstream.forwardedAttrNames).1 = .ok ()

instance (request : ApRequest) : Decidable request.Legible :=
  inferInstanceAs (Decidable (_ = _))

namespace Downstream

variable {env : Env} {fuel : ℕ}

theorem captureAttrs_eq (request : ApRequest) : ∀ (names : List ForwardedAttr) (leg : Leg),
    captureAttrs request names leg = ((request.capture names).1,
      { leg with session :=
        { leg.session with apAttrs := leg.session.apAttrs ++ (request.capture names).2 } }) := by
  intro names
  induction names with
  | nil =>
      intro leg
      rw [captureAttrs, Act.pure_apply, ApRequest.capture, List.append_nil]
  | cons name names ih =>
      intro leg
      rw [captureAttrs, ApRequest.capture]
      rcases request.nasAttrs.lookup name with _ | (e | value)
      · exact ih leg
      · simp only [Act.lift_error_bind, List.append_nil]
      · simp only [Act.lift_ok_bind, updateSession, Act.modify_bind, ih, List.append_assoc,
          List.singleton_append]

/-- What capturing the attributes of a request comes to: they are captured on first sight. -/
def captured (request : ApRequest) (session : Session) : Except Raised Unit :=
  if session.apAttrs = [] then (request.capture forwardedAttrNames).1 else .ok ()

/-- A request whose forwarded attributes decode can be noted on every session. -/
theorem captured_of_legible {request : ApRequest} (legible : request.Legible) (session : Session) :
    captured request session = .ok () := by
  rw [captured]
  split
  next => exact legible
  next => rfl

/-- A session after a request has been noted. -/
def notedSession (request : ApRequest) (session : Session) : Session :=
  { session with
    lastApAuthenticator := some request.authenticator
    apAttrs := if session.apAttrs = [] then request.attributes else session.apAttrs }

/-- The state in which the EAP packet of a request is handled. -/
def noted (request : ApRequest) (leg : Leg) : Leg :=
  { leg with session := notedSession request leg.session }

theorem noteRequest_eq (request : ApRequest) (leg : Leg) :
    noteRequest request leg = (captured request leg.session, noted request leg) := by
  simp only [noteRequest, updateSession, Act.modify_bind, Act.read_bind]
  by_cases first : leg.session.apAttrs = []
  · rw [if_pos first, captureAttrs_eq, captured, if_pos first]
    simp only [noted, notedSession, first, if_true, List.nil_append, ApRequest.attributes]
  · rw [if_neg first, captured, if_neg first]
    simp only [Act.pure_apply, noted, notedSession, if_neg first]

/-! ## One request -/

/-- The handling of a request on its session: it is noted, and its EAP packet is routed. -/
def handling (env : Env) (fuel : ℕ) (request : ApRequest) : Act Raised Leg Outcome := do
  noteRequest request
  route env fuel request.context request.eap

/-- The EAP packet is handled once the request has been noted. -/
theorem handling_of_captured {request : ApRequest} {leg : Leg}
    (decodes : captured request leg.session = .ok ()) :
    handling env fuel request leg =
      route env fuel request.context request.eap (noted request leg) := by
  refine Act.bind_of_ok (a := ()) ?_
  rw [noteRequest_eq, decodes]

/-- An attribute that does not decode ends the handling. -/
theorem handling_of_undecoded {request : ApRequest} {leg : Leg} {e : Raised}
    (raises : captured request leg.session = .error e) :
    handling env fuel request leg = (.error e, noted request leg) := by
  refine Act.bind_of_error ?_
  rw [noteRequest_eq, raises]

/-- **A request is routed, or noting it raises.** -/
theorem handling_cases (env : Env) (fuel : ℕ) (request : ApRequest) (leg : Leg) :
    (captured request leg.session = .ok () ∧ handling env fuel request leg =
      route env fuel request.context request.eap (noted request leg)) ∨
    ∃ e, captured request leg.session = .error e ∧
      handling env fuel request leg = (.error e, noted request leg) := by
  rcases capture : captured request leg.session with e | done
  · exact .inr ⟨e, rfl, handling_of_undecoded capture⟩
  · exact .inl ⟨rfl, handling_of_captured capture⟩

/-- A handling that returns was routed. -/
theorem handling_of_ok {request : ApRequest} {leg : Leg} {outcome : Outcome}
    (returned : (handling env fuel request leg).1 = .ok outcome) :
    handling env fuel request leg =
      route env fuel request.context request.eap (noted request leg) := by
  rcases handling_cases env fuel request leg with ⟨_, routed⟩ | ⟨e, _, raised⟩
  · exact routed
  · rw [raised] at returned
    cases returned

/-- Answer, report and book the outcome of a handling. -/
def conclude (env : Env) (ref : ℕ) (request : ApRequest) (outcome : Outcome) :
    Act Raised Server Unit := do
  let reply ← buildReply env ref outcome
  sendReply env ref request reply
  reportAndDrop env ref

/-- **A request finds its session, is handled on it, and is answered.** -/
theorem handleRequest_eq (addr : String × ℕ) (request : ApRequest) (σ : Server) :
    handleRequest env fuel addr request σ =
      (let opened := σ.opened env (sessionKey request addr request.eap)
      let handled := handling env fuel request (opened.2.leg opened.1)
      match handled.1 with
      | .ok outcome => conclude env opened.1 request outcome (opened.2.put opened.1 handled.2)
      | .error e => (.error e, opened.2.put opened.1 handled.2)) := by
  generalize hopened : σ.opened env (sessionKey request addr request.eap) = opened
  have opens : getOrCreate env (sessionKey request addr request.eapMessage.flatten) σ =
      (.ok opened.1, opened.2) := by
    rw [getOrCreate_eq, ← hopened]
    rfl
  have notes : onSession opened.1 (noteRequest request) opened.2 =
      (captured request (opened.2.leg opened.1).session,
        opened.2.put opened.1 (noted request (opened.2.leg opened.1))) := by
    rw [onSession_eq, noteRequest_eq]
  have routes : onSession opened.1 (route env fuel request.context request.eap)
      (opened.2.put opened.1 (noted request (opened.2.leg opened.1))) =
        ((route env fuel request.context request.eap (noted request (opened.2.leg opened.1))).1,
          opened.2.put opened.1
            (route env fuel request.context request.eap
              (noted request (opened.2.leg opened.1))).2) := by
    rw [onSession_eq, Server.leg_put, Server.put_put]
  simp only [handleRequest]
  rw [Act.bind_of_ok opens]
  rcases handling_cases env fuel request (opened.2.leg opened.1) with
    ⟨decodes, routed⟩ | ⟨e, raises, handled⟩
  · rw [decodes] at notes
    rw [Act.bind_of_ok notes, routed]
    rcases result : route env fuel request.context request.eap
      (noted request (opened.2.leg opened.1)) with ⟨e | outcome, leg⟩
    · rw [result] at routes
      exact Act.bind_of_error routes
    · rw [result] at routes
      exact Act.bind_of_ok routes
  · rw [raises] at notes
    rw [Act.bind_of_error notes, handled]

/-! ## The reply -/

end Downstream

/-- The RADIUS code of the reply for an action. -/
def Action.code : Action → UInt8
  | .accept => accessAccept
  | .reject => accessReject
  | .ack => accessChallenge
  | .challenge => accessChallenge

/-- The server after the session has got its State, and is found by it. -/
def Server.mint (σ : Server) (env : Env) (ref : ℕ) : Server :=
  let named : Server :=
    { σ with
      minted := σ.minted + 1
      objects := Function.update σ.objects ref
        { σ.objects ref with downstreamState := some (env.token σ.minted) } }
  (Downstream.rekey (σ.objects ref).key ("st:" ++ Downstream.hex (env.token σ.minted)) named).2

/-- The State of the session, and the server in which it has one. -/
def Server.stamped (σ : Server) (env : Env) (ref : ℕ) : Bytes × Server :=
  match (σ.objects ref).downstreamState with
  | some state => (state, σ)
  | none => (env.token σ.minted, σ.mint env ref)

/-- The State that goes with an action, and the server in which the session has it. -/
def Server.addressed (σ : Server) (env : Env) (ref : ℕ) (action : Action) :
    Option Bytes × Server :=
  match action.verdict with
  | some _ => (none, σ)
  | none => (some (σ.stamped env ref).1, (σ.stamped env ref).2)

namespace Downstream

variable {env : Env} {fuel : ℕ}

/-- The reply for an action without EAP: keys with an accept, a State with a challenge. -/
def bareReplyFor (session : Session) (state : Option Bytes) (action : Action) : ApReply where
  code := action.code
  state := state
  msMppeSendKey := if action = .accept then session.msMppeSendKey else none
  msMppeRecvKey := if action = .accept then session.msMppeRecvKey else none

/-- The reply for an outcome. -/
def replyFor (session : Session) (state : Option Bytes) (outcome : Outcome) : ApReply :=
  withEap outcome.eapBytes (bareReplyFor session state outcome.action)

@[simp] theorem withEap_code (eapBytes : Option Bytes) (reply : ApReply) :
    (withEap eapBytes reply).code = reply.code := by
  unfold withEap
  split <;> rfl

@[simp] theorem replyFor_code (session : Session) (state : Option Bytes) (outcome : Outcome) :
    (replyFor session state outcome).code = outcome.action.code := by
  rw [replyFor, withEap_code]
  rfl

theorem challengeState_eq (ref : ℕ) (σ : Server) :
    challengeState env ref σ = (.ok (σ.stamped env ref).1, (σ.stamped env ref).2) := by
  rcases h : (σ.objects ref).downstreamState with _ | state
  · simp only [challengeState, Act.read_bind, h, Server.stamped]
    rfl
  · simp only [challengeState, Act.read_bind, h, Server.stamped]
    rfl

theorem bareReply_eq (ref : ℕ) (action : Action) (σ : Server) :
    bareReply env ref action σ =
      (.ok (bareReplyFor (σ.objects ref) (σ.addressed env ref action).1 action),
        (σ.addressed env ref action).2) := by
  cases action with
  | accept => rfl
  | reject => rfl
  | ack =>
      simp only [bareReply, Act.read_bind]
      rw [Act.bind_of_ok (challengeState_eq ref σ)]
      rfl
  | challenge =>
      simp only [bareReply, Act.read_bind]
      rw [Act.bind_of_ok (challengeState_eq ref σ)]
      rfl

theorem buildReply_eq (ref : ℕ) (outcome : Outcome) (σ : Server) :
    buildReply env ref outcome σ =
      (.ok (replyFor (σ.objects ref) (σ.addressed env ref outcome.action).1 outcome),
        (σ.addressed env ref outcome.action).2) := by
  rw [buildReply, Act.bind_of_ok (bareReply_eq ref outcome.action σ)]
  rfl

/-! ## Answering and reporting -/

/-- The reply to an outcome, and the server that has built it. -/
def answer (env : Env) (ref : ℕ) (request : ApRequest) (outcome : Outcome) (σ : Server) :
    BuiltReply × Server :=
  let addressed := σ.addressed env ref outcome.action
  (⟨ref, request, replyFor (σ.objects ref) addressed.1 outcome, addressed.2.exchanges.length⟩,
    addressed.2)

/-- The server after a reply has been built. -/
def replied (built : BuiltReply) (σ : Server) : Server :=
  { σ with replies := σ.replies ++ [built] }

theorem sendReply_eq (ref : ℕ) (request : ApRequest) (reply : ApReply) (σ : Server) :
    sendReply env ref request reply σ =
      match env.send σ.replies ⟨ref, request, reply, σ.exchanges.length⟩ with
      | .ok _ => (.ok (), replied ⟨ref, request, reply, σ.exchanges.length⟩ σ)
      | .error e => (.error e, replied ⟨ref, request, reply, σ.exchanges.length⟩ σ) := by
  simp only [sendReply, Act.read_bind, Act.modify_bind]
  rcases env.send σ.replies ⟨ref, request, reply, σ.exchanges.length⟩ with e | packet <;> rfl

/-- The server after a session has been reported. -/
def reported (ref : ℕ) (σ : Server) : Server :=
  { σ with reports := σ.reports ++ [(ref, (σ.objects ref).summary)] }

/-- The server after a session has been dropped. -/
def dropped (ref : ℕ) (σ : Server) : Server :=
  { σ with table := dictPop (σ.objects ref).key σ.table }

/-- A finished session is reported and dropped, unless the report fails. -/
theorem reportAndDrop_eq (ref : ℕ) (σ : Server) :
    reportAndDrop env ref σ =
      if (σ.objects ref).result.isSome then
        match env.report σ.reports (ref, (σ.objects ref).summary) with
        | .ok () => (.ok (), dropped ref (reported ref σ))
        | .error e => (.error e, reported ref σ)
      else (.ok (), σ) := by
  simp only [reportAndDrop, Act.read_bind]
  by_cases finished : (σ.objects ref).result.isSome
  · rw [if_pos finished, if_pos finished]
    simp only [Act.modify_bind]
    cases env.report σ.reports (ref, (σ.objects ref).summary) with
    | ok done => rfl
    | error e => rfl
  · rw [if_neg finished, if_neg finished]
    rfl

/-- **An outcome is answered, and its session reported and dropped if it is finished.** -/
theorem conclude_eq (ref : ℕ) (request : ApRequest) (outcome : Outcome) (σ : Server) :
    conclude env ref request outcome σ =
      (let answered := answer env ref request outcome σ
      match env.send answered.2.replies answered.1 with
      | .ok _ => reportAndDrop env ref (replied answered.1 answered.2)
      | .error e => (.error e, replied answered.1 answered.2)) := by
  rw [conclude, Act.bind_of_ok (buildReply_eq ref outcome σ)]
  have sends := @sendReply_eq env ref request
    (replyFor (σ.objects ref) (σ.addressed env ref outcome.action).1 outcome)
    (σ.addressed env ref outcome.action).2
  rcases sent : env.send (answer env ref request outcome σ).2.replies
    (answer env ref request outcome σ).1 with e | packet
  · rw [answer] at sent
    rw [sent] at sends
    rw [Act.bind_of_error sends]
    simp only [answer, sent]
  · rw [answer] at sent
    rw [sent] at sends
    rw [Act.bind_of_ok sends]
    simp only [answer, sent]

/-- Every reply gets out. -/
def Sends (env : Env) : Prop := ∀ before built, ∃ packet, env.send before built = .ok packet

/-- Replies and reports get out. -/
structure Delivers (env : Env) : Prop where
  sends : Sends env
  reports : ∀ before report, env.report before report = .ok ()

/-- A reply that gets out is followed by the report. -/
theorem conclude_of_sends (sends : Sends env) (ref : ℕ) (request : ApRequest) (outcome : Outcome)
    (σ : Server) :
    conclude env ref request outcome σ =
      reportAndDrop env ref
        (replied (answer env ref request outcome σ).1 (answer env ref request outcome σ).2) := by
  obtain ⟨packet, sent⟩ := sends (answer env ref request outcome σ).2.replies
    (answer env ref request outcome σ).1
  rw [conclude_eq]
  simp only [sent]

/-- Dropping a session raises nothing but what the reporter raises. -/
theorem reportAndDrop_raises {e : Raised}
    (reports : ∀ before report, env.report before report ≠ .error e) (ref : ℕ) (σ : Server) :
    (reportAndDrop env ref σ).1 ≠ .error e := by
  rw [reportAndDrop_eq]
  by_cases finished : (σ.objects ref).result.isSome
  · rw [if_pos finished]
    have own := reports σ.reports (ref, (σ.objects ref).summary)
    cases told : env.report σ.reports (ref, (σ.objects ref).summary) with
    | ok done => simp
    | error e' =>
        rw [told] at own
        exact own
  · rw [if_neg finished]
    simp

/-- Where replies and reports get out, concluding raises nothing. -/
theorem conclude_returns (delivers : Delivers env) (ref : ℕ) (request : ApRequest)
    (outcome : Outcome) (σ : Server) : (conclude env ref request outcome σ).1 = .ok () := by
  rw [conclude_of_sends delivers.sends, reportAndDrop_eq]
  split
  · rw [delivers.reports]
  · rfl

/-- Concluding raises nothing but what sending and reporting raise. -/
theorem conclude_raises {e : Raised} (sends : ∀ before built, env.send before built ≠ .error e)
    (reports : ∀ before report, env.report before report ≠ .error e) (ref : ℕ) (request : ApRequest)
    (outcome : Outcome) (σ : Server) : (conclude env ref request outcome σ).1 ≠ .error e := by
  rw [conclude_eq]
  have own := sends (answer env ref request outcome σ).2.replies
    (answer env ref request outcome σ).1
  simp only
  cases sent : env.send (answer env ref request outcome σ).2.replies
      (answer env ref request outcome σ).1 with
  | ok done => exact reportAndDrop_raises reports ref _
  | error e' =>
      intro raised
      apply own
      rw [sent]
      cases raised
      rfl

/-! ## What concluding leaves alone -/

end Downstream

/-- A session without the names it goes by. -/
def Session.unnamed (session : Session) : Session :=
  { session with key := "", downstreamState := none }

/-- What a server holds apart from the names of its sessions, and what it has built. -/
structure Server.Work where
  exchanges : List Exchange
  clock : ℕ
  created : ℕ
  objects : ℕ → Session

def Server.work (σ : Server) : Server.Work where
  exchanges := σ.exchanges
  clock := σ.clock
  created := σ.created
  objects := fun ref => (σ.objects ref).unnamed

namespace Downstream

variable {env : Env} {fuel : ℕ}

/-- Renaming one object leaves the sessions as they are, apart from their names. -/
theorem unnamed_update (objects : ℕ → Session) (ref : ℕ) {session : Session}
    (same : session.unnamed = (objects ref).unnamed) :
    (fun other => (Function.update objects ref session other).unnamed) =
      fun other => (objects other).unnamed := by
  funext other
  by_cases here : other = ref
  · rw [here, Function.update_self, same]
  · rw [Function.update_of_ne here]

theorem rekey_work (oldKey newKey : String) (σ : Server) :
    (rekey oldKey newKey σ).2.work = σ.work := by
  rw [rekey, Act.modify_apply]
  cases σ.table.lookup oldKey with
  | none => rfl
  | some ref =>
      by_cases same : oldKey = newKey
      · simp only [if_pos same]
      · simp only [if_neg same, Server.work, Server.Work.mk.injEq, true_and]
        exact unnamed_update _ _ rfl

/-- What the server has built for APs and reported. -/
def output (σ : Server) : List BuiltReply × List (ℕ × Session.Summary) := (σ.replies, σ.reports)

theorem rekey_output (oldKey newKey : String) (σ : Server) :
    output (rekey oldKey newKey σ).2 = output σ := by
  rw [rekey, Act.modify_apply]
  cases σ.table.lookup oldKey with
  | none => rfl
  | some ref =>
      by_cases same : oldKey = newKey
      · simp only [if_pos same]
      · simp only [if_neg same, output]

theorem addressed_work (ref : ℕ) (action : Action) (σ : Server) :
    (σ.addressed env ref action).2.work = σ.work := by
  rw [Server.addressed]
  cases action.verdict with
  | some v => rfl
  | none =>
      simp only [Server.stamped]
      cases (σ.objects ref).downstreamState with
      | some state => rfl
      | none =>
          refine (rekey_work _ _ _).trans ?_
          simp only [Server.work, Server.Work.mk.injEq, true_and]
          exact unnamed_update _ _ rfl

theorem addressed_output (ref : ℕ) (action : Action) (σ : Server) :
    output (σ.addressed env ref action).2 = output σ := by
  rw [Server.addressed]
  cases action.verdict with
  | some v => rfl
  | none =>
      simp only [Server.stamped]
      cases (σ.objects ref).downstreamState with
      | some state => rfl
      | none => exact rekey_output _ _ _

theorem addressed_replies (ref : ℕ) (action : Action) (σ : Server) :
    (σ.addressed env ref action).2.replies = σ.replies :=
  congrArg Prod.fst (addressed_output ref action σ)

theorem addressed_reports (ref : ℕ) (action : Action) (σ : Server) :
    (σ.addressed env ref action).2.reports = σ.reports :=
  congrArg Prod.snd (addressed_output ref action σ)

theorem reportAndDrop_work (ref : ℕ) (σ : Server) :
    (reportAndDrop env ref σ).2.work = σ.work := by
  rw [reportAndDrop_eq]
  by_cases finished : (σ.objects ref).result.isSome
  · rw [if_pos finished]
    cases env.report σ.reports (ref, (σ.objects ref).summary) with
    | ok done => rfl
    | error e => rfl
  · rw [if_neg finished]

theorem reportAndDrop_replies (ref : ℕ) (σ : Server) :
    (reportAndDrop env ref σ).2.replies = σ.replies := by
  rw [reportAndDrop_eq]
  by_cases finished : (σ.objects ref).result.isSome
  · rw [if_pos finished]
    cases env.report σ.reports (ref, (σ.objects ref).summary) with
    | ok done => rfl
    | error e => rfl
  · rw [if_neg finished]

/-- **Concluding changes nothing but the names of the sessions.** -/
theorem conclude_work (ref : ℕ) (request : ApRequest) (outcome : Outcome) (σ : Server) :
    (conclude env ref request outcome σ).2.work = σ.work := by
  have addressed := @addressed_work env ref outcome.action σ
  rw [conclude_eq]
  simp only
  cases env.send (answer env ref request outcome σ).2.replies
      (answer env ref request outcome σ).1 with
  | ok done => exact (reportAndDrop_work ref _).trans addressed
  | error e => exact addressed

/-- **Concluding builds exactly one reply.** -/
theorem conclude_replies (ref : ℕ) (request : ApRequest) (outcome : Outcome) (σ : Server) :
    (conclude env ref request outcome σ).2.replies =
      σ.replies ++ [(answer env ref request outcome σ).1] := by
  have addressed : (answer env ref request outcome σ).2.replies = σ.replies :=
    addressed_replies ref outcome.action σ
  have replies : (replied (answer env ref request outcome σ).1
      (answer env ref request outcome σ).2).replies =
        σ.replies ++ [(answer env ref request outcome σ).1] := by
    rw [replied, addressed]
  rw [conclude_eq]
  simp only
  cases env.send (answer env ref request outcome σ).2.replies
      (answer env ref request outcome σ).1 with
  | ok done => exact (reportAndDrop_replies ref _).trans replies
  | error e => exact replies

theorem answer_exchangesBefore (ref : ℕ) (request : ApRequest) (outcome : Outcome) (σ : Server) :
    (answer env ref request outcome σ).1.exchangesBefore = σ.exchanges.length :=
  congrArg (fun work => work.exchanges.length) (addressed_work ref outcome.action σ)

/-! ## What a request adds -/

theorem opened_exchanges (σ : Server) (key : String) :
    (σ.opened env key).2.exchanges = σ.exchanges := by
  rw [Server.opened]
  cases σ.table.lookup key <;> rfl

theorem opened_replies (σ : Server) (key : String) :
    (σ.opened env key).2.replies = σ.replies := by
  rw [Server.opened]
  cases σ.table.lookup key <;> rfl

/-- The session object of a request, and the server in which it exists. -/
def found (env : Env) (addr : String × ℕ) (request : ApRequest) (σ : Server) : ℕ × Server :=
  σ.opened env (sessionKey request addr request.eap)

/-- The handling of a request, from the session object it finds. -/
def handled (env : Env) (fuel : ℕ) (addr : String × ℕ) (request : ApRequest) (σ : Server) :
    Except Raised Outcome × Leg :=
  handling env fuel request ((found env addr request σ).2.leg (found env addr request σ).1)

/-- The server after the handling of a request, before the answer. -/
def afterHandling (env : Env) (fuel : ℕ) (addr : String × ℕ) (request : ApRequest) (σ : Server) :
    Server :=
  (found env addr request σ).2.put (found env addr request σ).1 (handled env fuel addr request σ).2

theorem handleRequest_of_ok {addr : String × ℕ} {request : ApRequest} {σ : Server}
    {outcome : Outcome} (returned : (handled env fuel addr request σ).1 = .ok outcome) :
    handleRequest env fuel addr request σ =
      conclude env (found env addr request σ).1 request outcome
        (afterHandling env fuel addr request σ) := by
  rw [handleRequest_eq]
  simp only [handled, found] at returned
  simp only [returned]
  rfl

theorem handleRequest_of_error {addr : String × ℕ} {request : ApRequest} {σ : Server} {e : Raised}
    (raised : (handled env fuel addr request σ).1 = .error e) :
    handleRequest env fuel addr request σ =
      (.error e, afterHandling env fuel addr request σ) := by
  rw [handleRequest_eq]
  simp only [handled, found] at raised
  simp only [raised]
  rfl

/-- **A request does its work in the handling.** -/
theorem handleRequest_work (addr : String × ℕ) (request : ApRequest) (σ : Server) :
    (handleRequest env fuel addr request σ).2.work =
      (afterHandling env fuel addr request σ).work := by
  rcases result : (handled env fuel addr request σ).1 with e | outcome
  · rw [handleRequest_of_error result]
  · rw [handleRequest_of_ok result]
    exact conclude_work _ request outcome _

/-- Only the handling goes upstream. -/
theorem handleRequest_exchanges (addr : String × ℕ) (request : ApRequest) (σ : Server) :
    (handleRequest env fuel addr request σ).2.exchanges =
      (handled env fuel addr request σ).2.exchanges :=
  congrArg (·.exchanges) (handleRequest_work addr request σ)

/-- Only the table creates a session. -/
theorem handleRequest_created_eq (addr : String × ℕ) (request : ApRequest) (σ : Server) :
    (handleRequest env fuel addr request σ).2.created = (found env addr request σ).2.created :=
  congrArg (·.created) (handleRequest_work addr request σ)

/-- After the handling the sessions only change their names. -/
theorem handleRequest_unnamed (addr : String × ℕ) (request : ApRequest) (σ : Server) (ref : ℕ) :
    ((handleRequest env fuel addr request σ).2.objects ref).unnamed =
      ((afterHandling env fuel addr request σ).objects ref).unnamed :=
  congrFun (congrArg (·.objects) (handleRequest_work addr request σ)) ref

/-- **A request whose handling raises is not answered.** -/
theorem handleRequest_silent {addr : String × ℕ} {request : ApRequest} {σ : Server} {e : Raised}
    (raised : (handled env fuel addr request σ).1 = .error e) :
    (handleRequest env fuel addr request σ).2.replies = σ.replies := by
  rw [handleRequest_of_error raised]
  exact opened_replies σ _

/-- **Any other request is answered once, as its outcome has it.** -/
theorem handleRequest_answers {addr : String × ℕ} {request : ApRequest} {σ : Server}
    {outcome : Outcome} (returned : (handled env fuel addr request σ).1 = .ok outcome) :
    (handleRequest env fuel addr request σ).2.replies = σ.replies ++
      [(answer env (found env addr request σ).1 request outcome
        (afterHandling env fuel addr request σ)).1] := by
  rw [handleRequest_of_ok returned, conclude_replies]
  congr 1
  exact opened_replies σ _

theorem answer_code (ref : ℕ) (request : ApRequest) (outcome : Outcome) (σ : Server) :
    (answer env ref request outcome σ).1.reply.code = outcome.action.code :=
  replyFor_code _ _ _

/-! ## One datagram -/

end Downstream

/-- The server when a datagram is received. -/
def Server.woken (σ : Server) (datagram : Datagram) : Server :=
  { σ with clock := max σ.clock datagram.receivedAt }

namespace Downstream

variable {env : Env} {fuel : ℕ}

/-- An admitted request is handled. -/
theorem serve_admitted {datagram : Datagram} {request : ApRequest} {σ σ' : Server}
    (decoded : datagram.decoded = .ok request) (admitted : Admitted request)
    (served : serve env fuel datagram σ = some σ') :
    σ' = (handleRequest env fuel datagram.addr request (σ.woken datagram)).2 := by
  rw [serve] at served
  split at served
  · cases served
  · cases served
    rw [handleDatagram, decoded, Act.bind_lift_ok, Act.ite_apply, if_pos admitted]
    rfl

/-- A datagram without an admitted request is dropped. -/
theorem serve_dropped {datagram : Datagram} {σ σ' : Server}
    (nothing : ¬ ∃ request, datagram.decoded = .ok request ∧ Admitted request)
    (served : serve env fuel datagram σ = some σ') : σ' = σ.woken datagram := by
  rw [serve] at served
  split at served
  · cases served
  · cases served
    rw [handleDatagram]
    rcases decoded : datagram.decoded with e | request
    · rfl
    · have refused : ¬ Admitted request := fun admitted => nothing ⟨request, decoded, admitted⟩
      rw [Act.bind_lift_ok, Act.ite_apply, if_neg refused]
      rfl

/-- **A turn drops the datagram, or handles the request in it.** -/
theorem serve_cases {datagram : Datagram} {σ σ' : Server}
    (served : serve env fuel datagram σ = some σ') :
    σ' = σ.woken datagram ∨ ∃ request, datagram.decoded = .ok request ∧ Admitted request ∧
      σ' = (handleRequest env fuel datagram.addr request (σ.woken datagram)).2 := by
  by_cases comes : ∃ request, datagram.decoded = .ok request ∧ Admitted request
  · obtain ⟨request, decoded, admitted⟩ := comes
    exact .inr ⟨request, decoded, admitted, serve_admitted decoded admitted served⟩
  · exact .inl (serve_dropped comes served)

/-! ## Malformed packets -/

/-- **Malformed framing is reported as an `EapTlsError`, unless the packet ends before its
flags octet.** What `parse` raises on a packet that is routed to the mediator is what its
handling raises. -/
theorem malformed_reported_iff (env : Env) (fuel : ℕ) :
    (∀ packet, (∀ e, parse packet = .error e → IsEapTlsError e) ↔ ¬ EndsBeforeFlags packet) ∧
    ∀ context eapBytes leg, eapBytes[4]? = some eapTypeTls →
      (∀ e, parse eapBytes = .error e → route env fuel context eapBytes leg = (.error e, leg)) ∧
      ((∀ e, parse eapBytes = .error e → IsEapTlsError e) ↔
        (eapBytes.length = 5 → 5 < declaredLen eapBytes)) := by
  refine ⟨reported_iff, fun context eapBytes leg tls => ⟨fun e raised => ?_, ?_⟩⟩
  · rw [route, if_pos tls]
    exact Mediator.handle_unparsed raised
  · refine (reported_iff eapBytes).trans ⟨fun whole five => ?_, fun exceeds ends => ?_⟩
    · by_contra covered
      exact whole ⟨five, tls, Nat.not_lt.mp covered⟩
    · exact absurd (exceeds ends.1) (Nat.not_lt.mpr ends.2.2)

/-- Surroundings in which the server stays silent. -/
def unanswered (mode : String) : Env where
  cfg := Config.sample mode
  respond := fun _ _ => .error .timeout
  token := fun n => [UInt8.ofNat n]

/-- Five octets of the EAP-TLS type that declare nine. -/
theorem malformed_reported_sample :
    ∃ message, (route (unanswered "reassemble") 0 ⟨"", none, none⟩ [2, 7, 0, 9, 13]
      ((initial (unanswered "reassemble")).leg 0)).1 = .error (.eapTlsError message) := by
  obtain ⟨escapes, reports⟩ := (malformed_reported_iff (unanswered "reassemble") 0).2 ⟨"", none, none⟩
    [2, 7, 0, 9, 13] ((initial (unanswered "reassemble")).leg 0) rfl
  have raises : ∃ e, parse [2, 7, 0, 9, 13] = .error e :=
    ⟨_, (parse_five rfl).trans (if_pos (by decide))⟩
  obtain ⟨e, raised⟩ := raises
  obtain ⟨message, rfl⟩ := reports.mpr (fun _ => by decide) e raised
  exact ⟨message, congrArg Prod.fst (escapes _ raised)⟩

/-- An EAP-TLS packet of five octets raises an `IndexError`. -/
theorem five_octets_raise :
    [(2 : UInt8), 7, 0, 5, 13][4]? = some eapTypeTls ∧
      parse [2, 7, 0, 5, 13] = .error .indexError ∧
      ¬ ∀ e, parse [2, 7, 0, 5, 13] = .error e → IsEapTlsError e := by
  have raises : parse [2, 7, 0, 5, 13] = .error .indexError := by decide
  refine ⟨rfl, raises, fun reported => ?_⟩
  obtain ⟨message, same⟩ := reported _ raises
  cases same

end Downstream
end EapAccel
