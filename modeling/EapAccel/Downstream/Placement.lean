import EapAccel.Downstream.Reachable
import EapAccel.Mediator.Agreement

/-!
# One authentication among others

The table of the server has room for many authentications at once. Where each has keys of
its own, a request under the keys of one spares the sessions and the entries under other
keys (`handleRequest_spares`), and does to its own what it would do to them in a server
that holds nothing else (`handleRequest_projects`). `Server.Projects` says where the
sessions of the smaller server are in the larger one.
-/

set_option autoImplicit false

namespace EapAccel

open Foundations EapTls

/-! ## What a request spares -/

/-- From `σ` to `σ'` nothing has changed but under `theirs`, the keys of one
authentication. -/
structure Server.Spares (theirs : String → Prop) (σ σ' : Server) : Prop where
  found : ∀ key, ¬ theirs key → σ'.table.lookup key = σ.table.lookup key
  session : ∀ ref < σ.created, ¬ theirs (σ.objects ref).key → σ'.objects ref = σ.objects ref
  created : σ.created ≤ σ'.created

namespace Server.Spares

variable {theirs : String → Prop} {σ σ' σ'' : Server}

theorem refl (σ : Server) : Server.Spares theirs σ σ :=
  ⟨fun _ _ => rfl, fun _ _ _ => rfl, le_rfl⟩

theorem trans (first : Server.Spares theirs σ σ') (rest : Server.Spares theirs σ' σ'') :
    Server.Spares theirs σ σ'' := by
  refine ⟨?_, ?_, first.created.trans rest.created⟩
  · intro key other
    exact (rest.found key other).trans (first.found key other)
  · intro ref there other
    have same := first.session ref there other
    rw [← same] at other ⊢
    exact rest.session ref (there.trans_le first.created) other

end Server.Spares

namespace Downstream

open Mediator

variable {env : Env} {fuel : ℕ} {theirs : String → Prop}

theorem opened_spares {σ : Server} {key : String} (own : theirs key) :
    Server.Spares theirs σ (σ.opened env key).2 := by
  rcases opened_cases σ env key with ⟨_, same⟩ | ⟨_, grown⟩
  · rw [same]
    exact Server.Spares.refl σ
  · rw [grown]
    refine ⟨?_, ?_, Nat.le_succ _⟩
    · intro other foreign
      refine lookup_dictSet_of_ne ?_ σ.table
      rintro rfl
      exact foreign own
    · intro ref there _
      exact Function.update_of_ne there.ne _ _

theorem put_spares {σ : Server} {ref : ℕ} (own : theirs (σ.objects ref).key) (leg : Leg) :
    Server.Spares theirs σ (σ.put ref leg) := by
  refine ⟨fun _ _ => rfl, ?_, le_rfl⟩
  intro other _ foreign
  refine σ.put_objects_of_ne leg ?_
  rintro rfl
  exact foreign own

/-- The key under which a session stands once it has got the next State. -/
def mintedKey (env : Env) (σ : Server) : String := "st:" ++ hex (env.token σ.minted)

/-- A session with the next State, under its key. -/
def withState (env : Env) (σ : Server) (session : Session) : Session :=
  { session with downstreamState := some (env.token σ.minted), key := mintedKey env σ }

theorem mint_objects {σ : Server} {ref : ℕ} (found : σ.Found ref) :
    (σ.mint env ref).objects =
      Function.update σ.objects ref (withState env σ (σ.objects ref)) := by
  rw [mint_eq found]
  split
  · next same =>
      have own : withState env σ (σ.objects ref) =
          { σ.objects ref with downstreamState := some (env.token σ.minted) } := by
        rw [withState, mintedKey, ← same]
      rw [own]
  · rfl

theorem mint_minted {σ : Server} {ref : ℕ} (found : σ.Found ref) :
    (σ.mint env ref).minted = σ.minted + 1 := by
  rw [mint_eq found]
  split <;> rfl

/-- A session that gets a State is found by it. -/
theorem mint_lookup_new {σ : Server} {ref : ℕ} (found : σ.Found ref) :
    (σ.mint env ref).table.lookup (mintedKey env σ) = some ref := by
  rw [mint_eq found]
  split
  · next same =>
      rw [mintedKey, ← same]
      exact found
  · exact lookup_dictSet_self _ _ _

/-- It is not found any more by another key that it had. -/
theorem mint_lookup_old {σ : Server} {ref : ℕ} (found : σ.Found ref)
    (different : (σ.objects ref).key ≠ mintedKey env σ) :
    (σ.mint env ref).table.lookup (σ.objects ref).key = none := by
  rw [mint_eq found]
  split
  · next same => exact absurd same different
  · exact (lookup_dictSet_of_ne different _).trans (lookup_dictPop_self _ _)

/-- Other keys find what they found. -/
theorem mint_lookup_of_ne {σ : Server} {ref : ℕ} {key : String} (found : σ.Found ref)
    (old : key ≠ (σ.objects ref).key) (new : key ≠ mintedKey env σ) :
    (σ.mint env ref).table.lookup key = σ.table.lookup key := by
  rw [mint_eq found]
  split
  · rfl
  · exact (lookup_dictSet_of_ne new _).trans (lookup_dictPop_of_ne old _)

theorem mint_created (σ : Server) (ref : ℕ) : (σ.mint env ref).created = σ.created := by
  refine (congrArg Server.Work.created (rekey_work _ _ _)).trans ?_
  rfl

theorem mint_key {σ : Server} {ref : ℕ} (found : σ.Found ref) :
    ((σ.mint env ref).objects ref).key = mintedKey env σ := by
  rw [mint_objects found, Function.update_self]
  rfl

theorem mint_spares {σ : Server} {ref : ℕ} (found : σ.Found ref)
    (own : theirs (σ.objects ref).key) (minted : theirs (mintedKey env σ)) :
    Server.Spares theirs σ (σ.mint env ref) := by
  refine ⟨?_, ?_, (mint_created σ ref).ge⟩
  · intro key foreign
    refine mint_lookup_of_ne found ?_ ?_
    · rintro rfl
      exact foreign own
    · rintro rfl
      exact foreign minted
  · intro other _ foreign
    rw [mint_objects found]
    refine Function.update_of_ne ?_ _ _
    rintro rfl
    exact foreign own

/-- The session gets a State now. -/
def Mints (σ : Server) (ref : ℕ) (action : Action) : Prop :=
  action.verdict = none ∧ (σ.objects ref).downstreamState = none

theorem addressed_of_mints {σ : Server} {ref : ℕ} {action : Action} (mints : Mints σ ref action) :
    σ.addressed env ref action = (some (env.token σ.minted), σ.mint env ref) := by
  rw [Server.addressed, mints.1]
  simp only [Server.stamped, mints.2]

theorem addressed_of_not_mints {σ : Server} {ref : ℕ} {action : Action}
    (keeps : ¬ Mints σ ref action) :
    σ.addressed env ref action =
      (if action.verdict = none then (σ.objects ref).downstreamState else none, σ) := by
  rw [Server.addressed]
  cases verdict : action.verdict with
  | some v => rfl
  | none =>
      rcases stated : (σ.objects ref).downstreamState with _ | state
      · exact absurd ⟨verdict, stated⟩ keeps
      · simp only [Server.stamped, stated]
        rfl

/-- The State tokens drawn from `σ` to `σ'`. -/
def drawn (env : Env) (σ σ' : Server) : List Bytes :=
  (List.range' σ.minted (σ'.minted - σ.minted)).map env.token

theorem drawn_same {σ σ' : Server} (same : σ'.minted = σ.minted) : drawn env σ σ' = [] := by
  rw [drawn, same, Nat.sub_self]
  rfl

theorem drawn_once {σ σ' : Server} (next : σ'.minted = σ.minted + 1) :
    drawn env σ σ' = [env.token σ.minted] := by
  rw [drawn, next, Nat.add_sub_cancel_left]
  rfl

theorem reportAndDrop_spares {σ : Server} {ref : ℕ} (own : theirs (σ.objects ref).key) :
    Server.Spares theirs σ (reportAndDrop env ref σ).2 := by
  rw [reportAndDrop_eq]
  by_cases finished : (σ.objects ref).result.isSome
  · rw [if_pos finished]
    cases env.report σ.reports (ref, (σ.objects ref).summary) with
    | error e => exact ⟨fun _ _ => rfl, fun _ _ _ => rfl, le_rfl⟩
    | ok done =>
        refine ⟨?_, fun _ _ _ => rfl, le_rfl⟩
        intro key foreign
        refine lookup_dictPop_of_ne ?_ σ.table
        rintro rfl
        exact foreign own
  · rw [if_neg finished]
    exact Server.Spares.refl σ

theorem reportAndDrop_minted (ref : ℕ) (σ : Server) :
    (reportAndDrop env ref σ).2.minted = σ.minted := by
  rw [reportAndDrop_eq]
  by_cases finished : (σ.objects ref).result.isSome
  · rw [if_pos finished]
    cases env.report σ.reports (ref, (σ.objects ref).summary) with
    | error e => rfl
    | ok done => rfl
  · rw [if_neg finished]

theorem conclude_minted (ref : ℕ) (request : ApRequest) (outcome : Outcome) (σ : Server) :
    (conclude env ref request outcome σ).2.minted = (σ.addressed env ref outcome.action).2.minted := by
  rw [conclude_eq]
  simp only
  cases env.send (answer env ref request outcome σ).2.replies
      (answer env ref request outcome σ).1 with
  | error e => rfl
  | ok done => exact reportAndDrop_minted ref _

/-- Concluding spares what is under other keys. -/
theorem conclude_spares {σ : Server} {ref : ℕ} {request : ApRequest} {outcome : Outcome}
    (found : σ.Found ref) (own : theirs (σ.objects ref).key)
    (tokens : ∀ token ∈ drawn env σ (conclude env ref request outcome σ).2,
      theirs ("st:" ++ hex token)) :
    Server.Spares theirs σ (conclude env ref request outcome σ).2 := by
  have addressed : Server.Spares theirs σ (σ.addressed env ref outcome.action).2 ∧
      theirs ((σ.addressed env ref outcome.action).2.objects ref).key := by
    by_cases mints : Mints σ ref outcome.action
    · have minted : theirs (mintedKey env σ) := by
        refine tokens _ ?_
        rw [drawn_once]
        · exact List.mem_singleton_self _
        · rw [conclude_minted, addressed_of_mints mints, mint_minted found]
      rw [addressed_of_mints mints, mint_key found]
      exact ⟨mint_spares found own minted, minted⟩
    · rw [addressed_of_not_mints mints]
      exact ⟨Server.Spares.refl σ, own⟩
  have sends : Server.Spares theirs σ (replied (answer env ref request outcome σ).1
      (answer env ref request outcome σ).2) :=
    ⟨addressed.1.found, addressed.1.session, addressed.1.created⟩
  rw [conclude_eq]
  simp only
  cases env.send (answer env ref request outcome σ).2.replies
      (answer env ref request outcome σ).1 with
  | error e => exact sends
  | ok done => exact sends.trans (reportAndDrop_spares addressed.2)

theorem found_key {σ : Server} (tabled : σ.Tabled) (addr : String × ℕ) (request : ApRequest) :
    ((found env addr request σ).2.objects (found env addr request σ).1).key =
      sessionKey request addr request.eap :=
  opened_key tabled _

theorem opened_minted (σ : Server) (key : String) :
    (σ.opened env key).2.minted = σ.minted := by
  rw [Server.opened]
  cases σ.table.lookup key <;> rfl

theorem afterHandling_minted (addr : String × ℕ) (request : ApRequest) (σ : Server) :
    (afterHandling env fuel addr request σ).minted = σ.minted :=
  opened_minted σ _

theorem drawn_from {σ₁ σ₂ σ' : Server} (same : σ₁.minted = σ₂.minted) :
    drawn env σ₁ σ' = drawn env σ₂ σ' := by
  rw [drawn, same, drawn]

/-- **A request spares what is under the keys of others.** -/
theorem handleRequest_spares {σ : Server} (tabled : σ.Tabled) {addr : String × ℕ}
    {request : ApRequest} (own : theirs (sessionKey request addr request.eap))
    (tokens : ∀ token ∈ drawn env σ (handleRequest env fuel addr request σ).2,
      theirs ("st:" ++ hex token)) :
    Server.Spares theirs σ (handleRequest env fuel addr request σ).2 := by
  have opened : theirs ((found env addr request σ).2.objects (found env addr request σ).1).key := by
    rw [found_key tabled]
    exact own
  have key : theirs ((afterHandling env fuel addr request σ).objects
      (found env addr request σ).1).key := by
    rw [afterHandling, Server.put_objects_self, handled_key]
    exact opened
  have put : Server.Spares theirs σ (afterHandling env fuel addr request σ) :=
    (opened_spares own).trans (put_spares opened _)
  rcases result : (handled env fuel addr request σ).1 with e | outcome
  · rw [handleRequest_of_error result]
    exact put
  · rw [handleRequest_of_ok result] at tokens ⊢
    refine put.trans (conclude_spares ?_ key ?_)
    · exact put_found (opened_found tabled _) (handled_key addr request σ)
    · rwa [drawn_from (afterHandling_minted addr request σ)]

/-! ## Handling a request twice -/

section Twice

variable {sound : Leg → Prop} {rel : Leg → Leg → Prop} {own : Env}
  (rule : TwinRule sound rel env.client own.client)

include rule

theorem passthroughNonTls_twice (context : AuthContext) (eapBytes : Bytes) :
    Act.Simulates sound rel (passthroughNonTls env context eapBytes)
      (passthroughNonTls own context eapBytes) := by
  refine Act.Simulates.bind (rule.exchange eapBytes context) fun reply => ?_
  refine Act.Simulates.ite (Act.Simulates.bind (rule.finish _) fun _ => Act.Simulates.pure _) ?_
  exact Act.Simulates.ite (Act.Simulates.bind (rule.finish _) fun _ => Act.Simulates.pure _)
    (Act.Simulates.pure _)

/-- **Where the mediator does the same, so does the routing.** -/
theorem route_twice (context : AuthContext) (eapBytes : Bytes) :
    Act.Simulates sound rel (route env fuel context eapBytes) (route own fuel context eapBytes) :=
  Act.Simulates.ite (rule.handleSupplicantEap context eapBytes)
    (passthroughNonTls_twice rule context eapBytes)

theorem captureAttrs_twice (request : ApRequest) : ∀ names,
    Act.Simulates sound rel (captureAttrs request names) (captureAttrs request names) := by
  intro names
  induction names with
  | nil => exact Act.Simulates.pure _
  | cons name names ih =>
      rw [captureAttrs]
      cases request.nasAttrs.lookup name with
      | none => exact ih
      | some decoded =>
          refine Act.Simulates.bind (Act.Simulates.lift _) fun value => ?_
          exact Act.Simulates.bind (rule.update fun _ => rfl) fun _ => ih

/-- A request is noted alike. -/
theorem noteRequest_twice (request : ApRequest) :
    Act.Simulates sound rel (noteRequest request) (noteRequest request) := by
  refine Act.Simulates.bind (rule.update fun _ => rfl) fun _ => ?_
  refine rule.read (fun _ => rfl) (fun _ => rfl) fun session => ?_
  exact Act.Simulates.ite (captureAttrs_twice rule request _) (Act.Simulates.pure _)

/-- **So is the whole handling.** -/
theorem handling_twice (request : ApRequest) :
    Act.Simulates sound rel (handling env fuel request) (handling own fuel request) :=
  Act.Simulates.bind (noteRequest_twice rule request) fun _ =>
    route_twice rule request.context request.eap

end Twice

end Downstream

/-! ## A smaller server in a larger one -/

/-- The sessions and entries of `σ` under `keys` are those of `own`, in which there is
nothing else: the session `ref` of `own` is the session `place ref` of `σ`. -/
structure Server.Projects (keys : String → Prop) (place : ℕ → ℕ) (σ own : Server) : Prop where
  found : ∀ key, keys key → σ.table.lookup key = (own.table.lookup key).map place
  session : ∀ ref < own.created, (own.objects ref).timeless = (σ.objects (place ref)).timeless
  keyed : ∀ ref < own.created, keys (own.objects ref).key
  stated : ∀ ref < own.created, ∀ state, (own.objects ref).downstreamState = some state →
    keys ("st:" ++ Downstream.hex state)
  placed : ∀ ref < own.created, place ref < σ.created
  apart : ∀ ref < own.created, ∀ other < own.created, place ref = place other → ref = other

/-- A reply to an AP, without the session it is for. -/
def BuiltReply.content (sent : BuiltReply) : ApRequest × ApReply := (sent.answers, sent.reply)

/-- The surroundings of a server in which one authentication is handled alone. -/
structure Env.Alone (answer : List AccessRequest → AccessRequest → Except Raised RadiusReply)
    (env own : Env) : Prop where
  cfg : own.cfg = env.cfg
  encodeOctets : own.encodeOctets = env.encodeOctets
  replyPacket : own.replyPacket = env.replyPacket
  answers : ∀ before request,
    own.client.answer before request = answer (before.map Exchange.request) request
  transmit : ∀ before before' sent sent', sent'.answers = sent.answers →
    sent'.reply = sent.reply → own.transmit before' sent' = env.transmit before sent
  report : ∀ before before' ref ref', ∀ session session' : Session,
    session'.timeless = session.timeless →
      own.report before' (ref', session'.summary) = env.report before (ref, session.summary)

theorem Env.Alone.client {env own : Env}
    {answer : List AccessRequest → AccessRequest → Except Raised RadiusReply}
    (alone : Env.Alone answer env own) :
    UpstreamClient.Alone answer env.client own.client := by
  refine ⟨?_, ?_, fun request => ?_, alone.answers⟩
  · rw [Env.client, Env.client, alone.cfg]
  · rw [Env.client, Env.client, alone.cfg]
  · have encodes : own.client.encodeOctets = env.client.encodeOctets := alone.encodeOctets
    rw [UpstreamClient.encode, UpstreamClient.encode, encodes]

/-- The same reply is sent alike. -/
theorem Env.Alone.send {env own : Env}
    {answer : List AccessRequest → AccessRequest → Except Raised RadiusReply}
    (alone : Env.Alone answer env own) (before before' : List BuiltReply) {built built' : BuiltReply}
    (answers : built'.answers = built.answers) (reply : built'.reply = built.reply) :
    own.send before' built' = env.send before built := by
  have wire : own.wire = env.wire := by
    funext reply
    rw [Env.wire, Env.wire, alone.encodeOctets, alone.replyPacket]
  rw [Env.send, Env.send, wire, reply, alone.transmit before before' built built' answers reply]

namespace Downstream

open Mediator

variable {env own : Env} {fuel : ℕ} {keys theirs : String → Prop} {place : ℕ → ℕ}
  {σ τ : Server}
  {responds : List AccessRequest → AccessRequest → Except Raised RadiusReply}

theorem Projects.key (projects : σ.Projects keys place τ) {ref : ℕ} (there : ref < τ.created) :
    (σ.objects (place ref)).key = (τ.objects ref).key :=
  (timeless_eq Session.key (fun _ => rfl) (projects.session ref there)).symm

/-- What is spared stays where it is. -/
theorem Projects.spared (projects : σ.Projects keys place τ) {σ' : Server}
    (spares : Server.Spares theirs σ σ') (foreign : ∀ key, keys key → ¬ theirs key) :
    σ'.Projects keys place τ := by
  refine ⟨?_, ?_, projects.keyed, projects.stated, ?_, projects.apart⟩
  · intro key held
    exact (spares.found key (foreign key held)).trans (projects.found key held)
  · intro ref there
    rw [spares.session _ (projects.placed ref there)]
    · exact projects.session ref there
    · rw [Projects.key projects there]
      exact foreign _ (projects.keyed ref there)
  · exact fun ref there => (projects.placed ref there).trans_le spares.created

/-- The keys find the same sessions when one is created in both servers. -/
theorem Projects.lookup_grow (projects : σ.Projects keys place τ) (tabled : τ.Tabled)
    (key : String) {other : String} (held : keys other) :
    (σ.grow env key).table.lookup other =
      ((τ.grow own key).table.lookup other).map (Function.update place τ.created σ.created) := by
  show (dictSet key σ.created σ.table).lookup other =
    ((dictSet key τ.created τ.table).lookup other).map _
  by_cases same : other = key
  · rw [same, lookup_dictSet_self, lookup_dictSet_self, Option.map_some, Function.update_self]
  · rw [lookup_dictSet_of_ne same, lookup_dictSet_of_ne same, projects.found other held]
    cases entry : τ.table.lookup other with
    | none => rfl
    | some ref =>
        rw [Option.map_some, Option.map_some,
          Function.update_of_ne (tabled _ (mem_of_lookup entry)).1.ne]

/-- A session is created in both servers. -/
theorem Projects.grow (projects : σ.Projects keys place τ) (tabled : τ.Tabled)
    (cfg : own.cfg = env.cfg) {key : String} (held : keys key) :
    (σ.grow env key).Projects keys (Function.update place τ.created σ.created)
      (τ.grow own key) := by
  have placed : ∀ ref, ref < τ.created →
      Function.update place τ.created σ.created ref = place ref :=
    fun ref old => Function.update_of_ne old.ne _ _
  refine ⟨fun other held => Projects.lookup_grow projects tabled key held, ?_, ?_, ?_, ?_, ?_⟩
  · intro ref there
    rcases Nat.lt_succ_iff_lt_or_eq.mp there with old | rfl
    · rw [placed ref old]
      have elsewhere := (projects.placed ref old).ne
      simp only [Server.grow, Function.update_of_ne old.ne, Function.update_of_ne elsewhere]
      exact projects.session ref old
    · simp only [Server.grow, Function.update_self, cfg]
      rfl
  · intro ref there
    rcases Nat.lt_succ_iff_lt_or_eq.mp there with old | rfl
    · simp only [Server.grow, Function.update_of_ne old.ne]
      exact projects.keyed ref old
    · simp only [Server.grow, Function.update_self]
      exact held
  · intro ref there state
    rcases Nat.lt_succ_iff_lt_or_eq.mp there with old | rfl
    · simp only [Server.grow, Function.update_of_ne old.ne]
      exact projects.stated ref old state
    · simp only [Server.grow, Function.update_self]
      rintro ⟨⟩
  · intro ref there
    rcases Nat.lt_succ_iff_lt_or_eq.mp there with old | rfl
    · rw [placed ref old]
      exact Nat.lt_succ_of_lt (projects.placed ref old)
    · rw [Function.update_self]
      exact Nat.lt_succ_self _
  · intro ref there other there'
    rcases Nat.lt_succ_iff_lt_or_eq.mp there with old | rfl
    · rcases Nat.lt_succ_iff_lt_or_eq.mp there' with old' | rfl
      · rw [placed ref old, placed other old']
        exact projects.apart ref old other old'
      · rw [placed ref old, Function.update_self]
        exact fun same => absurd same (projects.placed ref old).ne
    · rcases Nat.lt_succ_iff_lt_or_eq.mp there' with old' | rfl
      · rw [placed other old', Function.update_self]
        exact fun same => absurd same.symm (projects.placed other old').ne
      · exact fun _ => rfl

/-- **A session is found in both servers, or created in both.** -/
theorem Projects.opened (projects : σ.Projects keys place τ) (tabled : τ.Tabled)
    (cfg : own.cfg = env.cfg) {key : String} (held : keys key) :
    ∃ place', (σ.opened env key).2.Projects keys place' (τ.opened own key).2 ∧
      (σ.opened env key).1 = place' (τ.opened own key).1 := by
  have found := projects.found key held
  cases there : τ.table.lookup key with
  | some ref =>
      rw [there, Option.map_some] at found
      rw [opened_of_lookup there, opened_of_lookup found]
      exact ⟨place, projects, rfl⟩
  | none =>
      rw [there, Option.map_none] at found
      rw [opened_of_none there, opened_of_none found]
      refine ⟨_, Projects.grow projects tabled cfg held, ?_⟩
      exact (Function.update_self τ.created σ.created place).symm

/-- One session changes in both servers, and the table as it does in both. -/
theorem Projects.updated (projects : σ.Projects keys place τ) {σ' τ' : Server} {ref : ℕ}
    {session session' : Session} (there : ref < τ.created)
    (objects : σ'.objects = Function.update σ.objects (place ref) session)
    (objects' : τ'.objects = Function.update τ.objects ref session')
    (created : σ'.created = σ.created) (created' : τ'.created = τ.created)
    (found : ∀ key, keys key → σ'.table.lookup key = (τ'.table.lookup key).map place)
    (twin : session'.timeless = session.timeless) (keyed : keys session'.key)
    (stated : ∀ state, session'.downstreamState = some state → keys ("st:" ++ hex state)) :
    σ'.Projects keys place τ' := by
  refine ⟨found, ?_, ?_, ?_, ?_, ?_⟩
  · intro other there'
    rw [created'] at there'
    rw [objects, objects']
    by_cases same : other = ref
    · rw [same, Function.update_self, Function.update_self]
      exact twin
    · have elsewhere : place other ≠ place ref :=
        fun together => same (projects.apart other there' ref there together)
      rw [Function.update_of_ne same, Function.update_of_ne elsewhere]
      exact projects.session other there'
  · intro other there'
    rw [created'] at there'
    rw [objects']
    by_cases same : other = ref
    · rw [same, Function.update_self]
      exact keyed
    · rw [Function.update_of_ne same]
      exact projects.keyed other there'
  · intro other there'
    rw [created'] at there'
    rw [objects']
    by_cases same : other = ref
    · rw [same, Function.update_self]
      exact stated
    · rw [Function.update_of_ne same]
      exact projects.stated other there'
  · intro other there'
    rw [created'] at there'
    rw [created]
    exact projects.placed other there'
  · intro other there' third there''
    rw [created'] at there' there''
    exact projects.apart other there' third there''

/-- What is written to a session is written to it in both servers. -/
theorem Projects.put (projects : σ.Projects keys place τ) {ref : ℕ} (there : ref < τ.created)
    {leg leg' : Leg} (twin : leg'.session.timeless = leg.session.timeless)
    (key : leg'.session.key = (τ.objects ref).key)
    (state : leg'.session.downstreamState = (τ.objects ref).downstreamState) :
    (σ.put (place ref) leg).Projects keys place (τ.put ref leg') := by
  refine Projects.updated projects there rfl rfl rfl rfl projects.found twin ?_ ?_
  · rw [key]
    exact projects.keyed ref there
  · rw [state]
    exact projects.stated ref there

theorem Projects.isFound (projects : σ.Projects keys place τ) {ref : ℕ} (there : ref < τ.created)
    (found : τ.Found ref) : σ.Found (place ref) := by
  have lookup : τ.table.lookup (τ.objects ref).key = some ref := found
  rw [Server.Found, Projects.key projects there, projects.found _ (projects.keyed ref there),
    lookup]
  rfl

/-- Taking the next State moves a session to the same key in both tables. -/
theorem Projects.mint_lookup (projects : σ.Projects keys place τ) {ref : ℕ}
    (there : ref < τ.created) (found : τ.Found ref) (sameKey : mintedKey own τ = mintedKey env σ)
    {key : String} (held : keys key) :
    (σ.mint env (place ref)).table.lookup key = ((τ.mint own ref).table.lookup key).map place := by
  have found' := Projects.isFound projects there found
  have own_key := Projects.key projects there
  by_cases new : key = mintedKey env σ
  · rw [new, mint_lookup_new found', ← sameKey, mint_lookup_new found]
    rfl
  · by_cases old : key = (τ.objects ref).key
    · have different : (τ.objects ref).key ≠ mintedKey own τ := by
        rw [sameKey, ← old]
        exact new
      have different' : (σ.objects (place ref)).key ≠ mintedKey env σ := by
        rw [own_key, ← old]
        exact new
      have lookup := @mint_lookup_old env σ (place ref) found' different'
      rw [own_key] at lookup
      rw [old, lookup, mint_lookup_old found different]
      rfl
    · rw [mint_lookup_of_ne found' (own_key ▸ old) new,
        mint_lookup_of_ne found old (sameKey ▸ new)]
      exact projects.found key held

/-- **A session gets the same State in both servers.** -/
theorem Projects.mint (projects : σ.Projects keys place τ) {ref : ℕ} (there : ref < τ.created)
    (found : τ.Found ref) (token : own.token τ.minted = env.token σ.minted)
    (held : keys (mintedKey env σ)) :
    (σ.mint env (place ref)).Projects keys place (τ.mint own ref) := by
  have sameKey : mintedKey own τ = mintedKey env σ := by rw [mintedKey, token, mintedKey]
  have minted : keys (mintedKey own τ) := by rwa [sameKey]
  refine Projects.updated projects there (mint_objects (Projects.isFound projects there found))
    (mint_objects found) (mint_created _ _) (mint_created _ _)
    (fun key => Projects.mint_lookup projects there found sameKey) ?_ minted ?_
  · have states : withState own τ (τ.objects ref) = withState env σ (τ.objects ref) := by
      rw [withState, withState, sameKey, token]
    rw [states]
    exact congrArg (withState env σ) (projects.session ref there)
  · rintro state ⟨⟩
    exact minted

/-- **The same State goes with a reply in both servers.** -/
theorem Projects.addressed (projects : σ.Projects keys place τ) {ref : ℕ}
    (there : ref < τ.created) (found : τ.Found ref) {action : Action}
    (tokens : ∀ token ∈ drawn env σ (σ.addressed env (place ref) action).2,
      own.token τ.minted = token ∧ keys ("st:" ++ hex token)) :
    (τ.addressed own ref action).1 = (σ.addressed env (place ref) action).1 ∧
      (σ.addressed env (place ref) action).2.Projects keys place (τ.addressed own ref action).2 ∧
      drawn own τ (τ.addressed own ref action).2 =
        drawn env σ (σ.addressed env (place ref) action).2 := by
  have state : (τ.objects ref).downstreamState = (σ.objects (place ref)).downstreamState :=
    timeless_eq Session.downstreamState (fun _ => rfl) (projects.session ref there)
  have both : Mints τ ref action ↔ Mints σ (place ref) action := by
    rw [Mints, Mints, state]
  by_cases mints : Mints σ (place ref) action
  · have once : drawn env σ (σ.addressed env (place ref) action).2 = [env.token σ.minted] := by
      rw [addressed_of_mints mints]
      exact drawn_once (mint_minted (Projects.isFound projects there found))
    have once' : drawn own τ (τ.addressed own ref action).2 = [own.token τ.minted] := by
      rw [addressed_of_mints (both.mpr mints)]
      exact drawn_once (mint_minted found)
    obtain ⟨token, held⟩ := tokens (env.token σ.minted) (by rw [once]; exact List.mem_singleton_self _)
    rw [once, once', addressed_of_mints mints, addressed_of_mints (both.mpr mints), token]
    exact ⟨rfl, Projects.mint projects there found token held, rfl⟩
  · rw [addressed_of_not_mints mints, addressed_of_not_mints (fun m => mints (both.mp m)), state,
      drawn_same rfl, drawn_same rfl]
    exact ⟨rfl, projects, rfl⟩

/-- **A finished session is reported and dropped in both servers.** -/
theorem Projects.reportAndDrop (alone : Env.Alone responds env own)
    (projects : σ.Projects keys place τ) {ref : ℕ} (there : ref < τ.created) :
    (reportAndDrop own ref τ).1 = (reportAndDrop env (place ref) σ).1 ∧
      (reportAndDrop env (place ref) σ).2.Projects keys place (reportAndDrop own ref τ).2 := by
  have result : (τ.objects ref).result = (σ.objects (place ref)).result :=
    timeless_eq Session.result (fun _ => rfl) (projects.session ref there)
  have report := alone.report σ.reports τ.reports (place ref) ref _ _ (projects.session ref there)
  have key := Projects.key projects there
  rw [reportAndDrop_eq, reportAndDrop_eq, result, report]
  by_cases finished : (σ.objects (place ref)).result.isSome
  · rw [if_pos finished, if_pos finished]
    cases env.report σ.reports (place ref, (σ.objects (place ref)).summary) with
    | error e =>
        exact ⟨rfl, projects.found, projects.session, projects.keyed, projects.stated,
          projects.placed, projects.apart⟩
    | ok done =>
        refine ⟨rfl, ?_, projects.session, projects.keyed, projects.stated, projects.placed,
          projects.apart⟩
        intro other held
        show (dictPop (σ.objects (place ref)).key σ.table).lookup other =
          ((dictPop (τ.objects ref).key τ.table).lookup other).map place
        rw [key]
        by_cases same : other = (τ.objects ref).key
        · rw [same, lookup_dictPop_self, lookup_dictPop_self]
          rfl
        · rw [lookup_dictPop_of_ne same, lookup_dictPop_of_ne same]
          exact projects.found other held
  · rw [if_neg finished, if_neg finished]
    exact ⟨rfl, projects⟩

theorem replyFor_timeless {session session' : Session}
    (timeless : session'.timeless = session.timeless) (state : Option Bytes) (outcome : Outcome) :
    replyFor session' state outcome = replyFor session state outcome :=
  timeless_eq (fun s => replyFor s state outcome) (fun _ => rfl) timeless

theorem drawn_conclude (ref : ℕ) (request : ApRequest) (outcome : Outcome) (σ : Server) :
    drawn env σ (conclude env ref request outcome σ).2 =
      drawn env σ (σ.addressed env ref outcome.action).2 := by
  rw [drawn, conclude_minted, drawn]

theorem answer_state (env : Env) (ref : ℕ) (request : ApRequest) (outcome : Outcome) (σ : Server) :
    (answer env ref request outcome σ).1.reply.state = (σ.addressed env ref outcome.action).1 := by
  show (withEap outcome.eapBytes (bareReplyFor _ _ _)).state = _
  unfold withEap
  split <;> rfl

/-- A reply carries a State of its own authentication. -/
theorem Projects.answer_state (projects : σ.Projects keys place τ) {ref : ℕ}
    (there : ref < τ.created) (found : τ.Found ref) {request : ApRequest} {outcome : Outcome}
    {state : Bytes} (tokens : ∀ token ∈ drawn env σ (conclude env (place ref) request outcome σ).2,
      keys ("st:" ++ hex token))
    (carried : (answer env (place ref) request outcome σ).1.reply.state = some state) :
    keys ("st:" ++ hex state) := by
  rw [Downstream.answer_state] at carried
  by_cases mints : Mints σ (place ref) outcome.action
  · rw [addressed_of_mints mints] at carried
    cases carried
    refine tokens _ ?_
    rw [drawn_conclude, addressed_of_mints mints,
      drawn_once (mint_minted (Projects.isFound projects there found))]
    exact List.mem_singleton_self _
  · rw [addressed_of_not_mints mints] at carried
    by_cases challenge : outcome.action.verdict = none
    · rw [if_pos challenge] at carried
      refine projects.stated ref there state ?_
      rw [← carried]
      exact timeless_eq Session.downstreamState (fun _ => rfl) (projects.session ref there)
    · rw [if_neg challenge] at carried
      cases carried

/-- **An outcome is answered alike in both servers.** -/
theorem Projects.conclude (alone : Env.Alone responds env own) (projects : σ.Projects keys place τ)
    {ref : ℕ} (there : ref < τ.created) (found : τ.Found ref) {request : ApRequest}
    {outcome : Outcome}
    (tokens : ∀ token ∈ drawn env σ (conclude env (place ref) request outcome σ).2,
      own.token τ.minted = token ∧ keys ("st:" ++ hex token)) :
    (conclude own ref request outcome τ).1 = (conclude env (place ref) request outcome σ).1 ∧
      (conclude env (place ref) request outcome σ).2.Projects keys place
        (conclude own ref request outcome τ).2 ∧
      (answer own ref request outcome τ).1.reply =
        (answer env (place ref) request outcome σ).1.reply ∧
      drawn own τ (conclude own ref request outcome τ).2 =
        drawn env σ (conclude env (place ref) request outcome σ).2 := by
  rw [drawn_conclude] at tokens
  rw [drawn_conclude, drawn_conclude]
  obtain ⟨state, addressed, same⟩ := Projects.addressed projects there found tokens
  have reply : (answer own ref request outcome τ).1.reply =
      (answer env (place ref) request outcome σ).1.reply := by
    show replyFor (τ.objects ref) (τ.addressed own ref outcome.action).1 outcome =
      replyFor (σ.objects (place ref)) (σ.addressed env (place ref) outcome.action).1 outcome
    rw [state]
    exact replyFor_timeless (projects.session ref there) _ _
  have sends := @Env.Alone.send env own responds alone
    (answer env (place ref) request outcome σ).2.replies
    (answer own ref request outcome τ).2.replies (answer env (place ref) request outcome σ).1
    (answer own ref request outcome τ).1 rfl reply
  have sent : (replied (answer env (place ref) request outcome σ).1
      (answer env (place ref) request outcome σ).2).Projects keys place
        (replied (answer own ref request outcome τ).1 (answer own ref request outcome τ).2) :=
    ⟨addressed.found, addressed.session, addressed.keyed, addressed.stated, addressed.placed,
      addressed.apart⟩
  have exists_after : ref < (τ.addressed own ref outcome.action).2.created := by
    have created := congrArg Server.Work.created (@addressed_work own ref outcome.action τ)
    exact there.trans_eq created.symm
  rw [conclude_eq, conclude_eq]
  simp only [sends]
  cases env.send (answer env (place ref) request outcome σ).2.replies
      (answer env (place ref) request outcome σ).1 with
  | error e => exact ⟨rfl, sent, reply, same⟩
  | ok done =>
      obtain ⟨result, dropped⟩ := Projects.reportAndDrop alone sent exists_after
      exact ⟨result, dropped, reply, same⟩

/-! ## One turn -/

/-- What one turn of the server adds: to what is said to the upstream server, to the
replies to the AP, and to the State tokens drawn. -/
structure Turn where
  exchanges : List Said
  replies : List (ApRequest × ApReply)
  tokens : List Bytes
  deriving DecidableEq

/-- The turn from `σ` to `σ'`. -/
def turnOf (env : Env) (σ σ' : Server) : Turn where
  exchanges := (σ'.exchanges.drop σ.exchanges.length).map Exchange.said
  replies := (σ'.replies.drop σ.replies.length).map BuiltReply.content
  tokens := drawn env σ σ'

/-- From `σ` to `σ'` one server does for an authentication what the other one, which has only
this authentication, does from `τ` to `τ'`; and it says nothing of other authentications. -/
structure HandledAlike (env own : Env) (keys : String → Prop) (σ τ σ' τ' : Server) : Prop where
  projects : ∃ place, σ'.Projects keys place τ'
  turn : turnOf own τ τ' = turnOf env σ σ'
  states : ∀ answered ∈ (turnOf env σ σ').replies, ∀ state, answered.2.state = some state →
    keys ("st:" ++ hex state)

theorem turn_eq {σ' τ' : Server}
    (said : (τ'.exchanges.drop τ.exchanges.length).map Exchange.said =
      (σ'.exchanges.drop σ.exchanges.length).map Exchange.said)
    (answered : (τ'.replies.drop τ.replies.length).map BuiltReply.content =
      (σ'.replies.drop σ.replies.length).map BuiltReply.content)
    (tokens : drawn own τ τ' = drawn env σ σ') : turnOf own τ τ' = turnOf env σ σ' := by
  rw [turnOf, turnOf, said, answered, tokens]

/-- A request whose handling raises adds no reply. -/
theorem answered_silent {addr : String × ℕ} {request : ApRequest} {e : Raised}
    (raised : (handled env fuel addr request σ).1 = .error e) :
    (handleRequest env fuel addr request σ).2.replies.drop σ.replies.length = [] := by
  rw [handleRequest_silent raised, List.drop_length]

/-- Any other request adds one reply. -/
theorem answered_once {addr : String × ℕ} {request : ApRequest} {outcome : Outcome}
    (returned : (handled env fuel addr request σ).1 = .ok outcome) :
    (handleRequest env fuel addr request σ).2.replies.drop σ.replies.length =
      [(answer env (found env addr request σ).1 request outcome
        (afterHandling env fuel addr request σ)).1] := by
  rw [handleRequest_answers returned, List.drop_left]

/-- A request finds twin legs. -/
theorem Projects.leg {place' : ℕ → ℕ} {addr : String × ℕ} {request : ApRequest}
    (opened : (Downstream.found env addr request σ).2.Projects keys place'
      (Downstream.found own addr request τ).2)
    (there : (Downstream.found own addr request τ).1 < (Downstream.found own addr request τ).2.created)
    (placed : (Downstream.found env addr request σ).1 =
      place' (Downstream.found own addr request τ).1) :
    Leg.Twin (τ.exchanges.map Exchange.said) σ.exchanges.length
      ((Downstream.found env addr request σ).2.leg (Downstream.found env addr request σ).1)
      ((Downstream.found own addr request τ).2.leg (Downstream.found own addr request τ).1) := by
  have before : (Downstream.found env addr request σ).2.exchanges = σ.exchanges :=
    opened_exchanges σ _
  have before' : (Downstream.found own addr request τ).2.exchanges = τ.exchanges :=
    opened_exchanges τ _
  refine ⟨?_, ?_, ?_⟩
  · have session := opened.session _ there
    rwa [← placed] at session
  · simp only [Leg.saidSince, Server.leg, before, before', List.drop_length, List.map_nil,
      List.append_nil]
  · simp only [Server.leg, before, Nat.le_refl]

/-- **A request is handled alike in both servers**, as long as the upstream server answers
its authentication as it would have answered it alone, and the same tokens are drawn. -/
theorem handleRequest_projects (alone : Env.Alone responds env own)
    (projects : σ.Projects keys place τ) (tabled : τ.Tabled) {addr : String × ℕ}
    {request : ApRequest} (held : keys (sessionKey request addr request.eap))
    (told : Converses responds [] (τ.exchanges.map Exchange.said ++
      (turnOf env σ (handleRequest env fuel addr request σ).2).exchanges))
    (tokens : ∀ token ∈ drawn env σ (handleRequest env fuel addr request σ).2,
      own.token τ.minted = token ∧ keys ("st:" ++ hex token)) :
    (handleRequest own fuel addr request τ).1 = (handleRequest env fuel addr request σ).1 ∧
      HandledAlike env own keys σ τ (handleRequest env fuel addr request σ).2
        (handleRequest own fuel addr request τ).2 := by
  obtain ⟨place', opened, placed⟩ :
      ∃ place', (found env addr request σ).2.Projects keys place' (found own addr request τ).2 ∧
        (found env addr request σ).1 = place' (found own addr request τ).1 :=
    Projects.opened projects tabled alone.cfg held
  have isFound : (found own addr request τ).2.Found (found own addr request τ).1 :=
    opened_found tabled _
  have there : (found own addr request τ).1 < (found own addr request τ).2.created :=
    (opened_tabled tabled _ _ (mem_of_lookup isFound)).1
  have twin := Projects.leg opened there placed
  have ended : Leg.Told responds (τ.exchanges.map Exchange.said) σ.exchanges.length
      (handled env fuel addr request σ).2 := by
    rwa [turnOf, handleRequest_exchanges] at told
  obtain ⟨same, after⟩ := (handling_twice (agrees_rule alone.client) request).same _ _ twin ended
  have put : (afterHandling env fuel addr request σ).Projects keys place'
      (afterHandling own fuel addr request τ) := by
    rw [afterHandling, placed]
    exact Projects.put opened there after.session (handled_key addr request τ)
      (handled_downstreamState addr request τ)
  have said : ((handleRequest own fuel addr request τ).2.exchanges.drop τ.exchanges.length).map
      Exchange.said = (turnOf env σ (handleRequest env fuel addr request σ).2).exchanges := by
    rw [turnOf, handleRequest_exchanges, handleRequest_exchanges, List.map_drop]
    refine (congrArg (List.drop τ.exchanges.length) after.said).trans ?_
    exact List.drop_left' (List.length_map _)
  rcases result : (handled env fuel addr request σ).1 with e | outcome
  · have result' : (handled own fuel addr request τ).1 = .error e := same.trans result
    refine ⟨?_, ⟨place', ?_⟩, turn_eq said ?_ ?_, ?_⟩
    · rw [handleRequest_of_error result, handleRequest_of_error result']
    · rw [handleRequest_of_error result, handleRequest_of_error result']
      exact put
    · rw [answered_silent result, answered_silent result']
    · rw [handleRequest_of_error result, handleRequest_of_error result',
        drawn_same (afterHandling_minted addr request τ),
        drawn_same (afterHandling_minted addr request σ)]
    · intro answered member
      rw [turnOf, answered_silent result] at member
      cases member
  · have result' : (handled own fuel addr request τ).1 = .ok outcome := same.trans result
    have minted := @afterHandling_minted own fuel addr request τ
    have minted' := @afterHandling_minted env fuel addr request σ
    rw [handleRequest_of_ok result, placed, ← drawn_from minted', ← minted] at tokens
    have kept : (afterHandling own fuel addr request τ).Found (found own addr request τ).1 :=
      put_found isFound (handled_key addr request τ)
    obtain ⟨raised, concluded, reply, drawn⟩ := Projects.conclude alone put there kept tokens
    refine ⟨?_, ⟨place', ?_⟩, turn_eq said ?_ ?_, ?_⟩
    · rw [handleRequest_of_ok result, handleRequest_of_ok result', placed]
      exact raised
    · rw [handleRequest_of_ok result, handleRequest_of_ok result', placed]
      exact concluded
    · rw [answered_once result, answered_once result', placed]
      exact congrArg (fun r => [(request, r)]) reply
    · rw [handleRequest_of_ok result, handleRequest_of_ok result', placed, ← drawn_from minted,
        ← drawn_from minted']
      exact drawn
    · intro answered member state carried
      rw [turnOf, answered_once result, placed] at member
      rw [List.mem_singleton.mp member] at carried
      exact Projects.answer_state put there kept (fun token member => (tokens token member).2)
        carried

/-! ## One datagram -/

/-- The key that the request in a datagram looks up. -/
def Datagram.Under (keys : String → Prop) (datagram : Datagram) : Prop :=
  ∀ request, datagram.decoded = .ok request →
    keys (sessionKey request datagram.addr request.eap)

theorem serve_tabled {datagram : Datagram} {σ' : Server} (tabled : σ.Tabled)
    (served : serve env fuel datagram σ = some σ') : σ'.Tabled := by
  have waiting : (σ.woken datagram).Tabled := tabled
  rcases serve_cases served with rfl | ⟨request, _, _, rfl⟩
  · exact waiting
  · exact handleRequest_tabled waiting datagram.addr request

/-- A turn draws one State token at most. -/
theorem serve_minted {datagram : Datagram} {σ' : Server} (tabled : σ.Tabled)
    (served : serve env fuel datagram σ = some σ') :
    σ'.minted = σ.minted ∨ σ'.minted = σ.minted + 1 := by
  have waiting : (σ.woken datagram).Tabled := tabled
  rcases serve_cases served with rfl | ⟨request, _, _, rfl⟩
  · exact .inl rfl
  · have before := @afterHandling_minted env fuel datagram.addr request (σ.woken datagram)
    rcases result : (handled env fuel datagram.addr request (σ.woken datagram)).1 with e | outcome
    · rw [handleRequest_of_error result]
      exact .inl before
    · rw [handleRequest_of_ok result, conclude_minted]
      have found : (afterHandling env fuel datagram.addr request (σ.woken datagram)).Found
          (Downstream.found env datagram.addr request (σ.woken datagram)).1 :=
        put_found (opened_found waiting _) (handled_key datagram.addr request _)
      rcases addressed_cases (afterHandling env fuel datagram.addr request (σ.woken datagram)) env
          (Downstream.found env datagram.addr request (σ.woken datagram)).1 outcome.action with
        same | minted
      · rw [same]
        exact .inl before
      · rw [minted, mint_minted found, before]
        exact .inr rfl

/-- **A turn spares what is under the keys of others.** -/
theorem serve_spares {datagram : Datagram} {σ' : Server} (tabled : σ.Tabled)
    (served : serve env fuel datagram σ = some σ') (under : Datagram.Under theirs datagram)
    (tokens : ∀ token ∈ drawn env σ σ', theirs ("st:" ++ hex token)) :
    Server.Spares theirs σ σ' := by
  have waiting : (σ.woken datagram).Tabled := tabled
  rcases serve_cases served with rfl | ⟨request, decoded, _, rfl⟩
  · exact ⟨fun _ _ => rfl, fun _ _ _ => rfl, le_rfl⟩
  · have spares := handleRequest_spares waiting (under request decoded) tokens
    exact ⟨spares.found, spares.session, spares.created⟩

theorem Projects.untouched (projects : σ.Projects keys place τ) :
    HandledAlike env own keys σ τ σ τ := by
  refine ⟨⟨place, projects⟩, turn_eq ?_ ?_ ?_, ?_⟩
  · rw [List.drop_length, List.drop_length]
  · rw [List.drop_length, List.drop_length]
  · rw [drawn_same rfl, drawn_same rfl]
  · intro answered member
    simp [turnOf] at member

theorem handleDatagram_projects (alone : Env.Alone responds env own)
    (projects : σ.Projects keys place τ) (tabled : τ.Tabled) {datagram : Datagram}
    (under : Datagram.Under keys datagram)
    (told : Converses responds [] (τ.exchanges.map Exchange.said ++
      (turnOf env σ (handleDatagram env fuel datagram σ).2).exchanges))
    (tokens : ∀ token ∈ drawn env σ (handleDatagram env fuel datagram σ).2,
      own.token τ.minted = token ∧ keys ("st:" ++ hex token)) :
    (handleDatagram own fuel datagram τ).1 = (handleDatagram env fuel datagram σ).1 ∧
      HandledAlike env own keys σ τ (handleDatagram env fuel datagram σ).2
        (handleDatagram own fuel datagram τ).2 := by
  rcases decoded : datagram.decoded with e | request
  · have drops : ∀ (e' : Env) (s : Server), handleDatagram e' fuel datagram s = (.error e, s) := by
      intro e' s
      rw [handleDatagram, decoded]
      rfl
    rw [drops, drops]
    exact ⟨rfl, Projects.untouched projects⟩
  · by_cases admitted : Admitted request
    · have handles : ∀ e' : Env, handleDatagram e' fuel datagram =
          handleRequest e' fuel datagram.addr request := by
        intro e'
        rw [handleDatagram, decoded, Act.bind_lift_ok, if_pos admitted]
      rw [handles] at told tokens
      rw [handles, handles]
      exact handleRequest_projects alone projects tabled (under request decoded) told tokens
    · have drops : ∀ (e' : Env) (s : Server), handleDatagram e' fuel datagram s = (.ok (), s) := by
        intro e' s
        rw [handleDatagram, decoded, Act.bind_lift_ok, if_neg admitted]
        rfl
      rw [drops, drops]
      exact ⟨rfl, Projects.untouched projects⟩

/-- **A turn does the same in both servers.** -/
theorem serve_projects (alone : Env.Alone responds env own)
    (projects : σ.Projects keys place τ) (tabled : τ.Tabled) {datagram : Datagram} {σ' : Server}
    (served : serve env fuel datagram σ = some σ') (under : Datagram.Under keys datagram)
    (told : Converses responds []
      (τ.exchanges.map Exchange.said ++ (turnOf env σ σ').exchanges))
    (tokens : ∀ token ∈ drawn env σ σ', own.token τ.minted = token ∧ keys ("st:" ++ hex token)) :
    ∃ τ', serve own fuel datagram τ = some τ' ∧ HandledAlike env own keys σ τ σ' τ' := by
  have waiting : (σ.woken datagram).Projects keys place (τ.woken datagram) :=
    ⟨projects.found, projects.session, projects.keyed, projects.stated, projects.placed,
      projects.apart⟩
  rw [serve] at served
  split at served
  · cases served
  · next ended =>
      cases served
      obtain ⟨same, alike⟩ := @handleDatagram_projects env own fuel keys place (σ.woken datagram)
        (τ.woken datagram) responds alone waiting tabled datagram under told tokens
      refine ⟨(handleDatagram own fuel datagram (τ.woken datagram)).2, ?_, alike.projects,
        alike.turn, alike.states⟩
      have ends : (handleDatagram own fuel datagram (τ.woken datagram)).1 ≠ .error .outOfFuel := by
        rw [same]
        exact ended
      rw [serve]
      exact if_neg ends

end Downstream
end EapAccel
