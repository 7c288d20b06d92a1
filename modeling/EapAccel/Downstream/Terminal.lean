import EapAccel.Downstream.Reachable

/-!
# Terminal replies

When the server accepts or rejects, nothing more should be asked of it for that session,
and the AP should be told the same. Pulling the server's record and polling do so. The
loop over the chunks of a record does not: it sends the next chunk whatever came back for
the last one. So a handling stops at the first verdict exactly when no chunk before the
last one of its record is answered with a verdict (`Handled.stops_iff`).

For whole runs the session must also be forgotten: it is dropped once the reply and the
report have gone out (`Orderly`).
-/

set_option autoImplicit false

namespace EapAccel.Downstream

open Foundations EapTls Mediator

variable {env : Env} {fuel : ℕ}

/-! ## One handling -/

/-- An exchange that brings a verdict is the last one, and the AP is told that verdict. -/
def StopsAtVerdict (new : List Exchange) (result : Except Raised Outcome) : Prop :=
  ∀ before exchange after v, new = before ++ exchange :: after → exchange.verdict = some v →
    after = [] ∧ ∃ outcome, result = .ok outcome ∧ outcome.action.verdict = some v

/-- None of the exchanges brought a verdict. -/
def Silent (exchanges : List Exchange) : Prop :=
  ∀ exchange ∈ exchanges, exchange.verdict = none

theorem Silent.append {first rest : List Exchange} (silent : Silent first)
    (silent' : Silent rest) : Silent (first ++ rest) := by
  intro exchange member
  rcases List.mem_append.mp member with early | late
  · exact silent exchange early
  · exact silent' exchange late

/-- Where nothing brings a verdict there is nothing to stop at. -/
theorem Silent.stops {new : List Exchange} (silent : Silent new) (result : Except Raised Outcome) :
    StopsAtVerdict new result := by
  intro before exchange after v split verdict
  rw [silent exchange (by rw [split]; simp)] at verdict
  cases verdict

/-- A verdict on the last exchange only. -/
theorem stops_of_last {init : List Exchange} {last : Exchange} {v : Verdict} {outcome : Outcome}
    (silent : Silent init) (verdict : last.verdict = some v)
    (told : outcome.action.verdict = some v) :
    StopsAtVerdict (init ++ [last]) (.ok outcome) := by
  intro before exchange after v' split verdict'
  rcases List.eq_nil_or_concat after with rfl | ⟨after, final, rfl⟩
  · obtain ⟨_, same⟩ := List.append_inj' split rfl
    cases same
    rw [verdict] at verdict'
    cases verdict'
    exact ⟨rfl, outcome, rfl, told⟩
  · rw [List.concat_eq_append, ← List.cons_append, ← List.append_assoc] at split
    obtain ⟨same, _⟩ := List.append_inj' split rfl
    rw [silent exchange (by rw [same]; simp)] at verdict'
    cases verdict'

/-- An exchange that brings a verdict and is followed by another one is not stopped at. -/
theorem StopsAtVerdict.silent_of_more {early late : List Exchange} {result : Except Raised Outcome}
    (stops : StopsAtVerdict (early ++ late) result)
    (more : late ≠ [] ∨ ∀ outcome v, result = .ok outcome → outcome.action.verdict ≠ some v) :
    Silent early := by
  intro exchange member
  by_contra some
  obtain ⟨v, verdict⟩ := Option.ne_none_iff_exists'.mp some
  obtain ⟨before, after, rfl⟩ := List.append_of_mem member
  obtain ⟨none, outcome, returned, told⟩ := stops before exchange (after ++ late) v (by simp) verdict
  rcases more with more | more
  · exact more (List.append_eq_nil_iff.mp none).2
  · exact more outcome v returned told

/-- **A handling stops at the first verdict exactly when no chunk before the last one is
answered with a verdict.** -/
theorem Handled.stops_iff {count : ℕ} {start leg : Leg} {result : Except Raised Outcome}
    (handled : Handled count start result leg) :
    StopsAtVerdict (newExchanges start leg) result ↔
      Silent ((newExchanges start leg).take count) := by
  cases result with
  | error e =>
      obtain ⟨early, mid, trail, bound, _, new, later, silent, _⟩ := handled
      rw [newExchanges_of_grown (trail.append later).exchanges]
      constructor
      · intro stops
        have stops' : StopsAtVerdict ((early ++ new) ++ []) (.error e) := by
          rwa [List.append_nil]
        have all : Silent (early ++ new) := stops'.silent_of_more (.inr (by simp))
        exact fun exchange member => all exchange (List.mem_of_mem_take member)
      · intro quiet
        have early_silent : Silent early := by
          intro exchange member
          refine quiet exchange ?_
          rw [List.take_append]
          exact List.mem_append_left _ (by rwa [List.take_of_length_le bound])
        exact (early_silent.append silent).stops _
  | ok outcome =>
      rcases handled with ⟨early, mid, trail, rfl, _, delivered⟩ | ⟨same, _⟩
      · cases told : outcome.action.verdict with
        | none =>
            rw [Delivered, told] at delivered
            obtain ⟨new, later, silent, _⟩ := delivered
            rw [newExchanges_of_grown (trail.append later).exchanges, List.take_left]
            constructor
            · intro stops
              refine stops.silent_of_more (.inr ?_)
              intro outcome' v returned
              cases returned
              rw [told]
              simp
            · intro quiet
              exact (Silent.append quiet silent).stops _
        | some v =>
            rw [Delivered, told] at delivered
            obtain ⟨⟨new, last, later, silent, verdict⟩, _⟩ := delivered
            rw [newExchanges_of_grown (trail.append later).exchanges, List.take_left]
            constructor
            · intro stops
              exact stops.silent_of_more (.inl (by simp))
            · intro quiet
              rw [← List.append_assoc]
              exact stops_of_last (Silent.append quiet silent) verdict told
      · have exchanges : leg.exchanges = start.exchanges := congrArg (·.1) same
        have nothing : newExchanges start leg = [] := by
          rw [newExchanges, exchanges, List.drop_length]
        rw [nothing]
        constructor
        · intro _ exchange member
          cases List.mem_of_mem_take member
        · intro _
          exact Silent.stops (by simp [Silent]) _

/-- A verdict that a handling hands over is stored in its session. -/
theorem Handled.stored {count : ℕ} {start leg : Leg} {outcome : Outcome} {v : Verdict}
    (handled : Handled count start (.ok outcome) leg) (said : outcome.action.verdict = some v) :
    leg.session.result = some v := by
  rcases handled with ⟨early, mid, _, _, _, delivered⟩ | ⟨same, verdict⟩
  · rw [Delivered, said] at delivered
    exact delivered.2
  · have result : leg.session.result = start.session.result := congrArg (fun v => v.2.2) same
    rw [result, ← verdict, said]

/-! ## One request -/

/-- The replies that the handling of a request does not look at: those to the chunks of a
record before the last one. -/
def unlooked (env : Env) (fuel : ℕ) (addr : String × ℕ) (request : ApRequest) (σ : Server) :
    List Exchange :=
  ((handleRequest env fuel addr request σ).2.exchanges.drop σ.exchanges.length).take
    (unlookedAt ((found env addr request σ).2.objects (found env addr request σ).1) request.eap)

/-- An exchange of the request that brings a verdict is the last one, and the request is
answered with that verdict. -/
def EndsAtVerdict (request : ApRequest) (σ σ' : Server) : Prop :=
  ∀ before exchange after v, σ'.exchanges = σ.exchanges ++ (before ++ exchange :: after) →
    exchange.verdict = some v → after = [] ∧ ∃ sent, σ'.replies = σ.replies ++ [sent] ∧
      sent.answers = request ∧ sent.reply.code = v.code

theorem unlooked_eq (addr : String × ℕ) (request : ApRequest) (σ : Server) :
    unlooked env fuel addr request σ =
      (newExchanges (startOf env addr request σ) (handled env fuel addr request σ).2).take
        (unlookedAt ((found env addr request σ).2.objects (found env addr request σ).1)
          request.eap) := by
  rw [unlooked, handleRequest_exchanges, newExchanges, startOf_exchanges]

/-- What the handling hands over is what the AP is told. -/
theorem endsAtVerdict_iff (addr : String × ℕ) (request : ApRequest) (σ : Server) :
    EndsAtVerdict request σ (handleRequest env fuel addr request σ).2 ↔
      StopsAtVerdict (newExchanges (startOf env addr request σ) (handled env fuel addr request σ).2)
        (handled env fuel addr request σ).1 := by
  have grows := @handleRequest_grows env fuel addr request σ
  constructor
  · intro ends before exchange after v split verdict
    obtain ⟨last, sent, replies, _, code⟩ :=
      ends before exchange after v (by rw [grows, split]) verdict
    refine ⟨last, ?_⟩
    rcases result : (handled env fuel addr request σ).1 with e | outcome
    · rw [handleRequest_silent result] at replies
      simp at replies
    · refine ⟨outcome, rfl, Action.code_eq_iff.mp ?_⟩
      rw [handleRequest_answers result] at replies
      have same := List.append_cancel_left replies
      rw [← code, ← List.singleton_injective same]
      exact (answer_code _ request outcome _).symm
  · intro stops before exchange after v split verdict
    rw [grows] at split
    obtain ⟨last, outcome, result, said⟩ :=
      stops before exchange after v (List.append_cancel_left split) verdict
    refine ⟨last, _, handleRequest_answers result, rfl, ?_⟩
    rw [answer_code]
    exact Action.code_eq_iff.mpr said

/-- **A request ends at its first verdict exactly when the chunks before the last one
bring none.** -/
theorem endsAtVerdict_iff_silent (addr : String × ℕ) (request : ApRequest) (σ : Server) :
    EndsAtVerdict request σ (handleRequest env fuel addr request σ).2 ↔
      Silent (unlooked env fuel addr request σ) := by
  rw [endsAtVerdict_iff, unlooked_eq]
  exact Handled.stops_iff (handled_handled addr request σ)

/-! ## Runs -/

/-- Nothing goes wrong with a datagram: no chunk before the last of a record is answered
with a verdict, and what the handling says is sent and reported. -/
def Smooth (env : Env) (fuel : ℕ) (datagram : Datagram) (σ : Server) : Prop :=
  ∀ request, datagram.decoded = .ok request → Admitted request →
    Silent (unlooked env fuel datagram.addr request (σ.woken datagram)) ∧
    ∀ outcome, (handled env fuel datagram.addr request (σ.woken datagram)).1 = .ok outcome →
      (handleRequest env fuel datagram.addr request (σ.woken datagram)).1 = .ok ()

/-- After an exchange that brought a verdict there is none for the same session, and right
after it an AP was told the verdict for that session. -/
structure VerdictsEnd (σ : Server) : Prop where
  last : ∀ before exchange after, σ.exchanges = before ++ exchange :: after →
    exchange.verdict ≠ none → ∀ later ∈ after, later.session ≠ exchange.session
  told : ∀ before exchange after v, σ.exchanges = before ++ exchange :: after →
    exchange.verdict = some v → ∃ sent ∈ σ.replies, sent.session = exchange.session ∧
      sent.exchangesBefore = before.length + 1 ∧ sent.reply.code = v.code

/-- What holds of the server in every smooth run: a session with a verdict is forgotten. -/
structure Orderly (env : Env) (σ : Server) : Prop where
  regular : σ.Regular env
  forgotten : ∀ exchange ∈ σ.exchanges, exchange.verdict ≠ none → ¬ σ.Live exchange.session
  ends : VerdictsEnd σ

theorem orderly_initial (env : Env) : Orderly env (initial env) :=
  ⟨regular_initial env, by simp [initial], ⟨by simp [initial], by simp [initial]⟩⟩

/-- An element of two lists after each other lies in the first or in the second. -/
theorem split_append {α : Type} {old new before after : List α} {a : α}
    (split : old ++ new = before ++ a :: after) :
    (∃ between, old = before ++ a :: between ∧ after = between ++ new) ∨
      ∃ between, before = old ++ between ∧ new = between ++ a :: after := by
  rcases List.append_eq_append_iff.mp split with ⟨between, first, second⟩ | ⟨between, first, second⟩
  · exact .inr ⟨between, first, second⟩
  · cases between with
    | nil => exact .inr ⟨[], by simpa using first.symm, by simpa using second.symm⟩
    | cons b between =>
        cases second
        exact .inl ⟨between, first, rfl⟩

/-- The session of a request had no verdict so far. -/
theorem Orderly.fresh {σ : Server} (orderly : Orderly env σ) (addr : String × ℕ)
    (request : ApRequest) {exchange : Exchange} (member : exchange ∈ σ.exchanges)
    (verdict : exchange.verdict ≠ none) : (found env addr request σ).1 ≠ exchange.session := by
  intro same
  rcases opened_cases σ env (sessionKey request addr request.eap) with ⟨lookup, _⟩ | ⟨new, _⟩
  · exact orderly.forgotten exchange member verdict ⟨_, same ▸ mem_of_lookup lookup⟩
  · have bound := orderly.regular.known exchange member
    rw [← same, found, new] at bound
    exact lt_irrefl _ bound

/-- A session whose verdict was handed over is forgotten. -/
theorem handleRequest_drops {σ : Server} (tabled : σ.Tabled) {addr : String × ℕ}
    {request : ApRequest} {outcome : Outcome} {v : Verdict}
    (result : (handled env fuel addr request σ).1 = .ok outcome)
    (said : outcome.action.verdict = some v)
    (returned : (handleRequest env fuel addr request σ).1 = .ok ()) :
    ¬ (handleRequest env fuel addr request σ).2.Live (found env addr request σ).1 := by
  have put : (afterHandling env fuel addr request σ).Tabled :=
    put_tabled (opened_tabled tabled _) (handled_key addr request σ)
  have found : (afterHandling env fuel addr request σ).Found (found env addr request σ).1 :=
    put_found (opened_found tabled _) (handled_key addr request σ)
  have handles := @handled_handled env fuel addr request σ
  rw [result] at handles
  have finished : ((afterHandling env fuel addr request σ).objects
      (Downstream.found env addr request σ).1).result.isSome := by
    rw [afterHandling, Server.put_objects_self, Handled.stored handles said]
    rfl
  rw [handleRequest_of_ok result] at returned ⊢
  exact conclude_drops put found finished (Prod.ext returned rfl)

/-- **One request keeps the server orderly.** -/
theorem Orderly.handleRequest {σ : Server} (orderly : Orderly env σ) (addr : String × ℕ)
    (request : ApRequest) (silent : Silent (unlooked env fuel addr request σ))
    (got_out : ∀ outcome, (handled env fuel addr request σ).1 = .ok outcome →
      (handleRequest env fuel addr request σ).1 = .ok ()) :
    Orderly env (handleRequest env fuel addr request σ).2 := by
  have ends := (endsAtVerdict_iff_silent addr request σ).mpr silent
  have stops := (endsAtVerdict_iff addr request σ).mp ends
  have grows := @handleRequest_grows env fuel addr request σ
  have trail := @handled_trail env fuel addr request σ
  have own := @handled_own env fuel σ orderly.regular addr request
  generalize newExchanges (startOf env addr request σ) (handled env fuel addr request σ).2 = new
    at stops grows trail own
  have told_before : ∀ sent ∈ σ.replies,
      sent ∈ (Downstream.handleRequest env fuel addr request σ).2.replies := by
    intro sent member
    rcases result : (handled env fuel addr request σ).1 with e | outcome
    · rwa [handleRequest_silent result]
    · rw [handleRequest_answers result]
      exact List.mem_append_left _ member
  refine ⟨Regular.handleRequest orderly.regular addr request, ?_, ⟨?_, ?_⟩⟩
  · intro exchange member verdict live
    rw [grows] at member
    rcases List.mem_append.mp member with old | young
    · rcases handleRequest_live orderly.regular.tabled live with before | ⟨new_session, _⟩
      · exact orderly.forgotten exchange old verdict before
      · exact (orderly.regular.known exchange old).ne new_session
    · obtain ⟨v, some_v⟩ := Option.ne_none_iff_exists'.mp verdict
      obtain ⟨before, after, split⟩ := List.append_of_mem young
      obtain ⟨_, outcome, result, said⟩ := stops before exchange after v split some_v
      rw [own young] at live
      exact handleRequest_drops orderly.regular.tabled result said (got_out outcome result) live
  · intro before exchange after split verdict later member
    rw [grows] at split
    rcases split_append split with ⟨between, old, rfl⟩ | ⟨between, _, young⟩
    · rcases List.mem_append.mp member with early | late
      · exact orderly.ends.last before exchange between old verdict later early
      · rw [own late]
        exact orderly.fresh addr request (by rw [old]; simp) verdict
    · obtain ⟨v, some_v⟩ := Option.ne_none_iff_exists'.mp verdict
      rw [(stops between exchange after v young some_v).1] at member
      cases member
  · intro before exchange after v split verdict
    rw [grows] at split
    rcases split_append split with ⟨between, old, rfl⟩ | ⟨between, rfl, young⟩
    · obtain ⟨sent, member, told⟩ := orderly.ends.told before exchange between v old verdict
      exact ⟨sent, told_before sent member, told⟩
    · obtain ⟨rfl, outcome, result, said⟩ := stops between exchange after v young verdict
      refine ⟨(answer env (found env addr request σ).1 request outcome
        (afterHandling env fuel addr request σ)).1, ?_, ?_, ?_, ?_⟩
      · rw [handleRequest_answers result]
        simp
      · exact (own (by rw [young]; simp)).symm
      · rw [answer_exchangesBefore, afterHandling, Server.put, trail.exchanges, young,
          startOf_exchanges]
        simp
        omega
      · rw [answer_code]
        exact Action.code_eq_iff.mpr said

theorem Orderly.serve {σ σ' : Server} (orderly : Orderly env σ) {datagram : Datagram}
    (smooth : Smooth env fuel datagram σ) (served : serve env fuel datagram σ = some σ') :
    Orderly env σ' := by
  have waiting : Orderly env (σ.woken datagram) :=
    ⟨Regular.woken orderly.regular datagram, orderly.forgotten, orderly.ends.last, orderly.ends.told⟩
  rcases serve_cases served with rfl | ⟨request, decoded, admitted, rfl⟩
  · exact waiting
  · obtain ⟨silent, got_out⟩ := smooth request decoded admitted
    exact waiting.handleRequest datagram.addr request silent got_out

/-- **A terminal reply ends the conversation of a request exactly when no chunk before the
last one brings a verdict.** And in a run in which that holds of every request, and what
is said to the APs gets out, it ends the conversation of the session. -/
theorem terminal_reply_ends (env : Env) (fuel : ℕ) :
    (∀ addr request σ, EndsAtVerdict request σ (handleRequest env fuel addr request σ).2 ↔
      Silent (unlooked env fuel addr request σ)) ∧
    ∀ datagrams σ, Along (serve env fuel) (Smooth env fuel) datagrams (initial env) →
      run env fuel datagrams (initial env) = some σ → VerdictsEnd σ := by
  refine ⟨endsAtVerdict_iff_silent, fun datagrams σ smooth ran => ?_⟩
  have orderly : Orderly env σ :=
    smooth.keeps (fun _ _ _ smooth orderly served => orderly.serve smooth served)
      (orderly_initial env) ran
  exact orderly.ends

/-- Surroundings in which records are cut to two octets toward the server, which answers
its first request with `first` and every other one with `rest`. -/
def chunking (first rest : RadiusReply) : Env where
  cfg := { Config.sample "reassemble" with upstream := { fragmentSize := 2 } }
  respond := fun before _ => .ok (if before = [] then first else rest)
  token := fun n => [UInt8.ofNat n]

/-- A request with a record of three octets in one EAP-TLS packet. -/
def threeOctets : Datagram :=
  datagramOf (requestWith none [codeResponse, 7, 0, 9, eapTypeTls, 0, 1, 2, 3])

/-- The first chunk is acknowledged, and the second accepted. -/
theorem terminal_reply_ends_sample :
    EndsAtVerdict (requestWith none [codeResponse, 7, 0, 9, eapTypeTls, 0, 1, 2, 3])
        (initial (chunking emptyChallenge acceptReply))
        (handleRequest (chunking emptyChallenge acceptReply) 0 ("ap", 1024)
          (requestWith none [codeResponse, 7, 0, 9, eapTypeTls, 0, 1, 2, 3])
          (initial (chunking emptyChallenge acceptReply))).2 ∧
      ∃ σ, run (chunking emptyChallenge acceptReply) 0 [threeOctets]
        (initial (chunking emptyChallenge acceptReply)) = some σ ∧ VerdictsEnd σ := by
  have silent : Silent (unlooked (chunking emptyChallenge acceptReply) 0 ("ap", 1024)
      (requestWith none [codeResponse, 7, 0, 9, eapTypeTls, 0, 1, 2, 3])
      (initial (chunking emptyChallenge acceptReply))) := by
    intro exchange member
    cases List.mem_singleton.mp member
    rfl
  refine ⟨((terminal_reply_ends _ 0).1 _ _ _).mpr silent, _, rfl, ?_⟩
  refine (terminal_reply_ends (chunking emptyChallenge acceptReply) 0).2 [threeOctets] _ ?_ rfl
  refine ⟨?_, fun _ _ => trivial⟩
  rintro request decoded -
  cases decoded
  exact ⟨silent, fun _ _ => rfl⟩

/-- The first chunk is rejected, and the second is sent all the same; its accept is what
the AP is told. -/
theorem chunk_sent_after_reject :
    (chunking rejectReply acceptReply).cfg.validate = .ok () ∧
    ∃ σ, run (chunking rejectReply acceptReply) 0 [threeOctets]
        (initial (chunking rejectReply acceptReply)) = some σ ∧
      σ.exchanges.map Exchange.verdict = [some .reject, some .accept] ∧
      σ.replies.map (fun sent => sent.reply.code) = [accessAccept] ∧ ¬ VerdictsEnd σ := by
  refine ⟨by decide, _, rfl, rfl, rfl, fun ends => ?_⟩
  exact ends.last [] _ [_] rfl (by decide) _ List.mem_cons_self rfl

end EapAccel.Downstream
