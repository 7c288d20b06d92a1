import EapAccel.Downstream.Identifiers
import EapAccel.Mediator.Books

/-!
# Bookkeeping

What came for a session and what went on to its supplicant are histories of the server:
`packetsFor` are the EAP-TLS packets that a run brought the session, and `onwardTo` the EAP packets
that were sent in the course of the authentication. A relation of the two histories and the exchanges to
the session that the handling of one packet keeps (`BookRule`) holds of every session in every run
(`BookRule.holds`), whatever fails.
-/

set_option autoImplicit false

namespace EapAccel

open Foundations EapTls

/-! ## What came and what went on -/

/-- The EAP packet that a reply to an EAP-TLS packet carries on to the supplicant. -/
def BuiltReply.onward (sent : BuiltReply) : Option Bytes :=
  match parse sent.answers.eap with
  | .ok _ =>
      if sent.reply.code = accessChallenge then (some sent.reply.eap).filter (· ≠ []) else none
  | .error _ => none

/-- The EAP packets that went on to the supplicant of a session. -/
def Server.onwardTo (σ : Server) (ref : ℕ) : List Bytes :=
  σ.replies.filterMap fun sent => if sent.session = ref then sent.onward else none

namespace Downstream

open Mediator

variable {env : Env} {fuel : ℕ}

/-- The EAP-TLS packet of a request, if it is for the session `ref` and is routed there. -/
def packetOf (env : Env) (addr : String × ℕ) (request : ApRequest) (σ : Server) (ref : ℕ) :
    Option EapTlsPacket :=
  if (found env addr request σ).1 = ref ∧ notes env addr request σ = .ok () then
    (parse request.eap).toOption
  else none

/-- The EAP-TLS packet that a datagram brings the session `ref`. -/
def packetFor (env : Env) (ref : ℕ) (datagram : Datagram) (σ : Server) : Option EapTlsPacket :=
  match datagram.decoded with
  | .ok request =>
      if Admitted request then packetOf env datagram.addr request (σ.woken datagram) ref else none
  | .error _ => none

/-- The EAP-TLS packets that a run brings the session `ref`. -/
def packetsFor (env : Env) (fuel ref : ℕ) : List Datagram → Server → List EapTlsPacket
  | [], _ => []
  | datagram :: datagrams, σ =>
      (packetFor env ref datagram σ).toList ++
        match serve env fuel datagram σ with
        | some σ' => packetsFor env fuel ref datagrams σ'
        | none => []

/-- What the answer to a request carries on: what its outcome does, if it was an EAP-TLS packet. -/
def onwardFor (request : ApRequest) (outcome : Outcome) : Option Bytes :=
  match parse request.eap with
  | .ok _ => outcome.onward
  | .error _ => none

theorem answer_onward (ref : ℕ) (request : ApRequest) (outcome : Outcome) (σ : Server) :
    (answer env ref request outcome σ).1.onward = onwardFor request outcome := by
  have answers : (answer env ref request outcome σ).1.answers = request := rfl
  rw [BuiltReply.onward, answers, answer_code, answer_eap, onwardFor, Outcome.onward]
  cases parse request.eap with
  | error e => rfl
  | ok packet =>
      rcases outcome with ⟨action, eapBytes, echoId⟩
      cases action <;> cases eapBytes <;> rfl

theorem onwardTo_concat {σ σ' : Server} {sent : BuiltReply}
    (grown : σ'.replies = σ.replies ++ [sent]) (ref : ℕ) :
    σ'.onwardTo ref = σ.onwardTo ref ++
      (if sent.session = ref then sent.onward else none).toList := by
  rw [Server.onwardTo, grown, List.filterMap_append]
  rfl

/-- What a request makes its server send on to the supplicant of the session `ref`. -/
theorem handleRequest_onwardTo (addr : String × ℕ) (request : ApRequest) (σ : Server) (ref : ℕ) :
    (handleRequest env fuel addr request σ).2.onwardTo ref = σ.onwardTo ref ++
      match (handled env fuel addr request σ).1 with
      | .ok outcome =>
          (if (found env addr request σ).1 = ref then onwardFor request outcome else none).toList
      | .error _ => [] := by
  rcases result : (handled env fuel addr request σ).1 with e | outcome
  · rw [Server.onwardTo, handleRequest_silent result, ← Server.onwardTo]
    exact (List.append_nil _).symm
  · rw [onwardTo_concat (handleRequest_answers result), answer_onward]
    rfl

/-- It sends the supplicants of other sessions nothing. -/
theorem handleRequest_onwardTo_other {addr : String × ℕ} {request : ApRequest} {σ : Server}
    {ref : ℕ} (other : (found env addr request σ).1 ≠ ref) :
    (handleRequest env fuel addr request σ).2.onwardTo ref = σ.onwardTo ref := by
  rw [handleRequest_onwardTo]
  cases (handled env fuel addr request σ).1 with
  | error e => exact List.append_nil _
  | ok outcome =>
      simp only [if_neg other]
      exact List.append_nil _

/-! ## The rule of books -/

/-- What makes a relation of the histories of a session, and of the exchanges so far, to the session
hold in every run: a new session has it with empty histories, exchanges of other sessions do not
touch it, it depends neither on the names of the session nor on what is noted of a request, and the
handling of a packet keeps it. -/
structure BookRule (env : Env) (fuel : ℕ)
    (P : List EapTlsPacket → List Bytes → List Exchange → Session → Prop) : Prop where
  created : ∀ exchanges ref key now, (∀ exchange ∈ exchanges, exchange.session ≠ ref) →
    P [] [] exchanges (Session.create ref key env.cfg now)
  others : ∀ packets onward exchanges new session,
    (∀ exchange ∈ new, exchange.session ≠ session.ident) →
      P packets onward exchanges session → P packets onward (exchanges ++ new) session
  renamed : ∀ packets onward exchanges session session', session'.unnamed = session.unnamed →
    P packets onward exchanges session → P packets onward exchanges session'
  noted : ∀ packets onward exchanges request session, P packets onward exchanges session →
    P packets onward exchanges (notedSession request session)
  handled : ∀ packets onward request leg, leg.session.settings = env.cfg.settings leg.session.ident →
    P packets onward leg.exchanges leg.session →
      Act.Triple (fun start => start = leg) (route env fuel request.context request.eap)
        (fun outcome leg' => P (packets ++ (parse request.eap).toOption.toList)
          (onward ++ (onwardFor request outcome).toList) leg'.exchanges leg'.session)
        (fun _ leg' => P (packets ++ (parse request.eap).toOption.toList) onward leg'.exchanges
          leg'.session)

variable {P : List EapTlsPacket → List Bytes → List Exchange → Session → Prop}

/-- The books of all sessions, when these packets came for them. -/
structure BooksKept (P : List EapTlsPacket → List Bytes → List Exchange → Session → Prop)
    (past : ℕ → List EapTlsPacket) (σ : Server) : Prop where
  booked : ∀ ref, P (past ref) (σ.onwardTo ref) σ.exchanges (σ.objects ref)
  unborn : ∀ ref, σ.created ≤ ref → past ref = [] ∧ σ.onwardTo ref = []

namespace BookRule

theorem initially (rule : BookRule env fuel P) : BooksKept P (fun _ => []) (initial env) where
  booked := by
    intro ref
    apply rule.created
    intro exchange member
    cases member
  unborn := fun _ _ => ⟨rfl, rfl⟩

/-- The sessions are booked when a request has found its own. -/
theorem found (rule : BookRule env fuel P) {past : ℕ → List EapTlsPacket} {σ : Server}
    (regular : σ.Regular env) (books : BooksKept P past σ) (addr : String × ℕ) (request : ApRequest)
    (ref : ℕ) :
    P (past ref) (σ.onwardTo ref) σ.exchanges ((found env addr request σ).2.objects ref) := by
  rcases opened_objects σ env (sessionKey request addr request.eap) ref with
    old | ⟨_, fresh, new⟩
  · rw [Downstream.found, old]
    exact books.booked ref
  · obtain ⟨nothing, silent⟩ := books.unborn ref fresh.ge
    rw [Downstream.found, new, nothing, silent]
    apply rule.created
    intro exchange member
    rw [fresh]
    exact (regular.known exchange member).ne

/-- **A request keeps the books of all sessions.** -/
theorem handleRequest (rule : BookRule env fuel P) {past : ℕ → List EapTlsPacket} {σ : Server}
    (regular : σ.Regular env) (books : BooksKept P past σ) (addr : String × ℕ) (request : ApRequest) :
    BooksKept P (fun ref => past ref ++ (packetOf env addr request σ ref).toList)
      (handleRequest env fuel addr request σ).2 where
  booked := by
    intro ref
    apply rule.renamed _ _ _ _ _ (handleRequest_unnamed addr request σ ref)
    rw [packetOf, afterHandling]
    have start := rule.found regular books addr request ref
    by_cases here : (Downstream.found env addr request σ).1 = ref
    · subst here
      rw [Server.put_objects_self, handleRequest_onwardTo, handleRequest_exchanges]
      have settled := startOf_settings regular addr request
      have ident := congrArg Session.Settings.ident settled
      have noted : P (past (Downstream.found env addr request σ).1)
          (σ.onwardTo (Downstream.found env addr request σ).1) (startOf env addr request σ).exchanges
          (startOf env addr request σ).session := by
        rw [startOf_exchanges]
        exact rule.noted _ _ _ request _ start
      rcases handled_cases env fuel addr request σ with ⟨notes, routed⟩ | ⟨e, raises, same⟩
      · have kept := rule.handled _ _ request (startOf env addr request σ)
          (settled.trans (congrArg env.cfg.settings ident.symm)) noted _ rfl
        rw [if_pos ⟨rfl, notes⟩]
        rw [← routed] at kept
        rcases ended : Downstream.handled env fuel addr request σ with ⟨e | outcome, leg⟩
        · rw [ended] at kept
          exact (List.append_nil _).symm ▸ kept
        · rw [ended] at kept
          simp only [if_pos]
          exact kept
      · have unrouted : ¬ ((Downstream.found env addr request σ).1 =
            (Downstream.found env addr request σ).1 ∧ notes env addr request σ = .ok ()) := by
          rintro ⟨_, notes⟩
          cases raises.symm.trans notes
        rw [if_neg unrouted, same, Option.toList_none, List.append_nil, List.append_nil]
        exact noted
    · rw [Server.put_objects_of_ne _ _ (Ne.symm here), if_neg fun both => here both.1,
        handleRequest_onwardTo_other here, handleRequest_grows]
      have ident : ((Downstream.found env addr request σ).2.objects ref).ident = ref :=
        congrArg Session.Settings.ident (found_settled regular addr request ref)
      have others := rule.others _ _ _ (newExchanges (startOf env addr request σ)
        (Downstream.handled env fuel addr request σ).2) _ ?_ start
      · exact (List.append_nil _).symm ▸ others
      · intro exchange member
        rw [handled_own regular addr request member, ident]
        exact here
  unborn := by
    intro ref fresh
    have created := @handleRequest_created env fuel σ regular.tabled addr request
    have other : (Downstream.found env addr request σ).1 ≠ ref := (created.2.trans_le fresh).ne
    obtain ⟨nothing, silent⟩ := books.unborn ref (created.1.trans fresh)
    rw [packetOf, if_neg fun both => other both.1, handleRequest_onwardTo_other other, nothing,
      silent]
    exact ⟨rfl, rfl⟩

/-- **A turn of the server keeps the books.** -/
theorem serve (rule : BookRule env fuel P) {past : ℕ → List EapTlsPacket} {σ σ' : Server}
    (regular : σ.Regular env) (books : BooksKept P past σ) {datagram : Datagram}
    (served : serve env fuel datagram σ = some σ') :
    BooksKept P (fun ref => past ref ++ (packetFor env ref datagram σ).toList) σ' := by
  have woken : BooksKept P past (σ.woken datagram) := ⟨books.booked, books.unborn⟩
  by_cases comes : ∃ request, datagram.decoded = .ok request ∧ Admitted request
  · obtain ⟨request, decoded, admitted⟩ := comes
    have packet : ∀ ref, packetFor env ref datagram σ =
        packetOf env datagram.addr request (σ.woken datagram) ref := by
      intro ref
      rw [packetFor, decoded]
      exact if_pos admitted
    simp only [packet]
    rw [serve_admitted decoded admitted served]
    exact rule.handleRequest (Regular.woken regular datagram) woken datagram.addr request
  · have nothing : ∀ ref, packetFor env ref datagram σ = none := by
      intro ref
      rw [packetFor]
      rcases decoded : datagram.decoded with e | request
      · rfl
      · exact if_neg fun admitted => comes ⟨request, decoded, admitted⟩
    simp only [nothing, Option.toList_none, List.append_nil]
    rw [serve_dropped comes served]
    exact woken

/-- **So does a run.** -/
theorem run (rule : BookRule env fuel P) {datagrams : List Datagram} :
    ∀ {past : ℕ → List EapTlsPacket} {σ σ' : Server}, σ.Regular env → BooksKept P past σ →
      run env fuel datagrams σ = some σ' →
        BooksKept P (fun ref => past ref ++ packetsFor env fuel ref datagrams σ) σ' := by
  induction datagrams with
  | nil =>
      intro past σ σ' _ books ran
      cases ran
      simpa only [packetsFor, List.append_nil] using books
  | cons datagram datagrams ih =>
      intro past σ σ' regular books ran
      obtain ⟨mid, served, rest⟩ := Option.bind_eq_some_iff.mp ran
      have later := ih (Regular.serve regular served) (rule.serve regular books served) rest
      simpa only [packetsFor, served, List.append_assoc] using later

/-- **The rule of books.** -/
theorem holds (rule : BookRule env fuel P) {datagrams : List Datagram} {σ : Server}
    (ran : Downstream.run env fuel datagrams (initial env) = some σ) (ref : ℕ) :
    P (packetsFor env fuel ref datagrams (initial env)) (σ.onwardTo ref) σ.exchanges
      (σ.objects ref) :=
  (rule.run (regular_initial env) rule.initially ran).booked ref

end BookRule

end Downstream
end EapAccel
