import EapAccel.Downstream.Carriage
import EapAccel.Peers.Rounds

/-!
# Conversations that are carried

Where what pyrad and the socket are given in the conversations of the peers is carried as it is
(`Peers.Carried`), the conversations are those that there are where nothing is changed or refused
(`conversation_iff`). So whatever holds of the ones holds of the others.
-/

set_option autoImplicit false

namespace EapAccel

open Foundations EapTls Mediator Downstream

variable {peers : Peers} {env : Env}

/-- Conversations do not break off: each packet gets one reply, and the end is a verdict. -/
structure GoesOn (peers : Peers) (env : Env) : Prop where
  answered : ∀ {n : ℕ} {caller : Caller} {σ : Server}, Conversation peers env n caller σ →
    ∀ {eapBytes : Bytes}, caller.next = some eapBytes →
      ∀ {datagram : Datagram} {request : ApRequest}, Forwards eapBytes datagram request σ →
        ∃ sent σ', Served env datagram σ σ' ∧ σ'.replies = σ.replies ++ [sent]
  result : ∀ {n : ℕ} {caller : Caller} {σ : Server}, Conversation peers env n caller σ →
    caller.next = none → caller.result ≠ none

theorem goesOn_of_faithful {holds : Holding} {tariff : Tariff} {limit : ℕ}
    (faithful : Faithful peers env limit holds tariff) (proper : peers.Proper)
    (within : peers.Within limit) (genuine : Genuine env) : GoesOn peers env := by
  constructor
  · intro n caller σ conversation eapBytes next datagram request forwards
    obtain ⟨sent, σ', served, replied, _⟩ :=
      (conversation.onTheWay faithful proper within genuine).step faithful proper within genuine
        next forwards
    exact ⟨sent, σ', served, replied⟩
  · intro n caller σ conversation none
    exact (conversation.onTheWay faithful proper within genuine).result none

/-! ## What is carried -/

/-- What is made in the conversations of the peers is carried as it is. It is enough to look at
those that there are where nothing is changed or refused. -/
def Peers.Carried (peers : Peers) (env : Env) : Prop :=
  ∀ {n : ℕ} {caller : Caller} {σ : Server}, Conversation peers env.faultless n caller σ →
    σ.Carried env

theorem Peers.carried_of_lossless (lossless : env.Lossless)
    (transmits : ∀ before built, env.transmit before built = .ok ()) : peers.Carried env :=
  fun {_ _ σ} _ => lossless.carried transmits σ

/-- A datagram that is carried is handled alike. -/
theorem Downstream.Served.of_faultless {datagram : Datagram} {σ σ' : Server}
    (served : Served env.faultless datagram σ σ') (carried : σ'.Carried env) :
    Served env datagram σ σ' := by
  obtain ⟨n, served⟩ := served
  exact ⟨n, fun fuel enough => serve_of_faultless (served fuel enough) carried⟩

theorem conversation_of_faultless (carried : peers.Carried env) {n : ℕ} {caller : Caller}
    {σ : Server} (conversation : Conversation peers env.faultless n caller σ) :
    Conversation peers env n caller σ := by
  induction conversation with
  | start => exact .start
  | step before next forwards served replied ih =>
      have after := Conversation.step before next forwards served replied
      exact .step ih next forwards (served.of_faultless (carried after)) replied

theorem conversation_faultless (goesOn : GoesOn peers env.faultless) (carried : peers.Carried env)
    {n : ℕ} {caller : Caller} {σ : Server} (conversation : Conversation peers env n caller σ) :
    Conversation peers env.faultless n caller σ := by
  induction conversation with
  | start => exact .start
  | step _ next forwards served replied ih =>
      obtain ⟨sent, σ'', served', replied'⟩ := goesOn.answered ih next forwards
      have after := Conversation.step ih next forwards served' replied'
      obtain rfl := served.unique (served'.of_faultless (carried after))
      exact .step ih next forwards served' replied

/-- **Conversations that are carried are those where nothing is changed or refused.** -/
theorem conversation_iff (goesOn : GoesOn peers env.faultless) (carried : peers.Carried env) :
    Conversation peers env = Conversation peers env.faultless := by
  funext n caller σ
  apply propext
  exact ⟨conversation_faultless goesOn carried, conversation_of_faultless carried⟩

/-- They do not break off, either. -/
theorem GoesOn.of_faultless (goesOn : GoesOn peers env.faultless) (carried : peers.Carried env) :
    GoesOn peers env := by
  have same := conversation_iff goesOn carried
  constructor
  · intro n caller σ conversation eapBytes next datagram request forwards
    rw [same] at conversation
    obtain ⟨sent, σ', served, replied⟩ := goesOn.answered conversation next forwards
    have after := Conversation.step conversation next forwards served replied
    exact ⟨sent, σ', served.of_faultless (carried after), replied⟩
  · intro n caller σ conversation none
    rw [same] at conversation
    exact goesOn.result conversation none

end EapAccel
