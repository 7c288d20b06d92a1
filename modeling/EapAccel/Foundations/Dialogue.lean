import Mathlib.Logic.Basic

/-!
# Dialogues

A party makes the moves of a list, and in between it acknowledges what it is told, for as long
as it has to. What it knows decides whether it has to, and every step tells it something new.

A dialogue whose steps are functions ends in one state (`Dialogue.unique`). A dialogue mimics
another one if its moves are moves there, and its acknowledgements are acknowledgements there
or nothing at all (`Mimics.dialogue`). So two dialogues that follow a dialogue of functions,
with the same moves, end alike, however many acknowledgements either of them needs.
-/

set_option autoImplicit false

namespace EapAccel.Foundations

variable {κ μ σ τ : Type}

/-- The steps of a party: whether it has to acknowledge, and how a move and an
acknowledgement change what it knows and the state. -/
structure Party (κ μ σ : Type) where
  must : κ → Prop
  move : μ → κ → σ → κ → σ → Prop
  ack : κ → σ → κ → σ → Prop

/-- The party makes the moves, and acknowledges before each one and at the end as long as it
has to. -/
inductive Dialogue (party : Party κ μ σ) : List μ → κ → σ → σ → Prop where
  | ends {k : κ} {s : σ} (free : ¬ party.must k) : Dialogue party [] k s s
  | moves {m : μ} {ms : List μ} {k k' : κ} {s s' last : σ} (free : ¬ party.must k)
      (head : party.move m k s k' s') (rest : Dialogue party ms k' s' last) :
      Dialogue party (m :: ms) k s last
  | acks {ms : List μ} {k k' : κ} {s s' last : σ} (bound : party.must k)
      (head : party.ack k s k' s') (rest : Dialogue party ms k' s' last) :
      Dialogue party ms k s last

/-- Every step of the party has one result. -/
structure Party.Functional (party : Party κ μ σ) : Prop where
  move : ∀ {m k s k₁ s₁ k₂ s₂}, party.move m k s k₁ s₁ → party.move m k s k₂ s₂ →
    k₁ = k₂ ∧ s₁ = s₂
  ack : ∀ {k s k₁ s₁ k₂ s₂}, party.ack k s k₁ s₁ → party.ack k s k₂ s₂ → k₁ = k₂ ∧ s₁ = s₂

/-- **A dialogue of functions ends in one state.** -/
theorem Dialogue.unique {party : Party κ μ σ} (functional : party.Functional) {ms : List μ} {k : κ}
    {s last : σ} (dialogue : Dialogue party ms k s last) :
    ∀ {last' : σ}, Dialogue party ms k s last' → last' = last := by
  induction dialogue with
  | ends free =>
      intro last' other
      cases other with
      | ends _ => rfl
      | acks bound _ _ => exact absurd bound free
  | moves free head _ ih =>
      intro last' other
      cases other with
      | moves _ head' rest' =>
          obtain ⟨rfl, rfl⟩ := functional.move head head'
          exact ih rest'
      | acks bound _ _ => exact absurd bound free
  | acks bound head _ ih =>
      intro last' other
      cases other with
      | ends free => exact absurd bound free
      | moves free _ _ => exact absurd bound free
      | acks _ head' rest' =>
          obtain ⟨rfl, rfl⟩ := functional.ack head head'
          exact ih rest'

/-- What the steps cannot mend: if it holds after a step, it held before. -/
structure Party.Back (party : Party κ μ σ) (sound : σ → Prop) : Prop where
  move : ∀ {m k s k' s'}, party.move m k s k' s' → sound s' → sound s
  ack : ∀ {k s k' s'}, party.ack k s k' s' → sound s' → sound s

theorem Dialogue.back {party : Party κ μ σ} {sound : σ → Prop} (back : party.Back sound)
    {ms : List μ} {k : κ} {s last : σ} (dialogue : Dialogue party ms k s last)
    (ends : sound last) : sound s := by
  induction dialogue with
  | ends _ => exact ends
  | moves _ head _ ih => exact back.move head (ih ends)
  | acks _ head _ ih => exact back.ack head (ih ends)

/-- Between `sound` states the steps of the first party are steps of the second one, save that
an acknowledgement may be nothing there. -/
structure Mimics (first : Party κ μ σ) (second : Party κ μ τ) (sound : σ → Prop)
    (rel : κ → σ → κ → τ → Prop) : Prop extends first.Back sound where
  free : ∀ {k s k' t}, rel k s k' t → ¬ first.must k → ¬ second.must k'
  moves : ∀ {m k s k' t k₁ s₁}, rel k s k' t → ¬ first.must k → first.move m k s k₁ s₁ →
    sound s₁ → ∃ k₁' t₁, second.move m k' t k₁' t₁ ∧ rel k₁ s₁ k₁' t₁
  acks : ∀ {k s k' t k₁ s₁}, rel k s k' t → first.must k → first.ack k s k₁ s₁ → sound s₁ →
    rel k₁ s₁ k' t ∨
      second.must k' ∧ ∃ k₁' t₁, second.ack k' t k₁' t₁ ∧ rel k₁ s₁ k₁' t₁

/-- **A dialogue of the first party is one of the second**, with the same moves. -/
theorem Mimics.dialogue {first : Party κ μ σ} {second : Party κ μ τ} {sound : σ → Prop}
    {rel : κ → σ → κ → τ → Prop} (mimics : Mimics first second sound rel) {ms : List μ} {k : κ}
    {s last : σ} (dialogue : Dialogue first ms k s last) (ends : sound last) :
    ∀ {k' : κ} {t : τ}, rel k s k' t →
      ∃ last' knows knows', Dialogue second ms k' t last' ∧ rel knows last knows' last' := by
  induction dialogue with
  | ends free =>
      intro k' t related
      exact ⟨t, _, k', .ends (mimics.free related free), related⟩
  | moves free head rest ih =>
      intro k' t related
      have after := rest.back mimics.toBack ends
      obtain ⟨k₁, t₁, head', related'⟩ := mimics.moves related free head after
      obtain ⟨last', knows, knows', rest', final⟩ := ih ends related'
      exact ⟨last', knows, knows', .moves (mimics.free related free) head' rest', final⟩
  | acks bound head rest ih =>
      intro k' t related
      have after := rest.back mimics.toBack ends
      rcases mimics.acks related bound head after with silent | ⟨bound', k₁, t₁, head', related'⟩
      · exact ih ends silent
      · obtain ⟨last', knows, knows', rest', final⟩ := ih ends related'
        exact ⟨last', knows, knows', .acks bound' head' rest', final⟩

end EapAccel.Foundations
