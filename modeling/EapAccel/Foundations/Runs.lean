import Mathlib.Data.Option.Basic
import Mathlib.Data.List.Induction

/-!
# Runs

A system takes its inputs one after another, and a step may fail to come to an end. A run
is a sequence of steps. What every step preserves holds at the end of a run
(`runAll_keeps`), also where a step preserves it only for the inputs that are `good` in
the state they find (`Along.keeps`), and also where it speaks of the whole past of the run
(`runAll_history`, `Happened`).
-/

set_option autoImplicit false

namespace EapAccel.Foundations

variable {σ β : Type}

/-- Take the inputs in order. There is no last state when a step does not come to an end. -/
def runAll (step : β → σ → Option σ) : List β → σ → Option σ
  | [], s => some s
  | b :: bs, s => (step b s).bind (runAll step bs)

/-- Every input of a run is `good` in the state that it finds. -/
def Along (step : β → σ → Option σ) (good : β → σ → Prop) : List β → σ → Prop
  | [], _ => True
  | b :: bs, s => good b s ∧ ∀ mid, step b s = some mid → Along step good bs mid

instance (step : β → σ → Option σ) (good : β → σ → Prop) [∀ b s, Decidable (good b s)] :
    (bs : List β) → (s : σ) → Decidable (Along step good bs s)
  | [], _ => .isTrue trivial
  | b :: bs, s =>
      let := instDecidableAlong step good bs
      inferInstanceAs (Decidable (good b s ∧ ∀ mid ∈ step b s, Along step good bs mid))

variable {step : β → σ → Option σ} {good : β → σ → Prop} {inv : σ → Prop}

theorem runAll_append (bs bs' : List β) (s : σ) :
    runAll step (bs ++ bs') s = (runAll step bs s).bind (runAll step bs') := by
  induction bs generalizing s with
  | nil => rfl
  | cons b bs ih =>
      simp only [List.cons_append, runAll, Option.bind_assoc]
      congr 1
      funext mid
      exact ih mid

/-- A run goes on with one more step. -/
theorem runAll_concat {bs : List β} {b : β} {s mid s' : σ} (ran : runAll step bs s = some mid)
    (stepped : step b mid = some s') : runAll step (bs ++ [b]) s = some s' := by
  rw [runAll_append, ran, Option.bind_some, runAll, stepped]
  rfl

/-- **The rule of runs**: what good steps preserve, runs of good steps preserve. -/
theorem Along.keeps (preserves : ∀ b s s', good b s → inv s → step b s = some s' → inv s') :
    ∀ {bs : List β} {s s' : σ}, Along step good bs s → inv s → runAll step bs s = some s' →
      inv s' := by
  intro bs
  induction bs with
  | nil =>
      intro s s' _ start ran
      cases ran
      exact start
  | cons b bs ih =>
      intro s s' along start ran
      obtain ⟨mid, stepped, ran⟩ := Option.bind_eq_some_iff.mp ran
      exact ih (along.2 mid stepped) (preserves b s mid along.1 start stepped) ran

theorem Along.of_forall (all : ∀ b s, good b s) : ∀ (bs : List β) (s : σ), Along step good bs s
  | [], _ => trivial
  | b :: bs, s => ⟨all b s, fun mid _ => Along.of_forall all bs mid⟩

/-- What every step preserves, every run preserves. -/
theorem runAll_keeps (preserves : ∀ b s s', inv s → step b s = some s' → inv s')
    {bs : List β} {s s' : σ} (start : inv s) (ran : runAll step bs s = some s') : inv s' :=
  (Along.of_forall (fun _ _ => trivial) bs s).keeps
    (fun b s s' (_ : True) => preserves b s s') start ran

/-- Where good steps preserve an invariant, and under it have a property, runs of good steps
have the property all along. -/
theorem Along.imp {P : β → σ → Prop}
    (preserves : ∀ b s s', good b s → inv s → step b s = some s' → inv s')
    (has : ∀ b s, good b s → inv s → P b s) :
    ∀ {bs : List β} {s : σ}, Along step good bs s → inv s → Along step P bs s := by
  intro bs
  induction bs with
  | nil => exact fun _ _ => trivial
  | cons b bs ih =>
      rintro s ⟨now, later⟩ start
      exact ⟨has b s now start, fun mid stepped =>
        ih (later mid stepped) (preserves b s mid now start stepped)⟩

/-- A run in two parts. -/
theorem along_append : ∀ {bs bs' : List β} {s : σ}, Along step good (bs ++ bs') s ↔
    Along step good bs s ∧ ∀ mid, runAll step bs s = some mid → Along step good bs' mid := by
  intro bs
  induction bs with
  | nil =>
      intro bs' s
      constructor
      · intro along
        refine ⟨trivial, fun mid ran => ?_⟩
        cases ran
        exact along
      · exact fun both => both.2 s rfl
  | cons b bs ih =>
      intro bs' s
      constructor
      · rintro ⟨now, later⟩
        refine ⟨⟨now, fun mid stepped => (ih.mp (later mid stepped)).1⟩, fun last ran => ?_⟩
        obtain ⟨mid, stepped, ran⟩ := Option.bind_eq_some_iff.mp ran
        exact (ih.mp (later mid stepped)).2 last ran
      · rintro ⟨⟨now, later⟩, rest⟩
        refine ⟨now, fun mid stepped => ih.mpr ⟨later mid stepped, fun last ran => ?_⟩⟩
        exact rest last (Option.bind_eq_some_iff.mpr ⟨mid, stepped, ran⟩)

/-- Where the inputs are `good` and the states in an invariant, two properties of the steps
that agree step by step agree along the run. -/
theorem Along.iff {P Q : β → σ → Prop}
    (preserves : ∀ b s s', inv s → step b s = some s' → inv s')
    (same : ∀ b s, good b s → inv s → (P b s ↔ Q b s)) :
    ∀ {bs : List β} {s : σ}, Along step good bs s → inv s →
      (Along step P bs s ↔ Along step Q bs s) := by
  intro bs
  induction bs with
  | nil => exact fun _ _ => Iff.rfl
  | cons b bs ih =>
      intro s along start
      refine and_congr (same b s along.1 start) (forall_congr' fun mid => ?_)
      refine forall_congr' fun stepped => ?_
      exact ih (along.2 mid stepped) (preserves b s mid start stepped)

/-! ## The past of a run -/

/-- **The rule of histories**: what holds of the empty run, and is preserved when a run goes
on with one more step, holds of every run and its end. -/
theorem runAll_history {start : σ} {P : List β → σ → Prop} (nil : P [] start)
    (concat : ∀ bs b s s', runAll step bs start = some s → step b s = some s' → P bs s →
      P (bs ++ [b]) s') {bs : List β} :
    ∀ {s : σ}, runAll step bs start = some s → P bs s := by
  induction bs using List.reverseRecOn with
  | nil =>
      rintro _ ⟨⟩
      exact nil
  | append_singleton bs b ih =>
      intro s ran
      rw [runAll_append] at ran
      obtain ⟨mid, before, last⟩ := Option.bind_eq_some_iff.mp ran
      obtain ⟨_, stepped, ends⟩ := Option.bind_eq_some_iff.mp last
      cases ends
      exact concat bs b mid s before stepped (ih before)

/-- Some input of the run, the state it was taken in and the state it led to are like this. -/
def Happened (step : β → σ → Option σ) (bs : List β) (start : σ) (like : β → σ → σ → Prop) :
    Prop :=
  ∃ before b after s s', bs = before ++ b :: after ∧ runAll step before start = some s ∧
    step b s = some s' ∧ like b s s'

theorem not_happened_nil {start : σ} {like : β → σ → σ → Prop} :
    ¬ Happened step [] start like := by
  rintro ⟨before, b, after, _, _, none, _⟩
  exact List.append_ne_nil_of_right_ne_nil before (List.cons_ne_nil b after) none.symm

/-- What there is in the past of a run with one step before it. -/
theorem happened_cons {b : β} {bs : List β} {start mid : σ} {like : β → σ → σ → Prop}
    (stepped : step b start = some mid) :
    Happened step (b :: bs) start like ↔ like b start mid ∨ Happened step bs mid like := by
  constructor
  · rintro ⟨before, c, after, s, s', split, reached, passed, holds⟩
    cases before with
    | nil =>
        cases split
        cases reached
        cases stepped.symm.trans passed
        exact .inl holds
    | cons first before =>
        cases split
        obtain ⟨next, passing, reached⟩ := Option.bind_eq_some_iff.mp reached
        cases stepped.symm.trans passing
        exact .inr ⟨before, c, after, s, s', rfl, reached, passed, holds⟩
  · rintro (holds | ⟨before, c, after, s, s', rfl, reached, passed, holds⟩)
    · exact ⟨[], b, bs, start, mid, rfl, rfl, stepped, holds⟩
    · exact ⟨b :: before, c, after, s, s', rfl,
        Option.bind_eq_some_iff.mpr ⟨mid, stepped, reached⟩, passed, holds⟩

/-- What one more step adds to the past. -/
theorem happened_concat {bs : List β} {b : β} {start mid last : σ} {like : β → σ → σ → Prop}
    (ran : runAll step bs start = some mid) (stepped : step b mid = some last) :
    Happened step (bs ++ [b]) start like ↔ Happened step bs start like ∨ like b mid last := by
  constructor
  · rintro ⟨before, c, after, s, s', split, reached, passed, holds⟩
    rcases List.eq_nil_or_concat after with rfl | ⟨after, d, rfl⟩
    · obtain ⟨rfl, same⟩ := List.append_inj' split rfl
      cases same
      cases ran.symm.trans reached
      cases stepped.symm.trans passed
      exact .inr holds
    · rw [List.concat_eq_append, ← List.cons_append, ← List.append_assoc] at split
      obtain ⟨rfl, _⟩ := List.append_inj' split rfl
      exact .inl ⟨before, c, after, s, s', rfl, reached, passed, holds⟩
  · rintro (⟨before, c, after, s, s', rfl, reached, passed, holds⟩ | holds)
    · exact ⟨before, c, after ++ [b], s, s', by simp, reached, passed, holds⟩
    · exact ⟨bs, b, [], mid, last, rfl, ran, stepped, holds⟩

end EapAccel.Foundations
