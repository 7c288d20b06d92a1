import EapAccel.Foundations.Act
import EapAccel.Foundations.Runs

/-!
# Budgets

A loop that need not end is modelled with a budget of turns, and raises an exception of its own
when the budget is spent. A computation with a larger budget does the same as one that did not
spend its own (`Prolongs`), and so does a run of such computations (`runAll_prolongs`). What never
spends a budget (`Fine`) may stand anywhere around the loop. And a budget bounds what the loop adds
to a measure, which is counted along the computations around it (`AtMost`).
-/

set_option autoImplicit false

namespace EapAccel.Foundations

namespace Except

variable {ε α β : Type} {spent : ε}

theorem ok_fine (a : α) : (pure a : Except ε α) ≠ .error spent := by
  intro raised
  cases raised

theorem bind_fine {x : Except ε α} {f : α → Except ε β} (first : x ≠ .error spent)
    (rest : ∀ a, f a ≠ .error spent) : x >>= f ≠ .error spent := by
  cases x with
  | error e =>
      intro raised
      cases raised
      exact first rfl
  | ok a => exact rest a

theorem mapM_fine {f : α → Except ε β} (fine : ∀ x, f x ≠ .error spent) (xs : List α) :
    xs.mapM f ≠ .error spent := by
  induction xs with
  | nil => exact ok_fine []
  | cons x xs ih =>
      rw [List.mapM_cons]
      exact bind_fine (fine x) fun y => bind_fine ih fun ys => ok_fine (y :: ys)

theorem option_mapM_fine {f : α → Except ε β} (fine : ∀ x, f x ≠ .error spent) (x : Option α) :
    x.mapM f ≠ .error spent := by
  cases x with
  | none => exact ok_fine none
  | some v =>
      show (some <$> f v) ≠ _
      have own := fine v
      cases image : f v with
      | error e =>
          rw [image] at own
          intro raised
          cases raised
          exact own rfl
      | ok w => exact ok_fine (some w)

end Except

namespace Act

variable {ε σ τ α β : Type} {spent : ε}

/-! ## Larger budgets -/

/-- Where `x` does not spend its budget, `y` does the same. -/
def Prolongs (spent : ε) (x y : Act ε σ α) : Prop := ∀ s, (x s).1 ≠ .error spent → y s = x s

namespace Prolongs

theorem refl (x : Act ε σ α) : Prolongs spent x x := fun _ _ => rfl

protected theorem bind {x y : Act ε σ α} {f g : α → Act ε σ β} (first : Prolongs spent x y)
    (rest : ∀ a, Prolongs spent (f a) (g a)) : Prolongs spent (x >>= f) (y >>= g) := by
  intro s ended
  rcases hx : x s with ⟨e | a, s'⟩
  · rw [bind_of_error hx] at ended ⊢
    have fine : (x s).1 ≠ .error spent := by
      rw [hx]
      intro raised
      cases raised
      exact ended rfl
    exact bind_of_error ((first s fine).trans hx)
  · rw [bind_of_ok hx] at ended ⊢
    have fine : (x s).1 ≠ .error spent := by
      rw [hx]
      intro raised
      cases raised
    rw [bind_of_ok ((first s fine).trans hx)]
    exact rest a s' ended

/-- One continuation with two budgets. -/
theorem continue_ {x : Act ε σ α} {f g : α → Act ε σ β}
    (rest : ∀ a, Prolongs spent (f a) (g a)) : Prolongs spent (x >>= f) (x >>= g) :=
  (refl x).bind rest

protected theorem ite {c : Prop} [Decidable c] {x x' y y' : Act ε σ α}
    (yes : Prolongs spent x y) (no : Prolongs spent x' y') :
    Prolongs spent (if c then x else x') (if c then y else y') := by
  split
  · exact yes
  · exact no

protected theorem zoom {get : τ → σ} {set : σ → τ → τ} {x y : Act ε σ α}
    (prolongs : Prolongs spent x y) : Prolongs spent (zoom get set x) (zoom get set y) := by
  intro t ended
  simp only [Act.zoom]
  rw [prolongs (get t) ended]

/-- What spends no budget prolongs everything. -/
theorem of_spent {x y : Act ε σ α} (spends : ∀ s, (x s).1 = .error spent) :
    Prolongs spent x y :=
  fun s ended => absurd (spends s) ended

end Prolongs

/-! ## Computations that do not spend a budget -/

/-- The computation never raises `spent`. -/
def Fine (spent : ε) (x : Act ε σ α) : Prop := ∀ s, (x s).1 ≠ .error spent

namespace Fine

protected theorem pure (a : α) : Fine spent (pure a : Act ε σ α) := by
  intro s raised
  cases raised

protected theorem modify (f : σ → σ) : Fine spent (modify f : Act ε σ Unit) := by
  intro s raised
  cases raised

protected theorem lift {x : Except ε α} (fine : x ≠ .error spent) :
    Fine spent (lift x : Act ε σ α) := fun _ => fine

protected theorem bind {x : Act ε σ α} {f : α → Act ε σ β} (first : Fine spent x)
    (rest : ∀ a, Fine spent (f a)) : Fine spent (x >>= f) := by
  intro s
  rcases hx : x s with ⟨e | a, s'⟩
  · have fine := first s
    rw [hx] at fine
    rw [bind_of_error hx]
    intro raised
    cases raised
    exact fine rfl
  · rw [bind_of_ok hx]
    exact rest a s'

theorem read_bind {f : σ → Act ε σ β} (rest : ∀ s, Fine spent (f s)) :
    Fine spent (read >>= f) := fun s => rest s s

protected theorem ite {c : Prop} [Decidable c] {x y : Act ε σ α} (yes : Fine spent x)
    (no : Fine spent y) : Fine spent (if c then x else y) := by
  split
  · exact yes
  · exact no

/-- Such a computation needs no account of the raises that spend a budget. -/
theorem triple {inv : σ → Prop} {account : σ → Prop} {x : Act ε σ α} (fine : Fine spent x)
    (keeps : Invariant inv x) :
    Triple inv x (fun _ => inv) (fun e s => e = spent → account s) := by
  intro s start
  have ended := keeps s start
  have never := fine s
  rcases hx : x s with ⟨e | a, s'⟩
  · rw [hx] at never
    simp only
    rintro rfl
    exact absurd rfl never
  · simpa only [hx] using ended

end Fine

/-! ## What a computation adds -/

/-- The computation adds at most so much to the measure, whether it returns or raises. -/
def AtMost (measure : σ → ℕ) (n : ℕ) (x : Act ε σ α) : Prop :=
  ∀ s, measure (x s).2 ≤ measure s + n

namespace AtMost

variable {measure : σ → ℕ} {n m : ℕ}

theorem of_keeps {x : Act ε σ α} (keeps : Keeps measure x) : AtMost measure n x :=
  fun s => (keeps s).symm ▸ Nat.le_add_right _ _

theorem mono {x : Act ε σ α} (larger : n ≤ m) (adds : AtMost measure n x) : AtMost measure m x :=
  fun s => Nat.le_trans (adds s) (Nat.add_le_add_left larger _)

protected theorem bind {x : Act ε σ α} {f : α → Act ε σ β} (first : AtMost measure n x)
    (rest : ∀ a, AtMost measure m (f a)) : AtMost measure (n + m) (x >>= f) := by
  intro s
  have head := first s
  rcases hx : x s with ⟨e | a, s'⟩
  · rw [hx] at head
    rw [bind_of_error hx]
    simp only at head ⊢
    omega
  · have tail := rest a s'
    rw [hx] at head
    rw [bind_of_ok hx]
    simp only at head
    omega

/-- A computation that adds nothing comes first. -/
theorem after {x : Act ε σ α} {f : α → Act ε σ β} (first : Keeps measure x)
    (rest : ∀ a, AtMost measure n (f a)) : AtMost measure n (x >>= f) := by
  have both := (of_keeps first : AtMost measure 0 x).bind rest
  rwa [Nat.zero_add] at both

/-- A computation that adds nothing comes last. -/
theorem before {x : Act ε σ α} {f : α → Act ε σ β} (first : AtMost measure n x)
    (rest : ∀ a, Keeps measure (f a)) : AtMost measure n (x >>= f) :=
  AtMost.bind (m := 0) first fun a => of_keeps (rest a)

theorem read_bind {f : σ → Act ε σ β} (rest : ∀ s, AtMost measure n (f s)) :
    AtMost measure n (read >>= f) := fun s => rest s s

protected theorem ite {c : Prop} [Decidable c] {x y : Act ε σ α} (yes : AtMost measure n x)
    (no : AtMost measure n y) : AtMost measure n (if c then x else y) := by
  split
  · exact yes
  · exact no

end AtMost

end Act

/-! ## Runs -/

/-- Where the steps with the smaller budget end, so do those with the larger, and the runs are the
same. -/
theorem runAll_prolongs {σ β : Type} {step step' : β → σ → Option σ}
    (prolongs : ∀ b s s', step b s = some s' → step' b s = some s') :
    ∀ {bs : List β} {s s' : σ}, runAll step bs s = some s' → runAll step' bs s = some s' := by
  intro bs
  induction bs with
  | nil => exact fun ran => ran
  | cons b bs ih =>
      intro s s' ran
      obtain ⟨mid, stepped, ran⟩ := Option.bind_eq_some_iff.mp ran
      exact Option.bind_eq_some_iff.mpr ⟨mid, prolongs b s mid stepped, ih ran⟩

end EapAccel.Foundations
