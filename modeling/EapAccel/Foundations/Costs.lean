import Mathlib.Data.List.Basic

/-!
# Costs along a history

Things happen one after another, and what one of them costs may depend on all that happened
before. The cost of some of them, counted where a condition holds, adds up over consecutive parts
of the history (`costs_append`) and over a condition and its negation (`costs_split`).
-/

set_option autoImplicit false

namespace EapAccel.Foundations

variable {α : Type} (cost : List α → α → ℕ) (counts : α → Prop) [DecidablePred counts]

/-- What some events cost together that come after others, where they count. -/
def costs : List α → List α → ℕ
  | _, [] => 0
  | before, a :: rest => (if counts a then cost before a else 0) + costs (before ++ [a]) rest

variable {cost counts}

theorem costs_append : ∀ (before first second : List α), costs cost counts before (first ++ second) =
    costs cost counts before first + costs cost counts (before ++ first) second := by
  intro before first
  induction first generalizing before with
  | nil =>
      intro second
      rw [List.append_nil]
      exact (Nat.zero_add _).symm
  | cons a first ih =>
      intro second
      rw [List.cons_append, costs, costs, ih, List.append_assoc, Nat.add_assoc]
      rfl

theorem costs_singleton (before : List α) (a : α) :
    costs cost counts before [a] = if counts a then cost before a else 0 := Nat.add_zero _

/-- Every event counts where the condition holds or where it does not. -/
theorem costs_split (before events : List α) :
    costs cost (fun _ => True) before events =
      costs cost counts before events + costs cost (fun a => ¬ counts a) before events := by
  induction events generalizing before with
  | nil => rfl
  | cons a rest ih =>
      simp only [costs, ih, if_true]
      by_cases here : counts a
      · rw [if_pos here, if_neg (not_not.mpr here)]
        omega
      · rw [if_neg here, if_pos here]
        omega

/-- Where no event costs more than `most`, they cost no more than that each. -/
theorem costs_le {most : ℕ} (each : ∀ before a, cost before a ≤ most) (before events : List α) :
    costs cost counts before events ≤ events.length * most := by
  induction events generalizing before with
  | nil => exact Nat.zero_le _
  | cons a rest ih =>
      have later := ih (before ++ [a])
      have now : (if counts a then cost before a else 0) ≤ most := by
        split
        · exact each before a
        · exact Nat.zero_le _
      rw [costs, List.length_cons, Nat.succ_mul]
      omega

end EapAccel.Foundations
