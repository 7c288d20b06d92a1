import Mathlib.Data.List.Basic

/-!
# Shuffles of two lists

A shuffle of two lists has the members of both, each list's in its own order. A test that
tells the two apart gets either list back (`Shuffle.filter_left`, `Shuffle.filter_right`).
-/

set_option autoImplicit false

namespace EapAccel.Foundations

variable {α : Type*}

/-- The third list interleaves the first two. -/
inductive Shuffle : List α → List α → List α → Prop where
  | nil : Shuffle [] [] []
  | left {a : α} {left right all : List α} :
      Shuffle left right all → Shuffle (a :: left) right (a :: all)
  | right {a : α} {left right all : List α} :
      Shuffle left right all → Shuffle left (a :: right) (a :: all)

namespace Shuffle

theorem mem {left right all : List α} (shuffle : Shuffle left right all) {a : α} :
    a ∈ all ↔ a ∈ left ∨ a ∈ right := by
  induction shuffle with
  | nil => simp
  | left _ ih => simp only [List.mem_cons, ih, or_assoc]
  | right _ ih => simp only [List.mem_cons, ih, or_left_comm]

/-- A test that fails on the second list sees the first alone. -/
theorem filter_left {left right all : List α} (shuffle : Shuffle left right all)
    {test : α → Bool} (fails : ∀ a ∈ right, test a = false) :
    all.filter test = left.filter test := by
  induction shuffle with
  | nil => rfl
  | left _ ih => simp only [List.filter_cons, ih fails]
  | right _ ih =>
      rw [List.forall_mem_cons] at fails
      rw [List.filter_cons, fails.1, ih fails.2]
      rfl

theorem swap {left right all : List α} (shuffle : Shuffle left right all) :
    Shuffle right left all := by
  induction shuffle with
  | nil => exact nil
  | left _ ih => exact ih.right
  | right _ ih => exact ih.left

/-- A test that fails on the first list sees the second alone. -/
theorem filter_right {left right all : List α} (shuffle : Shuffle left right all)
    {test : α → Bool} (fails : ∀ a ∈ left, test a = false) :
    all.filter test = right.filter test :=
  shuffle.swap.filter_left fails

end Shuffle
end EapAccel.Foundations
