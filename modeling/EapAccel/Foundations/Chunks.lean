import Mathlib.Data.List.Range
import Mathlib.Tactic.Common

/-!
# Cutting a list into chunks

`chunks size l` is the list of the slices of `l` of length `size` at the offsets
`0, size, 2 * size, …` below the length of `l`. The last slice may be shorter.
The slices joined give back `l` (`flatten_chunks`), and there are
`⌈l.length / size⌉` of them (`length_chunks`).
-/

set_option autoImplicit false

namespace EapAccel.Foundations

variable {α : Type*}

/-- The slices of a list at the multiples of `size` below its length. -/
def chunks (size : ℕ) (l : List α) : List (List α) :=
  (List.range ((l.length + size - 1) / size)).map fun i => (l.drop (i * size)).take size

theorem length_chunks (size : ℕ) (l : List α) :
    (chunks size l).length = (l.length + size - 1) / size := by
  simp [chunks]

@[simp] theorem chunks_nil {size : ℕ} (positive : 0 < size) : chunks size ([] : List α) = [] := by
  have : (0 + size - 1) / size = 0 := Nat.div_eq_of_lt (by omega)
  simp only [chunks, List.length_nil, this, List.range_zero, List.map_nil]

/-- The first slice, and the slices of the rest. -/
theorem chunks_cut {size : ℕ} (positive : 0 < size) {l : List α} (nonempty : l ≠ []) :
    chunks size l = l.take size :: chunks size (l.drop size) := by
  have long : 0 < l.length := List.length_pos_iff.mpr nonempty
  have count : (l.length + size - 1) / size = (l.length - size + size - 1) / size + 1 := by
    by_cases short : l.length ≤ size
    · have first : (l.length + size - 1) / size = 1 :=
        (Nat.div_eq_iff positive).mpr (by omega)
      have none : (l.length - size + size - 1) / size = 0 := Nat.div_eq_of_lt (by omega)
      omega
    · rw [← Nat.add_div_right _ positive]
      congr 1
      omega
  simp only [chunks, count, List.length_drop, List.range_succ_eq_map, List.map_cons, List.map_map,
    Nat.zero_mul, List.drop_zero, Function.comp_def, List.drop_drop]
  congr 1
  refine List.map_congr_left fun i _ => ?_
  rw [Nat.succ_mul, Nat.add_comm]

/-- Induction along the cuts of a list. -/
theorem chunks_induction {size : ℕ} (positive : 0 < size) {P : List α → Prop} (nil : P [])
    (cut : ∀ l, l ≠ [] → P (l.drop size) → P l) (l : List α) : P l := by
  induction hn : l.length using Nat.strong_induction_on generalizing l with
  | _ n ih =>
      by_cases empty : l = []
      · rw [empty]
        exact nil
      · have long : 0 < l.length := List.length_pos_iff.mpr empty
        refine cut l empty (ih (l.length - size) (by omega) (l.drop size) ?_)
        rw [List.length_drop]

theorem flatten_chunks {size : ℕ} (positive : 0 < size) (l : List α) :
    (chunks size l).flatten = l := by
  induction l using chunks_induction positive with
  | nil => simp [chunks_nil positive]
  | cut l nonempty ih =>
      rw [chunks_cut positive nonempty, List.flatten_cons, ih, List.take_append_drop]

theorem length_le_of_mem_chunks {size : ℕ} {l chunk : List α} (member : chunk ∈ chunks size l) :
    chunk.length ≤ size := by
  simp only [chunks, List.mem_map] at member
  obtain ⟨_, _, rfl⟩ := member
  rw [List.length_take]
  exact Nat.min_le_left _ _

theorem ne_nil_of_mem_chunks {size : ℕ} (positive : 0 < size) {l : List α} :
    ∀ chunk ∈ chunks size l, chunk ≠ [] := by
  induction l using chunks_induction positive with
  | nil => simp [chunks_nil positive]
  | cut l nonempty ih =>
      rw [chunks_cut positive nonempty]
      intro chunk member
      rcases List.mem_cons.mp member with rfl | later
      · have long : 0 < l.length := List.length_pos_iff.mpr nonempty
        rw [← List.length_pos_iff, List.length_take]
        omega
      · exact ih chunk later

theorem chunks_ne_nil {size : ℕ} (positive : 0 < size) {l : List α} (nonempty : l ≠ []) :
    chunks size l ≠ [] := by
  rw [chunks_cut positive nonempty]
  exact List.cons_ne_nil _ _

end EapAccel.Foundations
