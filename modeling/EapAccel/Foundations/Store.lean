import Mathlib.Data.List.Nodup
import Mathlib.Logic.Function.Basic

/-!
# Stores

A store has contents under some keys. Writing replaces what is under a key. Where the keys of some
writes are distinct, each is there to the end (`written_of_mem`), and what is under no key of a
write is as it was (`written_of_notMem`).
-/

set_option autoImplicit false

namespace EapAccel.Foundations

variable {κ ν : Type} [DecidableEq κ]

/-- The store after some writes. -/
def written (writes : List (κ × ν)) (store : κ → Option ν) : κ → Option ν :=
  writes.foldl (fun store entry => Function.update store entry.1 (some entry.2)) store

theorem written_concat (writes : List (κ × ν)) (entry : κ × ν) (store : κ → Option ν) :
    written (writes ++ [entry]) store =
      Function.update (written writes store) entry.1 (some entry.2) := by
  rw [written, List.foldl_append]
  rfl

/-- What is under no key of a write is as it was. -/
theorem written_of_notMem {writes : List (κ × ν)} {key : κ} (store : κ → Option ν)
    (other : key ∉ writes.map Prod.fst) : written writes store key = store key := by
  induction writes generalizing store with
  | nil => rfl
  | cons entry writes ih =>
      rw [List.map_cons, List.mem_cons, not_or] at other
      have rest := ih (Function.update store entry.1 (some entry.2)) other.2
      rw [Function.update_of_ne other.1] at rest
      exact rest

/-- **Writes under distinct keys are all there.** -/
theorem written_of_mem {writes : List (κ × ν)} {entry : κ × ν} (store : κ → Option ν)
    (distinct : (writes.map Prod.fst).Nodup) (member : entry ∈ writes) :
    written writes store entry.1 = some entry.2 := by
  induction writes generalizing store with
  | nil => cases member
  | cons first writes ih =>
      obtain ⟨new, distinct⟩ := List.nodup_cons.mp distinct
      rcases List.mem_cons.mp member with rfl | later
      · have kept := written_of_notMem (Function.update store entry.1 (some entry.2)) new
        rw [Function.update_self] at kept
        exact kept
      · exact ih (Function.update store first.1 (some first.2)) distinct later

end EapAccel.Foundations
