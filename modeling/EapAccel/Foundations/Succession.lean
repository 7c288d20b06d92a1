import Mathlib.Data.List.Nodup
import Mathlib.Data.List.Perm.Subperm

/-!
# Octets in succession

In a stop-and-wait exchange each message carries an octet, its confirmation repeats the octet,
and the next message carries the successor modulo 256. `Successive` says that confirmations
come in this order. A receiver that takes only the successor of what it confirmed last then takes
everything (`accepted_eq_self_iff`), and the octets differ as long as there are at most 256 of
them (`nodup_successors_iff`).
-/

set_option autoImplicit false

namespace EapAccel.Foundations

/-- Confirmations in order: the first is of the last message, and each further one of the
successor of its predecessor. -/
def Successive : Option UInt8 → List UInt8 → Prop
  | _, [] => True
  | last, octet :: rest => last = some octet ∧ Successive (some (octet + 1)) rest

instance : (last : Option UInt8) → (octets : List UInt8) → Decidable (Successive last octets)
  | _, [] => isTrue trivial
  | last, octet :: rest =>
      let := instDecidableSuccessive (some (octet + 1)) rest
      inferInstanceAs (Decidable (last = some octet ∧ Successive (some (octet + 1)) rest))

/-- What a receiver takes that takes only the successor of the last octet it took. -/
def accepted : Option UInt8 → List UInt8 → List UInt8
  | _, [] => []
  | last, octet :: rest =>
      if last.map (· + 1) = some octet then octet :: accepted (some octet) rest
      else accepted last rest

theorem length_accepted_le (octets : List UInt8) : ∀ last : Option UInt8,
    (accepted last octets).length ≤ octets.length := by
  induction octets with
  | nil => exact fun _ => Nat.le_refl _
  | cons octet rest ih =>
      intro last
      rw [accepted]
      split
      · exact Nat.succ_le_succ (ih (some octet))
      · exact Nat.le_trans (ih last) (Nat.le_succ _)

/-- **Everything is taken exactly if the confirmations are in order.** -/
theorem accepted_eq_self_iff (octets : List UInt8) : ∀ last : Option UInt8,
    accepted last (octets.map (· + 1)) = octets.map (· + 1) ↔ Successive last octets := by
  induction octets with
  | nil => exact fun _ => ⟨fun _ => trivial, fun _ => rfl⟩
  | cons octet rest ih =>
      intro last
      have next : last.map (· + 1) = some (octet + 1) ↔ last = some octet := by
        cases last with
        | none => exact ⟨nofun, nofun⟩
        | some last =>
            rw [Option.map_some, Option.some_inj, Option.some_inj, UInt8.add_left_inj]
      rw [List.map_cons, accepted]
      by_cases same : last = some octet
      · rw [if_pos (next.mpr same), List.cons_inj_right, ih]
        exact ⟨fun later => ⟨same, later⟩, And.right⟩
      · rw [if_neg (fun taken => same (next.mp taken))]
        constructor
        · intro all
          have short := length_accepted_le (rest.map (· + 1)) last
          rw [all] at short
          exact absurd short (Nat.not_succ_le_self _)
        · exact fun successive => absurd successive.1 same

/-- `count` octets from `first` on. -/
def successors (first : UInt8) (count : ℕ) : List UInt8 :=
  (List.range count).map fun idx => first + UInt8.ofNat idx

theorem successors_succ (first : UInt8) (count : ℕ) :
    successors first (count + 1) = first :: successors (first + 1) count := by
  rw [successors, List.range_succ_eq_map, List.map_cons, List.map_map]
  congr 1
  · exact UInt8.add_zero first
  · apply List.map_congr_left
    intro idx _
    show first + UInt8.ofNat (idx + 1) = first + 1 + UInt8.ofNat idx
    rw [UInt8.ofNat_add, UInt8.add_comm (UInt8.ofNat idx), ← UInt8.add_assoc]
    rfl

theorem eq_successors {octets : List UInt8} : ∀ {first : UInt8},
    Successive (some first) octets →
      first :: octets.map (· + 1) = successors first (octets.length + 1) := by
  induction octets with
  | nil =>
      intro first _
      rw [successors_succ]
      rfl
  | cons octet rest ih =>
      rintro first ⟨same, successive⟩
      cases same
      rw [List.map_cons, ih successive, List.length_cons, successors_succ octet]

/-- **Octets in succession differ as long as there are at most 256.** -/
theorem nodup_successors_iff (first : UInt8) (count : ℕ) :
    (successors first count).Nodup ↔ count ≤ 256 := by
  constructor
  · intro distinct
    have numbers : ((successors first count).map UInt8.toNat).Nodup :=
      List.Nodup.map (fun _ _ => UInt8.toNat_inj.mp) distinct
    have small : (successors first count).map UInt8.toNat ⊆ List.range 256 := by
      intro number member
      obtain ⟨octet, _, rfl⟩ := List.mem_map.mp member
      exact List.mem_range.mpr octet.toNat_lt
    have few := (numbers.subperm small).length_le
    simpa [successors] using few
  · intro few
    apply List.Nodup.map_on ?_ List.nodup_range
    intro idx below other below' same
    have bound := List.mem_range.mp below
    have bound' := List.mem_range.mp below'
    have numbers := congrArg UInt8.toNat ((UInt8.add_right_inj first).mp same)
    rw [UInt8.toNat_ofNat', UInt8.toNat_ofNat'] at numbers
    omega

end EapAccel.Foundations
