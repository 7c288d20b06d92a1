import Mathlib.Data.List.Induction
import Mathlib.Tactic.Ring

/-!
# Big-endian byte strings

A natural number below `256 ^ width` and its `width` bytes, most significant
byte first, determine each other (`ofBytes_toBytes`, `toBytes_ofBytes`).
-/

set_option autoImplicit false

namespace EapAccel.Foundations.BigEndian

/-- The number a byte string denotes, most significant byte first. -/
def ofBytes (bytes : List UInt8) : ℕ :=
  bytes.foldl (fun acc byte => acc * 256 + byte.toNat) 0

/-- The last `width` base-256 digits of a number, most significant first. -/
def toBytes : ℕ → ℕ → List UInt8
  | 0, _ => []
  | width + 1, n => toBytes width (n / 256) ++ [UInt8.ofNat n]

@[simp] theorem ofBytes_nil : ofBytes [] = 0 := rfl

@[simp] theorem ofBytes_concat (bytes : List UInt8) (byte : UInt8) :
    ofBytes (bytes ++ [byte]) = ofBytes bytes * 256 + byte.toNat := by
  simp [ofBytes]

@[simp] theorem length_toBytes (width n : ℕ) : (toBytes width n).length = width := by
  induction width generalizing n with
  | zero => rfl
  | succ width ih => simp [toBytes, ih]

theorem ofBytes_toBytes {width n : ℕ} (fits : n < 256 ^ width) :
    ofBytes (toBytes width n) = n := by
  induction width generalizing n with
  | zero =>
      have : n = 0 := by simpa using fits
      simp [toBytes, this]
  | succ width ih =>
      have head : n / 256 < 256 ^ width := by
        apply Nat.div_lt_of_lt_mul
        rwa [pow_succ, Nat.mul_comm] at fits
      rw [toBytes, ofBytes_concat, ih head, UInt8.toNat_ofNat']
      omega

theorem ofBytes_lt (bytes : List UInt8) : ofBytes bytes < 256 ^ bytes.length := by
  induction bytes using List.reverseRecOn with
  | nil => simp
  | append_singleton init last ih =>
      rw [ofBytes_concat, List.length_append, List.length_singleton, pow_succ]
      have := last.toNat_lt
      omega

theorem toBytes_ofBytes (bytes : List UInt8) : toBytes bytes.length (ofBytes bytes) = bytes := by
  induction bytes using List.reverseRecOn with
  | nil => rfl
  | append_singleton init last ih =>
      have low := last.toNat_lt
      have quotient : (ofBytes init * 256 + last.toNat) / 256 = ofBytes init := by omega
      have digit : UInt8.ofNat (ofBytes init * 256 + last.toNat) = last := by
        apply UInt8.toNat_inj.mp
        rw [UInt8.toNat_ofNat']
        omega
      rw [List.length_append, List.length_singleton, ofBytes_concat, toBytes, quotient, digit, ih]

end EapAccel.Foundations.BigEndian
