import Mathlib.Data.List.Basic

/-!
# Numerals in names

A number is written in decimal digits, with zeros in front up to some width. It can be read back
(`padded_injective`). What is written of it are digits, so a name made of numbers with separators
between them can be cut again into its numbers (`fields_injective`).
-/

set_option autoImplicit false

namespace EapAccel.Foundations

/-- The decimal digits of a number, with zeros in front up to a width. -/
def padded (width n : ℕ) : List Char :=
  List.replicate (width - (Nat.toDigits 10 n).length) '0' ++ Nat.toDigits 10 n

theorem ofDigitChars_padded (width n : ℕ) : Nat.ofDigitChars 10 (padded width n) 0 = n := by
  rw [padded, Nat.ofDigitChars_append, Nat.ofDigitChars_replicate_zero, Nat.mul_zero]
  exact Nat.ofDigitChars_ten_toDigits

/-- **A padded number can be read back**, whatever the width. -/
theorem padded_injective {width width' n n' : ℕ} (same : padded width n = padded width' n') :
    n = n' := by
  have read := congrArg (fun digits => Nat.ofDigitChars 10 digits 0) same
  simpa only [ofDigitChars_padded] using read

theorem padded_ne_nil (width n : ℕ) : padded width n ≠ [] :=
  List.append_ne_nil_of_right_ne_nil _ Nat.toDigits_ne_nil

theorem isDigit_of_mem_padded {width n : ℕ} {c : Char} (member : c ∈ padded width n) :
    c.isDigit = true := by
  rcases List.mem_append.mp member with zero | digit
  · rw [(List.mem_replicate.mp zero).2]
    rfl
  · exact Nat.isDigit_of_mem_toDigits (by decide) (by decide) digit

/-- What is not a digit does not occur in a number. -/
theorem sep_notMem_padded {sep : Char} (digitless : sep.isDigit = false) (width n : ℕ) :
    sep ∉ padded width n := by
  intro member
  rw [isDigit_of_mem_padded member] at digitless
  cases digitless

/-- Numbers without a separator between them have none. -/
theorem sep_notMem_append {sep : Char} {before after : List Char} (first : sep ∉ before)
    (second : sep ∉ after) : sep ∉ before ++ after := by
  intro member
  rcases List.mem_append.mp member with there | there
  · exact first there
  · exact second there

/-- **Up to the first separator, two names have the same field.** -/
theorem fields_injective {sep : Char} {field field' rest rest' : List Char}
    (first : sep ∉ field) (first' : sep ∉ field')
    (same : field ++ sep :: rest = field' ++ sep :: rest') : field = field' ∧ rest = rest' := by
  induction field generalizing field' with
  | nil =>
      cases field' with
      | nil => exact ⟨rfl, (List.cons.inj same).2⟩
      | cons c field' => exact absurd ((List.cons.inj same).1 ▸ List.mem_cons_self) first'
  | cons c field ih =>
      cases field' with
      | nil => exact absurd ((List.cons.inj same).1 ▸ List.mem_cons_self) first
      | cons c' field' =>
          obtain ⟨rfl, tails⟩ := List.cons.inj same
          obtain ⟨rfl, rfl⟩ := ih (fun member => first (List.mem_cons_of_mem c member))
            (fun member => first' (List.mem_cons_of_mem c member)) tails
          exact ⟨rfl, rfl⟩

end EapAccel.Foundations
