import Segmentation.Number.Numeral
import Mathlib.Algebra.Ring.Nat
import Mathlib.Data.List.Induction

/-!
# Digits

The digits of a number and the number of digits undo one another.  Zeros behind digits
multiply their number, and zeros in front of them do not count.
-/

namespace Segmentation.Numeral

/-! ## The digits of a number -/

theorem isDigit_of_mem_toDigits {n : Nat} {c : Char} (h : c ∈ Nat.toDigits 10 n) : c.isDigit := by
  exact Nat.isDigit_of_mem_toDigits (by decide) (by decide) h

theorem all_isDigit_toDigits (n : Nat) : (Nat.toDigits 10 n).all Char.isDigit :=
  List.all_eq_true.2 fun _ hc => isDigit_of_mem_toDigits hc

/-- The digits of a number other than zero do not begin with a zero. -/
theorem head_toDigits_ne {n : Nat} (hn : n ≠ 0) {first : Char} {digits : List Char}
    (h : Nat.toDigits 10 n = first :: digits) : first ≠ '0' := by
  induction n using Nat.strongRecOn generalizing digits with
  | ind n ih =>
      rcases Nat.lt_or_ge n 10 with hlt | hge
      · rw [Nat.toDigits_of_lt_base hlt, List.cons.injEq] at h
        rw [← h.1, Ne, Nat.digitChar_eq_zero]
        exact hn
      · obtain ⟨front, others, hfront⟩ := List.exists_cons_of_ne_nil
          (Nat.toDigits_ne_nil : Nat.toDigits 10 (n / 10) ≠ [])
        rw [Nat.toDigits_of_base_le (by decide) hge, hfront, List.cons_append, List.cons.injEq] at h
        rw [h.1] at hfront
        exact ih (n / 10) (by omega) (by omega) hfront

/-! ## The number of digits -/

theorem digitsValue_eq_ofDigitChars (digits : List Char) :
    digitsValue digits = Nat.ofDigitChars 10 digits 0 := by
  rfl

theorem digitsValue_append (front back : List Char) :
    digitsValue (front ++ back) = digitsValue front * 10 ^ back.length + digitsValue back := by
  rw [digitsValue_eq_ofDigitChars, digitsValue_eq_ofDigitChars, digitsValue_eq_ofDigitChars,
    Nat.ofDigitChars_append, Nat.ofDigitChars_eq_ofDigitChars_zero, Nat.mul_comm]

theorem digitsValue_toDigits (n : Nat) : digitsValue (Nat.toDigits 10 n) = n := by
  exact Nat.ofDigitChars_ten_toDigits

theorem digitsValue_append_digitChar (digits : List Char) {d : Nat} (hd : d < 10) :
    digitsValue (digits ++ [d.digitChar]) = 10 * digitsValue digits + d := by
  rw [digitsValue, digitsValue, List.foldl_append, List.foldl_cons, List.foldl_nil]
  exact congrArg _ (Nat.toNat_digitChar_sub_48_of_lt_ten hd)

theorem digitsValue_zeros_append (count : Nat) (digits : List Char) :
    digitsValue (List.replicate count '0' ++ digits) = digitsValue digits := by
  rw [digitsValue_eq_ofDigitChars, Nat.ofDigitChars_append, Nat.ofDigitChars_replicate_zero,
    Nat.mul_zero, digitsValue_eq_ofDigitChars]

theorem digitsValue_append_zeros (digits : List Char) (count : Nat) :
    digitsValue (digits ++ List.replicate count '0') = digitsValue digits * 10 ^ count := by
  have hzeros := digitsValue_zeros_append count []
  rw [List.append_nil] at hzeros
  rw [digitsValue_append, hzeros, List.length_replicate]
  rfl

theorem exists_digitChar_eq {c : Char} (h : c.isDigit) : ∃ d < 10, c = d.digitChar := by
  obtain ⟨hlow, hhigh⟩ : 48 ≤ c.toNat ∧ c.toNat ≤ 57 := by
    simpa [Char.isDigit, UInt32.le_iff_toNat_le] using h
  refine ⟨c.toNat - 48, by omega, Char.toNat_inj.1 ?_⟩
  rw [Nat.toNat_digitChar_of_lt_ten (by omega)]
  omega

/-- Digits without a zero in front are the ones with which their number is written. -/
theorem toDigits_digitsValue {first : Char} (hfirst : first.isDigit) (hzero : first ≠ '0')
    {digits : List Char} (hdigits : ∀ d ∈ digits, d.isDigit) :
    0 < digitsValue (first :: digits) ∧
      Nat.toDigits 10 (digitsValue (first :: digits)) = first :: digits := by
  induction digits using List.reverseRecOn with
  | nil =>
      obtain ⟨d, hd, rfl⟩ := exists_digitChar_eq hfirst
      have hvalue : digitsValue [d.digitChar] = d :=
        (digitsValue_append_digitChar [] hd).trans (Nat.zero_add d)
      rw [hvalue, Nat.toDigits_of_lt_base hd]
      refine ⟨Nat.pos_of_ne_zero ?_, rfl⟩
      rintro rfl
      exact hzero rfl
  | append_singleton digits last ih =>
      obtain ⟨hpos, hwritten⟩ := ih fun d hd => hdigits d (List.mem_append_left _ hd)
      obtain ⟨d, hd, rfl⟩ := exists_digitChar_eq (hdigits last (by simp))
      rw [← List.cons_append, digitsValue_append_digitChar _ hd,
        ← Nat.toDigits_append_toDigits (by decide) hpos hd, hwritten, Nat.toDigits_of_lt_base hd]
      exact ⟨by omega, rfl⟩

end Segmentation.Numeral
