import Segmentation.Proofs.Number.Shortest
import Segmentation.Proofs.Number.Spelling

/-!
# Written numbers

The texts of integers and of finite doubles spell numerals.  That of an integer denotes the
integer; that of a double has the double's sign and denotes a number that is rounded to it.
A short number that is rounded to the double is the one that is written.
-/

namespace Segmentation

open Numeral (IsDigits Body Spells bodyValue digitsValue)

namespace Numeral

/-- An integer is spelled with its digits, and with a sign if it is negative. -/
theorem exists_spells_toString (integer : Int) :
    ∃ n : Numeral, n.Spells (toString integer).toList ∧ n.value = integer := by
  have hmagnitude : ∀ negative count,
      magnitude ⟨negative, Nat.toDigits 10 count, none, none⟩ = count := by
    intro negative count
    rw [magnitude_plain, bodyValue_none, digitsValue_toDigits]
  cases integer with
  | ofNat count =>
      refine ⟨⟨false, Nat.toDigits 10 count, none, none⟩, ?_, hmagnitude false count⟩
      change Spells _ (Nat.repr count).toList
      rw [Nat.toList_repr]
      exact .plain .unsigned (.whole (isDigits_toDigits count))
  | negSucc count =>
      refine ⟨⟨true, Nat.toDigits 10 (count + 1), none, none⟩, ?_, ?_⟩
      · change Spells _ ("-" ++ Nat.repr (count + 1)).toList
        rw [String.toList_append, Nat.toList_repr]
        exact .plain .minus (.whole (isDigits_toDigits (count + 1)))
      · rw [value, if_pos rfl, hmagnitude]
        push_cast
        ring

/-- Zero, or a number of at most fifteen digits that is not below the least normal double. -/
def IsShort (n : Numeral) : Prop :=
  n.magnitude = 0 ∨
    2 ^ (-1022 : Int) ≤ n.magnitude ∧
      ∃ (digits : Nat) (power : Int), digits < 10 ^ 15 ∧ n.magnitude = digits * 10 ^ power

end Numeral

/-! ## Doubles -/

/-- The zeros that are left out at the end are made up for by the place of the digits. -/
theorem Decimal.value_significant (decimal : Decimal) :
    (digitsValue decimal.significant.1 : ℚ) *
      10 ^ (decimal.significant.2 - decimal.significant.1.length) = decimal.value := by
  obtain ⟨zeros, hzeros⟩ : ∃ zeros, Nat.toDigits 10 decimal.digits =
      decimal.significant.1 ++ List.replicate zeros '0' := by
    have hsplit := congrArg List.reverse (List.takeWhile_append_dropWhile
      (p := (· == '0')) (l := (Nat.toDigits 10 decimal.digits).reverse))
    have hall : ∀ c ∈ ((Nat.toDigits 10 decimal.digits).reverse.takeWhile (· == '0')).reverse,
        c = '0' := by
      intro c hc
      exact beq_iff_eq.1 (List.all_eq_true.1 List.all_takeWhile c (List.mem_reverse.1 hc))
    rw [List.reverse_append, List.reverse_reverse, List.eq_replicate_of_mem hall] at hsplit
    exact ⟨_, hsplit.symm⟩
  have hdigits : digitsValue decimal.significant.1 * 10 ^ zeros = decimal.digits := by
    rw [← Numeral.digitsValue_append_zeros, ← hzeros, Numeral.digitsValue_toDigits]
  have hplace : decimal.significant.2 - decimal.significant.1.length = zeros + decimal.power := by
    have hlength := congrArg List.length hzeros
    rw [List.length_append, List.length_replicate] at hlength
    have hsecond : decimal.significant.2 =
        decimal.power + (Nat.toDigits 10 decimal.digits).length := rfl
    omega
  calc (digitsValue decimal.significant.1 : ℚ) *
        10 ^ (decimal.significant.2 - decimal.significant.1.length)
      = (digitsValue decimal.significant.1 * 10 ^ zeros : Nat) * 10 ^ decimal.power := by
        rw [hplace, zpow_add₀ (by norm_num), zpow_natCast]
        push_cast
        ring
    _ = decimal.value := by rw [hdigits, value]

namespace NumeralStyle

variable {style : NumeralStyle}

theorem exists_body_positionalText (hstyle : style.IsPlain) {digits : List Char}
    (hdigits : IsDigits digits) (place : Int) :
    ∃ whole fraction, Body whole fraction (style.positionalText digits place) ∧
      bodyValue whole fraction = digitsValue digits * 10 ^ (place - digits.length) := by
  obtain ⟨hne, hall⟩ := hdigits
  have hsmall : ∀ zeros, ∃ whole fraction,
      Body whole fraction ('0' :: '.' :: (List.replicate zeros '0' ++ digits)) ∧
        bodyValue whole fraction = digitsValue digits * 10 ^ (-(zeros : Int) - digits.length) := by
    intro zeros
    refine ⟨['0'], some (List.replicate zeros '0' ++ digits), ?_, ?_⟩
    · exact .point rfl (by simp [hall]) (.inl (List.cons_ne_nil _ _))
    · have hzeros := Numeral.digitsValue_zeros_append (zeros + 1) digits
      rw [List.replicate_succ, List.cons_append] at hzeros
      rw [Numeral.bodyValue_eq, List.cons_append, List.nil_append, hzeros, List.length_append,
        List.length_replicate, Nat.cast_add, neg_add']
  unfold positionalText
  split
  · next p =>
      exact hsmall (p + 1)
  · exact hsmall 0
  · next p hp =>
      split
      · next hlonger =>
          rw [hstyle.2]
          refine ⟨digits ++ List.replicate (p - digits.length) '0', none, ?_, ?_⟩
          · rw [if_neg Bool.false_ne_true, List.append_nil]
            exact .whole ⟨by simp [hne], by simp [hall]⟩
          · rw [Numeral.bodyValue_none, Numeral.digitsValue_append_zeros]
            push_cast
            rw [← zpow_natCast, Nat.cast_sub hlonger]
            rfl
      · next hshorter =>
          refine ⟨digits.take p, some (digits.drop p), ?_, ?_⟩
          · rw [← List.take_append_drop p digits, List.all_append, Bool.and_eq_true] at hall
            refine .point hall.1 hall.2 (.inr ?_)
            simpa using hshorter
          · rw [Numeral.bodyValue_eq, List.take_append_drop, List.length_drop,
              Nat.cast_sub (Nat.le_of_not_le hshorter), neg_sub]
            rfl

/-- The number with which a rank is written. -/
def writtenValue (style : NumeralStyle) (rank : Nat) : ℚ :=
  if rank = 0 then 0 else (Decimal.shortest style.tie rank).value

theorem rounds_writtenValue (style : NumeralStyle) {rank : Nat}
    (hrank : rank < Double.infinityRank) : Double.Rounds (style.writtenValue rank) rank := by
  rw [writtenValue]
  split
  · next hzero =>
      rw [hzero, ← Double.value_zero]
      exact Double.Rounds.value 0
  · exact Decimal.rounds_shortest style.tie hrank

/-- Of the numbers that are rounded to a finite double a short one is written. -/
theorem writtenValue_eq (style : NumeralStyle) {n : Numeral} (hshort : n.IsShort) {rank : Nat}
    (hrank : rank < Double.infinityRank) (hrounds : Double.Rounds n.magnitude rank) :
    style.writtenValue rank = n.magnitude := by
  rcases hshort with hzero | ⟨hnormal, digits, power, hdigits, hmagnitude⟩
  · have hleast : n.magnitude < 2 ^ (-1075 : Int) := by
      rw [hzero]
      positivity
    rw [writtenValue, if_pos (hrounds.eq_zero hleast), hzero]
  · have hbinade := hrounds.binade_le hnormal
    have hpos := Double.binade_pos
    rw [hmagnitude] at hrounds ⊢
    rw [writtenValue, if_neg (by omega)]
    exact Decimal.value_shortest hdigits hrank hbinade hrounds

theorem exists_body_magnitudeText (hstyle : style.IsPlain) {rank : Nat}
    (hrank : rank < Double.infinityRank) :
    ∃ whole fraction, Body whole fraction (style.magnitudeText rank) ∧
      bodyValue whole fraction = style.writtenValue rank := by
  rw [magnitudeText, writtenValue]
  by_cases hzero : rank = 0
  · rw [if_pos hzero, if_pos hzero, hstyle.2]
    refine ⟨['0'], none, .whole ⟨List.cons_ne_nil _ _, rfl⟩, ?_⟩
    rw [Numeral.bodyValue_none]
    rfl
  · rw [if_neg hzero, if_neg hzero, if_pos hrank]
    have hdigits := Decimal.isDigits_significant (Decimal.digits_shortest_ne_zero style.tie hzero)
    simp only [hstyle.1, if_true, ← Decimal.value_significant]
    exact exists_body_positionalText hstyle hdigits _

/-- A finite double is spelled with its sign, as a number that is rounded to it. -/
theorem exists_spells_write (hstyle : style.IsPlain) {double : Double} (hfinite : double.isFinite) :
    ∃ n : Numeral, n.Spells (style.write double).toList ∧ n.negative = double.negative ∧
      n.magnitude = style.writtenValue double.rank := by
  have hrank : double.rank < Double.infinityRank := of_decide_eq_true hfinite
  obtain ⟨whole, fraction, hbody, hvalue⟩ := exists_body_magnitudeText hstyle hrank
  refine ⟨⟨double.negative, whole, fraction, none⟩, ?_, rfl, ?_⟩
  · rw [write, String.toList_ofList, decide_eq_true hrank.le, Bool.and_true]
    cases double.negative with
    | false => exact .plain .unsigned hbody
    | true => exact .plain .minus hbody
  · rw [Numeral.magnitude_plain, hvalue]

end NumeralStyle

end Segmentation
