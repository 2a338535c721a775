import Segmentation.Proofs.Number.Nearest
import Segmentation.Proofs.Number.Plain
import Mathlib.Data.Nat.Cast.Order.Field
import Mathlib.Tactic.FieldSimp

/-!
# Shortest decimals

The decimal with which a double is written reads back as the double.  A number of at most
fifteen digits that is not below the least normal double is written again with the same
digits, for there is no second number as short that is rounded to the same double.
-/

namespace Segmentation.Decimal

open Double (Rounds ratio infinityRank)

/-- The number that a decimal denotes. -/
def value (decimal : Decimal) : ℚ :=
  decimal.digits * 10 ^ decimal.power

variable {tie : Tie} {rank width : Nat} {decimal : Decimal} {q : ℚ}

/-! ## Reading back -/

theorem readsBack_iff (hrank : rank < infinityRank) :
    readsBack rank decimal ↔ Rounds decimal.value rank := by
  rw [readsBack, beq_iff_eq, Double.nearestDecimalRank_eq_iff hrank, value]

theorem value_exact (rank : Nat) : (exact rank).value = Double.value rank := by
  rw [exact, Double.value]
  split
  · next e hexponent =>
      rw [hexponent, value, Nat.pow_eq, Int.ofNat_eq_natCast, zpow_natCast, zpow_zero, mul_one]
      push_cast
      rfl
  · next e hexponent =>
      rw [hexponent, value, Nat.pow_eq, zpow_negSucc, zpow_negSucc]
      push_cast
      have hten : (10 : ℚ) = 5 * 2 := by norm_num
      rw [hten, mul_pow]
      field_simp

/-- What a finite double is written with is rounded to it. -/
theorem rounds_shortest (tie : Tie) (hrank : rank < infinityRank) :
    Rounds (shortest tie rank).value rank := by
  unfold shortest
  cases hfound : (List.range 17).findSome? fun i => onGrid? tie rank (i + 1) with
  | none =>
      rw [Option.getD_none, value_exact]
      exact Rounds.value rank
  | some decimal =>
      obtain ⟨_, width, _, _, hgrid, _⟩ := List.findSome?_eq_some_iff.1 hfound
      exact (readsBack_iff hrank).1 (neighbour_of_onGrid? hgrid).2

/-! ## Powers of ten -/

theorem ten_zpow_add (power : Int) (count : Nat) :
    (10 : ℚ) ^ (power + count) = 10 ^ count * 10 ^ power := by
  rw [zpow_add₀ (by norm_num), zpow_natCast, mul_comm]

theorem ten_zpow_sub_one {width : Nat} (hwidth : 0 < width) :
    (10 : ℚ) ^ ((width : Int) - 1) = (10 ^ (width - 1) : Nat) := by
  push_cast
  rw [← zpow_natCast, Nat.cast_sub hwidth, Nat.cast_one]

/-! ## Grids -/

/-- The multiples of a power of ten. -/
def OnGrid (power : Int) (q : ℚ) : Prop :=
  ∃ count : Nat, q = count * 10 ^ power

theorem onGrid_of_le {power finer : Int} {count : Nat} (h : finer ≤ power) :
    OnGrid finer (count * 10 ^ power) := by
  obtain ⟨more, rfl⟩ : ∃ more : Nat, power = finer + more := ⟨(power - finer).toNat, by omega⟩
  refine ⟨count * 10 ^ more, ?_⟩
  push_cast
  rw [ten_zpow_add, mul_assoc]

theorem count_lt {step : ℚ} {count bound : Nat} (hstep : 0 < step)
    (h : count * step < bound * step) : count < bound := by
  exact_mod_cast lt_of_mul_lt_mul_right h hstep.le

theorem ratio_bounds_div (numerator : Nat) {denominator : Nat} (hdenominator : denominator ≠ 0) :
    ((numerator / denominator : Nat) : ℚ) ≤ ratio (numerator, denominator) ∧
      ratio (numerator, denominator) < (numerator / denominator + 1 : Nat) := by
  have hpos : (0 : ℚ) < denominator := by positivity
  refine ⟨Nat.cast_div_le, ?_⟩
  rw [ratio, div_lt_iff₀ hpos, mul_comm]
  exact_mod_cast Nat.lt_mul_div_succ numerator (Nat.pos_of_ne_zero hdenominator)

theorem ratio_bounds_decimalWidth {numerator denominator : Nat} (hdenominator : denominator ≠ 0)
    (h : denominator ≤ numerator) :
    (10 : ℚ) ^ ((Double.decimalWidth (numerator / denominator) : Int) - 1) ≤
        ratio (numerator, denominator) ∧
      ratio (numerator, denominator) <
        10 ^ (Double.decimalWidth (numerator / denominator) : Int) := by
  obtain ⟨hlow, hhigh⟩ := ratio_bounds_div numerator hdenominator
  have hquotient : numerator / denominator ≠ 0 :=
    Nat.ne_of_gt (Nat.div_pos h (Nat.pos_of_ne_zero hdenominator))
  have hwidth : 0 < Double.decimalWidth (numerator / denominator) := Nat.length_toDigits_pos
  constructor
  · calc (10 : ℚ) ^ ((Double.decimalWidth (numerator / denominator) : Int) - 1)
        = (10 ^ (Double.decimalWidth (numerator / denominator) - 1) : Nat) :=
          ten_zpow_sub_one hwidth
      _ ≤ (numerator / denominator : Nat) := by
          exact_mod_cast Double.pow_decimalWidth_le hquotient
      _ ≤ ratio (numerator, denominator) := hlow
  · calc ratio (numerator, denominator)
        < (numerator / denominator + 1 : Nat) := hhigh
      _ ≤ (10 ^ Double.decimalWidth (numerator / denominator) : Nat) := by
          exact_mod_cast Double.lt_pow_decimalWidth (numerator / denominator)
      _ = 10 ^ (Double.decimalWidth (numerator / denominator) : Int) := by
          push_cast
          rw [zpow_natCast]

theorem leadingPlace_spec {numerator denominator : Nat} (hnumerator : numerator ≠ 0)
    (hdenominator : denominator ≠ 0) :
    10 ^ (leadingPlace numerator denominator - 1) ≤ ratio (numerator, denominator) ∧
      ratio (numerator, denominator) < 10 ^ leadingPlace numerator denominator := by
  unfold leadingPlace
  split
  · next hlarge => exact ratio_bounds_decimalWidth hdenominator hlarge
  · next hsmall =>
      obtain ⟨hlow, hhigh⟩ := ratio_bounds_decimalWidth hnumerator (Nat.le_of_not_le hsmall)
      have hwidth : 0 < Double.decimalWidth (denominator / numerator) := Nat.length_toDigits_pos
      generalize Double.decimalWidth (denominator / numerator) = width at hlow hhigh hwidth ⊢
      have hinverse : ratio (numerator, denominator) = (ratio (denominator, numerator))⁻¹ :=
        (inv_div _ _).symm
      have hpos : 0 < ratio (denominator, numerator) := by
        rw [ratio]
        positivity
      have hleast : (10 : ℚ) ^ (-(width : Int)) < ratio (numerator, denominator) := by
        rw [hinverse, zpow_neg]
        exact inv_strictAnti₀ hpos hhigh
      have hmost : ratio (numerator, denominator) ≤ 10 ^ (1 - (width : Int)) := by
        rw [hinverse, ← neg_sub, zpow_neg]
        exact inv_anti₀ (by positivity) hlow
      have htest : denominator ≤ numerator * Nat.pow 10 (width - 1) ↔
          (10 : ℚ) ^ (1 - (width : Int)) ≤ ratio (numerator, denominator) := by
        have hdenominator : (0 : ℚ) < denominator := by positivity
        rw [ratio, le_div_iff₀ hdenominator, ← neg_sub, zpow_neg,
          inv_mul_le_iff₀ (by positivity), ten_zpow_sub_one hwidth, mul_comm numerator, Nat.pow_eq]
        norm_cast
      simp only [htest]
      split
      · next hreached =>
          constructor
          · rw [show 2 - (width : Int) - 1 = 1 - width by ring]
            exact hreached
          · exact hmost.trans_lt (zpow_lt_zpow_right₀ (by norm_num) (by omega))
      · next hmissed =>
          constructor
          · rw [sub_sub_cancel_left]
            exact hleast.le
          · exact lt_of_not_ge hmissed

theorem Neighbour.power_eq (h : Neighbour rank width decimal) :
    decimal.power = place rank - width := by
  cases h with
  | below => rfl
  | above => rfl

/-- Nothing is found on a grid only if neither neighbour reads back. -/
theorem readsBack_eq_false_of_onGrid? (h : onGrid? tie rank width = none) :
    readsBack rank ⟨steps rank width, place rank - width⟩ = false ∧
      readsBack rank ⟨steps rank width + 1, place rank - width⟩ = false := by
  unfold onGrid? at h
  simp only at h
  split at h
  · next hbelow habove => exact ⟨hbelow, habove⟩
  · contradiction
  · contradiction
  · split at h
    · contradiction
    · split at h
      · contradiction
      · cases tie <;> contradiction

theorem steps_bounds (rank width : Nat) :
    steps rank width * 10 ^ (place rank - width) ≤ Double.value rank ∧
      Double.value rank < (steps rank width + 1 : Nat) * 10 ^ (place rank - width) := by
  have hstep : (0 : ℚ) < 10 ^ (place rank - width) := by positivity
  have hpos := Double.unscale_pos (by decide : 0 < 10) (Double.magnitude_pos rank)
    (Double.magnitude rank).1 (place rank - width)
  have hbounds := ratio_bounds_div (Double.unscale 10 (Double.magnitude rank).1
    (Double.magnitude rank).2 (place rank - width)).1 hpos.ne'
  rw [Prod.mk.eta, Double.ratio_unscale, Prod.mk.eta, Double.ratio_magnitude, Nat.cast_ofNat,
    le_div_iff₀ hstep, div_lt_iff₀ hstep] at hbounds
  exact hbounds

/-- A decimal of a grid that reads back and is less than one step away is found. -/
theorem onGrid?_ne_none {count : Nat} (hrank : rank < infinityRank)
    (hrounds : Rounds (count * 10 ^ (place rank - width)) rank)
    (hnear : |count * 10 ^ (place rank - width) - Double.value rank| < 10 ^ (place rank - width)) :
    onGrid? tie rank width ≠ none := by
  intro hnone
  have hreads : readsBack rank ⟨count, place rank - width⟩ := (readsBack_iff hrank).2 hrounds
  obtain ⟨hbelow, habove⟩ := readsBack_eq_false_of_onGrid? hnone
  have hstep : (0 : ℚ) < 10 ^ (place rank - width) := by positivity
  obtain ⟨hlow, hhigh⟩ := steps_bounds rank width
  obtain ⟨hmore, hless⟩ := abs_lt.1 hnear
  have hleast : steps rank width < count + 1 := by
    apply count_lt hstep
    push_cast
    linarith
  have hmost : count < steps rank width + 2 := by
    apply count_lt hstep
    push_cast at hhigh ⊢
    linarith
  have hcases : count = steps rank width ∨ count = steps rank width + 1 := by omega
  rcases hcases with rfl | rfl
  · rw [hbelow] at hreads
    contradiction
  · rw [habove] at hreads
    contradiction

/-! ## Fifteen digits -/

theorem place_bounds (hrank : rank ≠ 0) :
    10 ^ (place rank - 1) ≤ Double.value rank ∧ Double.value rank < 10 ^ place rank := by
  have hratio := Double.ratio_magnitude rank
  have hpositive : 0 < Double.value rank := by
    rw [← Double.value_zero]
    exact Double.value_strictMono (Nat.pos_of_ne_zero hrank)
  have hnumerator : (Double.magnitude rank).1 ≠ 0 := by
    intro hzero
    rw [ratio, hzero, Nat.cast_zero, zero_div] at hratio
    exact hpositive.ne hratio
  have hbounds := leadingPlace_spec hnumerator (Double.magnitude_pos rank).ne'
  rw [Prod.mk.eta, hratio] at hbounds
  exact hbounds

/-- The unit of the last place of a normal double is below a step of its grid of fifteen digits. -/
theorem unit_lt_step (hnormal : Double.binade ≤ rank) :
    (2 : ℚ) ^ Double.exponent rank < 10 ^ (place rank - 15) := by
  have hpos := Double.binade_pos
  have hunit := Double.unit_pos rank
  have hvalue := Double.binade_mul_unit_le hnormal
  have hhigh := (place_bounds (by omega : rank ≠ 0)).2
  have hgrid := ten_zpow_add (place rank - 15) 15
  rw [Nat.cast_ofNat, sub_add_cancel] at hgrid
  rw [hgrid] at hhigh
  rw [Double.binade_eq] at hvalue
  push_cast at hvalue
  linarith

/-- A number of at most fifteen digits lies on the grid of the double to which it is rounded,
also where it has fewer places than that. -/
theorem onGrid_fifteen {digits : Nat} {power : Int} (hdigits : digits < 10 ^ 15)
    (hnormal : Double.binade ≤ rank) (hrounds : Rounds (digits * 10 ^ power) rank) :
    OnGrid (place rank - 15) (digits * 10 ^ power) := by
  rcases le_or_gt (place rank - 15) power with hcoarse | hfine
  · exact onGrid_of_le hcoarse
  · -- The number would be below the first place of the double by more than rounding takes up.
    exfalso
    have hpos := Double.binade_pos
    have hunit := Double.unit_pos rank
    have hstep : (0 : ℚ) < 10 ^ (place rank - 16) := by positivity
    have hvalue := Double.binade_mul_unit_le hnormal
    have hlow := (place_bounds (by omega : rank ≠ 0)).1
    have hgrid : (10 : ℚ) ^ (place rank - 1) = 10 ^ 15 * 10 ^ (place rank - 16) := by
      rw [← ten_zpow_add]
      congr 1
      omega
    have hmost : (digits : ℚ) * 10 ^ power ≤ (10 ^ 15 - 1) * 10 ^ (place rank - 16) := by
      have hcast : (digits : ℚ) ≤ 10 ^ 15 - 1 := by
        have hsucc : (digits : ℚ) + 1 ≤ 10 ^ 15 := by exact_mod_cast hdigits
        linarith
      gcongr
      · norm_num
      · omega
    have hnear := (abs_le.1 (hrounds.abs_sub_value_le_half (by positivity))).1
    rw [hgrid] at hlow
    rw [Double.binade_eq] at hvalue
    push_cast at hvalue
    linarith

/-- Two numbers of the grid that are rounded to one normal double are one number. -/
theorem eq_of_onGrid {other : ℚ} (hnormal : Double.binade ≤ rank)
    (hgrid : OnGrid (place rank - 15) q) (hother : OnGrid (place rank - 15) other)
    (hrounds : Rounds q rank) (hrounds' : Rounds other rank) : q = other := by
  have hstep : (0 : ℚ) < 10 ^ (place rank - 15) := by positivity
  obtain ⟨count, rfl⟩ := hgrid
  obtain ⟨count', rfl⟩ := hother
  have hunit := unit_lt_step hnormal
  obtain ⟨hlow, hhigh⟩ := abs_le.1 (hrounds.abs_sub_value_le_half (by positivity))
  obtain ⟨hlow', hhigh'⟩ := abs_le.1 (hrounds'.abs_sub_value_le_half (by positivity))
  have hless : count < count' + 1 := by
    apply count_lt hstep
    push_cast
    linarith
  have hmore : count' < count + 1 := by
    apply count_lt hstep
    push_cast
    linarith
  obtain rfl : count = count' := by omega
  rfl

/-- If a grid of at most so many digits has a decimal that is found, one with no more digits is. -/
theorem exists_shortest_eq {found : Nat} (hfound : found < 17)
    (hgrid : onGrid? tie rank (found + 1) ≠ none) :
    ∃ width ≤ found + 1, onGrid? tie rank width = some (shortest tie rank) := by
  unfold shortest
  cases hsearch : (List.range 17).findSome? fun i => onGrid? tie rank (i + 1) with
  | none =>
      have hnone := List.findSome?_eq_none_iff.1 hsearch found (List.mem_range.2 hfound)
      exact absurd hnone hgrid
  | some decimal =>
      obtain ⟨before, width, after, hrange, hwidth, hearlier⟩ :=
        List.findSome?_eq_some_iff.1 hsearch
      refine ⟨width + 1, ?_, hwidth⟩
      by_contra hlater
      -- The numbers of digits are tried in ascending order.
      have hsorted : (before ++ width :: after).Pairwise (· < ·) :=
        hrange ▸ List.pairwise_lt_range
      have hmem : found ∈ before ++ width :: after := hrange ▸ List.mem_range.2 hfound
      rcases List.mem_append.1 hmem with hbefore | hafter
      · exact hgrid (hearlier found hbefore)
      · have hle : width ≤ found := by
          rcases List.mem_cons.1 hafter with rfl | hafter
          · exact le_rfl
          · exact (List.rel_of_pairwise_cons (List.pairwise_append.1 hsorted).2.1 hafter).le
        omega

/-- A number of at most fifteen digits is what the normal double to which it is rounded is
written with. -/
theorem value_shortest {digits : Nat} {power : Int} (hdigits : digits < 10 ^ 15)
    (hrank : rank < infinityRank) (hnormal : Double.binade ≤ rank)
    (hrounds : Rounds (digits * 10 ^ power) rank) :
    (shortest tie rank).value = digits * 10 ^ power := by
  have hgrid := onGrid_fifteen hdigits hnormal hrounds
  obtain ⟨count, hcount⟩ := onGrid_fifteen hdigits hnormal hrounds
  have hnear : |(count : ℚ) * 10 ^ (place rank - (15 : Nat)) - Double.value rank| <
      10 ^ (place rank - (15 : Nat)) := by
    rw [Nat.cast_ofNat, ← hcount]
    have hhalf := hrounds.abs_sub_value_le_half (by positivity)
    have hunit := unit_lt_step hnormal
    linarith [Double.unit_pos rank]
  have hfound : onGrid? tie rank (14 + 1) ≠ none := by
    apply onGrid?_ne_none hrank _ hnear
    rw [Nat.cast_ofNat, ← hcount]
    exact hrounds
  obtain ⟨width, hwidth, hshortest⟩ := exists_shortest_eq (by decide) hfound
  have hother : OnGrid (place rank - 15) (shortest tie rank).value := by
    obtain ⟨hneighbour, _⟩ := neighbour_of_onGrid? hshortest
    have hpower := hneighbour.power_eq
    rw [value]
    apply onGrid_of_le
    omega
  exact eq_of_onGrid hnormal hother hgrid (rounds_shortest tie hrank) hrounds

end Segmentation.Decimal
