import Segmentation.Proofs.Number.Rounding

/-!
# Nearest ranks

The arithmetic on fractions by which a decimal becomes a double rounds the number that the
fraction stands for.  So the double depends on that number only, however it is spelled, and
every number is rounded to some rank.
-/

namespace Segmentation.Double

/-! ## Rounding fractions -/

/-- The fraction of a pair of natural numbers. -/
def ratio (fraction : Nat × Nat) : ℚ :=
  fraction.1 / fraction.2

theorem ratio_unscale (base numerator denominator : Nat) (power : Int) :
    ratio (unscale base numerator denominator power) =
      ratio (numerator, denominator) / (base : ℚ) ^ power := by
  cases power with
  | ofNat p =>
      simp only [unscale, ratio, Int.ofNat_eq_natCast, zpow_natCast, Nat.pow_eq]
      push_cast
      rw [div_div]
  | negSucc p =>
      simp only [unscale, ratio, zpow_negSucc, div_inv_eq_mul, Nat.pow_eq]
      push_cast
      rw [div_mul_eq_mul_div]

theorem ratio_magnitude (rank : Nat) : ratio (magnitude rank) = value rank := by
  rw [magnitude, value]
  split
  · next e hexponent =>
      rw [hexponent, ratio, Nat.pow_eq, Int.ofNat_eq_natCast, zpow_natCast]
      push_cast
      rw [div_one]
  · next e hexponent =>
      rw [hexponent, ratio, Nat.pow_eq, zpow_negSucc]
      push_cast
      rw [div_eq_mul_inv]

theorem magnitude_pos (rank : Nat) : 0 < (magnitude rank).2 := by
  rw [magnitude]
  split
  · exact Nat.one_pos
  · exact Nat.pow_pos (by decide)

theorem unscale_pos {base denominator : Nat} (hbase : 0 < base)
    (hdenominator : 0 < denominator) (numerator : Nat) (power : Int) :
    0 < (unscale base numerator denominator power).2 := by
  cases power with
  | ofNat p => exact Nat.mul_pos hdenominator (Nat.pow_pos hbase)
  | negSucc p => exact hdenominator

/-- The fraction of two numbers has about the difference of their logarithms as its own. -/
theorem ratio_bounds_log2 {numerator denominator : Nat} (hnumerator : numerator ≠ 0)
    (hdenominator : denominator ≠ 0) :
    (2 : ℚ) ^ ((numerator.log2 : Int) - denominator.log2 - 1) ≤ ratio (numerator, denominator) ∧
      ratio (numerator, denominator) < 2 ^ ((numerator.log2 : Int) - denominator.log2 + 1) := by
  have hnlow : (2 : ℚ) ^ (numerator.log2 : Int) ≤ numerator := by
    exact_mod_cast Nat.log2_self_le hnumerator
  have hnhigh : (numerator : ℚ) < 2 ^ ((numerator.log2 : Int) + 1) := by
    exact_mod_cast Nat.lt_log2_self
  have hdlow : (2 : ℚ) ^ (denominator.log2 : Int) ≤ denominator := by
    exact_mod_cast Nat.log2_self_le hdenominator
  have hdhigh : (denominator : ℚ) < 2 ^ ((denominator.log2 : Int) + 1) := by
    exact_mod_cast Nat.lt_log2_self
  have hpos : (0 : ℚ) < denominator := by positivity
  have htwo : (2 : ℚ) ≠ 0 := by norm_num
  constructor
  · rw [ratio, le_div_iff₀ hpos]
    calc (2 : ℚ) ^ ((numerator.log2 : Int) - denominator.log2 - 1) * denominator
        ≤ 2 ^ ((numerator.log2 : Int) - denominator.log2 - 1) *
            2 ^ ((denominator.log2 : Int) + 1) := by gcongr
      _ = 2 ^ (numerator.log2 : Int) := by
          rw [← zpow_add₀ htwo]
          ring_nf
      _ ≤ numerator := hnlow
  · rw [ratio, div_lt_iff₀ hpos]
    calc (numerator : ℚ) < 2 ^ ((numerator.log2 : Int) + 1) := hnhigh
      _ = 2 ^ ((numerator.log2 : Int) - denominator.log2 + 1) *
            2 ^ (denominator.log2 : Int) := by
          rw [← zpow_add₀ htwo]
          ring_nf
      _ ≤ 2 ^ ((numerator.log2 : Int) - denominator.log2 + 1) * denominator := by gcongr

theorem floorLog2_spec {numerator denominator : Nat} (hnumerator : numerator ≠ 0)
    (hdenominator : denominator ≠ 0) :
    (2 : ℚ) ^ floorLog2 numerator denominator ≤ ratio (numerator, denominator) ∧
      ratio (numerator, denominator) < 2 ^ (floorLog2 numerator denominator + 1) := by
  obtain ⟨hlow, hhigh⟩ := ratio_bounds_log2 hnumerator hdenominator
  have hpower : (0 : ℚ) < 2 ^ ((numerator.log2 : Int) - denominator.log2) := by positivity
  have hscaled := ratio_unscale 2 numerator denominator (numerator.log2 - denominator.log2)
  have hpos := unscale_pos (by decide : 0 < 2) (Nat.pos_of_ne_zero hdenominator) numerator
    (numerator.log2 - denominator.log2)
  have hcast : (0 : ℚ) < (unscale 2 numerator denominator
      (numerator.log2 - denominator.log2)).2 := by exact_mod_cast hpos
  rw [ratio, Nat.cast_ofNat] at hscaled
  unfold floorLog2
  simp only
  split
  · next hbelow =>
      have hless : ratio (numerator, denominator) < 2 ^ ((numerator.log2 : Int) -
          denominator.log2) := by
        rw [← div_lt_one hpower, ← hscaled, div_lt_one hcast]
        exact_mod_cast hbelow
      rw [sub_add_cancel]
      exact ⟨hlow, hless⟩
  · next hreached =>
      have hmore : 2 ^ ((numerator.log2 : Int) - denominator.log2) ≤
          ratio (numerator, denominator) := by
        rw [← one_le_div hpower, ← hscaled, one_le_div hcast]
        exact_mod_cast Nat.le_of_not_lt hreached
      exact ⟨hmore, hhigh⟩

/-- A natural number nearest to a number; halfway between two it is even. -/
structure Nearest (t : ℚ) (k : Nat) : Prop where
  lower : (k : ℚ) - 1 / 2 ≤ t ∧ (t = k - 1 / 2 → k % 2 = 0)
  upper : t ≤ k + 1 / 2 ∧ (t = k + 1 / 2 → k % 2 = 0)

theorem Nearest.le_of_lt {t : ℚ} {k bound : Nat} (h : Nearest t k) (ht : t < bound) :
    k ≤ bound := by
  have hless : (k : ℚ) < (bound + 1 : Nat) := by
    push_cast
    linarith [h.lower.1]
  exact Nat.le_of_lt_succ (by exact_mod_cast hless)

theorem Nearest.le_of_le {t : ℚ} {k bound : Nat} (h : Nearest t k) (ht : bound ≤ t) :
    bound ≤ k := by
  have hless : (bound : ℚ) < (k + 1 : Nat) := by
    push_cast
    linarith [h.upper.1]
  exact Nat.le_of_lt_succ (by exact_mod_cast hless)

theorem nearest_roundHalfEven {denominator : Nat} (hdenominator : 0 < denominator)
    (numerator : Nat) :
    Nearest (ratio (numerator, denominator)) (roundHalfEven numerator denominator) := by
  have hpos : (0 : ℚ) < denominator := by exact_mod_cast hdenominator
  obtain ⟨part, hpart⟩ : ∃ part : ℚ, part = (numerator % denominator : Nat) / denominator :=
    ⟨_, rfl⟩
  have hratio : ratio (numerator, denominator) = (numerator / denominator : Nat) + part := by
    have hsplit : (numerator : ℚ) =
        denominator * (numerator / denominator : Nat) + (numerator % denominator : Nat) := by
      exact_mod_cast (Nat.div_add_mod numerator denominator).symm
    rw [ratio, hpart, hsplit, add_div, mul_div_cancel_left₀ _ hpos.ne']
  have hnonneg : 0 ≤ part := by
    rw [hpart]
    positivity
  have hless : part < 1 := by
    rw [hpart, div_lt_one hpos]
    exact_mod_cast Nat.mod_lt numerator hdenominator
  have hhalf : part = (2 * (numerator % denominator) : Nat) / denominator / 2 := by
    rw [hpart]
    push_cast
    ring
  rw [hratio, roundHalfEven]
  generalize numerator / denominator = quotient
  split
  · next hbelow =>
      have hpart : part < 1 / 2 := by
        rw [hhalf, div_lt_div_iff_of_pos_right two_pos, div_lt_one hpos]
        exact_mod_cast hbelow
      exact ⟨⟨by linarith, fun h => by linarith⟩, ⟨by linarith, fun h => by linarith⟩⟩
  · next hnotBelow =>
      split
      · next habove =>
          have hpart : 1 / 2 < part := by
            rw [hhalf, div_lt_div_iff_of_pos_right two_pos, one_lt_div hpos]
            exact_mod_cast habove
          have hnext : ((quotient + 1 : Nat) : ℚ) = quotient + 1 := Nat.cast_succ quotient
          exact ⟨⟨by linarith, fun h => by linarith⟩, ⟨by linarith, fun h => by linarith⟩⟩
      · next hnotAbove =>
          have htie : 2 * (numerator % denominator) = denominator := by omega
          have hpart : part = 1 / 2 := by
            rw [hhalf, htie, div_self hpos.ne']
          have hparity : (quotient + quotient % 2) % 2 = 0 := by omega
          have hlow : (0 : ℚ) ≤ (quotient % 2 : Nat) := by positivity
          have hhigh : ((quotient % 2 : Nat) : ℚ) ≤ 1 := by
            exact_mod_cast Nat.le_of_lt_succ (Nat.mod_lt quotient two_pos)
          have hsum : ((quotient + quotient % 2 : Nat) : ℚ) = quotient + (quotient % 2 : Nat) :=
            Nat.cast_add quotient (quotient % 2)
          exact ⟨⟨by linarith, fun _ => hparity⟩, ⟨by linarith, fun _ => hparity⟩⟩

/-! ## The nearest rank -/

/-- A mantissa nearest to a number is that of the rank to which the number is rounded. -/
theorem rounds_of_nearest {q : ℚ} {i k : Nat} (hnearest : Nearest (q / 2 ^ ((i : Int) - 1074)) k)
    (hlow : i = 0 ∨ binade ≤ q / 2 ^ ((i : Int) - 1074))
    (hhigh : q / 2 ^ ((i : Int) - 1074) < 2 * binade) : Rounds q (i * binade + k) := by
  have hunit : (0 : ℚ) < 2 ^ ((i : Int) - 1074) := by positivity
  obtain ⟨t, ht⟩ : ∃ t, t = q / 2 ^ ((i : Int) - 1074) := ⟨_, rfl⟩
  rw [← ht] at hnearest hlow hhigh
  obtain rfl : q = t * 2 ^ ((i : Int) - 1074) := by rw [ht, div_mul_cancel₀ _ hunit.ne']
  have hfull : k ≤ 2 * binade := hnearest.le_of_lt (by exact_mod_cast hhigh)
  have hnormal : i = 0 ∨ binade ≤ k := hlow.imp_right hnearest.le_of_le
  have hparity : (i * binade + k) % 2 = k % 2 := by
    rw [binade_eq]
    omega
  refine ⟨fun before hbefore => ?lower, ?upper⟩
  case lower =>
    by_cases hedge : i ≠ 0 ∧ k = binade
    · -- The rank is the first of its exponent; what is below it is not rounded up to it.
      have hvalue : Double.value (i * binade + k) ≤ t * 2 ^ ((i : Int) - 1074) := by
        rw [value_eq hfull hnormal, hedge.2]
        gcongr
        exact hlow.resolve_left hedge.1
      have hlt : middle before < t * 2 ^ ((i : Int) - 1074) :=
        (middle_lt_value (Nat.lt_of_succ_le hbefore.le)).trans_le hvalue
      exact ⟨hlt.le, fun htie => absurd htie hlt.ne'⟩
    · have hpos := binade_pos
      obtain ⟨last, rfl⟩ : ∃ last, k = last + 1 := by
        refine ⟨k - 1, ?_⟩
        rcases hnormal with rfl | hnormal <;> omega
      obtain rfl : before = i * binade + last := by omega
      have hmiddle : middle (i * binade + last) =
          ((last + 1 : Nat) - 1 / 2) * 2 ^ ((i : Int) - 1074) := by
        rw [middle_eq_half (by omega) (by omega)]
        push_cast
        ring
      rw [hmiddle, hparity, mul_le_mul_iff_left₀ hunit, mul_left_inj' hunit.ne']
      exact hnearest.lower
  case upper =>
    rcases Nat.lt_or_eq_of_le hfull with hlt | rfl
    · rw [middle_eq_half hlt hnormal, hparity, mul_le_mul_iff_left₀ hunit,
        mul_left_inj' hunit.ne']
      exact hnearest.upper
    · have hvalue : t * 2 ^ ((i : Int) - 1074) < Double.value (i * binade + 2 * binade) := by
        rw [value_eq le_rfl hnormal]
        push_cast
        gcongr
      have hlt := hvalue.trans (value_lt_middle _)
      exact ⟨hlt.le, fun htie => absurd htie hlt.ne⟩

/-- The nearest rank of a fraction is the one to which its number is rounded, or infinity if
that is past the finite doubles. -/
theorem exists_rounds_nearestRank (numerator : Nat) {denominator : Nat}
    (hdenominator : 0 < denominator) :
    ∃ rank, Rounds (ratio (numerator, denominator)) rank ∧
      nearestRank numerator denominator = min infinityRank rank := by
  rw [nearestRank]
  split
  · next hzero =>
      refine ⟨0, ?_, rfl⟩
      have hvalue := Rounds.value 0
      rw [value_zero] at hvalue
      rwa [hzero, ratio, Nat.cast_zero, zero_div]
  · next hnumerator =>
      obtain ⟨hlow, hhigh⟩ := floorLog2_spec hnumerator hdenominator.ne'
      generalize floorLog2 numerator denominator = logarithm at hlow hhigh ⊢
      obtain ⟨i, hi⟩ : ∃ i : Nat, max (-1074) (logarithm - 52) = (i : Int) - 1074 :=
        ⟨(max (-1074) (logarithm - 52) + 1074).toNat, by omega⟩
      have hcancel : ((i : Int) - 1074 + 1074).toNat = i := by omega
      have hscaled := ratio_unscale 2 numerator denominator ((i : Int) - 1074)
      have hpos := unscale_pos (by decide : 0 < 2) hdenominator numerator ((i : Int) - 1074)
      have hnearest := nearest_roundHalfEven hpos
        (unscale 2 numerator denominator ((i : Int) - 1074)).1
      have hunit : (0 : ℚ) < 2 ^ ((i : Int) - 1074) := by positivity
      rw [Prod.mk.eta, hscaled, Nat.cast_ofNat] at hnearest
      simp only [hi, hcancel]
      refine ⟨_, rounds_of_nearest hnearest ?_ ?_, rfl⟩
      · by_cases hsub : i = 0
        · exact .inl hsub
        · right
          rw [le_div_iff₀ hunit, binade_eq_pow, ← zpow_add₀ two_ne_zero]
          exact le_trans (zpow_le_zpow_right₀ one_le_two (by omega)) hlow
      · rw [div_lt_iff₀ hunit, binade_eq_pow, ← zpow_one_add₀ two_ne_zero,
          ← zpow_add₀ two_ne_zero]
        exact hhigh.trans_le (zpow_le_zpow_right₀ one_le_two (by omega))

theorem lt_pow_decimalWidth (n : Nat) : n < 10 ^ decimalWidth n :=
  (Nat.length_toDigits_le_iff (by decide) Nat.length_toDigits_pos).1 le_rfl

theorem pow_decimalWidth_le {n : Nat} (hn : n ≠ 0) : 10 ^ (decimalWidth n - 1) ≤ n := by
  by_contra hless
  rcases Nat.eq_zero_or_pos (decimalWidth n - 1) with hone | hpos
  · rw [hone] at hless
    omega
  · have hwidth : decimalWidth n ≤ decimalWidth n - 1 :=
      (Nat.length_toDigits_le_iff (by decide) hpos).2 (Nat.lt_of_not_le hless)
    omega

theorem exists_rounds_unscale (digits : Nat) (power : Int) :
    ∃ rank, Rounds (digits * 10 ^ power) rank ∧
      nearestRank (unscale 10 digits 1 (-power)).1 (unscale 10 digits 1 (-power)).2 =
        min infinityRank rank := by
  have hpos := unscale_pos (by decide : 0 < 10) Nat.one_pos digits (-power)
  have hdecimal : ratio (unscale 10 digits 1 (-power)) = digits * 10 ^ power := by
    rw [ratio_unscale, ratio, Nat.cast_one, div_one, Nat.cast_ofNat, zpow_neg, div_inv_eq_mul]
  have hfound := exists_rounds_nearestRank (unscale 10 digits 1 (-power)).1 hpos
  rw [Prod.mk.eta, hdecimal] at hfound
  exact hfound

/-- The range of doubles is within the one in which decimals are looked at. -/
theorem le_decimal_of_lt_place {digits : Nat} {power : Int} (hdigits : digits ≠ 0)
    (hplace : 310 < power + decimalWidth digits) :
    (2 : ℚ) ^ (1024 : Int) ≤ digits * 10 ^ power := by
  have hfirst : (10 : ℚ) ^ ((decimalWidth digits - 1 : Nat) : Int) ≤ digits := by
    exact_mod_cast pow_decimalWidth_le hdigits
  calc (2 : ℚ) ^ (1024 : Int) ≤ 10 ^ (310 : Int) := by
        exact_mod_cast (by decide +kernel : 2 ^ 1024 ≤ 10 ^ 310)
    _ ≤ 10 ^ (((decimalWidth digits - 1 : Nat) : Int) + power) :=
        zpow_le_zpow_right₀ (by norm_num) (by omega)
    _ = 10 ^ ((decimalWidth digits - 1 : Nat) : Int) * 10 ^ power :=
        zpow_add₀ (by norm_num) _ _
    _ ≤ digits * 10 ^ power := by gcongr

theorem decimal_lt_of_place_lt {digits : Nat} {power : Int}
    (hplace : power + decimalWidth digits < -330) :
    (digits : ℚ) * 10 ^ power < 2 ^ (-1075 : Int) := by
  have hwidth : (digits : ℚ) < 10 ^ (decimalWidth digits : Int) := by
    exact_mod_cast lt_pow_decimalWidth digits
  calc (digits : ℚ) * 10 ^ power
      < 10 ^ (decimalWidth digits : Int) * 10 ^ power := by gcongr
    _ = 10 ^ ((decimalWidth digits : Int) + power) := (zpow_add₀ (by norm_num) _ _).symm
    _ ≤ 10 ^ (-331 : Int) := zpow_le_zpow_right₀ (by norm_num) (by omega)
    _ ≤ 2 ^ (-1075 : Int) := by
        rw [zpow_neg, zpow_neg]
        gcongr
        exact_mod_cast (by decide +kernel : 2 ^ 1075 ≤ 10 ^ 331)

/-- The rank nearest to a decimal is the one to which its number is rounded, also where the
decimal is out of the range that is looked at. -/
theorem nearestDecimalRank_eq {digits : Nat} {power : Int} {rank : Nat}
    (h : Rounds (digits * 10 ^ power) rank) :
    nearestDecimalRank digits power = min infinityRank rank := by
  rw [nearestDecimalRank]
  split
  · next hzero =>
      rw [hzero, Nat.cast_zero, zero_mul] at h
      rw [h.eq_zero (by positivity)]
      rfl
  · next hdigits =>
      split
      · next habove =>
          exact (min_eq_left (h.infinityRank_le (le_decimal_of_lt_place hdigits habove))).symm
      · split
        · next hbelow =>
            rw [h.eq_zero (decimal_lt_of_place_lt hbelow)]
            rfl
        · obtain ⟨found, hfound, hnearest⟩ := exists_rounds_unscale digits power
          rw [h.unique hfound]
          exact hnearest

/-- A rank that is finite is nearest to a decimal if the decimal's number is rounded to it. -/
theorem nearestDecimalRank_eq_iff {digits : Nat} {power : Int} {rank : Nat}
    (hrank : rank < infinityRank) :
    nearestDecimalRank digits power = rank ↔ Rounds (digits * 10 ^ power) rank := by
  constructor
  · intro hnearest
    obtain ⟨found, hfound, _⟩ := exists_rounds_unscale digits power
    rw [nearestDecimalRank_eq hfound] at hnearest
    obtain rfl : found = rank := by omega
    exact hfound
  · intro hrounds
    rw [nearestDecimalRank_eq hrounds]
    exact min_eq_right hrank.le

end Segmentation.Double
