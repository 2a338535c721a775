import Segmentation.Number.Double
import Mathlib.Algebra.Order.Field.Power
import Mathlib.Algebra.Order.Field.Rat
import Mathlib.Order.Monotone.Basic
import Mathlib.Tactic.Linarith
import Mathlib.Tactic.NormNum
import Mathlib.Tactic.Positivity
import Mathlib.Tactic.Ring

/-!
# Rounding

The magnitudes of ranks ascend, and between two of them there is a middle.  A number is
rounded to a rank if it lies between the middles on its two sides, at a middle only if the
rank is even.  That is at most one rank, and no other is nearer to the number.
-/

namespace Segmentation.Double

/-! ## Magnitudes -/

/-- The magnitude of a rank.  Past the finite doubles the exponent goes on growing. -/
def value (rank : Nat) : ℚ :=
  mantissa rank * 2 ^ exponent rank

/-- The number halfway from a rank to the next. -/
def middle (rank : Nat) : ℚ :=
  (value rank + value (rank + 1)) / 2

theorem binade_eq : binade = 4503599627370496 := by
  rfl

theorem binade_pos : 0 < binade := by
  decide

theorem binade_eq_pow : (binade : ℚ) = 2 ^ (52 : Int) := by
  rw [binade_eq]
  norm_num

theorem value_zero : value 0 = 0 := by
  rw [value, mantissa, if_pos (by decide), Nat.cast_zero, zero_mul]

/-- The unit of the last place of a rank is positive. -/
theorem unit_pos (rank : Nat) : (0 : ℚ) < 2 ^ exponent rank := by
  positivity

/-- The ranks of one exponent. -/
theorem mantissa_exponent {i k : Nat} (hk : k < 2 * binade) (hnormal : i = 0 ∨ binade ≤ k) :
    mantissa (i * binade + k) = k ∧ exponent (i * binade + k) = i - 1074 := by
  rw [mantissa, exponent]
  rw [binade_eq] at *
  by_cases hsub : i * 4503599627370496 + k < 4503599627370496
  · rw [if_pos hsub, if_pos hsub]
    omega
  · rw [if_neg hsub, if_neg hsub]
    omega

theorem exists_mantissa_exponent (rank : Nat) :
    ∃ i k, rank = i * binade + k ∧ k < 2 * binade ∧ (i = 0 ∨ binade ≤ k) := by
  rw [binade_eq]
  by_cases hsub : rank < 4503599627370496
  · exact ⟨0, rank, by omega, by omega, .inl rfl⟩
  · exact ⟨rank / 4503599627370496 - 1, 4503599627370496 + rank % 4503599627370496,
      by omega, by omega, .inr (by omega)⟩

theorem exponent_le_exponent {rank later : Nat} (h : rank ≤ later) :
    exponent rank ≤ exponent later := by
  rw [exponent, exponent, binade_eq]
  split <;> split <;> omega

/-- A normal double has at least as many units of its last place as ranks fit in its exponent. -/
theorem binade_mul_unit_le {rank : Nat} (h : binade ≤ rank) :
    binade * 2 ^ exponent rank ≤ value rank := by
  rw [value, mantissa, if_neg (Nat.not_lt.2 h)]
  gcongr
  exact Nat.le_add_right binade (rank % binade)

/-- A rank and the next one are one unit of the last place apart. -/
theorem value_succ (rank : Nat) : value (rank + 1) = value rank + 2 ^ exponent rank := by
  obtain ⟨i, k, rfl, hk, hnormal⟩ := exists_mantissa_exponent rank
  obtain ⟨hmantissa, hexponent⟩ := mantissa_exponent hk hnormal
  rw [value, value, hmantissa, hexponent]
  rcases Nat.lt_or_ge (k + 1) (2 * binade) with hlt | hge
  · obtain ⟨hmantissa, hexponent⟩ :=
      mantissa_exponent hlt (hnormal.imp_right fun h => Nat.le_succ_of_le h)
    rw [Nat.add_assoc, hmantissa, hexponent]
    push_cast
    ring
  · -- The mantissa is full, so the next rank has the least one of the next exponent.
    have hrank : i * binade + k + 1 = (i + 1) * binade + binade := by
      rw [binade_eq] at *
      omega
    have hpos := binade_pos
    obtain ⟨hmantissa, hexponent⟩ :=
      mantissa_exponent (i := i + 1) (k := binade) (by omega) (.inr le_rfl)
    have hfull : ((k : ℚ) + 1) = 2 * binade := by
      exact_mod_cast (by omega : k + 1 = 2 * binade)
    have hnext : ((i + 1 : Nat) : Int) - 1074 = (i - 1074) + 1 := by
      push_cast
      ring
    have hpower : (2 : ℚ) ^ (((i + 1 : Nat) : Int) - 1074) = 2 ^ ((i : Int) - 1074) * 2 := by
      rw [hnext, zpow_add_one₀ (by norm_num)]
    rw [hrank, hmantissa, hexponent, hpower]
    calc (binade : ℚ) * (2 ^ ((i : Int) - 1074) * 2)
        = (k + 1) * 2 ^ ((i : Int) - 1074) := by rw [hfull]; ring
      _ = k * 2 ^ ((i : Int) - 1074) + 2 ^ ((i : Int) - 1074) := by ring

theorem value_eq {i k : Nat} (hk : k ≤ 2 * binade) (hnormal : i = 0 ∨ binade ≤ k) :
    value (i * binade + k) = k * 2 ^ ((i : Int) - 1074) := by
  rcases Nat.lt_or_eq_of_le hk with hlt | hfull
  · obtain ⟨hmantissa, hexponent⟩ := mantissa_exponent hlt hnormal
    rw [value, hmantissa, hexponent]
  · have hpos := binade_pos
    obtain ⟨before, rfl⟩ : ∃ before, k = before + 1 := ⟨k - 1, by omega⟩
    obtain ⟨hmantissa, hexponent⟩ :=
      mantissa_exponent (i := i) (k := before) (by omega) (.inr (by omega))
    rw [← Nat.add_assoc, value_succ, value, hmantissa, hexponent]
    push_cast
    ring

theorem value_strictMono : StrictMono value := by
  apply strictMono_nat_of_lt_succ
  intro rank
  rw [value_succ]
  linarith [unit_pos rank]

theorem middle_eq (rank : Nat) : middle rank = value rank + 2 ^ exponent rank / 2 := by
  rw [middle, value_succ]
  ring

theorem middle_eq_half {i k : Nat} (hk : k < 2 * binade) (hnormal : i = 0 ∨ binade ≤ k) :
    middle (i * binade + k) = (k + 1 / 2) * 2 ^ ((i : Int) - 1074) := by
  rw [middle_eq, value_eq hk.le hnormal, (mantissa_exponent hk hnormal).2]
  ring

theorem value_lt_middle (rank : Nat) : value rank < middle rank := by
  rw [middle_eq]
  linarith [unit_pos rank]

theorem middle_lt_value {rank later : Nat} (h : rank < later) : middle rank < value later := by
  have hnext : value (rank + 1) ≤ value later := value_strictMono.monotone h
  have hstep := value_strictMono (Nat.lt_succ_self rank)
  rw [middle]
  linarith

theorem middle_strictMono : StrictMono middle := by
  intro rank later h
  exact (middle_lt_value h).trans (value_lt_middle later)

/-! ## Rounding to a rank -/

/-- A number lies nearest to the magnitude of a rank; halfway between two the rank is even. -/
structure Rounds (q : ℚ) (rank : Nat) : Prop where
  lower : ∀ before, before + 1 = rank → middle before ≤ q ∧ (q = middle before → rank % 2 = 0)
  upper : q ≤ middle rank ∧ (q = middle rank → rank % 2 = 0)

namespace Rounds

variable {q : ℚ} {rank other : Nat}

theorem not_lt (h : Rounds q rank) (hother : Rounds q other) : ¬ rank < other := by
  intro hlt
  obtain ⟨before, rfl⟩ : ∃ before, other = before + 1 := ⟨other - 1, by omega⟩
  obtain ⟨hlow, heven⟩ := hother.lower before rfl
  have hmiddle : middle before ≤ middle rank := hlow.trans h.upper.1
  have hbefore : before = rank :=
    le_antisymm (middle_strictMono.le_iff_le.1 hmiddle) (Nat.le_of_lt_succ hlt)
  subst hbefore
  -- Of two neighbours one is odd, and it gets no tie.
  have htie : q = middle before := le_antisymm h.upper.1 hlow
  have hodd := heven htie
  have heven := h.upper.2 htie
  omega

/-- A number is rounded to one rank only. -/
theorem unique (h : Rounds q rank) (hother : Rounds q other) : rank = other := by
  have hge := h.not_lt hother
  have hle := hother.not_lt h
  omega

/-- The magnitude of a rank is rounded to it. -/
theorem value (rank : Nat) : Rounds (value rank) rank where
  lower before hbefore := by
    have hlt := middle_lt_value (Nat.lt_of_succ_le hbefore.le)
    exact ⟨hlt.le, fun heq => absurd heq hlt.ne'⟩
  upper := by
    have hlt := value_lt_middle rank
    exact ⟨hlt.le, fun heq => absurd heq hlt.ne⟩

/-- No rank is nearer to a number than the one it is rounded to. -/
theorem abs_sub_value_le (h : Rounds q rank) (other : Nat) :
    |q - Double.value rank| ≤ |q - Double.value other| := by
  rcases lt_trichotomy other rank with hlt | rfl | hgt
  · obtain ⟨before, rfl⟩ : ∃ before, rank = before + 1 := ⟨rank - 1, by omega⟩
    have hmiddle := (h.lower before rfl).1
    have hother : Double.value other ≤ Double.value before :=
      value_strictMono.monotone (Nat.le_of_lt_succ hlt)
    have hstep := value_strictMono (Nat.lt_succ_self before)
    rw [middle] at hmiddle
    rw [abs_le]
    have habs := le_abs_self (q - Double.value other)
    constructor <;> linarith
  · exact le_rfl
  · have hmiddle := h.upper.1
    have hother : Double.value (rank + 1) ≤ Double.value other := value_strictMono.monotone hgt
    have hstep := value_strictMono (Nat.lt_succ_self rank)
    rw [middle] at hmiddle
    rw [abs_le]
    have habs := neg_abs_le (q - Double.value other)
    constructor <;> linarith

/-- A number is at most half a unit of the last place away from where it is rounded to. -/
theorem abs_sub_value_le_half (hq : 0 ≤ q) (h : Rounds q rank) :
    |q - Double.value rank| ≤ 2 ^ exponent rank / 2 := by
  rw [abs_le]
  constructor
  · rcases Nat.eq_zero_or_pos rank with rfl | hpos
    · rw [value_zero]
      linarith [unit_pos 0]
    · obtain ⟨before, rfl⟩ : ∃ before, rank = before + 1 := ⟨rank - 1, by omega⟩
      have hlow := (h.lower before rfl).1
      have hunit : (2 : ℚ) ^ exponent before ≤ 2 ^ exponent (before + 1) :=
        zpow_le_zpow_right₀ one_le_two (exponent_le_exponent (Nat.le_succ before))
      rw [middle_eq] at hlow
      rw [value_succ]
      linarith
  · have hupper := h.upper.1
    rw [middle_eq] at hupper
    linarith

/-- A number below half of the least positive double is rounded to zero. -/
theorem eq_zero (h : Rounds q rank) (hq : q < 2 ^ (-1075 : Int)) : rank = 0 := by
  by_contra hne
  obtain ⟨before, rfl⟩ : ∃ before, rank = before + 1 := ⟨rank - 1, by omega⟩
  have hleast : middle 0 = 2 ^ (-1075 : Int) := by
    have hexponent : exponent 0 = -1075 + 1 := by rfl
    rw [middle_eq, value_zero, hexponent, zpow_add_one₀ two_ne_zero]
    ring
  have hmiddle : middle 0 ≤ q :=
    (middle_strictMono.monotone (Nat.zero_le before)).trans (h.lower before rfl).1
  linarith

/-- A number not below the least normal double is rounded to a normal one. -/
theorem binade_le (h : Rounds q rank) (hq : 2 ^ (-1022 : Int) ≤ q) : binade ≤ rank := by
  by_contra hless
  have hleast : Double.value binade = 2 ^ (-1022 : Int) := by
    have hvalue := value_eq (i := 0) (k := binade) (by decide) (.inr le_rfl)
    rw [binade_eq_pow, ← zpow_add₀ two_ne_zero] at hvalue
    exact hvalue
  have hmiddle := middle_lt_value (Nat.lt_of_not_le hless)
  have hupper := h.upper.1
  linarith

/-- A number from the power of two after the finite doubles on is rounded past them. -/
theorem infinityRank_le (h : Rounds q rank) (hq : 2 ^ (1024 : Int) ≤ q) : infinityRank ≤ rank := by
  by_contra hless
  have hbound : Double.value infinityRank = 2 ^ (1024 : Int) := by
    have hvalue := value_eq (i := 2046) (k := binade) (by decide) (.inr le_rfl)
    rw [binade_eq_pow, ← zpow_add₀ two_ne_zero] at hvalue
    exact hvalue
  have hmiddle := middle_lt_value (Nat.lt_of_not_le hless)
  have hupper := h.upper.1
  linarith

end Rounds

/-! ## Overflow -/

/-- The least number that is rounded to infinity: it lies halfway between the greatest finite
double and the power of two after it. -/
def overflow : ℚ :=
  2 ^ (1024 : Int) - 2 ^ (970 : Int)

theorem middle_last : middle (infinityRank - 1) = overflow := by
  have hlast : infinityRank - 1 = 2045 * binade + (2 * binade - 1) := by
    rw [infinityRank, binade_eq]
  have hfull : ((2 * binade - 1 : Nat) : ℚ) = 2 * binade - 1 := by
    rw [binade_eq]
    norm_num
  have hunit : ((2045 : Nat) : Int) - 1074 = 970 + 1 := by
    decide
  have hpower : (2 : ℚ) ^ (1024 : Int) = 2 ^ (52 : Int) * 2 ^ (970 : Int) * 4 := by
    rw [← zpow_add₀ two_ne_zero]
    exact zpow_add₀ two_ne_zero 1022 2
  rw [hlast, middle_eq_half (by decide) (.inr (by decide)), hfull, hunit,
    zpow_add_one₀ two_ne_zero, binade_eq_pow, overflow, hpower]
  ring

/-- A number below the overflow is rounded to a finite double, and no other is: on the tie the
rank of the greatest finite double is odd. -/
theorem Rounds.lt_infinityRank_iff {q : ℚ} {rank : Nat} (h : Rounds q rank) :
    rank < infinityRank ↔ q < overflow := by
  rw [← middle_last]
  constructor
  · intro hlt
    rcases Nat.lt_or_eq_of_le (Nat.le_sub_one_of_lt hlt) with hless | rfl
    · exact h.upper.1.trans_lt (middle_strictMono hless)
    · refine lt_of_le_of_ne h.upper.1 fun htie => ?_
      have heven := h.upper.2 htie
      have hodd : (infinityRank - 1) % 2 = 1 := by decide
      omega
  · intro hq
    by_contra hge
    have hpos : 0 < infinityRank := by decide
    obtain ⟨before, rfl⟩ : ∃ before, rank = before + 1 := ⟨rank - 1, by omega⟩
    have hmiddle : middle (infinityRank - 1) ≤ middle before :=
      middle_strictMono.monotone (by omega)
    linarith [(h.lower before rfl).1]

end Segmentation.Double
