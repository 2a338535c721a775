import Segmentation.Number.Shortest
import Segmentation.Proofs.Number.Digits
import Mathlib.Data.List.TakeWhile

/-!
# Plain numerals

A plain numeral is an optional sign, digits, and perhaps a point with digits
behind it.  It has no exponent, and it is no word for infinity or for what is not
a number.  Integers and the finite doubles are written as plain numerals, and so
is every decimal that is read.
-/

namespace Segmentation

namespace Numeral

/-- Digits, and at least one of them. -/
def IsDigits (text : List Char) : Prop :=
  text ≠ [] ∧ text.all Char.isDigit

inductive IsUnsigned : List Char → Prop
  | whole {digits : List Char} (h : IsDigits digits) : IsUnsigned digits
  | point {whole fraction : List Char} (hwhole : IsDigits whole) (hfraction : IsDigits fraction) :
    IsUnsigned (whole ++ '.' :: fraction)

inductive IsPlain : List Char → Prop
  | unsigned {text : List Char} (h : IsUnsigned text) : IsPlain text
  | signed {sign : Char} {text : List Char} (hsign : sign = '+' ∨ sign = '-')
    (h : IsUnsigned text) : IsPlain (sign :: text)

theorem isDigits_toDigits (n : Nat) : IsDigits (Nat.toDigits 10 n) := by
  exact ⟨Nat.toDigits_ne_nil, all_isDigit_toDigits n⟩

theorem isPlain_toString (value : Int) : IsPlain (toString value).toList := by
  cases value with
  | ofNat n =>
      change IsPlain (Nat.repr n).toList
      rw [Nat.toList_repr]
      exact .unsigned (.whole (isDigits_toDigits n))
  | negSucc n =>
      change IsPlain ("-" ++ Nat.repr (n + 1)).toList
      rw [String.toList_append, Nat.toList_repr]
      exact .signed (.inr rfl) (.whole (isDigits_toDigits (n + 1)))

/-! ## Decimals that are read -/

theorem isPlain_of_splitSign {text : List Char} (h : IsUnsigned (splitSign text).2) :
    IsPlain text := by
  unfold splitSign at h
  split at h
  · exact .signed (.inl rfl) h
  · exact .signed (.inr rfl) h
  · exact .unsigned h

/-- The exponent of a text that has none takes up nothing. -/
theorem eq_nil_of_readPower? {text : List Char} (h : readPower? text = some none) : text = [] := by
  cases text with
  | nil => rfl
  | cons mark rest =>
      simp only [readPower?, Option.ite_none_right_eq_some] at h
      simp at h

theorem isDigits_takeWhile {text : List Char} (h : text.takeWhile Char.isDigit ≠ []) :
    IsDigits (text.takeWhile Char.isDigit) :=
  ⟨h, List.all_takeWhile⟩

/-- A decimal is read off a plain numeral. -/
theorem isPlain_of_isDecimal {text : List Char} {numeral : Numeral}
    (hread : read? text = some numeral) (hdecimal : numeral.isDecimal) : IsPlain text := by
  apply isPlain_of_splitSign
  simp only [read?, Option.ite_none_left_eq_some, Option.map_eq_some_iff] at hread
  obtain ⟨_, power, hpower, rfl⟩ := hread
  obtain ⟨⟨hwhole, hfraction⟩, rfl⟩ : ((splitDigits (splitSign text).2).1 ≠ [] ∧
      (splitFraction (splitDigits (splitSign text).2).2).1 ≠ some []) ∧ power = none := by
    simpa [isDecimal] using hdecimal
  have hrest := eq_nil_of_readPower? hpower
  have hdigits := isDigits_takeWhile hwhole
  have hsplit : (splitDigits (splitSign text).2).1 ++ (splitDigits (splitSign text).2).2 =
      (splitSign text).2 := List.takeWhile_append_dropWhile
  rw [← hsplit]
  generalize (splitDigits (splitSign text).2).2 = later at hfraction hrest
  unfold splitFraction at hfraction hrest
  split at hrest
  · next fraction =>
      have hpoint : (splitDigits fraction).1 ++ (splitDigits fraction).2 = fraction :=
        List.takeWhile_append_dropWhile
      have hne : (splitDigits fraction).1 ≠ [] := by
        simpa using hfraction
      rw [← hpoint, hrest, List.append_nil]
      exact .point hdigits (isDigits_takeWhile hne)
  · change later = [] at hrest
    rw [hrest, List.append_nil]
    exact .whole hdigits

end Numeral

/-! ## Doubles -/

namespace Decimal

/-- The place of the first digit of a rank. -/
def place (rank : Nat) : Int :=
  leadingPlace (Double.magnitude rank).1 (Double.magnitude rank).2

/-- How many steps of a grid a rank reaches. -/
def steps (rank width : Nat) : Nat :=
  let scaled := Double.unscale 10 (Double.magnitude rank).1 (Double.magnitude rank).2
    (place rank - width)
  scaled.1 / scaled.2

/-- The two decimals of a grid between which a rank lies. -/
inductive Neighbour (rank width : Nat) : Decimal → Prop
  | below : Neighbour rank width ⟨steps rank width, place rank - width⟩
  | above : Neighbour rank width ⟨steps rank width + 1, place rank - width⟩

/-- What is found on a grid is a neighbour that reads back. -/
theorem neighbour_of_onGrid? {tie : Tie} {rank width : Nat} {decimal : Decimal}
    (h : onGrid? tie rank width = some decimal) :
    Neighbour rank width decimal ∧ readsBack rank decimal := by
  unfold onGrid? at h
  simp only at h
  split at h
  · contradiction
  · next hbelow _ =>
      cases h
      exact ⟨.below, hbelow⟩
  · next _ habove =>
      cases h
      exact ⟨.above, habove⟩
  · next hbelow habove =>
      split at h
      · cases h
        exact ⟨.below, hbelow⟩
      · split at h
        · cases h
          exact ⟨.above, habove⟩
        · cases tie with
          | up =>
              cases h
              exact ⟨.above, habove⟩
          | even =>
              simp only [Option.some.injEq] at h
              split at h
              · cases h
                exact ⟨.below, hbelow⟩
              · cases h
                exact ⟨.above, habove⟩

theorem digits_exact_ne_zero {rank : Nat} (hrank : rank ≠ 0) : (exact rank).digits ≠ 0 := by
  have hmantissa : Double.mantissa rank ≠ 0 := by
    rw [Double.mantissa]
    split
    · exact hrank
    · have hbinade : 0 < Double.binade := Nat.pow_pos (by decide)
      omega
  unfold exact
  split
  · exact Nat.mul_ne_zero hmantissa (Nat.ne_of_gt (Nat.pow_pos (by decide)))
  · exact Nat.mul_ne_zero hmantissa (Nat.ne_of_gt (Nat.pow_pos (by decide)))

/-- A positive double is not written with the digits of zero, which read back as zero. -/
theorem digits_shortest_ne_zero (tie : Tie) {rank : Nat} (hrank : rank ≠ 0) :
    (shortest tie rank).digits ≠ 0 := by
  unfold shortest
  cases hfound : (List.range 17).findSome? fun i => onGrid? tie rank (i + 1) with
  | none => exact digits_exact_ne_zero hrank
  | some decimal =>
      obtain ⟨_, width, _, _, hgrid, _⟩ := List.findSome?_eq_some_iff.1 hfound
      have hreads := (neighbour_of_onGrid? hgrid).2
      rw [Option.getD_some]
      intro hzero
      rw [readsBack, hzero, Double.nearestDecimalRank, if_pos rfl, beq_iff_eq] at hreads
      exact hrank hreads.symm

/-- Digits that are all zero are those of zero. -/
theorem eq_zero_of_all_zero {n : Nat} (h : ∀ c ∈ Nat.toDigits 10 n, c = '0') : n = 0 := by
  have hvalue : Nat.ofDigitChars 10 (Nat.toDigits 10 n) 0 = n := Nat.ofDigitChars_ten_toDigits
  rw [List.eq_replicate_of_mem h, Nat.ofDigitChars_replicate_zero, Nat.mul_zero] at hvalue
  exact hvalue.symm

theorem isDigits_significant {decimal : Decimal} (h : decimal.digits ≠ 0) :
    Numeral.IsDigits decimal.significant.1 := by
  have hdigits := (Numeral.isDigits_toDigits decimal.digits).2
  rw [List.all_eq_true] at hdigits
  constructor
  · intro hnil
    apply h
    apply eq_zero_of_all_zero
    rw [significant, List.reverse_eq_nil_iff, List.dropWhile_eq_nil_iff] at hnil
    intro c hc
    exact beq_iff_eq.1 (hnil c (List.mem_reverse.2 hc))
  · rw [significant, List.all_reverse, List.all_eq_true]
    intro c hc
    exact hdigits c (List.mem_reverse.1 ((List.dropWhile_sublist _).subset hc))

end Decimal

namespace NumeralStyle

/-- A style that never writes an exponent, nor a point behind an integer. -/
def IsPlain (style : NumeralStyle) : Prop :=
  (∀ exponent, style.positional exponent) ∧ style.integralPoint = false

theorem isUnsigned_positionalText {style : NumeralStyle} (hstyle : style.IsPlain)
    {digits : List Char} (hdigits : Numeral.IsDigits digits) (place : Int) :
    Numeral.IsUnsigned (style.positionalText digits place) := by
  have hzero : Numeral.IsDigits ['0'] := ⟨List.cons_ne_nil _ _, rfl⟩
  have hzeros : ∀ count, (List.replicate count '0').all Char.isDigit := by
    intro count
    simp
  obtain ⟨hne, hall⟩ := hdigits
  unfold positionalText
  split
  · next p =>
      have hfraction : Numeral.IsDigits (List.replicate (p + 1) '0' ++ digits) := by
        refine ⟨by simp, ?_⟩
        rw [List.all_append, hzeros, hall]
        rfl
      exact .point hzero hfraction
  · exact .point hzero ⟨hne, hall⟩
  · next p hp =>
      split
      · rw [hstyle.2]
        refine .whole ⟨?_, ?_⟩
        · simp [hne]
        · simp [hall, hzeros]
      · next hlonger =>
          have hp : p ≠ 0 := by
            rintro rfl
            exact hp rfl
          rw [← List.take_append_drop p digits, List.all_append, Bool.and_eq_true] at hall
          refine .point ⟨?_, hall.1⟩ ⟨?_, hall.2⟩
          · simp [hp, hne]
          · simpa using hlonger

/-- A finite double is written as a plain numeral. -/
theorem isPlain_write {style : NumeralStyle} (hstyle : style.IsPlain) {double : Double}
    (hfinite : double.isFinite) : Numeral.IsPlain (style.write double).toList := by
  have hmagnitude : Numeral.IsUnsigned (style.magnitudeText double.rank) := by
    have hrank : double.rank < Double.infinityRank := of_decide_eq_true hfinite
    unfold magnitudeText
    by_cases hzero : double.rank = 0
    · rw [if_pos hzero, hstyle.2]
      exact .whole ⟨List.cons_ne_nil _ _, rfl⟩
    · rw [if_neg hzero, if_pos hrank]
      have hdigits := Decimal.isDigits_significant (Decimal.digits_shortest_ne_zero style.tie hzero)
      simp only [hstyle.1, if_true]
      exact isUnsigned_positionalText hstyle hdigits _
  rw [write, String.toList_ofList]
  split
  · exact .signed (.inr rfl) hmagnitude
  · exact .unsigned hmagnitude

/-- The text of a double that is not finite is no numeral. -/
theorem read?_write_eq_none {style : NumeralStyle} {double : Double}
    (hfinite : double.isFinite = false) : Numeral.read? (style.write double).toList = none := by
  have hrank : ¬ double.rank < Double.infinityRank := of_decide_eq_false hfinite
  have hzero : double.rank ≠ 0 := by
    intro hzero
    rw [hzero] at hrank
    exact hrank (Nat.mul_pos (by decide) (Nat.pow_pos (by decide)))
  rw [write, String.toList_ofList, magnitudeText, if_neg hzero, if_neg hrank]
  by_cases hinfinity : double.rank = Double.infinityRank
  · rw [hinfinity, if_pos rfl]
    cases double.negative <;> rfl
  · have hbeyond : ¬ double.rank ≤ Double.infinityRank := by omega
    rw [if_neg hinfinity, decide_eq_false hbeyond, Bool.and_false]
    rfl

end NumeralStyle

end Segmentation
