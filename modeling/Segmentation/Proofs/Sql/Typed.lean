import Segmentation.Proofs.Number.Written
import Segmentation.Proofs.Sql.Literal

/-!
# Typed numbers

What becomes of a number between the text that is typed and the literal in a statement.  A
typed decimal stays the number it is, and so does a short number that is typed with an exponent
or with a point at its edge.  Any other number becomes the nearest double, and the literal
denotes whatever number that double is written with.
-/

namespace Segmentation.Sql.Value

variable {raw : String}

/-- What a typed number is kept as. -/
theorem ofTyped_cases (hnumeric : (ofTyped raw).isNumeric) :
    ∃ typed : Numeral, typed.Spells (Text.trim raw.toList) ∧
      (typed.isInteger ∧ ofTyped raw = .int typed.integerValue ∨
        typed.isDecimal ∧ (ofTyped raw).literal.toList = Text.trim raw.toList ∨
        typed.isDecimal = false ∧ typed.toDouble.isFinite ∧
          ofTyped raw = .float typed.toDouble) := by
  have hkept := keptAs_ofTyped raw
  generalize ofTyped raw = kept at hkept hnumeric ⊢
  cases hkept with
  | unread _ => contradiction
  | integer hread hinteger _ =>
      exact ⟨_, Numeral.read?_eq_some_iff.1 hread, .inl ⟨hinteger, rfl⟩⟩
  | double hread _ hdecimal hsame =>
      exact ⟨_, Numeral.read?_eq_some_iff.1 hread, .inr (.inl ⟨hdecimal, hsame⟩)⟩
  | decimal hread _ hdecimal =>
      exact ⟨_, Numeral.read?_eq_some_iff.1 hread, .inr (.inl ⟨hdecimal, String.toList_ofList⟩)⟩
  | finite hread hdecimal hfinite =>
      exact ⟨_, Numeral.read?_eq_some_iff.1 hread, .inr (.inr ⟨hdecimal, hfinite, rfl⟩)⟩
  | infinite _ _ _ => contradiction

theorem isDecimal_and_value_of_isInteger {typed : Numeral} {text : List Char}
    (h : typed.Spells text) (hinteger : typed.isInteger) :
    typed.isDecimal ∧ typed.value = typed.integerValue := by
  obtain ⟨hsign, hbody, hpower⟩ := h
  cases hpower with
  | ten =>
      rw [Numeral.isInteger, Bool.and_eq_true] at hinteger
      exact absurd hinteger.2 nofun
  | one =>
      cases hbody with
      | point => exact absurd hinteger nofun
      | whole h =>
          constructor
          · simp [Numeral.isDecimal, h.1]
          · rw [Numeral.value, Numeral.magnitude_plain, Numeral.bodyValue_none,
              Numeral.integerValue]
            split <;> simp

/-- The literal of a typed number denotes the number that was typed if that is a decimal or a
short number.  The literal of a number that is no decimal is read as the same double. -/
theorem value_literal_ofTyped (raw : String) (hnumeric : (ofTyped raw).isNumeric) :
    ∃ typed written : Numeral, typed.Spells (Text.trim raw.toList) ∧
      written.Spells (ofTyped raw).literal.toList ∧
      (typed.isDecimal ∨ typed.IsShort → written.value = typed.value) ∧
      (typed.isDecimal = false → written.toDouble = typed.toDouble) := by
  obtain ⟨typed, htyped, ⟨hinteger, hkept⟩ | ⟨hdecimal, hsame⟩ | ⟨hdecimal, hfinite, hkept⟩⟩ :=
    ofTyped_cases hnumeric
  · obtain ⟨hdecimal, hvalue⟩ := isDecimal_and_value_of_isInteger htyped hinteger
    obtain ⟨written, hwritten, hinteger⟩ := Numeral.exists_spells_toString typed.integerValue
    refine ⟨typed, written, htyped, ?_, fun _ => hinteger.trans hvalue.symm, ?_⟩
    · rw [hkept]
      exact hwritten
    · intro hother
      rw [hdecimal] at hother
      contradiction
  · refine ⟨typed, typed, htyped, ?_, fun _ => rfl, fun _ => rfl⟩
    rw [hsame]
    exact htyped
  · have hrank : typed.toDouble.rank < Double.infinityRank := of_decide_eq_true hfinite
    have hrounds := ((Numeral.toDouble_eq_iff hfinite).1 rfl).2
    obtain ⟨written, hwritten, hsign, hmagnitude⟩ :=
      NumeralStyle.exists_spells_write isPlain_literalStyle hfinite
    refine ⟨typed, written, htyped, ?_, ?_, fun _ => ?_⟩
    · rw [hkept]
      exact hwritten
    · rintro (hother | hshort)
      · rw [hdecimal] at hother
        contradiction
      · rw [literalStyle.writtenValue_eq hshort hrank hrounds] at hmagnitude
        rw [Numeral.value, Numeral.value, hsign, hmagnitude]
        rfl
    · rw [Numeral.toDouble_eq_iff hfinite, hmagnitude]
      exact ⟨hsign, literalStyle.rounds_writtenValue hrank⟩

theorem value_literal_ofTyped_short :
    (ofTyped " 1.5e3").isNumeric ∧
      ∃ typed written : Numeral, typed.Spells "1.5e3".toList ∧
        written.Spells (ofTyped " 1.5e3").literal.toList ∧ typed.IsShort ∧
        written.value = typed.value ∧ written.toDouble = typed.toDouble := by
  have hnumeric : (ofTyped " 1.5e3").isNumeric := by decide +kernel
  have htrim : Text.trim " 1.5e3".toList = "1.5e3".toList := by decide +kernel
  obtain ⟨typed, written, htyped, hwritten, hvalue, hdouble⟩ :=
    value_literal_ofTyped " 1.5e3" hnumeric
  rw [htrim] at htyped
  obtain rfl : ⟨false, ['1'], some ['5'], some (false, ['3'])⟩ = typed :=
    Option.some.inj (Numeral.read?_eq_some_iff.2 htyped)
  have hshort : Numeral.IsShort ⟨false, ['1'], some ['5'], some (false, ['3'])⟩ := by
    have hmagnitude : Numeral.magnitude ⟨false, ['1'], some ['5'], some (false, ['3'])⟩ =
        (15 : Nat) * 10 ^ (2 : Int) := Numeral.magnitude_eq_scaled _
    refine .inr ⟨?_, 15, 2, by decide, hmagnitude⟩
    calc (2 : ℚ) ^ (-1022 : Int) ≤ 2 ^ (0 : Int) := zpow_le_zpow_right₀ one_le_two (by decide)
      _ ≤ (15 : Nat) * 10 ^ (2 : Int) := by norm_num
      _ = _ := hmagnitude.symm
  exact ⟨hnumeric, _, written, htyped, hwritten, hshort, hvalue (.inr hshort), hdouble rfl⟩

/-- A number below half of the least positive double is written as zero. -/
theorem value_literal_ofTyped_underflow :
    ¬ ∀ raw, (ofTyped raw).isNumeric →
      ∃ typed written : Numeral, typed.Spells (Text.trim raw.toList) ∧
        written.Spells (ofTyped raw).literal.toList ∧ written.value = typed.value := by
  intro h
  obtain ⟨typed, written, htyped, hwritten, hvalue⟩ := h "1e-400" (by decide +kernel)
  have htrim : Text.trim "1e-400".toList = "1e-400".toList := by decide +kernel
  have hliteral : (ofTyped "1e-400").literal = "0" := by decide +kernel
  rw [htrim] at htyped
  rw [hliteral] at hwritten
  obtain rfl : ⟨false, ['1'], none, some (true, ['4', '0', '0'])⟩ = typed :=
    Option.some.inj (Numeral.read?_eq_some_iff.2 htyped)
  obtain rfl : ⟨false, ['0'], none, none⟩ = written :=
    Option.some.inj (Numeral.read?_eq_some_iff.2 hwritten)
  have htiny : Numeral.magnitude ⟨false, ['1'], none, some (true, ['4', '0', '0'])⟩ =
      (1 : Nat) * 10 ^ (-400 : Int) := Numeral.magnitude_eq_scaled _
  have hzero : Numeral.magnitude ⟨false, ['0'], none, none⟩ = (0 : Nat) * 10 ^ (0 : Int) :=
    Numeral.magnitude_eq_scaled _
  have hpos : (0 : ℚ) < 10 ^ (-400 : Int) := by positivity
  rw [Numeral.value, Numeral.value, if_neg Bool.false_ne_true, if_neg Bool.false_ne_true, hzero,
    htiny, Nat.cast_zero, zero_mul, Nat.cast_one, one_mul] at hvalue
  exact hpos.ne hvalue

end Segmentation.Sql.Value
