import Segmentation.Proofs.Sql.Typed

/-!
# Kinds of typed numbers

What kind of value a typed text becomes can be told from the text.  An integer of 64 bits becomes
an integer; a plain numeral becomes a number, however long it is; so does any other spelling of a
number that is not too large for a double; and all else stays the text it is.  Of whatever kind a
number is, its literal is a plain numeral.
-/

namespace Segmentation

namespace Numeral

/-- An optional sign and digits, and the integer that they denote. -/
inductive SpellsInteger : Int → List Char → Prop
  | intro {negative : Bool} {sign digits : List Char} (hsign : SignText negative sign)
    (hdigits : IsDigits digits) :
    SpellsInteger (if negative then -(digitsValue digits : Int) else digitsValue digits)
      (sign ++ digits)

/-- A text that spells a number which is rounded to a finite double.  The words for infinity and
for what is not a number spell none. -/
def IsFiniteText (text : List Char) : Prop :=
  ∃ numeral : Numeral, numeral.Spells text ∧ numeral.magnitude < Double.overflow

variable {text : List Char}

theorem spellsInteger_iff {integer : Int} :
    SpellsInteger integer text ↔ ∃ numeral : Numeral,
      numeral.Spells text ∧ numeral.isInteger ∧ numeral.integerValue = integer := by
  constructor
  · intro h
    cases h with
    | intro hsign hdigits => exact ⟨⟨_, _, none, none⟩, .plain hsign (.whole hdigits), rfl, rfl⟩
  · rintro ⟨numeral, hspells, hinteger, rfl⟩
    obtain ⟨hsign, hbody, hpower⟩ := hspells
    rw [isInteger, Bool.and_eq_true] at hinteger
    obtain ⟨hwhole, hplain⟩ := hinteger
    cases hpower with
    | ten => contradiction
    | one =>
        cases hbody with
        | point => contradiction
        | whole hdigits =>
            rw [List.append_nil]
            exact .intro hsign hdigits

end Numeral

namespace Sql.Value

open Numeral (IsPlain IsFiniteText Spells SpellsInteger)

theorem isInt64_iff {integer : Int} :
    isInt64 integer ↔ -2 ^ 63 ≤ integer ∧ integer < 2 ^ 63 := by
  have hmin : Int64.minValue.toInt = -2 ^ 63 := by decide
  have hmax : Int64.maxValue.toInt = 2 ^ 63 - 1 := by decide
  rw [isInt64, Bool.and_eq_true, decide_eq_true_iff, decide_eq_true_iff, hmin, hmax]
  omega

section

variable {raw : String}

theorem isPlain_iff_of_spells {numeral : Numeral} {text : List Char} (h : numeral.Spells text) :
    IsPlain text ↔ numeral.isDecimal := by
  rw [Numeral.isPlain_iff_exists_spells, h.exists_and_iff]

theorem isFiniteText_iff_of_spells {numeral : Numeral} {text : List Char}
    (h : numeral.Spells text) : IsFiniteText text ↔ numeral.toDouble.isFinite := by
  rw [Numeral.isFinite_toDouble_iff, IsFiniteText, h.exists_and_iff]

/-- A typed text becomes a number exactly if it is a plain numeral or a finite double. -/
theorem isNumeric_ofTyped_iff :
    (ofTyped raw).isNumeric ↔
      IsPlain (Text.trim raw.toList) ∨ IsFiniteText (Text.trim raw.toList) := by
  have hkept := keptAs_ofTyped raw
  generalize ofTyped raw = kept at hkept ⊢
  cases hkept with
  | unread hread =>
      have hnone (numeral : Numeral) : ¬ numeral.Spells (Text.trim raw.toList) := by
        rw [← Numeral.read?_eq_some_iff, hread]
        exact nofun
      refine iff_of_false nofun ?_
      rintro (hplain | ⟨numeral, hspells, _⟩)
      · obtain ⟨numeral, hspells, _⟩ := Numeral.isPlain_iff_exists_spells.1 hplain
        exact hnone numeral hspells
      · exact hnone numeral hspells
  | integer hread hinteger _ =>
      have hspells := Numeral.read?_eq_some_iff.1 hread
      have hdecimal := (isDecimal_and_value_of_isInteger hspells hinteger).1
      exact iff_of_true rfl (.inl ((isPlain_iff_of_spells hspells).2 hdecimal))
  | double hread _ hdecimal _ | decimal hread _ hdecimal =>
      have hspells := Numeral.read?_eq_some_iff.1 hread
      exact iff_of_true rfl (.inl ((isPlain_iff_of_spells hspells).2 hdecimal))
  | finite hread _ hfinite =>
      have hspells := Numeral.read?_eq_some_iff.1 hread
      exact iff_of_true rfl (.inr ((isFiniteText_iff_of_spells hspells).2 hfinite))
  | infinite hread hdecimal hinfinite =>
      have hspells := Numeral.read?_eq_some_iff.1 hread
      rw [isPlain_iff_of_spells hspells, isFiniteText_iff_of_spells hspells, hdecimal, hinfinite]
      exact iff_of_false nofun nofun

/-- A typed text becomes an integer exactly if it spells it and the integer has 64 bits. -/
theorem ofTyped_eq_int_iff {integer : Int} :
    ofTyped raw = .int integer ↔
      SpellsInteger integer (Text.trim raw.toList) ∧ -2 ^ 63 ≤ integer ∧ integer < 2 ^ 63 := by
  rw [Numeral.spellsInteger_iff, ← isInt64_iff]
  have hkept := keptAs_ofTyped raw
  generalize ofTyped raw = kept at hkept ⊢
  constructor
  · rintro rfl
    cases hkept with
    | integer hread hinteger hrange =>
        exact ⟨⟨_, Numeral.read?_eq_some_iff.1 hread, hinteger, rfl⟩, hrange⟩
  · rintro ⟨⟨numeral, hspells, hinteger, rfl⟩, hrange⟩
    have hdecimal := (isDecimal_and_value_of_isInteger hspells hinteger).1
    rw [← Numeral.read?_eq_some_iff] at hspells
    cases hkept with
    | unread hread =>
        rw [hspells] at hread
        contradiction
    | integer hread _ _ => rw [Option.some.inj (hspells.symm.trans hread)]
    | double hread hwide _ _ | decimal hread hwide _ =>
        obtain rfl := Option.some.inj (hspells.symm.trans hread)
        exact absurd ⟨hinteger, hrange⟩ hwide
    | finite hread hno _ | infinite hread hno _ =>
        obtain rfl := Option.some.inj (hspells.symm.trans hread)
        rw [hdecimal] at hno
        contradiction

theorem isNumeric_eq_false_iff {value : Value} :
    value.isNumeric = false ↔ ∃ content, value = .text content := by
  cases value with
  | text content => exact iff_of_true rfl ⟨content, rfl⟩
  | _ => exact iff_of_false nofun nofun

end

/-- What a typed text becomes, told from the text without the blanks around it. -/
structure Classified (raw : String) : Prop where
  /-- It stays text if it is neither a plain numeral nor read as a finite double. -/
  text : (∃ content, ofTyped raw = .text content) ↔
    ¬ IsPlain (Text.trim raw.toList) ∧ ¬ IsFiniteText (Text.trim raw.toList)
  /-- Text is kept with its blanks. -/
  unchanged : ∀ content, ofTyped raw = .text content → content = raw
  /-- It becomes an integer if it spells one of 64 bits. -/
  int : ∀ integer, ofTyped raw = .int integer ↔
    SpellsInteger integer (Text.trim raw.toList) ∧ -2 ^ 63 ≤ integer ∧ integer < 2 ^ 63
  /-- A plain numeral of any length becomes a number. -/
  plain : IsPlain (Text.trim raw.toList) → (ofTyped raw).isNumeric
  /-- The literal of a number is a plain numeral. -/
  literal : (ofTyped raw).isNumeric → IsPlain (ofTyped raw).literal.toList

theorem classified_ofTyped (raw : String) : Classified raw where
  text := by
    rw [← isNumeric_eq_false_iff, ← Bool.not_eq_true, isNumeric_ofTyped_iff, not_or]
  unchanged _ h := eq_of_ofTyped_eq_text h
  int _ := ofTyped_eq_int_iff
  plain h := isNumeric_ofTyped_iff.2 (.inl h)
  literal h := isPlain_literal (wellFormed_ofTyped raw) h

/-- The integer after the last one of 64 bits is kept as it was typed, and a number too large for
a double is one only if it is typed without an exponent. -/
example : ofTyped " +9223372036854775808" = .numeric "+9223372036854775808" ∧
    ofTyped "1e309 " = .text "1e309 " ∧ ofTyped "inf" = .text "inf" := by
  decide +kernel

end Sql.Value

end Segmentation
