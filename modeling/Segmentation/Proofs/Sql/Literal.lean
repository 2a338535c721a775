import Segmentation.Proofs.Number.Plain
import Segmentation.Proofs.Sql.Token

/-!
# Literals as tokens

A value is written in an inline statement as its literal.  Whatever a text holds,
its literal is read as one token with exactly that text, and the literal of a
number is read as one number, with its sign if it has one.
-/

namespace Segmentation.Sql

namespace Value

/-- Whether a number can be written: a double if it is finite, and a decimal that is kept
as it was typed if it is plain. -/
def WellFormed : Value → Prop
  | .int _ => True
  | .float double => double.isFinite
  | .numeric digits => Numeral.IsPlain digits.toList
  | .text _ => True

theorem isPlain_literalStyle : literalStyle.IsPlain :=
  ⟨fun _ => rfl, rfl⟩

/-- The literal of a number is a plain numeral. -/
theorem isPlain_literal {bound : Value} (h : bound.WellFormed) (hnumeric : bound.isNumeric) :
    Numeral.IsPlain bound.literal.toList := by
  cases bound with
  | int value => exact Numeral.isPlain_toString value
  | float double => exact NumeralStyle.isPlain_write isPlain_literalStyle h
  | numeric digits => exact h
  | text value => contradiction

/-- The values that a typed text may be kept as, each under its own condition. -/
inductive KeptAs (raw : String) : Value → Prop
  | unread (hread : Numeral.read? (Text.trim raw.toList) = none) : KeptAs raw (.text raw)
  | integer {numeral : Numeral} (hread : Numeral.read? (Text.trim raw.toList) = some numeral)
    (hinteger : numeral.isInteger) (hrange : isInt64 numeral.integerValue) :
    KeptAs raw (.int numeral.integerValue)
  | double {numeral : Numeral} (hread : Numeral.read? (Text.trim raw.toList) = some numeral)
    (hwide : ¬ (numeral.isInteger ∧ isInt64 numeral.integerValue)) (hdecimal : numeral.isDecimal)
    (hsame : (literalStyle.write numeral.toDouble).toList = Text.trim raw.toList) :
    KeptAs raw (.float numeral.toDouble)
  | decimal {numeral : Numeral} (hread : Numeral.read? (Text.trim raw.toList) = some numeral)
    (hwide : ¬ (numeral.isInteger ∧ isInt64 numeral.integerValue)) (hdecimal : numeral.isDecimal) :
    KeptAs raw (.numeric (String.ofList (Text.trim raw.toList)))
  | finite {numeral : Numeral} (hread : Numeral.read? (Text.trim raw.toList) = some numeral)
    (hdecimal : numeral.isDecimal = false) (hfinite : numeral.toDouble.isFinite) :
    KeptAs raw (.float numeral.toDouble)
  | infinite {numeral : Numeral} (hread : Numeral.read? (Text.trim raw.toList) = some numeral)
    (hdecimal : numeral.isDecimal = false) (hinfinite : numeral.toDouble.isFinite = false) :
    KeptAs raw (.text raw)

theorem keptAs_ofTyped (raw : String) : KeptAs raw (ofTyped raw) := by
  unfold ofTyped
  simp only
  cases hread : Numeral.read? (Text.trim raw.toList) with
  | none => exact .unread hread
  | some numeral =>
      simp only
      by_cases hinteger : numeral.isInteger && isInt64 numeral.integerValue
      · rw [if_pos hinteger]
        rw [Bool.and_eq_true] at hinteger
        exact .integer hread hinteger.1 hinteger.2
      · rw [if_neg hinteger]
        rw [Bool.and_eq_true] at hinteger
        cases hdecimal : numeral.isDecimal with
        | true =>
            rw [if_pos rfl]
            split
            · next hsame => exact .double hread hinteger hdecimal hsame
            · exact .decimal hread hinteger hdecimal
        | false =>
            rw [if_neg Bool.false_ne_true]
            cases hfinite : numeral.toDouble.isFinite with
            | true => exact .finite hread hdecimal hfinite
            | false => exact .infinite hread hdecimal hfinite

/-- Whatever was typed, the number it is kept as can be written. -/
theorem wellFormed_ofTyped (raw : String) : (ofTyped raw).WellFormed := by
  have hkept := keptAs_ofTyped raw
  generalize ofTyped raw = kept at hkept ⊢
  cases hkept with
  | unread _ => trivial
  | integer _ _ _ => trivial
  | @double numeral hread _ _ hsame =>
      by_contra hinfinite
      have hnone : Numeral.read? (literalStyle.write numeral.toDouble).toList = none :=
        NumeralStyle.read?_write_eq_none (Bool.eq_false_iff.2 hinfinite)
      rw [hsame, hread] at hnone
      contradiction
  | decimal hread _ hdecimal =>
      rw [WellFormed, String.toList_ofList]
      exact Numeral.isPlain_of_isDecimal hread hdecimal
  | finite _ _ hfinite => exact hfinite
  | infinite _ _ _ => trivial

/-- What is kept as text is what was typed. -/
theorem eq_of_ofTyped_eq_text {raw content : String} (h : ofTyped raw = .text content) :
    content = raw := by
  have hkept := keptAs_ofTyped raw
  rw [h] at hkept
  cases hkept with
  | unread _ => rfl
  | infinite _ _ _ => rfl

end Value

namespace Lexer

open Numeral (IsDigits IsUnsigned IsPlain)

theorem contains_point_of_isDigit {text : List Char} (h : text.all Char.isDigit) :
    text.contains '.' = false := by
  rw [← Bool.not_eq_true, List.contains_iff_mem]
  intro hmem
  have hdigit := List.all_eq_true.1 h '.' hmem
  contradiction

theorem scan_unsigned {read text : List Char} (hpoint : read.contains '.' = false)
    (h : IsUnsigned text) : scan (.number read) text = some ([], .number (read ++ text)) := by
  cases h with
  | whole h => exact scan_digits read text h.2
  | @point whole fraction hwhole hfraction =>
      have hfirst : (read ++ whole).contains '.' = false := by
        rw [List.contains_append, hpoint, contains_point_of_isDigit hwhole.2]
        rfl
      have hstep : step (.number (read ++ whole)) '.' =
          some ([], .number (read ++ whole ++ ['.'])) := by
        simp only [step, Mode.extend?, hfirst]
        rfl
      have hlater := scan_cons_eq_some_iff.2
        ⟨[], _, [], hstep, scan_digits _ fraction hfraction.2, rfl⟩
      simpa using scan_append (scan_digits read whole hwhole.2) hlater

theorem exists_digit_of_isUnsigned {text : List Char} (h : IsUnsigned text) :
    ∃ c rest, text = c :: rest ∧ c.isDigit := by
  have hdigits : ∀ {digits}, IsDigits digits → ∃ c rest, digits = c :: rest ∧ c.isDigit := by
    rintro digits ⟨hne, hall⟩
    obtain ⟨c, rest, rfl⟩ := List.exists_cons_of_ne_nil hne
    exact ⟨c, rest, rfl, List.all_eq_true.1 hall c List.mem_cons_self⟩
  cases h with
  | whole h => exact hdigits h
  | point hwhole _ =>
      obtain ⟨c, rest, rfl, hdigit⟩ := hdigits hwhole
      exact ⟨c, _, rfl, hdigit⟩

/-- A plain numeral is read as one number. -/
theorem scan_plain {text : List Char} (h : IsPlain text) :
    scan .between text = some ([], .number text) := by
  cases h with
  | unsigned h =>
      have hscan : scan (.number []) text = some ([], .number text) := scan_unsigned rfl h
      obtain ⟨c, rest, rfl, hdigit⟩ := exists_digit_of_isUnsigned h
      have hstep : step .between c = step (.number []) c := by
        simp [step, Mode.extend?, Mode.pending?, start?, hdigit,
          isNameStart_eq_false_of_isDigit hdigit]
      rw [scan, hstep]
      exact hscan
  | @signed sign text hsign h =>
      have hpoint : [sign].contains '.' = false := by
        rcases hsign with rfl | rfl <;> rfl
      have hscan := scan_unsigned hpoint h
      obtain ⟨c, rest, rfl, hdigit⟩ := exists_digit_of_isUnsigned h
      have hstart : step .between sign = some ([], .symbol [sign]) := by
        rcases hsign with rfl | rfl <;> rfl
      have hsigned : isSign [sign] := by
        rcases hsign with rfl | rfl <;> rfl
      have hstep : step (.symbol [sign]) c = step (.number [sign]) c := by
        simp [step, Mode.extend?, hsigned, hdigit]
      refine scan_cons_eq_some_iff.2 ⟨[], .symbol [sign], [], hstart, ?_, rfl⟩
      rw [scan, hstep]
      exact hscan

end Lexer

theorem Lexes.plain {text : List Char} (h : Numeral.IsPlain text) :
    Lexes text [.number (String.ofList text)] .value := by
  have hne : text ≠ [] := by
    cases h with
    | unsigned h =>
        obtain ⟨c, rest, rfl, _⟩ := Lexer.exists_digit_of_isUnsigned h
        exact List.cons_ne_nil c rest
    | signed _ _ => exact List.cons_ne_nil _ _
  exact of_scan hne (Lexer.scan_plain h) rfl rfl

/-- The token as which the literal of a value is read. -/
def Token.ofValue : Value → Token
  | .text content => .text content
  | bound => .number bound.literal

theorem Token.ofValue_of_isNumeric {bound : Value} (h : bound.isNumeric) :
    Token.ofValue bound = .number bound.literal := by
  cases bound with
  | text content => contradiction
  | _ => rfl

/-- The literal of a value is read as one token, whatever may follow a value. -/
theorem Lexes.literal {bound : Value} (h : bound.WellFormed) :
    Lexes bound.literal.toList [.ofValue bound] .value := by
  by_cases hnumeric : bound.isNumeric
  · have hlexes := Lexes.plain (Value.isPlain_literal h hnumeric)
    rw [String.ofList_toList] at hlexes
    rw [Token.ofValue_of_isNumeric hnumeric]
    exact hlexes
  · cases bound with
    | text content =>
        rw [Value.literal, String.toList_ofList]
        have hquoted := Lexes.quoted (Or.inr rfl) content
        -- A point may follow a quoted text too, but no value.
        refine hquoted.weaken fun c hallowed => ?_
        rw [Lexer.Edge.allows, Bool.or_eq_true]
        exact Or.inl hallowed
    | _ => exact absurd rfl hnumeric

end Segmentation.Sql
