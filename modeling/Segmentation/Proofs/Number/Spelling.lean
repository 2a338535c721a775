import Segmentation.Proofs.Number.Plain
import Segmentation.Proofs.Number.Nearest
import Mathlib.Tactic.FieldSimp

/-!
# Spelled numbers

What a numeral looks like, told apart from how it is read, and the number it denotes.  The
reader accepts the spelled numerals and no others, so a text spells one numeral at most.
-/

namespace Segmentation.Numeral

/-! ## Spelling -/

inductive SignText : Bool → List Char → Prop
  | unsigned : SignText false []
  | plus : SignText false ['+']
  | minus : SignText true ['-']

/-- Digits, or a point with digits on at least one of its sides. -/
inductive Body : List Char → Option (List Char) → List Char → Prop
  | whole {digits : List Char} (h : IsDigits digits) : Body digits none digits
  | point {whole fraction : List Char} (hwhole : whole.all Char.isDigit)
    (hfraction : fraction.all Char.isDigit) (hdigit : whole ≠ [] ∨ fraction ≠ []) :
    Body whole (some fraction) (whole ++ '.' :: fraction)

inductive PowerText : Option (Bool × List Char) → List Char → Prop
  | one : PowerText none []
  | ten {mark : Char} {negative : Bool} {sign digits : List Char} (hmark : mark = 'e' ∨ mark = 'E')
    (hsign : SignText negative sign) (hdigits : IsDigits digits) :
    PowerText (some (negative, digits)) (mark :: (sign ++ digits))

/-- An optional sign, digits with or without a point, and an optional decimal exponent. -/
inductive Spells : Numeral → List Char → Prop
  | intro {negative : Bool} {whole : List Char} {fraction : Option (List Char)}
    {power : Option (Bool × List Char)} {sign body exponent : List Char}
    (hsign : SignText negative sign) (hbody : Body whole fraction body)
    (hpower : PowerText power exponent) :
    Spells ⟨negative, whole, fraction, power⟩ (sign ++ (body ++ exponent))

variable {text : List Char} {numeral : Numeral}

theorem Spells.plain {negative : Bool} {whole : List Char} {fraction : Option (List Char)}
    {sign body : List Char} (hsign : SignText negative sign) (hbody : Body whole fraction body) :
    Spells ⟨negative, whole, fraction, none⟩ (sign ++ body) := by
  have hspells := Spells.intro hsign hbody .one
  rw [List.append_nil] at hspells
  exact hspells

theorem exists_signText (text : List Char) :
    ∃ sign, SignText (splitSign text).1 sign ∧ text = sign ++ (splitSign text).2 := by
  unfold splitSign
  split
  · exact ⟨['+'], .plus, rfl⟩
  · exact ⟨['-'], .minus, rfl⟩
  · exact ⟨[], .unsigned, rfl⟩

theorem splitSign_append {negative : Bool} {sign rest : List Char} (hsign : SignText negative sign)
    (hrest : rest.head?.all fun c => c.isDigit || c == '.') :
    splitSign (sign ++ rest) = (negative, rest) := by
  cases hsign with
  | plus => rfl
  | minus => rfl
  | unsigned =>
      rw [List.nil_append]
      unfold splitSign
      split
      · contradiction
      · contradiction
      · rfl

theorem all_splitDigits (text : List Char) : (splitDigits text).1.all Char.isDigit :=
  List.all_takeWhile

theorem append_splitDigits (text : List Char) :
    (splitDigits text).1 ++ (splitDigits text).2 = text :=
  List.takeWhile_append_dropWhile

theorem splitDigits_append {digits rest : List Char} (hdigits : digits.all Char.isDigit)
    (hrest : rest.takeWhile Char.isDigit = []) : splitDigits (digits ++ rest) = (digits, rest) := by
  have hall : ∀ c ∈ digits, c.isDigit := List.all_eq_true.1 hdigits
  have hdrop : rest.takeWhile Char.isDigit ++ rest.dropWhile Char.isDigit = rest :=
    List.takeWhile_append_dropWhile
  rw [hrest, List.nil_append] at hdrop
  rw [splitDigits, List.takeWhile_append_of_pos hall, List.dropWhile_append_of_pos hall, hrest,
    List.append_nil, hdrop]

/-- Where the whole part ends, a point and its digits may follow. -/
theorem body_of_splitFraction {unsigned : List Char}
    (h : ¬ ((splitDigits unsigned).1 = [] ∧
      (splitFraction (splitDigits unsigned).2).1.getD [] = [])) :
    ∃ body, Body (splitDigits unsigned).1 (splitFraction (splitDigits unsigned).2).1 body ∧
      unsigned = body ++ (splitFraction (splitDigits unsigned).2).2 := by
  have hwhole := all_splitDigits unsigned
  have hsplit := append_splitDigits unsigned
  generalize (splitDigits unsigned).1 = whole at *
  generalize (splitDigits unsigned).2 = later at *
  subst hsplit
  unfold splitFraction at h ⊢
  split
  · next rest =>
      refine ⟨whole ++ '.' :: (splitDigits rest).1, .point hwhole (all_splitDigits rest) ?_, ?_⟩
      · exact Classical.not_and_iff_not_or_not.1 h
      · rw [List.append_assoc, List.cons_append, append_splitDigits]
  · exact ⟨whole, .whole ⟨by simpa using h, hwhole⟩, rfl⟩

theorem readPower?_eq_some_iff {power : Option (Bool × List Char)} :
    readPower? text = some power ↔ PowerText power text := by
  constructor
  · intro hread
    cases text with
    | nil =>
        obtain rfl : none = power := Option.some.inj hread
        exact .one
    | cons mark rest =>
        simp only [readPower?, Option.ite_none_right_eq_some, Option.some.injEq] at hread
        obtain ⟨hmark, hdigits, rfl⟩ := hread
        obtain ⟨sign, hsign, hrest⟩ := exists_signText rest
        have hpower := PowerText.ten hmark hsign hdigits
        rw [← hrest] at hpower
        exact hpower
  · rintro (_ | ⟨hmark, hsign, hne, hdigits⟩)
    · rfl
    · next digits =>
        obtain ⟨c, tail, rfl⟩ := List.exists_cons_of_ne_nil hne
        have hhead : (c :: tail).head?.all fun c => c.isDigit || c == '.' := by
          simp [List.all_eq_true.1 hdigits c List.mem_cons_self]
        simp only [readPower?, if_pos hmark, splitSign_append hsign hhead]
        rw [if_pos ⟨hne, hdigits⟩]

/-- An exponent goes on neither the digits nor the point in front of it. -/
theorem PowerText.splits {power : Option (Bool × List Char)} (h : PowerText power text) :
    text.takeWhile Char.isDigit = [] ∧ splitFraction text = (none, text) := by
  rcases h with _ | ⟨rfl | rfl, _, _⟩
  · exact ⟨rfl, rfl⟩
  · exact ⟨rfl, rfl⟩
  · exact ⟨rfl, rfl⟩

section Body

variable {whole body exponent : List Char} {fraction : Option (List Char)}
  {power : Option (Bool × List Char)}

theorem Body.has_digit (h : Body whole fraction body) :
    ¬ (whole = [] ∧ fraction.getD [] = []) := by
  cases h with
  | whole h => exact fun hnone => h.1 hnone.1
  | point _ _ hdigit => exact Classical.not_and_iff_not_or_not.2 hdigit

theorem Body.head?_append (h : Body whole fraction body) (exponent : List Char) :
    (body ++ exponent).head?.all fun c => c.isDigit || c == '.' := by
  have hhead : ∀ {digits rest : List Char}, digits ≠ [] → digits.all Char.isDigit →
      (digits ++ rest).head?.all fun c => c.isDigit || c == '.' := by
    intro digits rest hne hdigits
    obtain ⟨c, tail, rfl⟩ := List.exists_cons_of_ne_nil hne
    simp [List.all_eq_true.1 hdigits c List.mem_cons_self]
  cases h with
  | whole h => exact hhead h.1 h.2
  | @point fraction hwhole hfraction _ =>
      rw [List.append_assoc]
      rcases eq_or_ne whole [] with rfl | hne
      · rfl
      · exact hhead hne hwhole

theorem Body.splits (h : Body whole fraction body) (hpower : PowerText power exponent) :
    ∃ later, splitDigits (body ++ exponent) = (whole, later) ∧
      splitFraction later = (fraction, exponent) := by
  obtain ⟨hstop, hnoPoint⟩ := hpower.splits
  cases h with
  | whole h => exact ⟨exponent, splitDigits_append h.2 hstop, hnoPoint⟩
  | @point fraction hwhole hfraction _ =>
      refine ⟨'.' :: (fraction ++ exponent), ?_, ?_⟩
      · rw [List.append_assoc]
        exact splitDigits_append hwhole rfl
      · rw [splitFraction, splitDigits_append hfraction hstop]

end Body

/-- The reader accepts a text exactly if the numeral it gives is spelled so. -/
theorem read?_eq_some_iff : read? text = some numeral ↔ numeral.Spells text := by
  constructor
  · intro hread
    simp only [read?, Option.ite_none_left_eq_some, Option.map_eq_some_iff] at hread
    obtain ⟨hdigit, power, hpower, rfl⟩ := hread
    obtain ⟨sign, hsign, htext⟩ := exists_signText text
    obtain ⟨body, hbody, hunsigned⟩ := body_of_splitFraction hdigit
    rw [hunsigned] at htext
    have hspells := Spells.intro hsign hbody (readPower?_eq_some_iff.1 hpower)
    rw [← htext] at hspells
    exact hspells
  · rintro ⟨hsign, hbody, hpower⟩
    obtain ⟨later, hdigits, hfraction⟩ := hbody.splits hpower
    simp only [read?, splitSign_append hsign (hbody.head?_append _), hdigits, hfraction,
      if_neg hbody.has_digit, readPower?_eq_some_iff.2 hpower, Option.map_some]

/-- A text spells one numeral at most. -/
theorem Spells.unique {other : Numeral} (h : numeral.Spells text) (hother : other.Spells text) :
    numeral = other := by
  have hread := read?_eq_some_iff.2 h
  rw [read?_eq_some_iff.2 hother] at hread
  exact (Option.some.inj hread).symm

theorem Spells.exists_and_iff {holds : Numeral → Prop} (h : numeral.Spells text) :
    (∃ other : Numeral, other.Spells text ∧ holds other) ↔ holds numeral := by
  constructor
  · rintro ⟨other, hother, hholds⟩
    obtain rfl := h.unique hother
    exact hholds
  · intro hholds
    exact ⟨numeral, h, hholds⟩

/-- Plain numerals are the spellings of decimals. -/
theorem isPlain_iff_exists_spells :
    IsPlain text ↔ ∃ numeral : Numeral, numeral.Spells text ∧ numeral.isDecimal := by
  constructor
  · intro h
    have hbody : ∀ {unsigned}, IsUnsigned unsigned → ∃ whole fraction,
        Body whole fraction unsigned ∧ whole ≠ [] ∧ fraction ≠ some [] := by
      rintro _ (hdigits | ⟨hwhole, hfraction⟩)
      · exact ⟨_, none, .whole hdigits, hdigits.1, nofun⟩
      · exact ⟨_, _, .point hwhole.2 hfraction.2 (.inl hwhole.1), hwhole.1,
          mt Option.some.inj hfraction.1⟩
    obtain ⟨negative, sign, unsigned, hsign, hunsigned, rfl⟩ : ∃ negative sign unsigned,
        SignText negative sign ∧ IsUnsigned unsigned ∧ text = sign ++ unsigned := by
      cases h with
      | unsigned h => exact ⟨false, [], text, .unsigned, h, rfl⟩
      | @signed _ rest hsign h =>
          rcases hsign with rfl | rfl
          · exact ⟨false, ['+'], rest, .plus, h, rfl⟩
          · exact ⟨true, ['-'], rest, .minus, h, rfl⟩
    obtain ⟨whole, fraction, hbody, hwhole, hfraction⟩ := hbody hunsigned
    refine ⟨⟨negative, whole, fraction, none⟩, .plain hsign hbody, ?_⟩
    simp [isDecimal, hwhole, hfraction]
  · rintro ⟨numeral, hspells, hdecimal⟩
    exact isPlain_of_isDecimal (read?_eq_some_iff.2 hspells) hdecimal

/-! ## The number that is denoted -/

def bodyValue (whole : List Char) (fraction : Option (List Char)) : ℚ :=
  digitsValue whole + digitsValue (fraction.getD []) / 10 ^ (fraction.getD []).length

def magnitude (n : Numeral) : ℚ :=
  bodyValue n.whole n.fraction * 10 ^ n.powerValue

/-- The number that a numeral denotes. -/
def value (n : Numeral) : ℚ :=
  if n.negative then -n.magnitude else n.magnitude

theorem bodyValue_eq (whole fraction : List Char) :
    bodyValue whole (some fraction) =
      digitsValue (whole ++ fraction) * 10 ^ (-(fraction.length : Int)) := by
  rw [bodyValue, Option.getD_some, digitsValue_append, zpow_neg, zpow_natCast]
  push_cast
  field_simp

theorem bodyValue_none (digits : List Char) : bodyValue digits none = digitsValue digits := by
  simp [bodyValue, digitsValue]

theorem magnitude_plain (negative : Bool) (whole : List Char) (fraction : Option (List Char)) :
    magnitude ⟨negative, whole, fraction, none⟩ = bodyValue whole fraction := by
  rw [magnitude, powerValue, zpow_zero, mul_one]

theorem magnitude_eq_scaled (n : Numeral) : n.magnitude = n.scaled.1 * 10 ^ n.scaled.2 := by
  have hbody : bodyValue n.whole n.fraction =
      digitsValue (n.whole ++ n.fraction.getD []) *
        10 ^ (-((n.fraction.getD []).length : Int)) := by
    cases n.fraction with
    | none => simp [bodyValue_none]
    | some fraction => exact bodyValue_eq n.whole fraction
  rw [magnitude, hbody, mul_assoc, ← zpow_add₀ (by norm_num), neg_add_eq_sub]
  rfl

/-- A finite double is the one of a numeral if the number is rounded to it. -/
theorem toDouble_eq_iff {double : Double} (hfinite : double.isFinite) :
    numeral.toDouble = double ↔
      numeral.negative = double.negative ∧ Double.Rounds numeral.magnitude double.rank := by
  have hrank : double.rank < Double.infinityRank := of_decide_eq_true hfinite
  rw [magnitude_eq_scaled, ← Double.nearestDecimalRank_eq_iff hrank]
  constructor
  · rintro rfl
    exact ⟨rfl, rfl⟩
  · rintro ⟨hnegative, hnearest⟩
    rw [toDouble, hnegative, hnearest]

theorem isFinite_toDouble_iff :
    numeral.toDouble.isFinite ↔ numeral.magnitude < Double.overflow := by
  obtain ⟨rank, hrounds, _⟩ := Double.exists_rounds_unscale numeral.scaled.1 numeral.scaled.2
  have hnearest := Double.nearestDecimalRank_eq hrounds
  rw [magnitude_eq_scaled, ← hrounds.lt_infinityRank_iff, Double.isFinite, toDouble, hnearest,
    decide_eq_true_iff]
  exact min_lt_iff.trans (or_iff_right (lt_irrefl _))

/-- No double is nearer to the number of a numeral than the one it is read as. -/
theorem abs_sub_value_toDouble_le (hfinite : numeral.toDouble.isFinite) (rank : Nat) :
    |numeral.magnitude - Double.value numeral.toDouble.rank| ≤
      |numeral.magnitude - Double.value rank| := by
  have hrounds := ((toDouble_eq_iff hfinite).1 rfl).2
  exact hrounds.abs_sub_value_le rank

end Segmentation.Numeral
