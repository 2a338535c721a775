import Segmentation.Proofs.Definition
import Segmentation.Proofs.Language.Lexeme

/-!
# Reading clauses

The readers of conditions, memberships, groups and statements against the grammar.
A keyword decides between the clauses, so at most one of them is written at a place.
A membership ends where its optional parts are absent, which the text after it has to
show; every clause takes up a part of the text, so a reader that is bounded by the
length of its text reads all of them.
-/

namespace Segmentation.Language

open Reader Written

variable {α : Type} {text inner rest : List Char} {c : Char}

/-! ## Solid rules -/

/-- What is written by a rule has no layout in front and takes up a part of the text. -/
structure Solid (rule : Rule α) : Prop where
  settled : ∀ {text value rest}, rule text value rest → Settled text
  shorter : ∀ {text value rest}, rule text value rest → rest.length < text.length

theorem length_le_of_layout (h : Layout text rest) : rest.length ≤ text.length := by
  induction h with
  | none rest => exact Nat.le_refl _
  | blank _ _ ih => exact Nat.le_succ_of_le ih
  | comment _ _ _ ih =>
      rw [List.length_cons, List.length_append]
      omega

theorem Solid.length_lt_of_spaced {rule : Rule α} (h : Solid rule) {value : α}
    (hspaced : Spaced rule text value rest) : rest.length < text.length := by
  obtain ⟨inner, hlayout, hrule⟩ := hspaced
  exact Nat.lt_of_lt_of_le (h.shorter hrule) (length_le_of_layout hlayout)

theorem Solid.skipLayout_eq {rule : Rule α} (h : Solid rule) {value : α}
    (hlayout : Layout text inner) (hrule : rule inner value rest) : skipLayout text = inner := by
  exact skipLayout_of_layout hlayout (h.settled hrule)

/-- After layout, a reader stands where a solid rule begins. -/
theorem Solid.spaced_eq {β : Type} {rule : Rule α} (h : Solid rule) {value : α}
    (hlayout : Layout text inner) (hrule : rule inner value rest) (reader : Reader β) :
    spaced reader text = reader inner := by
  rw [spaced_apply, h.skipLayout_eq hlayout hrule]

/-- A reader that accepts what is written does so after layout as well. -/
theorem spaced_eq_accept_iff {reader : Reader α} {rule : Rule α} (hsolid : Solid rule)
    (hreader : ∀ {text value rest}, reader text = .accept value rest ↔ rule text value rest)
    {value : α} : spaced reader text = .accept value rest ↔ Spaced rule text value rest := by
  constructor
  · exact spaced_of_accept hreader.1
  · rintro ⟨inner, hlayout, hrule⟩
    rw [hsolid.spaced_eq hlayout hrule]
    exact hreader.2 hrule

/-- Words of one class of characters are solid. -/
theorem solid_of_head {rule : Rule α} (inClass : Char → Bool)
    (hclass : layoutStarts.any inClass = false)
    (h : ∀ {text value rest}, rule text value rest →
      ∃ c cs, inClass c ∧ text = c :: (cs ++ rest)) : Solid rule where
  settled := by
    intro text value rest hrule
    obtain ⟨c, cs, hc, rfl⟩ := h hrule
    exact settled_cons hclass hc _
  shorter := by
    intro text value rest hrule
    obtain ⟨c, cs, hc, rfl⟩ := h hrule
    rw [List.length_cons, List.length_append]
    omega

theorem exists_head_of_any {inClass : Char → Bool} {word : List Char}
    (h : word.head?.any inClass) : ∃ c cs, inClass c ∧ word = c :: cs := by
  obtain ⟨c, hc, hclass⟩ := (Option.any_eq_true ..).1 h
  obtain ⟨cs, hword⟩ := List.head?_eq_some_iff.1 hc
  exact ⟨c, cs, hclass, hword⟩

theorem solid_keyword {word : String} (hword : word.toList.head?.any isWordChar) :
    Solid (Keyword word) := by
  obtain ⟨c, cs, hclass, hchars⟩ := exists_head_of_any hword
  apply solid_of_head isWordChar rfl
  rintro text _ rest ⟨rfl, _⟩
  exact ⟨c, cs, hclass, by rw [hchars, List.cons_append]⟩

def isBrace (c : Char) : Bool :=
  c = '\x7b' || c = '\x7d'

theorem solid_mark {word : String} (hword : word.toList.head?.any isBrace) :
    Solid (Mark word) := by
  obtain ⟨c, cs, hclass, hchars⟩ := exists_head_of_any hword
  apply solid_of_head isBrace rfl
  rintro text _ rest rfl
  exact ⟨c, cs, hclass, by rw [hchars, List.cons_append]⟩

theorem solid_quoted : Solid Quoted := by
  apply solid_of_head (· = '"') rfl
  rintro _ _ rest ⟨hcontent⟩
  exact ⟨'"', _ ++ ['"'], rfl, by rw [List.append_assoc]; rfl⟩

theorem solid_identifier : Solid Identifier := by
  apply solid_of_head isIdentifierStart rfl
  rintro _ _ rest ⟨hstart, _, _⟩
  exact ⟨_, _, hstart, rfl⟩

theorem solid_bareWord : Solid BareWord := by
  apply solid_of_head isBareChar rfl
  rintro _ _ rest ⟨hne, hclass, _⟩
  obtain ⟨c, cs, rfl⟩ := List.exists_cons_of_ne_nil hne
  exact ⟨c, cs, hclass c List.mem_cons_self, rfl⟩

theorem exists_isDigit_of_count {number : UInt64} (h : Count text number rest) :
    ∃ c cs, c.isDigit ∧ text = c :: (cs ++ rest) := by
  obtain ⟨_, _⟩ := h
  obtain ⟨c, cs, hdigits⟩ := List.exists_cons_of_ne_nil
    (Nat.toDigits_ne_nil : Nat.toDigits 10 number.toNat ≠ [])
  refine ⟨c, cs, Numeral.isDigit_of_mem_toDigits (n := number.toNat) ?_, by rw [hdigits]; rfl⟩
  rw [hdigits]
  exact List.mem_cons_self

theorem solid_count : Solid Count :=
  solid_of_head Char.isDigit rfl exists_isDigit_of_count

/-- One of two solid rules is solid. -/
theorem Solid.or {first second : Rule α} (hfirst : Solid first) (hsecond : Solid second) :
    Solid fun text value rest => first text value rest ∨ second text value rest where
  settled := by
    rintro text value rest (h | h)
    · exact hfirst.settled h
    · exact hsecond.settled h
  shorter := by
    rintro text value rest (h | h)
    · exact hfirst.shorter h
    · exact hsecond.shorter h

theorem solid_name : Solid Name :=
  solid_quoted.or solid_identifier

theorem solid_value : Solid Value :=
  solid_quoted.or solid_bareWord

theorem solid_operatorWord : Solid OperatorWord where
  settled := by
    intro text op rest h
    cases h with
    | named h => exact solid_identifier.settled h
    | symbol hmem =>
        simp only [symbols, List.mem_cons, Prod.mk.injEq, List.not_mem_nil, or_false] at hmem
        obtain ⟨rfl, rfl⟩ | ⟨rfl, rfl⟩ | ⟨rfl, rfl⟩ | ⟨rfl, rfl⟩ | ⟨rfl, rfl⟩ := hmem <;> rfl
  shorter := by
    intro text op rest h
    cases h with
    | named h => exact solid_identifier.shorter h
    | symbol hmem =>
        simp only [symbols, List.mem_cons, Prod.mk.injEq, List.not_mem_nil, or_false] at hmem
        obtain ⟨rfl, rfl⟩ | ⟨rfl, rfl⟩ | ⟨rfl, rfl⟩ | ⟨rfl, rfl⟩ | ⟨rfl, rfl⟩ := hmem <;>
          rw [List.length_append] <;> exact Nat.lt_add_of_pos_left (by decide)

theorem solid_connectiveWord : Solid ConnectiveWord where
  settled := by
    rintro text _ rest (h | h)
    · exact (solid_keyword rfl).settled h
    · exact (solid_keyword rfl).settled h
  shorter := by
    rintro text _ rest (h | h)
    · exact (solid_keyword rfl).shorter h
    · exact (solid_keyword rfl).shorter h

/-! ## Choices between keywords -/

theorem keywordValue_eq_accept_iff {word : String} {value found : α} :
    (keyword word >>= fun _ => Pure.pure value) text = .accept found rest ↔
      Keyword word text () rest ∧ found = value := by
  rw [map_eq_accept_iff]
  constructor
  · rintro ⟨_, h, rfl⟩
    exact ⟨keyword_eq_accept_iff.1 h, rfl⟩
  · rintro ⟨h, rfl⟩
    exact ⟨(), keyword_eq_accept_iff.2 h, rfl⟩

theorem keyword_refuses_of_other {word other : String} {value : Unit} (hne : word ≠ other)
    (hword : word.toList.all isWordChar) (hother : other.toList.all isWordChar)
    (h : Keyword word text value rest) : (keyword other).Refuses text := by
  apply keyword_refuses
  intro tail h'
  exact hne (keyword_unique hword hother h h')

/-- A choice between two keywords goes by the one that is written. -/
theorem keywordChoice_eq_accept_iff {first second : String} {a b found : α}
    (hne : second ≠ first) (hfirst : first.toList.all isWordChar)
    (hsecond : second.toList.all isWordChar) :
    Reader.orElse (keyword first >>= fun _ => Pure.pure a)
        (keyword second >>= fun _ => Pure.pure b) text = .accept found rest ↔
      (Keyword first text () rest ∧ found = a) ∨ (Keyword second text () rest ∧ found = b) := by
  constructor
  · intro h
    obtain h | h := accept_of_orElse h
    · exact .inl (keywordValue_eq_accept_iff.1 h)
    · exact .inr (keywordValue_eq_accept_iff.1 h)
  · rintro (h | h)
    · exact orElse_of_accept (keywordValue_eq_accept_iff.2 h)
    · rw [(keyword_refuses_of_other hne hsecond hfirst h.1).bind.orElse_eq]
      exact keywordValue_eq_accept_iff.2 h

theorem connective_eq_accept_iff {op : Connective} :
    connective text = .accept op rest ↔ ConnectiveWord text op rest := by
  rw [connective, keywordChoice_eq_accept_iff (by decide) rfl rfl]
  constructor
  · rintro (⟨h, rfl⟩ | ⟨h, rfl⟩)
    · exact .all h
    · exact .any h
  · rintro (h | h)
    · exact .inl ⟨h, rfl⟩
    · exact .inr ⟨h, rfl⟩

theorem membershipMode_eq_accept_iff {mode : MembershipMode} :
    membershipMode text = .accept mode rest ↔ ModeWord text mode rest := by
  rw [membershipMode, keywordChoice_eq_accept_iff (by decide) rfl rfl]
  constructor
  · rintro (⟨h, rfl⟩ | ⟨h, rfl⟩)
    · exact .incl h
    · exact .excl h
  · rintro (h | h)
    · exact .inl ⟨h, rfl⟩
    · exact .inr ⟨h, rfl⟩

/-! ## Conditions -/

theorem stopsAt_of_layout (inClass : Char → Bool)
    (hclass : layoutStarts.any inClass = false)
    (h : Layout text inner) (hstop : StopsAt inClass inner) : StopsAt inClass text := by
  cases h with
  | none => exact hstop
  | @blank c tail _ hblank _ =>
      apply stopsAt_cons
      exact eq_false_of_mem_layoutStarts hclass (mem_layoutStarts_of_isLayoutBlank hblank)
  | comment => exact stopsAt_cons (eq_false_of_mem_layoutStarts hclass (by decide)) _

/-- A value does not begin with an equals sign. -/
theorem stopsAt_equals_of_value {operand : String} (h : Spaced Value text operand rest) :
    StopsAt (· = '=') text := by
  obtain ⟨inner, hlayout, hvalue⟩ := h
  refine stopsAt_of_layout (· = '=') rfl hlayout ?_
  obtain hquoted | ⟨hne, hclass, _⟩ := hvalue
  · obtain ⟨_⟩ := hquoted
    apply stopsAt_cons
    decide
  · obtain ⟨c, cs, rfl⟩ := List.exists_cons_of_ne_nil hne
    apply stopsAt_cons
    rw [decide_eq_false_iff_not]
    rintro rfl
    exact absurd (hclass '=' List.mem_cons_self) (by decide)

theorem spacedKeyword_eq_accept_iff {word : String} (hword : word.toList.head?.any isWordChar)
    {value : Unit} :
    spaced (keyword word) text = .accept value rest ↔ Spaced (Keyword word) text value rest :=
  spaced_eq_accept_iff (solid_keyword hword) keyword_eq_accept_iff

theorem spacedMark_eq_accept_iff {word : String} (hword : word.toList.head?.any isBrace)
    {value : Unit} :
    spaced (literal word) text = .accept value rest ↔ Spaced (Mark word) text value rest :=
  spaced_eq_accept_iff (solid_mark hword) literal_eq_accept_iff

theorem spacedValue_eq_accept_iff {operand : String} :
    spaced value text = .accept operand rest ↔ Spaced Value text operand rest :=
  spaced_eq_accept_iff solid_value value_eq_accept_iff

theorem spacedName_eq_accept_iff {found : String} :
    spaced name text = .accept found rest ↔ Spaced Name text found rest :=
  spaced_eq_accept_iff solid_name name_eq_accept_iff

theorem spacedQuoted_eq_accept_iff {found : String} :
    spaced quoted text = .accept found rest ↔ Spaced Quoted text found rest :=
  spaced_eq_accept_iff solid_quoted quoted_eq_accept_iff

theorem spacedConnective_eq_accept_iff {op : Connective} :
    spaced connective text = .accept op rest ↔ Spaced ConnectiveWord text op rest :=
  spaced_eq_accept_iff solid_connectiveWord connective_eq_accept_iff

/-- What follows a symbol is a value. -/
theorem stopsAt_equals_of_operands {op : Operator} {value upper : Option String}
    (h : Operands op text value upper rest) (hvalue : op.needsValue) : StopsAt (· = '=') text := by
  cases h with
  | none hnone =>
      rw [hnone] at hvalue
      contradiction
  | value _ _ hlow => exact stopsAt_equals_of_value hlow
  | range _ hlow _ _ => exact stopsAt_equals_of_value hlow

theorem spacedOperator_of_written {op : Operator} (h : Spaced OperatorWord text op rest)
    (hstop : op.needsValue = true → StopsAt (· = '=') rest) :
    spaced operator text = .accept op rest := by
  obtain ⟨inner, hlayout, hoperator⟩ := h
  rw [solid_operatorWord.spaced_eq hlayout hoperator]
  exact operator_of_written hoperator hstop

theorem upperBound_eq_accept_iff {high : String} :
    (spaced (keyword "and") >>= fun _ => spaced value) text = .accept high rest ↔
      ∃ afterAnd, Spaced (Keyword "and") text () afterAnd ∧ Spaced Value afterAnd high rest := by
  constructor
  · intro h
    obtain ⟨_, afterAnd, hand, hhigh⟩ := accept_of_bind h
    exact ⟨afterAnd, (spacedKeyword_eq_accept_iff rfl).1 hand,
      spacedValue_eq_accept_iff.1 hhigh⟩
  · rintro ⟨afterAnd, hand, hhigh⟩
    rw [bind_of_accept ((spacedKeyword_eq_accept_iff rfl).2 hand)]
    exact spacedValue_eq_accept_iff.2 hhigh

theorem whereClause_eq_accept_iff {condition : Condition} :
    whereClause text = .accept condition rest ↔ Where text condition rest := by
  constructor
  · intro h
    obtain ⟨_, afterWhere, hwhere, h⟩ := accept_of_bind h
    obtain ⟨field, afterField, hfield, h⟩ := accept_of_bind h
    obtain ⟨op, afterOperator, hoperator, h⟩ := accept_of_bind h
    have hwhere := keyword_eq_accept_iff.1 hwhere
    have hfield := spacedName_eq_accept_iff.1 (must_eq_accept_iff.1 hfield)
    have hoperator := spaced_of_accept operatorWord_of_accept (must_eq_accept_iff.1 hoperator)
    split at h
    · next hnone =>
        obtain ⟨rfl, rfl⟩ := pure_eq_accept_iff.1 h
        exact .intro hwhere hfield hoperator (.none (by simpa using hnone))
    · next hvalue =>
        obtain ⟨low, afterLow, hlow, h⟩ := accept_of_bind h
        have hlow := spacedValue_eq_accept_iff.1 (must_eq_accept_iff.1 hlow)
        split at h
        · next hupper =>
            obtain ⟨rfl, rfl⟩ := pure_eq_accept_iff.1 h
            exact .intro hwhere hfield hoperator
              (.value (by simpa using hvalue) (by simpa using hupper) hlow)
        · next hupper =>
            obtain ⟨high, afterHigh, hhigh, h⟩ := accept_of_bind h
            obtain ⟨rfl, rfl⟩ := pure_eq_accept_iff.1 h
            obtain ⟨afterAnd, hand, hhigh⟩ :=
              upperBound_eq_accept_iff.1 (must_eq_accept_iff.1 hhigh)
            exact .intro hwhere hfield hoperator
              (.range (by simpa using hupper) hlow hand hhigh)
  · rintro ⟨hwhere, hfield, hoperator, hoperands⟩
    have hread := spacedOperator_of_written hoperator (stopsAt_equals_of_operands hoperands)
    rw [whereClause, bind_of_accept (keyword_eq_accept_iff.2 hwhere),
      bind_of_accept (must_eq_accept_iff.2 (spacedName_eq_accept_iff.2 hfield)),
      bind_of_accept (must_eq_accept_iff.2 hread)]
    obtain ⟨field, op, value, upper⟩ := condition
    cases hoperands with
    | none hvalue =>
        rw [if_pos (by simpa using hvalue)]
        rfl
    | value hvalue hupper hlow =>
        rw [if_neg (by simpa using hvalue),
          bind_of_accept (must_eq_accept_iff.2 (spacedValue_eq_accept_iff.2 hlow)),
          if_pos (by simpa using hupper)]
        rfl
    | range hupper hlow hand hhigh =>
        have hvalue := Operator.needsValue_of_needsUpper hupper
        rw [if_neg (by simpa using hvalue),
          bind_of_accept (must_eq_accept_iff.2 (spacedValue_eq_accept_iff.2 hlow)),
          if_neg (by simpa using hupper),
          bind_of_accept (must_eq_accept_iff.2 (upperBound_eq_accept_iff.2 ⟨_, hand, hhigh⟩))]
        rfl

theorem length_le_of_operands {op : Operator} {value upper : Option String}
    (h : Operands op text value upper rest) : rest.length ≤ text.length := by
  cases h with
  | none => exact Nat.le_refl _
  | value _ _ hlow => exact Nat.le_of_lt (solid_value.length_lt_of_spaced hlow)
  | range _ hlow hand hhigh =>
      have hlow := solid_value.length_lt_of_spaced hlow
      have hand := (solid_keyword rfl).length_lt_of_spaced hand
      have hhigh := solid_value.length_lt_of_spaced hhigh
      omega

theorem solid_where : Solid Where where
  settled := by
    rintro text condition rest ⟨hwhere, _, _, _⟩
    exact (solid_keyword rfl).settled hwhere
  shorter := by
    rintro text condition rest ⟨hwhere, hfield, hoperator, hoperands⟩
    have hwhere := (solid_keyword rfl).shorter hwhere
    have hfield := solid_name.length_lt_of_spaced hfield
    have hoperator := solid_operatorWord.length_lt_of_spaced hoperator
    have hoperands := length_le_of_operands hoperands
    omega

/-! ## Keywords that lead -/

/-- The keywords of the statements that have one operand. -/
def operandLeads : List String :=
  ["description", "dataset", "match"]

/-- The keywords of conditions, groups and memberships, also in groups. -/
def clauseLeads : List String :=
  ["where", "group", "include", "exclude"]

def leads : List String :=
  operandLeads ++ clauseLeads

theorem all_isWordChar_of_mem_leads {word : String} (hword : word ∈ leads) :
    word.toList.all isWordChar := by
  have hall : leads.all fun word => word.toList.all isWordChar := rfl
  exact List.all_eq_true.1 hall word hword

theorem keyword_refuses_of_lead {word other : String} (hword : word ∈ leads)
    (hother : other ∈ leads) (hne : word ≠ other) {value : Unit}
    (h : Keyword word text value rest) : (keyword other).Refuses text :=
  keyword_refuses_of_other hne (all_isWordChar_of_mem_leads hword)
    (all_isWordChar_of_mem_leads hother) h

theorem keyword_refuses_of_clauseLead {word : String} (hword : word ∈ clauseLeads)
    {value : Unit} (h : Keyword word text value rest) :
    ∀ other ∈ operandLeads, (keyword other).Refuses text := by
  intro other hother
  have hapart : ∀ lead ∈ clauseLeads, lead ∉ operandLeads := by decide
  apply keyword_refuses_of_lead (List.mem_append_right _ hword) (List.mem_append_left _ hother) _ h
  rintro rfl
  exact hapart word hword hother

theorem exists_isAlpha_of_mem_leads {word : String} (hword : word ∈ leads) :
    ∃ c cs, c.isAlpha ∧ word.toList = c :: cs := by
  have hall : leads.all fun word => word.toList.head?.any Char.isAlpha := rfl
  exact exists_head_of_any (List.all_eq_true.1 hall word hword)

/-- No keyword begins with a character that is not a letter. -/
theorem keyword_refuses_of_head {word : String} (hword : word ∈ leads) (hc : c.isAlpha = false)
    (tail : List Char) : (keyword word).Refuses (c :: tail) := by
  obtain ⟨w, ws, halpha, hchars⟩ := exists_isAlpha_of_mem_leads hword
  apply keyword_refuses
  rintro rest ⟨heq, _⟩
  rw [hchars, List.cons_append, List.cons.injEq] at heq
  rw [← heq.1, hc] at halpha
  contradiction

/-! ## What may follow a clause -/

/-- A letter, with which the next keyword begins, or a closing brace. -/
def isFollowing (c : Char) : Bool :=
  c.isAlpha || c = '\x7d'

def Follows (text : List Char) : Prop :=
  ∃ c tail, skipLayout text = c :: tail ∧ isFollowing c

theorem follows_of_keyword {word : String} (hword : word ∈ leads) (hlayout : Layout text inner)
    {value : Unit} (h : Keyword word inner value rest) : Follows text := by
  obtain ⟨w, ws, halpha, hchars⟩ := exists_isAlpha_of_mem_leads hword
  have hsolid : Solid (Keyword word) := by
    apply solid_keyword
    rw [hchars, List.head?_cons, Option.any_some, isWordChar, Char.isAlphanum, halpha]
    rfl
  refine ⟨w, ws ++ rest, ?_, by rw [isFollowing, halpha]; rfl⟩
  rw [hsolid.skipLayout_eq hlayout h, h.1, hchars]
  rfl

theorem skipLayout_of_closing (h : Spaced (Mark "\x7d") text () rest) :
    skipLayout text = '\x7d' :: rest := by
  obtain ⟨inner, hlayout, hmark⟩ := h
  rw [(solid_mark rfl).skipLayout_eq hlayout hmark]
  exact hmark

theorem follows_of_closing (h : Spaced (Mark "\x7d") text () rest) : Follows text :=
  ⟨'\x7d', rest, skipLayout_of_closing h, rfl⟩

theorem Follows.stopsAt_skipLayout (h : Follows text) {inClass : Char → Bool}
    (hclass : ∀ c, isFollowing c → inClass c = false) : StopsAt inClass (skipLayout text) := by
  obtain ⟨c, tail, heq, hc⟩ := h
  rw [heq]
  exact stopsAt_cons (hclass c hc) tail

theorem isDigit_eq_false_of_isFollowing (h : isFollowing c) : c.isDigit = false := by
  rw [isFollowing, Bool.or_eq_true, decide_eq_true_eq] at h
  obtain halpha | rfl := h
  · by_contra hdigit
    rw [Bool.not_eq_false] at hdigit
    rw [Numeral.isAlpha_eq_false_of_isDigit hdigit] at halpha
    contradiction
  · rfl

/-- Where a clause may follow, no digit is ahead, also before layout is skipped. -/
theorem Follows.stopsAt_isDigit (h : Follows text) : StopsAt Char.isDigit text := by
  rintro c tail rfl
  by_contra hdigit
  rw [Bool.not_eq_false] at hdigit
  obtain ⟨d, rest, hskip, hd⟩ := h
  rw [settled_cons rfl hdigit tail, List.cons.injEq] at hskip
  rw [hskip.1, isDigit_eq_false_of_isFollowing hd] at hdigit
  contradiction

/-! ## Memberships -/

theorem optional_sound {reader : Reader α} {rule : Rule α} {found : Option α}
    (hsound : ∀ {text value rest}, reader text = .accept value rest → rule text value rest)
    (h : optional reader text = .accept found rest) : Written.Optional rule text found rest := by
  obtain ⟨value, rfl, hvalue⟩ | ⟨rfl, rfl⟩ := accept_of_optional h
  · exact .present (hsound hvalue)
  · exact .absent rest

theorem membership_of_accept {entry : SegmentRef × MembershipMode}
    (h : membership text = .accept entry rest) : Written.Membership text entry rest := by
  obtain ⟨mode, afterMode, hmode, h⟩ := accept_of_bind h
  obtain ⟨id, afterId, hid, h⟩ := accept_of_bind h
  obtain ⟨name, afterName, hname, h⟩ := accept_of_bind h
  obtain ⟨count, afterCount, hcount, h⟩ := accept_of_bind h
  obtain ⟨rfl, rfl⟩ := pure_eq_accept_iff.1 h
  exact .intro (membershipMode_eq_accept_iff.1 hmode)
    (spacedQuoted_eq_accept_iff.1 (must_eq_accept_iff.1 hid))
    (optional_sound spacedQuoted_eq_accept_iff.1 hname)
    (optional_sound (spaced_of_accept count_of_accept) hcount)

theorem spacedQuoted_refuses (h : StopsAt (· = '"') (skipLayout text)) :
    (spaced quoted).Refuses text := by
  apply quoted_refuses
  intro tail heq
  have := h '"' tail heq
  contradiction

/-- A written count is read where a clause may follow. -/
theorem optionalCount_of_written {count : Option UInt64}
    (h : Written.Optional (Spaced Count) text count rest) (hfollows : Follows rest) :
    optional (spaced Language.count) text = .accept count rest := by
  cases h with
  | absent =>
      have hrefuse : (spaced Language.count).Refuses text :=
        count_refuses (hfollows.stopsAt_skipLayout fun _ => isDigit_eq_false_of_isFollowing)
      exact hrefuse.optional_eq
  | present h =>
      obtain ⟨inner, hlayout, hcount⟩ := h
      apply optional_of_accept
      rw [solid_count.spaced_eq hlayout hcount]
      exact count_of_written hcount hfollows.stopsAt_isDigit

/-- No quoted text is where a count or another clause is written. -/
theorem stopsAt_quote_of_count {count : Option UInt64}
    (h : Written.Optional (Spaced Count) text count rest) (hfollows : Follows rest) :
    StopsAt (· = '"') (skipLayout text) := by
  cases h with
  | absent =>
      apply hfollows.stopsAt_skipLayout
      intro c hc
      rw [decide_eq_false_iff_not]
      rintro rfl
      contradiction
  | present h =>
      obtain ⟨inner, hlayout, hcount⟩ := h
      rw [solid_count.skipLayout_eq hlayout hcount]
      obtain ⟨c, cs, hdigit, rfl⟩ := exists_isDigit_of_count hcount
      apply stopsAt_cons
      rw [decide_eq_false_iff_not]
      rintro rfl
      contradiction

theorem membership_of_written {entry : SegmentRef × MembershipMode}
    (h : Written.Membership text entry rest) (hfollows : Follows rest) :
    membership text = .accept entry rest := by
  obtain ⟨hmode, hid, hname, hcount⟩ := h
  rw [membership, bind_of_accept (membershipMode_eq_accept_iff.2 hmode),
    bind_of_accept (must_eq_accept_iff.2 (spacedQuoted_eq_accept_iff.2 hid))]
  have hreadCount := optionalCount_of_written hcount hfollows
  cases hname with
  | absent =>
      have hrefuse := spacedQuoted_refuses (stopsAt_quote_of_count hcount hfollows)
      rw [bind_of_accept hrefuse.optional_eq, bind_of_accept hreadCount]
      rfl
  | present hname =>
      have hread := optional_of_accept (spacedQuoted_eq_accept_iff.2 hname)
      rw [bind_of_accept hread, bind_of_accept hreadCount]
      rfl

theorem length_le_of_optional {rule : Rule α} (h : Solid rule) {found : Option α}
    (hfound : Written.Optional (Spaced rule) text found rest) : rest.length ≤ text.length := by
  cases hfound with
  | absent => exact Nat.le_refl _
  | present hvalue => exact Nat.le_of_lt (h.length_lt_of_spaced hvalue)

theorem mem_clauseLeads_of_mode {word : String} (h : word ∈ ["include", "exclude"]) :
    word ∈ clauseLeads := by
  have hall : ∀ word ∈ ["include", "exclude"], word ∈ clauseLeads := by decide
  exact hall word h

theorem exists_keyword_of_membership {entry : SegmentRef × MembershipMode}
    (h : Written.Membership text entry rest) :
    ∃ word ∈ ["include", "exclude"], ∃ after, Keyword word text () after := by
  obtain ⟨hmode, _, _, _⟩ := h
  cases hmode with
  | incl h => exact ⟨"include", by decide, _, h⟩
  | excl h => exact ⟨"exclude", by decide, _, h⟩

/-- Where a membership is written, no other keyword is. -/
theorem keyword_refuses_of_membership {entry : SegmentRef × MembershipMode}
    (h : Written.Membership text entry rest) {other : String} (hother : other ∈ leads)
    (hne : other ∉ ["include", "exclude"]) : (keyword other).Refuses text := by
  obtain ⟨word, hmode, after, hword⟩ := exists_keyword_of_membership h
  have hlead : word ∈ leads := List.mem_append_right _ (mem_clauseLeads_of_mode hmode)
  apply keyword_refuses_of_lead hlead hother _ hword
  rintro rfl
  exact hne hmode

theorem solid_modeWord : Solid ModeWord where
  settled := by
    rintro text _ rest (h | h)
    · exact (solid_keyword rfl).settled h
    · exact (solid_keyword rfl).settled h
  shorter := by
    rintro text _ rest (h | h)
    · exact (solid_keyword rfl).shorter h
    · exact (solid_keyword rfl).shorter h

theorem solid_membership : Solid Written.Membership where
  settled := by
    rintro text entry rest ⟨hmode, _, _, _⟩
    exact solid_modeWord.settled hmode
  shorter := by
    rintro text entry rest ⟨hmode, hid, hname, hcount⟩
    have hmode := solid_modeWord.shorter hmode
    have hid := solid_quoted.length_lt_of_spaced hid
    have hname := length_le_of_optional solid_quoted hname
    have hcount := length_le_of_optional solid_count hcount
    omega

end Segmentation.Language
