import Segmentation.Proofs.Number.Digits
import Segmentation.Sql.Statement

/-!
# Tokens of statements

The lexical rules by which a statement is read: bare words, names between double
quotes, texts between single quotes, numbers, placeholders and symbols, with
blanks between them.  A token goes on for as long as the next character extends
it, and inside quotes a quote is written twice.

The main statement is that the pieces of a statement are read one by one: where
no two neighbours run together, the tokens of a text are those of its pieces.
-/

namespace Segmentation.Sql

inductive Token
  | word (text : String)
  /-- A name between double quotes, without them. -/
  | name (text : String)
  /-- A text between single quotes, without them. -/
  | text (text : String)
  | number (text : String)
  /-- A placeholder, with its number if it has one. -/
  | mark (number : Option Nat)
  /-- The value for which a placeholder stands. -/
  | value (value : Value)
  | symbol (text : String)
deriving DecidableEq

namespace Token

def isMark : Token → Bool
  | mark _ => true
  | _ => false

/-- The token as which a name is read. -/
def ofName (name : String) : Token :=
  if isPlainName name.toList then .word name else .name name

@[simp]
theorem isMark_ofName (name : String) : (ofName name).isMark = false := by
  rw [ofName]
  split <;> rfl

/-- The token as which the placeholder at a place is read. -/
def ofPlaceholder : Dialect → Nat → Token
  | .postgres, index => .mark (some index)
  | .positional, _ => .mark none

end Token

/-! ## The lexical rules -/

namespace Lexer

/-- What has been read of the token at hand. -/
inductive Mode
  | between
  | word (read : List Char)
  | number (read : List Char)
  /-- A placeholder that is numbered. -/
  | numbered (read : List Char)
  /-- A placeholder that is not numbered. -/
  | anonymous
  | quoted (quote : Char) (read : List Char)
  /-- Behind a quote, which ends the token unless another quote follows. -/
  | closing (quote : Char) (read : List Char)
  | symbol (read : List Char)
deriving DecidableEq

def isSymbol (c : Char) : Bool :=
  "()*.,=<>!+-".toList.contains c

def isSign (text : List Char) : Bool :=
  text = ['+'] || text = ['-']

namespace Mode

/-- The mode after a character that goes on with the token at hand. -/
def extend? : Mode → Char → Option Mode
  | word read, c => if isNameRest c then some (word (read ++ [c])) else none
  | number read, c =>
    if c.isDigit || (c = '.' && !read.contains '.') then some (number (read ++ [c])) else none
  | numbered read, c => if c.isDigit then some (numbered (read ++ [c])) else none
  | quoted quote read, c =>
    some (if c = quote then closing quote read else quoted quote (read ++ [c]))
  | closing quote read, c => if c = quote then some (quoted quote (read ++ [c])) else none
  | symbol read, c =>
    if isSign read && c.isDigit then some (number (read ++ [c]))
    else if read = ['!'] && c = '=' then some (symbol ['!', '='])
    else none
  | between, _ => none
  | anonymous, _ => none

/-- The token at hand, if it can end here. -/
def pending? : Mode → Option (List Token)
  | between => some []
  | word read => some [.word (String.ofList read)]
  | number read => some [.number (String.ofList read)]
  | numbered read => if read = [] then none else some [.mark (some (Nat.ofDigitChars 10 read 0))]
  | anonymous => some [.mark none]
  | quoted _ _ => none
  | closing quote read =>
    some [if quote = '"' then .name (String.ofList read) else .text (String.ofList read)]
  | symbol read => some [.symbol (String.ofList read)]

end Mode

/-- The mode after the first character of a token, or after a blank. -/
def start? (c : Char) : Option Mode :=
  if isNameStart c then some (.word [c])
  else if c.isDigit then some (.number [c])
  else if c.isWhitespace then some .between
  else if c = '"' || c = '\'' then some (.quoted c [])
  else if c = '$' then some (.numbered [])
  else if c = '?' then some .anonymous
  else if isSymbol c then some (.symbol [c])
  else none

/-- The tokens that end before a character, and the mode after it. -/
def step (mode : Mode) (c : Char) : Option (List Token × Mode) :=
  match mode.extend? c with
  | some next => some ([], next)
  | none => do
    let tokens ← mode.pending?
    let next ← start? c
    some (tokens, next)

def scan : Mode → List Char → Option (List Token × Mode)
  | mode, [] => some ([], mode)
  | mode, c :: rest => do
    let (tokens, next) ← step mode c
    let (later, last) ← scan next rest
    some (tokens ++ later, last)

end Lexer

/-- The tokens of a text that follows the lexical rules. -/
def tokenize? (text : String) : Option (List Token) := do
  let (tokens, last) ← Lexer.scan .between text.toList
  let pending ← last.pending?
  some (tokens ++ pending)

namespace Lexer

theorem scan_cons_eq_some_iff {mode last : Mode} {c : Char} {rest : List Char}
    {tokens : List Token} :
    scan mode (c :: rest) = some (tokens, last) ↔
      ∃ first next later, step mode c = some (first, next) ∧
        scan next rest = some (later, last) ∧ tokens = first ++ later := by
  simp only [scan, Option.bind_eq_bind, Option.bind_eq_some_iff, Prod.exists, Option.some.injEq,
    Prod.mk.injEq]
  constructor
  · rintro ⟨first, next, hstep, later, last, hscan, rfl, rfl⟩
    exact ⟨first, next, later, hstep, hscan, rfl⟩
  · rintro ⟨first, next, later, hstep, hscan, rfl⟩
    exact ⟨first, next, hstep, later, last, hscan, rfl, rfl⟩

theorem scan_append {mode next last : Mode} {left right : List Char} {tokens later : List Token}
    (hleft : scan mode left = some (tokens, next))
    (hright : scan next right = some (later, last)) :
    scan mode (left ++ right) = some (tokens ++ later, last) := by
  induction left generalizing mode tokens with
  | nil =>
      rw [scan, Option.some.injEq, Prod.mk.injEq] at hleft
      rw [← hleft.1, hleft.2]
      exact hright
  | cons c left ih =>
      obtain ⟨first, middle, rest, hstep, hscan, rfl⟩ := scan_cons_eq_some_iff.mp hleft
      rw [List.cons_append, List.append_assoc]
      exact scan_cons_eq_some_iff.mpr ⟨first, middle, rest ++ later, hstep, ih hscan, rfl⟩

/-- A character that does not go on with a token ends it, and is then read on its own. -/
theorem scan_of_extend?_eq_none {mode last : Mode} {pending tokens : List Token} {c : Char}
    {rest : List Char} (hends : mode.extend? c = none) (hpending : mode.pending? = some pending)
    (hscan : scan .between (c :: rest) = some (tokens, last)) :
    scan mode (c :: rest) = some (pending ++ tokens, last) := by
  obtain ⟨first, next, later, hstep, hrest, rfl⟩ := scan_cons_eq_some_iff.mp hscan
  have hstart : start? c = some next ∧ first = [] := by
    cases hnext : start? c <;>
      simp_all [step, Mode.extend?, Mode.pending?]
  refine scan_cons_eq_some_iff.mpr ⟨pending, next, later, ?_, hrest, by rw [hstart.2]; rfl⟩
  simp [step, hends, hpending, hstart.1]

theorem scan_word (read text : List Char) (htext : text.all isNameRest) :
    scan (.word read) text = some ([], .word (read ++ text)) := by
  induction text generalizing read with
  | nil => simp [scan]
  | cons c rest ih =>
      rw [List.all_cons, Bool.and_eq_true] at htext
      simp [scan, step, Mode.extend?, htext.1, ih _ htext.2]

theorem scan_digits (read text : List Char) (htext : text.all Char.isDigit) :
    scan (.number read) text = some ([], .number (read ++ text)) := by
  induction text generalizing read with
  | nil => simp [scan]
  | cons c rest ih =>
      rw [List.all_cons, Bool.and_eq_true] at htext
      simp [scan, step, Mode.extend?, htext.1, ih _ htext.2]

theorem isNameStart_eq_false_of_isDigit {c : Char} (hdigit : c.isDigit) : isNameStart c = false := by
  have hunderscore : c ≠ '_' := by
    rintro rfl
    contradiction
  simp [isNameStart, hunderscore, Numeral.isAlpha_eq_false_of_isDigit hdigit]

/-- A text of digits is read as one number. -/
theorem scan_between_digits {text : List Char} (hne : text ≠ []) (htext : text.all Char.isDigit) :
    scan .between text = some ([], .number text) := by
  obtain ⟨c, rest, rfl⟩ := List.exists_cons_of_ne_nil hne
  rw [List.all_cons, Bool.and_eq_true] at htext
  have hstep : step .between c = some ([], .number [c]) := by
    simp [step, Mode.extend?, Mode.pending?, start?, htext.1, isNameStart_eq_false_of_isDigit htext.1]
  exact scan_cons_eq_some_iff.mpr ⟨[], .number [c], [], hstep, scan_digits [c] rest htext.2, rfl⟩

theorem scan_numbered (read text : List Char) (htext : text.all Char.isDigit) :
    scan (.numbered read) text = some ([], .numbered (read ++ text)) := by
  induction text generalizing read with
  | nil => simp [scan]
  | cons c rest ih =>
      rw [List.all_cons, Bool.and_eq_true] at htext
      simp [scan, step, Mode.extend?, htext.1, ih _ htext.2]

/-- Between quotes every character stands for itself, once its quotes are undone. -/
theorem scan_quoted (quote : Char) (read text : List Char) :
    scan (.quoted quote read) (Value.doubleQuotes quote text ++ [quote]) =
      some ([], .closing quote (read ++ text)) := by
  induction text generalizing read with
  | nil => simp [Value.doubleQuotes, scan, step, Mode.extend?]
  | cons c rest ih =>
      rw [Value.doubleQuotes] at ih ⊢
      rw [List.flatMap_cons]
      by_cases hquote : c = quote
      · subst hquote
        simp [scan, step, Mode.extend?, ih]
      · simp [scan, step, Mode.extend?, hquote, ih]

/-! ## Texts between edges -/

/-- What a text leaves open at its end. -/
inductive Edge
  /-- Nothing that a further character could change. -/
  | clear
  | name
  | value
deriving DecidableEq

namespace Edge

/-- The characters that may follow a text. -/
def allows : Edge → Char → Bool
  | clear, _ => true
  | name, c => c = ' ' || c = ')' || c = '.'
  | value, c => c = ' ' || c = ')'

end Edge

namespace Mode

def edge? : Mode → Option Edge
  | between => some .clear
  | word _ => some .name
  | number _ => some .value
  | numbered read => if read = [] then none else some .value
  | anonymous => some .clear
  | quoted _ _ => none
  | closing quote _ => if quote = '"' || quote = '\'' then some .name else none
  | symbol read => if isSign read || read = ['!'] then none else some .clear

def Meets (mode : Mode) (edge : Edge) : Prop :=
  ∀ c, edge.allows c → mode.extend? c = none

theorem meets_of_edge? {mode : Mode} {edge : Edge} (hedge : mode.edge? = some edge) :
    mode.Meets edge := by
  intro c hallowed
  cases mode with
  | between => rfl
  | anonymous => rfl
  | quoted _ _ => simp [edge?] at hedge
  | word read =>
      cases hedge
      simp only [Edge.allows, Bool.or_eq_true, decide_eq_true_eq] at hallowed
      rcases hallowed with (rfl | rfl) | rfl <;> rfl
  | number read =>
      cases hedge
      simp only [Edge.allows, Bool.or_eq_true, decide_eq_true_eq] at hallowed
      rcases hallowed with rfl | rfl <;> rfl
  | numbered read =>
      simp only [edge?, Option.ite_none_left_eq_some, Option.some.injEq] at hedge
      obtain ⟨_, rfl⟩ := hedge
      simp only [Edge.allows, Bool.or_eq_true, decide_eq_true_eq] at hallowed
      rcases hallowed with rfl | rfl <;> rfl
  | closing quote read =>
      simp only [edge?, Option.ite_none_right_eq_some, Option.some.injEq, Bool.or_eq_true,
        decide_eq_true_eq] at hedge
      obtain ⟨hquote, rfl⟩ := hedge
      simp only [Edge.allows, Bool.or_eq_true, decide_eq_true_eq] at hallowed
      rcases hallowed with (rfl | rfl) | rfl <;> rcases hquote with rfl | rfl <;> rfl
  | symbol read =>
      simp only [edge?, Option.ite_none_left_eq_some, Option.some.injEq, Bool.or_eq_true,
        decide_eq_true_eq, not_or] at hedge
      simp [extend?, hedge.1]

theorem pending?_of_edge? {mode : Mode} {edge : Edge} (hedge : mode.edge? = some edge) :
    ∃ pending, mode.pending? = some pending := by
  cases mode <;> simp_all [edge?, pending?]

end Mode

end Lexer

open Lexer (Edge Mode)

/-- A text is read as some tokens, and then as those of whatever its edge allows to follow. -/
def Lexes (text : List Char) (tokens : List Token) (edge : Edge) : Prop :=
  text ≠ [] ∧ ∃ first last pending,
    Lexer.scan .between text = some (first, last) ∧ last.pending? = some pending ∧
      tokens = first ++ pending ∧ last.Meets edge

namespace Lexes

theorem weaken {text : List Char} {tokens : List Token} {edge weaker : Edge}
    (h : Lexes text tokens edge) (hweaker : ∀ c, weaker.allows c → edge.allows c) :
    Lexes text tokens weaker := by
  obtain ⟨hne, first, last, pending, hscan, hpending, htokens, hmeets⟩ := h
  exact ⟨hne, first, last, pending, hscan, hpending, htokens,
    fun c hallowed => hmeets c (hweaker c hallowed)⟩

theorem append {left right : List Char} {tokens later : List Token} {middle edge : Edge}
    (hleft : Lexes left tokens middle) (hright : Lexes right later edge)
    (hallowed : ∀ c ∈ right.head?, middle.allows c) :
    Lexes (left ++ right) (tokens ++ later) edge := by
  obtain ⟨hne, first, last, pending, hscan, hpending, rfl, hmeets⟩ := hleft
  obtain ⟨hne', first', last', pending', hscan', hpending', rfl, hmeets'⟩ := hright
  obtain ⟨c, rest, rfl⟩ := List.exists_cons_of_ne_nil hne'
  have hc : last.extend? c = none := hmeets c (hallowed c rfl)
  have happend := Lexer.scan_append hscan (Lexer.scan_of_extend?_eq_none hc hpending hscan')
  refine ⟨by simp, _, last', pending', happend, hpending', ?_, hmeets'⟩
  simp

theorem tokenize? {text : String} {tokens : List Token} {edge : Edge}
    (h : Lexes text.toList tokens edge) : tokenize? text = some tokens := by
  obtain ⟨_, first, last, pending, hscan, hpending, rfl, _⟩ := h
  simp [Sql.tokenize?, hscan, hpending]

theorem of_scan {text : List Char} {first pending : List Token} {last : Mode} {edge : Edge}
    (hne : text ≠ []) (hscan : Lexer.scan .between text = some (first, last))
    (hpending : last.pending? = some pending) (hedge : last.edge? = some edge) :
    Lexes text (first ++ pending) edge :=
  ⟨hne, first, last, pending, hscan, hpending, rfl, Mode.meets_of_edge? hedge⟩

/-- A plain name is one bare word. -/
theorem plainName {name : String} (hplain : isPlainName name.toList) :
    Lexes name.toList [.word name] .name := by
  cases hname : name.toList with
  | nil => simp [isPlainName, hname] at hplain
  | cons c rest =>
      rw [hname, isPlainName, Bool.and_eq_true] at hplain
      have hstep : Lexer.step .between c = some ([], .word [c]) := by
        simp [Lexer.step, Mode.extend?, Mode.pending?, Lexer.start?, hplain.1]
      have hscan : Lexer.scan .between (c :: rest) = some ([], .word (c :: rest)) :=
        Lexer.scan_cons_eq_some_iff.mpr
          ⟨[], .word [c], [], hstep, Lexer.scan_word [c] rest hplain.2, rfl⟩
      have hword : name = String.ofList (c :: rest) := by rw [← hname, String.ofList_toList]
      rw [hword]
      exact of_scan (List.cons_ne_nil c rest) hscan rfl rfl

/-- Quotes around a text give one token with the text as it was. -/
theorem quoted {quote : Char} (hquote : quote = '"' ∨ quote = '\'') (text : String) :
    Lexes (quote :: (Value.doubleQuotes quote text.toList ++ [quote]))
      [if quote = '"' then .name text else .text text] .name := by
  have hstep : Lexer.step .between quote = some ([], .quoted quote []) := by
    rcases hquote with rfl | rfl <;> rfl
  have hscan := Lexer.scan_cons_eq_some_iff.mpr
    ⟨[], .quoted quote [], [], hstep, Lexer.scan_quoted quote [] text.toList, rfl⟩
  have hedge : (Mode.closing quote ([] ++ text.toList)).edge? = some .name := by
    rcases hquote with rfl | rfl <;> rfl
  have hpending : (Mode.closing quote ([] ++ text.toList)).pending? =
      some [if quote = '"' then .name text else .text text] := by
    simp [Mode.pending?]
  exact of_scan (List.cons_ne_nil _ _) hscan hpending hedge

theorem identifier (name : String) : Lexes (identifier name).toList [.ofName name] .name := by
  rw [Sql.identifier, Token.ofName]
  split
  · next hplain => exact plainName hplain
  · rw [String.toList_ofList]
    exact quoted (Or.inl rfl) name

theorem placeholder (dialect : Dialect) (index : Nat) :
    Lexes (dialect.placeholder index).toList [.ofPlaceholder dialect index] .value := by
  cases dialect with
  | positional =>
      have hscan : Lexer.scan .between ['?'] = some ([], .anonymous) := rfl
      have hlexes : Lexes ['?'] [.mark none] .clear :=
        of_scan (List.cons_ne_nil _ _) hscan rfl rfl
      have htext : (Dialect.positional.placeholder index).toList = ['?'] := by
        simp [Dialect.placeholder]
      rw [htext]
      exact hlexes.weaken fun _ _ => rfl
  | postgres =>
      have htext : (Dialect.postgres.placeholder index).toList = '$' :: Nat.toDigits 10 index := by
        rw [Dialect.placeholder, String.toList_append, Nat.toString_eq_repr, Nat.toList_repr]
        rfl
      have hstep : Lexer.step .between '$' = some ([], .numbered []) := rfl
      have hscan := Lexer.scan_cons_eq_some_iff.mpr
        ⟨[], .numbered [], [], hstep, Lexer.scan_numbered [] _ (Numeral.all_isDigit_toDigits index), rfl⟩
      rw [htext]
      refine of_scan (List.cons_ne_nil _ _) hscan ?_ ?_
      · simp [Mode.pending?, Nat.toDigits_ne_nil, Token.ofPlaceholder]
      · simp [Mode.edge?, Nat.toDigits_ne_nil]

end Lexes

end Segmentation.Sql
