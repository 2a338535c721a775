import Segmentation.Proofs.Language.Written

/-!
# Tokens and phrases

The grammar of the segment language on two levels.  A text is spelled with tokens, each
of them after layout and ended by what stands after it.  Which tokens make up a phrase,
and what the phrase says, is a matter of the tokens alone.  The main statement is that
a text is a written segment exactly if it is spelled with the tokens of a segment.
-/

namespace Segmentation.Language

open Written (StopsAt Layout Content symbols Spaced Rule)

variable {α : Type} {text inner middle after rest : List Char} {word : String}

/-! ## Tokens -/

def keywords : List String :=
  ["segment", "description", "dataset", "match", "where", "and", "group", "all", "any",
   "include", "exclude"]

/-- The braces and the symbols of operators. -/
def marks : List String :=
  "\x7b" :: "\x7d" :: symbols.map Prod.fst

/-- A token as it is written. -/
inductive Token
  | keyword (word : String) (hword : word ∈ keywords := by decide)
  | mark (word : String) (hword : word ∈ marks := by decide)
  | quoted (written content : List Char) (hcontent : Content written content)
  | identifier (c : Char) (cs : List Char) (hstart : isIdentifierStart c)
      (hrest : ∀ d ∈ cs, isIdentifierRest d)
  | bareWord (cs : List Char) (hne : cs ≠ []) (hclass : ∀ c ∈ cs, isBareChar c)
  | count (number : UInt64)

namespace Token

def chars : Token → List Char
  | keyword word _ | mark word _ => word.toList
  | quoted written _ _ => '"' :: (written ++ ['"'])
  | identifier c cs _ _ => c :: cs
  | bareWord cs _ _ => cs
  | count number => Nat.toDigits 10 number.toNat

/-- The characters that would make a token longer. -/
def goesOnWith : Token → Char → Bool
  | keyword .. => isWordChar
  | identifier .. => isIdentifierRest
  | bareWord .. => isBareChar
  | mark .. | quoted .. | count .. => fun _ => false

end Token

/-- A text that begins with tokens, each after layout, and what follows them. -/
inductive Spelled : List Token → List Char → List Char → Prop
  | nil (rest : List Char) : Spelled [] rest rest
  | cons {token : Token} {tokens : List Token} {text after rest : List Char}
      (hlayout : Layout text (token.chars ++ after)) (hstop : StopsAt token.goesOnWith after)
      (h : Spelled tokens after rest) : Spelled (token :: tokens) text rest

namespace Spelled

variable {front back tokens : List Token}

theorem append (h : Spelled front text middle) (hback : Spelled back middle rest) :
    Spelled (front ++ back) text rest := by
  induction h with
  | nil => exact hback
  | cons hlayout hstop _ ih => exact .cons hlayout hstop (ih hback)

theorem split (h : Spelled (front ++ back) text rest) :
    ∃ middle, Spelled front text middle ∧ Spelled back middle rest := by
  induction front generalizing text with
  | nil => exact ⟨text, .nil text, h⟩
  | cons token front ih =>
      obtain _ | ⟨hlayout, hstop, h⟩ := h
      obtain ⟨middle, hfront, hback⟩ := ih h
      exact ⟨middle, .cons hlayout hstop hfront, hback⟩

theorem keyword {hword : word ∈ keywords} (hlayout : Layout text inner)
    (h : Written.Keyword word inner () after) (hrest : Spelled tokens after rest) :
    Spelled (.keyword word hword :: tokens) text rest := by
  obtain ⟨rfl, hstop⟩ := h
  exact .cons hlayout hstop hrest

theorem split_keyword {hword : word ∈ keywords}
    (h : Spelled (.keyword word hword :: tokens) text rest) :
    ∃ inner after, Layout text inner ∧ Written.Keyword word inner () after ∧
      Spelled tokens after rest := by
  obtain _ | ⟨hlayout, hstop, h⟩ := h
  exact ⟨_, _, hlayout, ⟨rfl, hstop⟩, h⟩

theorem mark {hword : word ∈ marks} (h : Spaced (Written.Mark word) text () after)
    (hrest : Spelled tokens after rest) : Spelled (.mark word hword :: tokens) text rest := by
  obtain ⟨inner, hlayout, rfl⟩ := h
  exact .cons hlayout (fun _ _ _ => rfl) hrest

theorem split_mark {hword : word ∈ marks} (h : Spelled (.mark word hword :: tokens) text rest) :
    ∃ after, Spaced (Written.Mark word) text () after ∧ Spelled tokens after rest := by
  obtain _ | ⟨hlayout, _, h⟩ := h
  exact ⟨_, ⟨_, hlayout, rfl⟩, h⟩

end Spelled

/-! ## Phrases -/

/-- Which tokens say a value. -/
abbrev Phrase (α : Type) : Type :=
  List Token → α → Prop

namespace Phrase

inductive Quoted : Phrase String
  | intro {written content : List Char} (h : Content written content) :
      Quoted [.quoted written content h] (String.ofList content)

inductive Identifier : Phrase String
  | intro {c : Char} {cs : List Char} (hstart : isIdentifierStart c)
      (hrest : ∀ d ∈ cs, isIdentifierRest d) :
      Identifier [.identifier c cs hstart hrest] (String.ofList (c :: cs))

inductive BareWord : Phrase String
  | intro {cs : List Char} (hne : cs ≠ []) (hclass : ∀ c ∈ cs, isBareChar c) :
      BareWord [.bareWord cs hne hclass] (String.ofList cs)

def Name : Phrase String :=
  fun tokens value => Quoted tokens value ∨ Identifier tokens value

def Value : Phrase String :=
  fun tokens value => Quoted tokens value ∨ BareWord tokens value

inductive Count : Phrase UInt64
  | intro (number : UInt64) : Count [.count number] number

inductive OperatorWord : Phrase Operator
  | symbol {word : String} {op : Operator} (hword : word ∈ marks) (h : (word, op) ∈ symbols) :
      OperatorWord [.mark word hword] op
  | named {tokens : List Token} {op : Operator} (h : Identifier tokens op.name) :
      OperatorWord tokens op

inductive ConnectiveWord : Phrase Connective
  | all : ConnectiveWord [.keyword "all"] .all
  | any : ConnectiveWord [.keyword "any"] .any

inductive ModeWord : Phrase MembershipMode
  | incl : ModeWord [.keyword "include"] .incl
  | excl : ModeWord [.keyword "exclude"] .excl

/-- The operands that an operator takes. -/
inductive Operands (op : Operator) : List Token → Option String → Option String → Prop
  | none (hvalue : op.needsValue = false) : Operands op [] none none
  | value {lows : List Token} {low : String} (hvalue : op.needsValue = true)
      (hupper : op.needsUpper = false) (hlow : Value lows low) : Operands op lows (some low) none
  | range {lows highs : List Token} {low high : String} (hupper : op.needsUpper = true)
      (hlow : Value lows low) (hhigh : Value highs high) :
      Operands op (lows ++ .keyword "and" :: highs) (some low) (some high)

inductive Where : Phrase Condition
  | intro {fields operators operands : List Token} {condition : Condition}
      (hfield : Name fields condition.field)
      (hoperator : OperatorWord operators condition.operator)
      (hoperands : Operands condition.operator operands condition.value condition.upper) :
      Where (.keyword "where" :: (fields ++ (operators ++ operands))) condition

inductive Optional (phrase : Phrase α) : Phrase (Option α)
  | absent : Optional phrase [] none
  | present {tokens : List Token} {value : α} (h : phrase tokens value) :
      Optional phrase tokens (some value)

/-- A segment without a name has its identifier for a name, and its count is zero if none
is written. -/
inductive Membership : Phrase (SegmentRef × MembershipMode)
  | intro {modes ids names counts : List Token} {mode : MembershipMode} {id : String}
      {name : Option String} {count : Option UInt64} (hmode : ModeWord modes mode)
      (hid : Quoted ids id) (hname : Optional Quoted names name)
      (hcount : Optional Count counts count) :
      Membership (modes ++ (ids ++ (names ++ counts)))
        ({ id, name := name.getD id, count := count.getD 0 }, mode)

/-- A group up to its opening brace. -/
inductive GroupHead : Phrase Connective
  | intro {connectives : List Token} {connective : Connective}
      (hconnective : ConnectiveWord connectives connective) :
      GroupHead (.keyword "group" :: (connectives ++ [.mark "\x7b"])) connective

inductive Children : Phrase (List Node)
  | nil : Children [] []
  | condition {first tokens : List Token} {condition : Condition} {nodes : List Node}
      (hfirst : Where first condition) (hrest : Children tokens nodes) :
      Children (first ++ tokens) (.condition condition :: nodes)
  | group {head inside tokens : List Token} {connective : Connective}
      {children nodes : List Node} (hhead : GroupHead head connective)
      (hchildren : Children inside children) (hrest : Children tokens nodes) :
      Children (head ++ (inside ++ .mark "\x7d" :: tokens)) (.group connective children :: nodes)
  | membership {first tokens : List Token} {segment : SegmentRef} {mode : MembershipMode}
      {nodes : List Node} (hfirst : Membership first (segment, mode))
      (hrest : Children tokens nodes) :
      Children (first ++ tokens) (.membership segment mode :: nodes)

inductive Group : Phrase Segmentation.Group
  | intro {head inside : List Token} {group : Segmentation.Group}
      (hhead : GroupHead head group.connective) (hchildren : Children inside group.children) :
      Group (head ++ (inside ++ [.mark "\x7d"])) group

inductive Statement : Phrase Language.Statement
  | description {tokens : List Token} {value : String} (h : Quoted tokens value) :
      Statement (.keyword "description" :: tokens) (.description value)
  | dataset {tokens : List Token} {value : String} (h : Name tokens value) :
      Statement (.keyword "dataset" :: tokens) (.dataset value)
  | connective {tokens : List Token} {value : Connective} (h : ConnectiveWord tokens value) :
      Statement (.keyword "match" :: tokens) (.connective value)
  | condition {tokens : List Token} {value : Condition} (h : Where tokens value) :
      Statement tokens (.condition value)
  | group {tokens : List Token} {value : Segmentation.Group} (h : Group tokens value) :
      Statement tokens (.group value)
  | membership {tokens : List Token} {segment : SegmentRef} {mode : MembershipMode}
      (h : Membership tokens (segment, mode)) : Statement tokens (.membership segment mode)

inductive Statements : Phrase (List Language.Statement)
  | nil : Statements [] []
  | cons {first tokens : List Token} {statement : Language.Statement}
      {statements : List Language.Statement} (hfirst : Statement first statement)
      (hrest : Statements tokens statements) :
      Statements (first ++ tokens) (statement :: statements)

/-- A segment of a name with some statements. -/
inductive Segment : List Token → String → List Language.Statement → Prop
  | intro {names tokens : List Token} {name : String} {statements : List Language.Statement}
      (hname : Quoted names name) (hstatements : Statements tokens statements) :
      Segment (.keyword "segment" :: (names ++ .mark "\x7b" :: (tokens ++ [.mark "\x7d"])))
        name statements

end Phrase

/-! ## Words -/

/-- A rule writes the values that a phrase says, in the texts that are spelled with its
tokens. -/
structure SpellsOut (phrase : Phrase α) (rule : Rule α) : Prop where
  tokens : ∀ {text value rest}, rule text value rest →
    ∃ tokens, phrase tokens value ∧ Spelled tokens text rest
  written : ∀ {tokens text value rest}, phrase tokens value → Spelled tokens text rest →
    rule text value rest

theorem SpellsOut.or {first second : Phrase α} {firstRule secondRule : Rule α}
    (hfirst : SpellsOut first (Spaced firstRule))
    (hsecond : SpellsOut second (Spaced secondRule)) :
    SpellsOut (fun tokens value => first tokens value ∨ second tokens value)
      (Spaced fun text value rest => firstRule text value rest ∨ secondRule text value rest) where
  tokens := by
    rintro text value rest ⟨inner, hlayout, h | h⟩
    · obtain ⟨tokens, hphrase, hspelled⟩ := hfirst.tokens ⟨inner, hlayout, h⟩
      exact ⟨tokens, .inl hphrase, hspelled⟩
    · obtain ⟨tokens, hphrase, hspelled⟩ := hsecond.tokens ⟨inner, hlayout, h⟩
      exact ⟨tokens, .inr hphrase, hspelled⟩
  written := by
    rintro tokens text value rest (h | h) hspelled
    · obtain ⟨inner, hlayout, hrule⟩ := hfirst.written h hspelled
      exact ⟨inner, hlayout, .inl hrule⟩
    · obtain ⟨inner, hlayout, hrule⟩ := hsecond.written h hspelled
      exact ⟨inner, hlayout, .inr hrule⟩

theorem spelled_singleton_iff {token : Token} :
    Spelled [token] text rest ↔
      Layout text (token.chars ++ rest) ∧ StopsAt token.goesOnWith rest := by
  constructor
  · rintro (_ | ⟨hlayout, hstop, _ | _⟩)
    exact ⟨hlayout, hstop⟩
  · rintro ⟨hlayout, hstop⟩
    exact .cons hlayout hstop (.nil rest)

theorem quoted_chars_append (written rest : List Char) :
    '"' :: (written ++ ['"']) ++ rest = '"' :: (written ++ '"' :: rest) := by
  simp

theorem spellsOut_quoted : SpellsOut Phrase.Quoted (Spaced Written.Quoted) where
  tokens := by
    rintro _ _ rest ⟨inner, hlayout, ⟨hcontent⟩⟩
    refine ⟨_, .intro hcontent, spelled_singleton_iff.2 ⟨?_, fun _ _ _ => rfl⟩⟩
    rw [Token.chars, quoted_chars_append]
    exact hlayout
  written := by
    rintro _ _ _ rest ⟨hcontent⟩ hspelled
    obtain ⟨hlayout, _⟩ := spelled_singleton_iff.1 hspelled
    rw [Token.chars, quoted_chars_append] at hlayout
    exact ⟨_, hlayout, .intro hcontent⟩

theorem spellsOut_identifier : SpellsOut Phrase.Identifier (Spaced Written.Identifier) where
  tokens := by
    rintro _ _ rest ⟨inner, hlayout, ⟨hstart, hrest, hstop⟩⟩
    exact ⟨_, .intro hstart hrest, spelled_singleton_iff.2 ⟨hlayout, hstop⟩⟩
  written := by
    rintro _ _ _ rest ⟨hstart, hrest⟩ hspelled
    obtain ⟨hlayout, hstop⟩ := spelled_singleton_iff.1 hspelled
    exact ⟨_, hlayout, .intro hstart hrest hstop⟩

theorem spellsOut_bareWord : SpellsOut Phrase.BareWord (Spaced Written.BareWord) where
  tokens := by
    rintro _ _ rest ⟨inner, hlayout, ⟨hne, hclass, hstop⟩⟩
    exact ⟨_, .intro hne hclass, spelled_singleton_iff.2 ⟨hlayout, hstop⟩⟩
  written := by
    rintro _ _ _ rest ⟨hne, hclass⟩ hspelled
    obtain ⟨hlayout, hstop⟩ := spelled_singleton_iff.1 hspelled
    exact ⟨_, hlayout, .intro hne hclass hstop⟩

theorem spellsOut_count : SpellsOut Phrase.Count (Spaced Written.Count) where
  tokens := by
    rintro _ number rest ⟨inner, hlayout, ⟨_, _⟩⟩
    exact ⟨_, .intro number, spelled_singleton_iff.2 ⟨hlayout, fun _ _ _ => rfl⟩⟩
  written := by
    rintro _ _ number rest ⟨_⟩ hspelled
    obtain ⟨hlayout, _⟩ := spelled_singleton_iff.1 hspelled
    exact ⟨_, hlayout, .intro number rest⟩

theorem spellsOut_name : SpellsOut Phrase.Name (Spaced Written.Name) :=
  spellsOut_quoted.or spellsOut_identifier

theorem spellsOut_value : SpellsOut Phrase.Value (Spaced Written.Value) :=
  spellsOut_quoted.or spellsOut_bareWord

theorem spellsOut_operatorWord : SpellsOut Phrase.OperatorWord (Spaced Written.OperatorWord) where
  tokens := by
    rintro _ _ rest ⟨inner, hlayout, hsymbol | hnamed⟩
    · have hword := List.mem_map_of_mem (f := Prod.fst) hsymbol
      exact ⟨_, .symbol (.tail _ (.tail _ hword)) hsymbol, Spelled.mark ⟨_, hlayout, rfl⟩ (.nil rest)⟩
    · obtain ⟨tokens, hphrase, hspelled⟩ := spellsOut_identifier.tokens ⟨inner, hlayout, hnamed⟩
      exact ⟨tokens, .named hphrase, hspelled⟩
  written := by
    rintro _ _ _ rest (⟨hword, hsymbol⟩ | hnamed) hspelled
    · obtain ⟨_, ⟨inner, hlayout, rfl⟩, _ | _⟩ := hspelled.split_mark
      exact ⟨_, hlayout, .symbol hsymbol⟩
    · obtain ⟨inner, hlayout, hidentifier⟩ := spellsOut_identifier.written hnamed hspelled
      exact ⟨inner, hlayout, .named hidentifier⟩

theorem spellsOut_connectiveWord :
    SpellsOut Phrase.ConnectiveWord (Spaced Written.ConnectiveWord) where
  tokens := by
    rintro _ _ rest ⟨inner, hlayout, h | h⟩
    · exact ⟨_, .all, .keyword hlayout h (.nil rest)⟩
    · exact ⟨_, .any, .keyword hlayout h (.nil rest)⟩
  written := by
    rintro _ _ _ rest (_ | _) hspelled
    · obtain ⟨inner, _, hlayout, h, _ | _⟩ := hspelled.split_keyword
      exact ⟨inner, hlayout, .all h⟩
    · obtain ⟨inner, _, hlayout, h, _ | _⟩ := hspelled.split_keyword
      exact ⟨inner, hlayout, .any h⟩

theorem spellsOut_modeWord : SpellsOut Phrase.ModeWord (Spaced Written.ModeWord) where
  tokens := by
    rintro _ _ rest ⟨inner, hlayout, h | h⟩
    · exact ⟨_, .incl, .keyword hlayout h (.nil rest)⟩
    · exact ⟨_, .excl, .keyword hlayout h (.nil rest)⟩
  written := by
    rintro _ _ _ rest (_ | _) hspelled
    · obtain ⟨inner, _, hlayout, h, _ | _⟩ := hspelled.split_keyword
      exact ⟨inner, hlayout, .incl h⟩
    · obtain ⟨inner, _, hlayout, h, _ | _⟩ := hspelled.split_keyword
      exact ⟨inner, hlayout, .excl h⟩

/-! ## Clauses -/

theorem SpellsOut.optional {phrase : Phrase α} {rule : Rule α} (h : SpellsOut phrase rule) :
    SpellsOut (Phrase.Optional phrase) (Written.Optional rule) where
  tokens := by
    rintro text _ _ (_ | hrule)
    · exact ⟨[], .absent, .nil text⟩
    · obtain ⟨tokens, hphrase, hspelled⟩ := h.tokens hrule
      exact ⟨tokens, .present hphrase, hspelled⟩
  written := by
    rintro _ text _ _ (_ | hphrase) hspelled
    · obtain _ | _ := hspelled
      exact .absent text
    · exact .present (h.written hphrase hspelled)

theorem spelled_of_operands {op : Operator} {value upper : Option String}
    (h : Written.Operands op text value upper rest) :
    ∃ tokens, Phrase.Operands op tokens value upper ∧ Spelled tokens text rest := by
  obtain hvalue | ⟨hvalue, hupper, hlow⟩ | ⟨hupper, hlow, ⟨inner, hlayout, hand⟩, hhigh⟩ := h
  · exact ⟨[], .none hvalue, .nil text⟩
  · obtain ⟨lows, hlows, hspelled⟩ := spellsOut_value.tokens hlow
    exact ⟨lows, .value hvalue hupper hlows, hspelled⟩
  · obtain ⟨lows, hlows, hspelledLow⟩ := spellsOut_value.tokens hlow
    obtain ⟨highs, hhighs, hspelledHigh⟩ := spellsOut_value.tokens hhigh
    exact ⟨_, .range hupper hlows hhighs, hspelledLow.append (.keyword hlayout hand hspelledHigh)⟩

theorem operands_of_spelled {op : Operator} {tokens : List Token} {value upper : Option String}
    (h : Phrase.Operands op tokens value upper) (hspelled : Spelled tokens text rest) :
    Written.Operands op text value upper rest := by
  obtain hvalue | ⟨hvalue, hupper, hlows⟩ | ⟨hupper, hlows, hhighs⟩ := h
  · obtain _ | _ := hspelled
    exact .none hvalue
  · exact .value hvalue hupper (spellsOut_value.written hlows hspelled)
  · obtain ⟨_, hspelledLow, hspelled⟩ := hspelled.split
    obtain ⟨inner, _, hlayout, hand, hspelledHigh⟩ := hspelled.split_keyword
    exact .range hupper (spellsOut_value.written hlows hspelledLow) ⟨inner, hlayout, hand⟩
      (spellsOut_value.written hhighs hspelledHigh)

theorem spellsOut_where : SpellsOut Phrase.Where (Spaced Written.Where) where
  tokens := by
    rintro _ _ rest ⟨inner, hlayout, ⟨hwhere, hfield, hoperator, hoperands⟩⟩
    obtain ⟨fields, hfields, hspelledField⟩ := spellsOut_name.tokens hfield
    obtain ⟨operators, hoperators, hspelledOperator⟩ := spellsOut_operatorWord.tokens hoperator
    obtain ⟨operands, hoperands, hspelledOperands⟩ := spelled_of_operands hoperands
    exact ⟨_, .intro hfields hoperators hoperands, .keyword hlayout hwhere
      (hspelledField.append (hspelledOperator.append hspelledOperands))⟩
  written := by
    rintro _ _ _ rest ⟨hfields, hoperators, hoperands⟩ hspelled
    obtain ⟨inner, _, hlayout, hwhere, hspelled⟩ := hspelled.split_keyword
    obtain ⟨_, hspelledField, hspelled⟩ := hspelled.split
    obtain ⟨_, hspelledOperator, hspelledOperands⟩ := hspelled.split
    exact ⟨inner, hlayout, .intro hwhere (spellsOut_name.written hfields hspelledField)
      (spellsOut_operatorWord.written hoperators hspelledOperator)
      (operands_of_spelled hoperands hspelledOperands)⟩

theorem spellsOut_membership : SpellsOut Phrase.Membership (Spaced Written.Membership) where
  tokens := by
    rintro _ _ rest ⟨inner, hlayout, ⟨hmode, hid, hname, hcount⟩⟩
    obtain ⟨modes, hmodes, hspelledMode⟩ := spellsOut_modeWord.tokens ⟨inner, hlayout, hmode⟩
    obtain ⟨ids, hids, hspelledId⟩ := spellsOut_quoted.tokens hid
    obtain ⟨names, hnames, hspelledName⟩ := spellsOut_quoted.optional.tokens hname
    obtain ⟨counts, hcounts, hspelledCount⟩ := spellsOut_count.optional.tokens hcount
    exact ⟨_, .intro hmodes hids hnames hcounts,
      hspelledMode.append (hspelledId.append (hspelledName.append hspelledCount))⟩
  written := by
    rintro _ _ _ rest ⟨hmodes, hids, hnames, hcounts⟩ hspelled
    obtain ⟨_, hspelledMode, hspelled⟩ := hspelled.split
    obtain ⟨_, hspelledId, hspelled⟩ := hspelled.split
    obtain ⟨_, hspelledName, hspelledCount⟩ := hspelled.split
    obtain ⟨inner, hlayout, hmode⟩ := spellsOut_modeWord.written hmodes hspelledMode
    exact ⟨inner, hlayout, .intro hmode (spellsOut_quoted.written hids hspelledId)
      (spellsOut_quoted.optional.written hnames hspelledName)
      (spellsOut_count.optional.written hcounts hspelledCount)⟩

/-! ## Groups -/

theorem spellsOut_groupHead : SpellsOut Phrase.GroupHead (Spaced Written.GroupHead) where
  tokens := by
    rintro _ _ rest ⟨inner, hlayout, ⟨hgroup, hconnective, hopen⟩⟩
    obtain ⟨connectives, hconnectives, hspelled⟩ := spellsOut_connectiveWord.tokens hconnective
    exact ⟨_, .intro hconnectives,
      .keyword hlayout hgroup (hspelled.append (.mark hopen (.nil rest)))⟩
  written := by
    rintro _ _ _ rest ⟨hconnectives⟩ hspelled
    obtain ⟨inner, _, hlayout, hgroup, hspelled⟩ := hspelled.split_keyword
    obtain ⟨_, hspelledConnective, hspelled⟩ := hspelled.split
    obtain ⟨_, hopen, _ | _⟩ := hspelled.split_mark
    exact ⟨inner, hlayout, .intro hgroup
      (spellsOut_connectiveWord.written hconnectives hspelledConnective) hopen⟩

theorem spellsOut_children : SpellsOut Phrase.Children Written.Children where
  tokens := by
    intro text nodes rest h
    induction h with
    | nil rest => exact ⟨[], .nil, .nil rest⟩
    | condition hfirst _ ih =>
        obtain ⟨first, hfirst, hspelledFirst⟩ := spellsOut_where.tokens hfirst
        obtain ⟨tokens, hrest, hspelled⟩ := ih
        exact ⟨_, .condition hfirst hrest, hspelledFirst.append hspelled⟩
    | group hhead _ hclose _ ihChildren ihRest =>
        obtain ⟨head, hhead, hspelledHead⟩ := spellsOut_groupHead.tokens hhead
        obtain ⟨inside, hinside, hspelledInside⟩ := ihChildren
        obtain ⟨tokens, hrest, hspelled⟩ := ihRest
        exact ⟨_, .group hhead hinside hrest,
          hspelledHead.append (hspelledInside.append (.mark hclose hspelled))⟩
    | membership hfirst _ ih =>
        obtain ⟨first, hfirst, hspelledFirst⟩ := spellsOut_membership.tokens hfirst
        obtain ⟨tokens, hrest, hspelled⟩ := ih
        exact ⟨_, .membership hfirst hrest, hspelledFirst.append hspelled⟩
  written := by
    intro tokens text nodes rest h hspelled
    induction h generalizing text rest with
    | nil =>
        obtain _ | _ := hspelled
        exact .nil text
    | condition hfirst _ ih =>
        obtain ⟨_, hspelledFirst, hspelled⟩ := hspelled.split
        exact .condition (spellsOut_where.written hfirst hspelledFirst) (ih hspelled)
    | group hhead _ _ ihChildren ihRest =>
        obtain ⟨_, hspelledHead, hspelled⟩ := hspelled.split
        obtain ⟨_, hspelledInside, hspelled⟩ := hspelled.split
        obtain ⟨_, hclose, hspelled⟩ := hspelled.split_mark
        exact .group (spellsOut_groupHead.written hhead hspelledHead)
          (ihChildren hspelledInside) hclose (ihRest hspelled)
    | membership hfirst _ ih =>
        obtain ⟨_, hspelledFirst, hspelled⟩ := hspelled.split
        exact .membership (spellsOut_membership.written hfirst hspelledFirst) (ih hspelled)

theorem spellsOut_group : SpellsOut Phrase.Group (Spaced Written.Group) where
  tokens := by
    rintro _ _ rest ⟨inner, hlayout, ⟨hhead, hchildren, hclose⟩⟩
    obtain ⟨head, hhead, hspelledHead⟩ := spellsOut_groupHead.tokens ⟨inner, hlayout, hhead⟩
    obtain ⟨inside, hinside, hspelledInside⟩ := spellsOut_children.tokens hchildren
    exact ⟨_, .intro hhead hinside,
      hspelledHead.append (hspelledInside.append (.mark hclose (.nil rest)))⟩
  written := by
    rintro _ _ _ rest ⟨hhead, hinside⟩ hspelled
    obtain ⟨_, hspelledHead, hspelled⟩ := hspelled.split
    obtain ⟨_, hspelledInside, hspelled⟩ := hspelled.split
    obtain ⟨_, hclose, _ | _⟩ := hspelled.split_mark
    obtain ⟨inner, hlayout, hhead⟩ := spellsOut_groupHead.written hhead hspelledHead
    exact ⟨inner, hlayout,
      .intro hhead (spellsOut_children.written hinside hspelledInside) hclose⟩

/-! ## Segments -/

theorem spellsOut_statement : SpellsOut Phrase.Statement (Spaced Written.Statement) where
  tokens := by
    rintro _ _ rest ⟨inner, hlayout, h⟩
    cases h with
    | description hword h =>
        obtain ⟨tokens, hphrase, hspelled⟩ := spellsOut_quoted.tokens h
        exact ⟨_, .description hphrase, .keyword hlayout hword hspelled⟩
    | dataset hword h =>
        obtain ⟨tokens, hphrase, hspelled⟩ := spellsOut_name.tokens h
        exact ⟨_, .dataset hphrase, .keyword hlayout hword hspelled⟩
    | connective hword h =>
        obtain ⟨tokens, hphrase, hspelled⟩ := spellsOut_connectiveWord.tokens h
        exact ⟨_, .connective hphrase, .keyword hlayout hword hspelled⟩
    | condition h =>
        obtain ⟨tokens, hphrase, hspelled⟩ := spellsOut_where.tokens ⟨inner, hlayout, h⟩
        exact ⟨tokens, .condition hphrase, hspelled⟩
    | group h =>
        obtain ⟨tokens, hphrase, hspelled⟩ := spellsOut_group.tokens ⟨inner, hlayout, h⟩
        exact ⟨tokens, .group hphrase, hspelled⟩
    | membership h =>
        obtain ⟨tokens, hphrase, hspelled⟩ := spellsOut_membership.tokens ⟨inner, hlayout, h⟩
        exact ⟨tokens, .membership hphrase, hspelled⟩
  written := by
    intro tokens text statement rest h hspelled
    cases h with
    | description h =>
        obtain ⟨inner, _, hlayout, hword, hspelled⟩ := hspelled.split_keyword
        exact ⟨inner, hlayout, .description hword (spellsOut_quoted.written h hspelled)⟩
    | dataset h =>
        obtain ⟨inner, _, hlayout, hword, hspelled⟩ := hspelled.split_keyword
        exact ⟨inner, hlayout, .dataset hword (spellsOut_name.written h hspelled)⟩
    | connective h =>
        obtain ⟨inner, _, hlayout, hword, hspelled⟩ := hspelled.split_keyword
        exact ⟨inner, hlayout, .connective hword (spellsOut_connectiveWord.written h hspelled)⟩
    | condition h =>
        obtain ⟨inner, hlayout, h⟩ := spellsOut_where.written h hspelled
        exact ⟨inner, hlayout, .condition h⟩
    | group h =>
        obtain ⟨inner, hlayout, h⟩ := spellsOut_group.written h hspelled
        exact ⟨inner, hlayout, .group h⟩
    | membership h =>
        obtain ⟨inner, hlayout, h⟩ := spellsOut_membership.written h hspelled
        exact ⟨inner, hlayout, .membership h⟩

theorem spellsOut_statements : SpellsOut Phrase.Statements Written.Statements where
  tokens := by
    intro text statements rest h
    induction h with
    | nil rest => exact ⟨[], .nil, .nil rest⟩
    | cons hfirst _ ih =>
        obtain ⟨first, hfirst, hspelledFirst⟩ := spellsOut_statement.tokens hfirst
        obtain ⟨tokens, hrest, hspelled⟩ := ih
        exact ⟨_, .cons hfirst hrest, hspelledFirst.append hspelled⟩
  written := by
    intro tokens text statements rest h hspelled
    induction h generalizing text rest with
    | nil =>
        obtain _ | _ := hspelled
        exact .nil text
    | cons hfirst _ ih =>
        obtain ⟨_, hspelledFirst, hspelled⟩ := hspelled.split
        exact .cons (spellsOut_statement.written hfirst hspelledFirst) (ih hspelled)

/-- A whole text is spelled with tokens if nothing but layout follows them. -/
def SpelledWhole (tokens : List Token) (text : List Char) : Prop :=
  ∃ ending, Spelled tokens text ending ∧ Layout ending []

/-- A text is a written segment exactly if it is spelled with the tokens of one. -/
theorem segment_iff_spelledWhole {name : String} {statements : List Statement} :
    Written.Segment text name statements ↔
      ∃ tokens, Phrase.Segment tokens name statements ∧ SpelledWhole tokens text := by
  constructor
  · rintro ⟨⟨inner, hlayout, hsegment⟩, hname, hopen, hstatements, hclose, hend⟩
    obtain ⟨names, hnames, hspelledName⟩ := spellsOut_quoted.tokens hname
    obtain ⟨tokens, htokens, hspelled⟩ := spellsOut_statements.tokens hstatements
    exact ⟨_, .intro hnames htokens, _, .keyword hlayout hsegment (hspelledName.append
      (.mark hopen (hspelled.append (.mark hclose (.nil _))))), hend⟩
  · rintro ⟨_, ⟨hnames, htokens⟩, ending, hspelled, hend⟩
    obtain ⟨inner, _, hlayout, hsegment, hspelled⟩ := hspelled.split_keyword
    obtain ⟨_, hspelledName, hspelled⟩ := hspelled.split
    obtain ⟨_, hopen, hspelled⟩ := hspelled.split_mark
    obtain ⟨_, hspelledStatements, hspelled⟩ := hspelled.split
    obtain ⟨_, hclose, _ | _⟩ := hspelled.split_mark
    exact .intro ⟨inner, hlayout, hsegment⟩ (spellsOut_quoted.written hnames hspelledName) hopen
      (spellsOut_statements.written htokens hspelledStatements) hclose hend

end Segmentation.Language
