import Segmentation.Language.Grammar

/-!
# Written segments

The grammar of the segment language, told without a reader.  A rule relates a text
to a value that may be written at its beginning and to what follows it there.  No
rule is tried before another one; only where a word reaches as far as it can, its
rule says that no further character of its class is ahead.  Statements denote a
definition: the last description, dataset and connective count, conditions and groups
keep their order, and of the segments with one identifier each set has the first.
-/

namespace Segmentation.Language.Written

/-- What may be written at the beginning of a text, and what follows it. -/
abbrev Rule (α : Type) : Type :=
  List Char → α → List Char → Prop

/-- No character of a class is ahead. -/
def StopsAt (inClass : Char → Bool) (rest : List Char) : Prop :=
  ∀ c tail, rest = c :: tail → inClass c = false

/-! ## Layout -/

/-- The end of a line, or of the whole text, is ahead. -/
def LineEnds (text : List Char) : Prop :=
  text = [] ∨ (∃ tail, text = '\n' :: tail) ∨ ∃ tail, text = '\r' :: '\n' :: tail

/-- Blanks and comments, as many as there may be. -/
inductive Layout : List Char → List Char → Prop
  | none (rest : List Char) : Layout rest rest
  | blank {c : Char} {text rest : List Char} (hblank : isLayoutBlank c) (h : Layout text rest) :
      Layout (c :: text) rest
  | comment {content text rest : List Char} (hcontent : ∀ c ∈ content, c ≠ '\n' ∧ c ≠ '\r')
      (hend : LineEnds text) (h : Layout text rest) : Layout ('#' :: (content ++ text)) rest

def Spaced {α : Type} (rule : Rule α) : Rule α :=
  fun text value rest => ∃ inner, Layout text inner ∧ rule inner value rest

/-! ## Words -/

def Mark (word : String) : Rule Unit :=
  fun text _ rest => text = word.toList ++ rest

def Keyword (word : String) : Rule Unit :=
  fun text _ rest => text = word.toList ++ rest ∧ StopsAt isWordChar rest

inductive Identifier : Rule String
  | intro {c : Char} {cs rest : List Char} (hstart : isIdentifierStart c)
      (hrest : ∀ d ∈ cs, isIdentifierRest d) (hstop : StopsAt isIdentifierRest rest) :
      Identifier (c :: (cs ++ rest)) (String.ofList (c :: cs)) rest

inductive BareWord : Rule String
  | intro {cs rest : List Char} (hne : cs ≠ []) (hclass : ∀ c ∈ cs, isBareChar c)
      (hstop : StopsAt isBareChar rest) : BareWord (cs ++ rest) (String.ofList cs) rest

/-- How the content of a quoted text is written, and what it is. -/
inductive Content : List Char → List Char → Prop
  | nil : Content [] []
  | plain {c : Char} {written content : List Char} (hquote : c ≠ '"') (hescape : c ≠ '\\')
      (h : Content written content) : Content (c :: written) (c :: content)
  | escape {c : Char} {written content : List Char} (h : Content written content) :
      Content ('\\' :: c :: written) (unescape c ++ content)

inductive Quoted : Rule String
  | intro {written content rest : List Char} (h : Content written content) :
      Quoted ('"' :: (written ++ '"' :: rest)) (String.ofList content) rest

def Name : Rule String :=
  fun text value rest => Quoted text value rest ∨ Identifier text value rest

def Value : Rule String :=
  fun text value rest => Quoted text value rest ∨ BareWord text value rest

inductive Count : Rule UInt64
  | intro (count : UInt64) (rest : List Char) :
      Count (Nat.toDigits 10 count.toNat ++ rest) count rest

def symbols : List (String × Operator) :=
  [("=", .equals), ("==", .equals), ("!=", .notEquals), (">", .greaterThan), ("<", .lessThan)]

inductive OperatorWord : Rule Operator
  | symbol {word : String} {op : Operator} {rest : List Char} (h : (word, op) ∈ symbols) :
      OperatorWord (word.toList ++ rest) op rest
  | named {op : Operator} {text rest : List Char} (h : Identifier text op.name rest) :
      OperatorWord text op rest

inductive ConnectiveWord : Rule Connective
  | all {text rest : List Char} (h : Keyword "all" text () rest) : ConnectiveWord text .all rest
  | any {text rest : List Char} (h : Keyword "any" text () rest) : ConnectiveWord text .any rest

inductive ModeWord : Rule MembershipMode
  | incl {text rest : List Char} (h : Keyword "include" text () rest) : ModeWord text .incl rest
  | excl {text rest : List Char} (h : Keyword "exclude" text () rest) : ModeWord text .excl rest

/-! ## Conditions, memberships and groups -/

/-- The operands that an operator takes. -/
inductive Operands (op : Operator) :
    List Char → Option String → Option String → List Char → Prop
  | none {rest : List Char} (hvalue : op.needsValue = false) : Operands op rest none none rest
  | value {text rest : List Char} {low : String} (hvalue : op.needsValue = true)
      (hupper : op.needsUpper = false) (hlow : Spaced Value text low rest) :
      Operands op text (some low) none rest
  | range {text afterLow afterAnd rest : List Char} {low high : String}
      (hupper : op.needsUpper = true) (hlow : Spaced Value text low afterLow)
      (hand : Spaced (Keyword "and") afterLow () afterAnd)
      (hhigh : Spaced Value afterAnd high rest) :
      Operands op text (some low) (some high) rest

inductive Where : Rule Condition
  | intro {text afterWhere afterField afterOperator rest : List Char} {condition : Condition}
      (hwhere : Keyword "where" text () afterWhere)
      (hfield : Spaced Name afterWhere condition.field afterField)
      (hoperator : Spaced OperatorWord afterField condition.operator afterOperator)
      (hoperands : Operands condition.operator afterOperator condition.value condition.upper rest) :
      Where text condition rest

inductive Optional {α : Type} (rule : Rule α) : Rule (Option α)
  | absent (rest : List Char) : Optional rule rest none rest
  | present {text rest : List Char} {value : α} (h : rule text value rest) :
      Optional rule text (some value) rest

/-- A segment without a name has its identifier for a name, and its count is zero if none
is written. -/
inductive Membership : Rule (SegmentRef × MembershipMode)
  | intro {text afterMode afterId afterName rest : List Char} {mode : MembershipMode}
      {id : String} {name : Option String} {count : Option UInt64}
      (hmode : ModeWord text mode afterMode) (hid : Spaced Quoted afterMode id afterId)
      (hname : Optional (Spaced Quoted) afterId name afterName)
      (hcount : Optional (Spaced Count) afterName count rest) :
      Membership text ({ id, name := name.getD id, count := count.getD 0 }, mode) rest

/-- A group up to its opening brace. -/
inductive GroupHead : Rule Connective
  | intro {text afterGroup afterConnective rest : List Char} {connective : Connective}
      (hgroup : Keyword "group" text () afterGroup)
      (hconnective : Spaced ConnectiveWord afterGroup connective afterConnective)
      (hopen : Spaced (Mark "\x7b") afterConnective () rest) :
      GroupHead text connective rest

/-- The children of a group, each after layout; a group has children of its own. -/
inductive Children : Rule (List Node)
  | nil (rest : List Char) : Children rest [] rest
  | condition {text afterFirst rest : List Char} {condition : Condition} {nodes : List Node}
      (hfirst : Spaced Where text condition afterFirst) (hrest : Children afterFirst nodes rest) :
      Children text (.condition condition :: nodes) rest
  | group {text afterHead afterChildren afterFirst rest : List Char} {connective : Connective}
      {children nodes : List Node} (hhead : Spaced GroupHead text connective afterHead)
      (hchildren : Children afterHead children afterChildren)
      (hclose : Spaced (Mark "\x7d") afterChildren () afterFirst)
      (hrest : Children afterFirst nodes rest) :
      Children text (.group connective children :: nodes) rest
  | membership {text afterFirst rest : List Char} {segment : SegmentRef} {mode : MembershipMode}
      {nodes : List Node} (hfirst : Spaced Membership text (segment, mode) afterFirst)
      (hrest : Children afterFirst nodes rest) :
      Children text (.membership segment mode :: nodes) rest

inductive Group : Rule Segmentation.Group
  | intro {text afterHead afterChildren rest : List Char} {group : Segmentation.Group}
      (hhead : GroupHead text group.connective afterHead)
      (hchildren : Children afterHead group.children afterChildren)
      (hclose : Spaced (Mark "\x7d") afterChildren () rest) : Group text group rest

/-! ## Statements and segments -/

inductive Statement : Rule Language.Statement
  | description {text afterWord rest : List Char} {value : String}
      (hword : Keyword "description" text () afterWord) (h : Spaced Quoted afterWord value rest) :
      Statement text (.description value) rest
  | dataset {text afterWord rest : List Char} {value : String}
      (hword : Keyword "dataset" text () afterWord) (h : Spaced Name afterWord value rest) :
      Statement text (.dataset value) rest
  | connective {text afterWord rest : List Char} {value : Connective}
      (hword : Keyword "match" text () afterWord) (h : Spaced ConnectiveWord afterWord value rest) :
      Statement text (.connective value) rest
  | condition {text rest : List Char} {value : Condition} (h : Where text value rest) :
      Statement text (.condition value) rest
  | group {text rest : List Char} {value : Segmentation.Group} (h : Group text value rest) :
      Statement text (.group value) rest
  | membership {text rest : List Char} {segment : SegmentRef} {mode : MembershipMode}
      (h : Membership text (segment, mode) rest) : Statement text (.membership segment mode) rest

inductive Statements : Rule (List Language.Statement)
  | nil (rest : List Char) : Statements rest [] rest
  | cons {text afterFirst rest : List Char} {first : Language.Statement}
      {statements : List Language.Statement} (hfirst : Spaced Statement text first afterFirst)
      (hrest : Statements afterFirst statements rest) :
      Statements text (first :: statements) rest

/-- A whole text is a segment of a name with some statements. -/
inductive Segment : List Char → String → List Language.Statement → Prop
  | intro {text afterWord afterName afterOpen afterStatements afterClose : List Char}
      {name : String} {statements : List Language.Statement}
      (hsegment : Spaced (Keyword "segment") text () afterWord)
      (hname : Spaced Quoted afterWord name afterName)
      (hopen : Spaced (Mark "\x7b") afterName () afterOpen)
      (hstatements : Statements afterOpen statements afterStatements)
      (hclose : Spaced (Mark "\x7d") afterStatements () afterClose)
      (hend : Layout afterClose []) : Segment text name statements

end Segmentation.Language.Written
