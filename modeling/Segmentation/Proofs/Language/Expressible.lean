import Segmentation.Proofs.Language.Acceptance
import Segmentation.Proofs.Language.WellShaped

/-!
# What the language can express

A way of writing a definition: every word stands after one blank, every name and value
is quoted, and every membership has its name and count.  Each function takes the text
that is to follow.  A blank follows whatever is written, so no word runs into the next
one, and a well-shaped definition is read back from what is written for it.
-/

namespace Segmentation.Language

open Written

variable {rest : List Char}

/-! ## Words -/

def writeWord (word : String) (rest : List Char) : List Char :=
  ' ' :: (word.toList ++ rest)

/-- Only a quote and a backslash are escaped. -/
def escape (c : Char) : List Char :=
  if c = '"' ∨ c = '\\' then ['\\', c] else [c]

def writeQuoted (content : String) (rest : List Char) : List Char :=
  ' ' :: '"' :: (content.toList.flatMap escape ++ '"' :: rest)

def writeCount (count : UInt64) (rest : List Char) : List Char :=
  ' ' :: (Nat.toDigits 10 count.toNat ++ rest)

def connectiveWord : Connective → String
  | .all => "all"
  | .any => "any"

/-- A text that begins with a blank. -/
def BeginsBlank (text : List Char) : Prop :=
  ∃ tail, text = ' ' :: tail

theorem beginsBlank_writeWord (word : String) (rest : List Char) :
    BeginsBlank (writeWord word rest) :=
  ⟨_, rfl⟩

theorem beginsBlank_writeQuoted (content : String) (rest : List Char) :
    BeginsBlank (writeQuoted content rest) :=
  ⟨_, rfl⟩

theorem BeginsBlank.stopsAt (h : BeginsBlank rest) {inClass : Char → Bool}
    (hblank : inClass ' ' = false) : StopsAt inClass rest := by
  obtain ⟨tail, rfl⟩ := h
  rintro c cs heq
  rw [← (List.cons.inj heq).1]
  exact hblank

theorem spaced_of_blank {α : Type} {rule : Rule α} {text : List Char} {value : α}
    (h : rule text value rest) : Spaced rule (' ' :: text) value rest :=
  ⟨text, .blank rfl (.none text), h⟩

theorem keyword_writeWord (word : String) (h : BeginsBlank rest) :
    Spaced (Keyword word) (writeWord word rest) () rest :=
  spaced_of_blank ⟨rfl, h.stopsAt rfl⟩

theorem mark_writeWord (word : String) : Spaced (Mark word) (writeWord word rest) () rest :=
  spaced_of_blank rfl

theorem content_escape (content : List Char) : Content (content.flatMap escape) content := by
  induction content with
  | nil => exact .nil
  | cons c content ih =>
      rw [List.flatMap_cons, escape]
      split
      · next hescape =>
          obtain rfl | rfl := hescape
          · exact .escape ih
          · exact .escape ih
      · next hplain =>
          rw [not_or] at hplain
          exact .plain hplain.1 hplain.2 ih

theorem quoted_writeQuoted (content : String) (rest : List Char) :
    Spaced Quoted (writeQuoted content rest) content rest := by
  have h : Quoted ('"' :: (content.toList.flatMap escape ++ '"' :: rest))
      (String.ofList content.toList) rest := .intro (content_escape content.toList)
  rw [String.ofList_toList] at h
  exact spaced_of_blank h

theorem name_writeQuoted (content : String) (rest : List Char) :
    Spaced Name (writeQuoted content rest) content rest := by
  obtain ⟨inner, hlayout, hquoted⟩ := quoted_writeQuoted content rest
  exact ⟨inner, hlayout, .inl hquoted⟩

theorem value_writeQuoted (content : String) (rest : List Char) :
    Spaced Value (writeQuoted content rest) content rest := by
  obtain ⟨inner, hlayout, hquoted⟩ := quoted_writeQuoted content rest
  exact ⟨inner, hlayout, .inl hquoted⟩

theorem count_writeCount (count : UInt64) (rest : List Char) :
    Spaced Count (writeCount count rest) count rest :=
  spaced_of_blank (.intro count rest)

theorem connective_writeWord (op : Connective) (h : BeginsBlank rest) :
    Spaced ConnectiveWord (writeWord (connectiveWord op) rest) op rest := by
  cases op with
  | all => exact spaced_of_blank (.all ⟨rfl, h.stopsAt rfl⟩)
  | any => exact spaced_of_blank (.any ⟨rfl, h.stopsAt rfl⟩)

theorem identifier_of_word {word : String} {c : Char} {cs : List Char}
    (hword : word.toList = c :: cs) (hstart : isIdentifierStart c)
    (hrest : cs.all isIdentifierRest) (h : BeginsBlank rest) :
    Identifier (word.toList ++ rest) word rest := by
  have hidentifier := Identifier.intro hstart (List.all_eq_true.1 hrest) (h.stopsAt rfl)
  rwa [← List.cons_append, ← hword, String.ofList_toList] at hidentifier

theorem operator_writeWord (op : Operator) (h : BeginsBlank rest) :
    Spaced OperatorWord (writeWord op.name rest) op rest := by
  apply spaced_of_blank
  apply OperatorWord.named
  cases op <;> exact identifier_of_word rfl rfl rfl h

/-! ## Conditions and memberships -/

def writeOperands : Option String → Option String → List Char → List Char
  | none, _, rest => rest
  | some low, none, rest => writeQuoted low rest
  | some low, some high, rest => writeQuoted low (writeWord "and" (writeQuoted high rest))

def writeWhere (condition : Condition) (rest : List Char) : List Char :=
  writeWord "where" <| writeQuoted condition.field <| writeWord condition.operator.name <|
    writeOperands condition.value condition.upper rest

def writeMembership (segment : SegmentRef) (mode : MembershipMode) (rest : List Char) :
    List Char :=
  writeWord mode.name <| writeQuoted segment.id <| writeQuoted segment.name <|
    writeCount segment.count rest

theorem beginsBlank_writeOperands (value upper : Option String) (h : BeginsBlank rest) :
    BeginsBlank (writeOperands value upper rest) := by
  cases value with
  | none => exact h
  | some low =>
      cases upper with
      | none => exact beginsBlank_writeQuoted low rest
      | some high => exact beginsBlank_writeQuoted low _

theorem operands_writeOperands {condition : Condition} (h : condition.HasOperands) :
    Operands condition.operator (writeOperands condition.value condition.upper rest)
      condition.value condition.upper rest := by
  obtain ⟨field, op, value, upper⟩ := condition
  obtain ⟨hvalue, hupper⟩ := Condition.hasOperands_iff.1 h
  cases value with
  | none =>
      cases upper with
      | none => exact .none hvalue.symm
      | some high =>
          rw [Operator.needsValue_of_needsUpper hupper.symm] at hvalue
          contradiction
  | some low =>
      cases upper with
      | none => exact .value hvalue.symm hupper.symm (value_writeQuoted low rest)
      | some high =>
          exact .range hupper.symm (value_writeQuoted low _)
            (keyword_writeWord "and" (beginsBlank_writeQuoted high rest))
            (value_writeQuoted high rest)

theorem where_writeWhere {condition : Condition} (h : condition.HasOperands)
    (hrest : BeginsBlank rest) : Spaced Where (writeWhere condition rest) condition rest :=
  spaced_of_blank <|
    .intro ⟨rfl, (beginsBlank_writeQuoted condition.field _).stopsAt rfl⟩
      (name_writeQuoted condition.field _)
      (operator_writeWord condition.operator (beginsBlank_writeOperands _ _ hrest))
      (operands_writeOperands h)

theorem modeWord_name (mode : MembershipMode) (h : BeginsBlank rest) :
    ModeWord (mode.name.toList ++ rest) mode rest := by
  cases mode with
  | incl => exact .incl ⟨rfl, h.stopsAt rfl⟩
  | excl => exact .excl ⟨rfl, h.stopsAt rfl⟩

theorem membership_writeMembership (segment : SegmentRef) (mode : MembershipMode)
    (rest : List Char) :
    Spaced Written.Membership (writeMembership segment mode rest) (segment, mode) rest :=
  spaced_of_blank <|
    .intro (modeWord_name mode (beginsBlank_writeQuoted segment.id _))
      (quoted_writeQuoted segment.id _) (.present (quoted_writeQuoted segment.name _))
      (.present (count_writeCount segment.count rest))

/-! ## Groups -/

mutual

def writeNode : Node → List Char → List Char
  | .condition condition, rest => writeWhere condition rest
  | .group connective children, rest =>
    writeWord "group" <| writeWord (connectiveWord connective) <| writeWord "\x7b" <|
      writeNodes children <| writeWord "\x7d" rest
  | .membership segment mode, rest => writeMembership segment mode rest

def writeNodes : List Node → List Char → List Char
  | [], rest => rest
  | node :: nodes, rest => writeNode node (writeNodes nodes rest)

end

theorem beginsBlank_writeNodes (nodes : List Node) (h : BeginsBlank rest) :
    BeginsBlank (writeNodes nodes rest) := by
  cases nodes with
  | nil => exact h
  | cons node nodes => cases node <;> exact ⟨_, rfl⟩

theorem groupHead_writeWord (connective : Connective) (rest : List Char) :
    Spaced GroupHead (writeWord "group" <| writeWord (connectiveWord connective) <|
      writeWord "\x7b" rest) connective rest :=
  spaced_of_blank <|
    .intro ⟨rfl, (beginsBlank_writeWord (connectiveWord connective) _).stopsAt rfl⟩
      (connective_writeWord connective (beginsBlank_writeWord "\x7b" rest)) (mark_writeWord "\x7b")

mutual

/-- A node goes before others; its own children are written up to its closing brace. -/
theorem children_writeNode : ∀ (node : Node) {nodes : List Node} {after rest : List Char},
    (∀ condition ∈ node.conditions, condition.HasOperands) → BeginsBlank after →
      Children after nodes rest → Children (writeNode node after) (node :: nodes) rest
  | .condition condition, _, _, _, hoperands, hblank, hrest =>
      .condition (where_writeWhere (hoperands condition (List.mem_singleton_self _)) hblank) hrest
  | .group connective children, _, after, _, hoperands, _, hrest =>
      .group (groupHead_writeWord connective _)
        (children_writeNodes children hoperands (beginsBlank_writeWord "\x7d" after))
        (mark_writeWord "\x7d") hrest
  | .membership segment mode, _, _, _, _, _, hrest =>
      .membership (membership_writeMembership segment mode _) hrest

theorem children_writeNodes : ∀ (nodes : List Node) {rest : List Char},
    (∀ condition ∈ Node.allConditions nodes, condition.HasOperands) → BeginsBlank rest →
      Children (writeNodes nodes rest) nodes rest
  | [], rest, _, _ => .nil rest
  | node :: nodes, rest, hoperands, hblank => by
      rw [Node.allConditions, List.forall_mem_append] at hoperands
      exact children_writeNode node hoperands.1 (beginsBlank_writeNodes nodes hblank)
        (children_writeNodes nodes hoperands.2 hblank)

end

/-! ## Statements -/

def writeStatement : Statement → List Char → List Char
  | .description text, rest => writeWord "description" (writeQuoted text rest)
  | .dataset name, rest => writeWord "dataset" (writeQuoted name rest)
  | .connective op, rest => writeWord "match" (writeWord (connectiveWord op) rest)
  | .condition condition, rest => writeWhere condition rest
  | .group group, rest => writeNode group.toNode rest
  | .membership segment mode, rest => writeMembership segment mode rest

def writeStatements (statements : List Statement) (rest : List Char) : List Char :=
  statements.foldr writeStatement rest

theorem beginsBlank_writeStatements (statements : List Statement) (h : BeginsBlank rest) :
    BeginsBlank (writeStatements statements rest) := by
  cases statements with
  | nil => exact h
  | cons statement statements => cases statement <;> exact ⟨_, rfl⟩

theorem statement_writeStatement {statement : Statement}
    (h : ∀ condition ∈ statement.conditions, condition.HasOperands) (hrest : BeginsBlank rest) :
    Spaced Written.Statement (writeStatement statement rest) statement rest := by
  cases statement with
  | description text =>
      exact spaced_of_blank (.description ⟨rfl, (beginsBlank_writeQuoted text rest).stopsAt rfl⟩
        (quoted_writeQuoted text rest))
  | dataset name =>
      exact spaced_of_blank (.dataset ⟨rfl, (beginsBlank_writeQuoted name rest).stopsAt rfl⟩
        (name_writeQuoted name rest))
  | connective op =>
      exact spaced_of_blank (.connective
        ⟨rfl, (beginsBlank_writeWord (connectiveWord op) rest).stopsAt rfl⟩
        (connective_writeWord op hrest))
  | condition condition =>
      obtain ⟨inner, hlayout, hwhere⟩ :=
        where_writeWhere (h condition (List.mem_singleton_self _)) hrest
      exact ⟨inner, hlayout, .condition hwhere⟩
  | group group =>
      obtain ⟨inner, hlayout, hhead⟩ := groupHead_writeWord group.connective
        (writeNodes group.children (writeWord "\x7d" rest))
      have hchildren := children_writeNodes group.children h (beginsBlank_writeWord "\x7d" rest)
      exact ⟨inner, hlayout, .group (.intro hhead hchildren (mark_writeWord "\x7d"))⟩
  | membership segment mode =>
      obtain ⟨inner, hlayout, hmembership⟩ := membership_writeMembership segment mode rest
      exact ⟨inner, hlayout, .membership hmembership⟩

theorem statements_writeStatements {statements : List Statement}
    (h : ∀ statement ∈ statements, ∀ condition ∈ statement.conditions, condition.HasOperands)
    (hrest : BeginsBlank rest) :
    Statements (writeStatements statements rest) statements rest := by
  induction statements with
  | nil => exact .nil rest
  | cons statement statements ih =>
      rw [List.forall_mem_cons] at h
      exact .cons (statement_writeStatement h.1 (beginsBlank_writeStatements statements hrest))
        (ih h.2)

/-! ## Definitions -/

/-- The statements that give a definition its parts. -/
def statementsOf (definition : Definition) : List Statement :=
  .description definition.description :: .connective definition.connective ::
    (definition.dataset.toList.map .dataset ++ definition.conditions.map .condition ++
      definition.groups.map .group ++
      definition.memberships.inclusions.map (.membership · .incl) ++
      definition.memberships.exclusions.map (.membership · .excl))

def writeDefinition (definition : Definition) : List Char :=
  writeWord "segment" <| writeQuoted definition.name <| writeWord "\x7b" <|
    writeStatements (statementsOf definition) <| writeWord "\x7d" []

theorem filterMap_statementsOf {α : Type} (part? : Statement → Option α)
    (definition : Definition) :
    (statementsOf definition).filterMap part? =
      (part? (.description definition.description)).toList ++
        (part? (.connective definition.connective)).toList ++
        (definition.dataset.toList.filterMap fun name => part? (.dataset name)) ++
        (definition.conditions.filterMap fun condition => part? (.condition condition)) ++
        (definition.groups.filterMap fun group => part? (.group group)) ++
        (definition.memberships.inclusions.filterMap fun segment =>
          part? (.membership segment .incl)) ++
        (definition.memberships.exclusions.filterMap fun segment =>
          part? (.membership segment .excl)) := by
  simp only [statementsOf, filterMap_cons_eq, List.filterMap_append, List.filterMap_map,
    Function.comp_def, List.append_assoc]

/-- The statements of a well-shaped definition denote it. -/
theorem denote_statementsOf {definition : Definition} (h : definition.IsWellShaped) :
    denote definition.name (statementsOf definition) = definition := by
  obtain ⟨_, hinclusions, hexclusions⟩ := h
  have hdataset : definition.dataset.toList.getLast? = definition.dataset := by
    cases definition.dataset <;> rfl
  simp [denote, lastOf, firstMembers, filterMap_statementsOf, Statement.description?,
    Statement.dataset?, Statement.connective?, Statement.condition?, Statement.group?,
    Statement.member?, firstOfEach_eq_self hinclusions, firstOfEach_eq_self hexclusions, hdataset]

theorem hasOperands_statementsOf {definition : Definition} (h : definition.IsWellShaped) :
    ∀ statement ∈ statementsOf definition, ∀ condition ∈ statement.conditions,
      condition.HasOperands := by
  intro statement hstatement condition hcondition
  have hmem : condition ∈ (denote definition.name (statementsOf definition)).allConditions :=
    mem_allConditions_denote_iff.2 ⟨statement, hstatement, hcondition⟩
  rw [denote_statementsOf h] at hmem
  exact h.operands condition hmem

theorem segment_writeDefinition {definition : Definition} (h : definition.IsWellShaped) :
    Segment (writeDefinition definition) definition.name (statementsOf definition) := by
  have hclose := beginsBlank_writeWord "\x7d" []
  exact .intro (keyword_writeWord "segment" (beginsBlank_writeQuoted definition.name _))
    (quoted_writeQuoted definition.name _) (mark_writeWord "\x7b")
    (statements_writeStatements (hasOperands_statementsOf h) hclose) (mark_writeWord "\x7d")
    (.none [])

/-- A definition can be read from some text exactly if it is well shaped. -/
theorem exists_read_eq_ok_iff (definition : Definition) :
    (∃ text, read text = .ok definition) ↔ definition.IsWellShaped := by
  constructor
  · rintro ⟨text, h⟩
    obtain ⟨rest, haccept⟩ := read_eq_ok_iff_wholeText.1 h
    obtain ⟨_, name, statements, hsegment, rfl⟩ := wholeText_eq_accept_iff.1 haccept
    obtain ⟨_, _, _, hstatements, _, _⟩ := hsegment
    exact isWellShaped_denote hstatements
  · intro h
    refine ⟨String.ofList (writeDefinition definition), ?_⟩
    rw [read_eq_ok_iff_wholeText, String.toList_ofList]
    refine ⟨[], wholeText_eq_accept_iff.2 ⟨rfl, _, _, segment_writeDefinition h, ?_⟩⟩
    exact (denote_statementsOf h).symm

end Segmentation.Language
