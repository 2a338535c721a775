import Segmentation.Definition
import Segmentation.Language.Lexeme

/-!
# The segment language

A text of the language is one segment: its name and a block of statements.  A
keyword decides what follows it, so after a keyword a missing operand is a
failure; a statement that does not begin with a keyword is refused, and the
closing brace is looked for instead.
-/

namespace Segmentation.Language

open Reader

/-- A reader after layout. -/
def spaced {α : Type} (reader : Reader α) : Reader α := do
  layout
  reader

def whereClause : Reader Condition := do
  keyword "where"
  let field ← must (some .fieldName) (spaced name)
  let operator ← must (some .operator) (spaced operator)
  if !operator.needsValue then
    return { field, operator, value := none, upper := none }
  let low ← must (some .value) (spaced value)
  if !operator.needsUpper then
    return { field, operator, value := some low, upper := none }
  let high ← must (some .upperBound) (do spaced (keyword "and"); spaced value)
  return { field, operator, value := some low, upper := some high }

/-- A membership: the identifier of a segment, and its name and count if they are given. -/
def membership : Reader (SegmentRef × MembershipMode) := do
  let mode ← membershipMode
  let id ← must (some .segmentId) (spaced quoted)
  let name ← optional (spaced quoted)
  let count ← optional (spaced count)
  return ({ id, name := name.getD id, count := count.getD 0 }, mode)

/-- A group in which at most `depth` groups are nested in each other. -/
def groupUpTo : Nat → Reader Group
  | 0 => fun text => .refuse text
  | depth + 1 => do
    keyword "group"
    let connective ← must (some .groupConnective) (spaced connective)
    must (some .openingBrace) (spaced (literal "\x7b"))
    let children ← many (spaced (
      orElse (do return .condition (← whereClause)) <|
      orElse (do return (← groupUpTo depth).toNode) <|
      (do
        let (segment, mode) ← membership
        return .membership segment mode)))
    must (some .groupItem) (spaced (literal "\x7d"))
    return { connective, children }

/-- A group; each of the groups nested in it takes up a part of the text. -/
def group : Reader Group :=
  fun text => groupUpTo text.length text

inductive Statement
  | description (text : String)
  | dataset (name : String)
  | connective (connective : Connective)
  | condition (condition : Condition)
  | group (group : Group)
  | membership (segment : SegmentRef) (mode : MembershipMode)

/-- The definition after one more statement. -/
def Statement.addTo (definition : Definition) : Statement → Definition
  | .description text => { definition with description := text }
  | .dataset name => { definition with dataset := some name }
  | .connective op => { definition with connective := op }
  | .condition c => { definition with conditions := definition.conditions ++ [c] }
  | .group g => { definition with groups := definition.groups ++ [g] }
  | .membership segment mode =>
    { definition with memberships := (definition.memberships.add segment mode).1 }

def statement : Reader Statement :=
  spaced <|
  orElse (do keyword "description"; return .description (← must none (spaced quoted))) <|
  orElse (do keyword "dataset"; return .dataset (← must none (spaced name))) <|
  orElse (do keyword "match"; return .connective (← must none (spaced connective))) <|
  orElse (do return .condition (← whereClause)) <|
  orElse (do return .group (← group)) <|
  (do
    let (segment, mode) ← membership
    return .membership segment mode)

/-- A segment with the layout before and after it. -/
def segment : Reader Definition := do
  must (some .segmentKeyword) (spaced (keyword "segment"))
  let name ← must (some .segmentName) (spaced quoted)
  must (some .openingBrace) (spaced (literal "\x7b"))
  let statements ← many statement
  must (some .statement) (spaced (literal "\x7d"))
  layout
  return statements.foldl Statement.addTo { name }

/-- Refuses where text is left. -/
def endOfText : Reader Unit :=
  fun text => if text.isEmpty then .accept () text else .refuse text

/-- A segment that takes up a whole text. -/
def wholeText : Reader Definition := do
  let definition ← segment
  endOfText
  return definition

end Segmentation.Language
