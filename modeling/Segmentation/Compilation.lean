import Segmentation.Dataset
import Segmentation.Definition
import Segmentation.Settings
import Segmentation.Sql.Query
import Segmentation.Text.Lowercase

/-!
# Compiling definitions

The plan of a definition for a dataset.  Active conditions and active groups are
joined by the root connective; every membership, wherever it is written, is one
more thing that must hold.
-/

namespace Segmentation

namespace Compilation

/-- A typed operand: a number for a number attribute, text for any other. -/
def typedValue (type : AttributeType) (raw : String) : Sql.Value :=
  if type.isNumeric then Sql.Value.ofTyped raw else .text raw

/-- A text in which the characters that mean something in a pattern stand for themselves. -/
def escapePattern (raw : List Char) : List Char :=
  raw.flatMap fun c => if c = '\\' ∨ c = '%' ∨ c = '_' then ['\\', c] else [c]

/-- The pattern for a text with anything before it, after it, or both. -/
def likePattern (openStart openEnd : Bool) (raw : String) : String :=
  String.ofList ((if openStart then ['%'] else []) ++ escapePattern raw.toList
    ++ (if openEnd then ['%'] else []))

/-- The predicate of an active condition. -/
def conditionPredicate (dataset : Dataset) (condition : Condition) : Sql.Predicate :=
  let column := condition.field
  let typed := typedValue (dataset.typeOf condition.field)
  let value := condition.presentValue.getD ""
  let upper := condition.presentUpper.getD ""
  match condition.operator with
  | .equals => .compare column .eq (typed value)
  | .notEquals => .compare column .neq (typed value)
  | .greaterThan => .compare column .gt (typed value)
  | .lessThan => .compare column .lt (typed value)
  | .contains => .like column (likePattern true true value) false
  | .notContains => .like column (likePattern true true value) true
  | .startsWith => .like column (likePattern false true value) false
  | .endsWith => .like column (likePattern true false value) false
  | .isNull => .isNull column false
  | .isNotNull => .isNull column true
  | .between => .between column (typed value) (typed upper)

def join : Connective → List Sql.Predicate → Sql.Predicate
  | .all => Sql.Predicate.all
  | .any => Sql.Predicate.any

mutual

/-- The predicate of a child, if it takes part in its group. -/
def nodePredicate? (dataset : Dataset) : Node → Option Sql.Predicate
  | .condition c => if c.isActive then some (conditionPredicate dataset c) else none
  | .group connective children =>
    if Node.anyActive children then some (join connective (nodePredicates dataset children))
    else none
  | .membership _ _ => none

def nodePredicates (dataset : Dataset) : List Node → List Sql.Predicate
  | [] => []
  | node :: rest => (nodePredicate? dataset node).toList ++ nodePredicates dataset rest

end

def groupPredicate (dataset : Dataset) (group : Group) : Sql.Predicate :=
  join group.connective (nodePredicates dataset group.children)

def memberPredicate (dataset : Dataset) (table : MembershipTable) :
    SegmentRef × MembershipMode → Sql.Predicate
  | (segment, mode) =>
    .member dataset.keyColumn
      { table := table.table
        segmentColumn := table.segmentColumn
        keyColumn := table.keyColumn
        segmentId := segment.id }
      (mode = .excl)

/-- The active conditions and groups of a definition, in order. -/
def clauses (dataset : Dataset) (definition : Definition) : List Sql.Predicate :=
  definition.activeConditions.map (conditionPredicate dataset)
    ++ definition.activeGroups.map (groupPredicate dataset)

/-- The clauses joined by the root connective, as parts that must all hold. -/
def rootParts (dataset : Dataset) (definition : Definition) : List Sql.Predicate :=
  match definition.connective with
  | .all => clauses dataset definition
  | .any => [Sql.Predicate.any (clauses dataset definition)]

def predicate (dataset : Dataset) (definition : Definition) (table : MembershipTable) :
    Sql.Predicate :=
  Sql.Predicate.all (rootParts dataset definition
    ++ definition.allMemberships.toList.map (memberPredicate dataset table))

end Compilation

def Dataset.tableRef (dataset : Dataset) : Sql.TableRef where
  schema := dataset.qualifyingSchema
  name := Text.lowercase dataset.name

/-- The plan of a definition. -/
def Definition.toPlan (definition : Definition) (dataset : Dataset) (table : MembershipTable)
    (cap : Sql.RowCap) : Sql.Plan where
  table := dataset.tableRef
  predicate := Compilation.predicate dataset definition table
  limit := cap.rows

/-- The query of a definition. -/
def Definition.toQuery (definition : Definition) (dataset : Dataset) (settings : Settings)
    (cap : Sql.RowCap) : Sql.Query :=
  (definition.toPlan dataset settings.membership cap).toQuery settings.dialect

end Segmentation
