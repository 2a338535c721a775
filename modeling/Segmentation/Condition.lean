import Segmentation.Text.Quoted

/-!
# Conditions

A condition compares one field of a record with operands given as text.  It
counts only while it is complete: an incomplete condition is inactive and takes
no part in what a definition means.
-/

namespace Segmentation

inductive Operator
  | equals
  | notEquals
  | contains
  | notContains
  | startsWith
  | endsWith
  | isNull
  | isNotNull
  | greaterThan
  | lessThan
  | between
deriving DecidableEq, Inhabited

namespace Operator

def all : List Operator :=
  [equals, notEquals, contains, notContains, startsWith, endsWith, isNull, isNotNull,
   greaterThan, lessThan, between]

def name : Operator → String
  | equals => "equals"
  | notEquals => "not_equals"
  | contains => "contains"
  | notContains => "not_contains"
  | startsWith => "starts_with"
  | endsWith => "ends_with"
  | isNull => "is_null"
  | isNotNull => "is_not_null"
  | greaterThan => "greater_than"
  | lessThan => "less_than"
  | between => "between"

/-- The operators under their names. -/
def named : List (String × Operator) :=
  all.map fun op => (op.name, op)

def ofName? (name : String) : Option Operator :=
  named.lookup name

/-- Whether the operator compares with a value. -/
def needsValue : Operator → Bool
  | isNull | isNotNull => false
  | _ => true

/-- Whether the operator compares with an upper bound as well. -/
def needsUpper : Operator → Bool
  | between => true
  | _ => false

end Operator

structure Condition where
  field : String
  operator : Operator
  value : Option String
  /-- The upper bound of a range. -/
  upper : Option String
deriving DecidableEq, Inhabited

namespace Condition

/-- The condition on `field` that holds as many of the two operands as its operator takes. -/
def on (field : String) (operator : Operator) (first second : String) : Condition where
  field := field
  operator := operator
  value := if operator.needsValue then some first else none
  upper := if operator.needsUpper then some second else none

/-- An operand that is given and not empty. -/
def present : Option String → Option String
  | none => none
  | some text => if text.isEmpty then none else some text

def presentValue (condition : Condition) : Option String :=
  present condition.value

def presentUpper (condition : Condition) : Option String :=
  present condition.upper

/-- A condition is active when it names a field and has the operands that its
operator compares with. -/
def isActive (condition : Condition) : Bool :=
  !condition.field.isEmpty
    && (!condition.operator.needsValue || condition.presentValue.isSome)
    && (!condition.operator.needsUpper || condition.presentUpper.isSome)

/-- The condition as a line of text. -/
def describe (condition : Condition) : String :=
  let value := match condition.value with
    | none => ""
    | some value => " " ++ Text.quoted value
  let upper := match condition.upper with
    | none => ""
    | some upper => if condition.operator.needsUpper then " and " ++ Text.quoted upper else ""
  condition.field ++ " " ++ condition.operator.name ++ value ++ upper

end Condition

end Segmentation
