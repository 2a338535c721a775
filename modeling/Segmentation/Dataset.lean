/-!
# Datasets

A dataset is a table of records: where it lies, which column identifies a record
and which type each attribute has.
-/

namespace Segmentation

inductive AttributeType
  | text
  | number
  | date
  | boolean
deriving DecidableEq, Inhabited

namespace AttributeType

def name : AttributeType → String
  | text => "text"
  | number => "number"
  | date => "date"
  | boolean => "boolean"

def named : List (String × AttributeType) :=
  [text, number, date, boolean].map fun type => (type.name, type)

def isNumeric : AttributeType → Bool
  | number => true
  | _ => false

end AttributeType

structure Attribute where
  name : String
  type : AttributeType
deriving DecidableEq

def defaultKeyColumn : String := "customer_id"

structure Dataset where
  name : String
  schema : Option String := none
  keyColumn : String := defaultKeyColumn
  attributes : List Attribute := []
deriving DecidableEq

namespace Dataset

/-- The schema that needs no mention in a table name. -/
def defaultSchema : String := "public"

/-- The type of a field: that of the first attribute of its name, and text for a
field that is not declared. -/
def typeOf (dataset : Dataset) (field : String) : AttributeType :=
  match dataset.attributes.find? fun declared => declared.name == field with
  | none => .text
  | some declared => declared.type

/-- The schema by which the table name is qualified. -/
def qualifyingSchema (dataset : Dataset) : Option String :=
  dataset.schema.filter fun schema => !schema.isEmpty && schema != defaultSchema

end Dataset

end Segmentation
