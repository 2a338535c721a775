import Segmentation.Compilation
import Segmentation.Digest.Blake3

/-!
# Cache keys

A key holds everything that the query of a definition depends on.  It is written
as bytes field by field; lists and texts begin with their length, choices with
their place among the alternatives, so that every part shows where it ends.  The
digest of the bytes stands for the key.
-/

namespace Segmentation

structure CacheKey where
  dataset : Dataset
  connective : Connective
  conditions : List Condition
  groups : List Group
  inclusions : List SegmentRef
  exclusions : List SegmentRef
  membership : MembershipTable
  dialect : Sql.Dialect
  cap : Sql.RowCap

namespace CacheKey

/-- The key of a definition's query. -/
def of (dataset : Dataset) (definition : Definition) (settings : Settings) (cap : Sql.RowCap) :
    CacheKey where
  dataset := dataset
  connective := definition.connective
  conditions := definition.conditions
  groups := definition.groups
  inclusions := definition.memberships.inclusions
  exclusions := definition.memberships.exclusions
  membership := settings.membership
  dialect := settings.dialect
  cap := cap

/-! ## Numbers, texts and lists -/

/-- The lowest `width` bytes of a number, the lowest one first. -/
def littleEndian : Nat → Nat → List UInt8
  | 0, _ => []
  | width + 1, n => UInt8.ofNat n :: littleEndian width (n / 256)

/-- A number in groups of seven bits; every byte but the last has its high bit set. -/
def sevenBitGroups (n : Nat) : List UInt8 :=
  if n < 128 then [UInt8.ofNat n]
  else UInt8.ofNat (128 + n % 128) :: sevenBitGroups (n / 128)

/-- A number in one byte if it is small, and otherwise after a mark for its width.
Numbers of more than 64 bits, which only a length could have, are not cut. -/
def number (n : Nat) : List UInt8 :=
  if n < 251 then [UInt8.ofNat n]
  else if n < UInt16.size then 251 :: littleEndian 2 n
  else if n < UInt32.size then 252 :: littleEndian 4 n
  else if n < UInt64.size then 253 :: littleEndian 8 n
  else 254 :: sevenBitGroups n

def text (s : String) : List UInt8 :=
  number s.utf8ByteSize ++ s.toUTF8.data.toList

def list {α : Type} (item : α → List UInt8) (items : List α) : List UInt8 :=
  number items.length ++ items.flatMap item

def option {α : Type} (value : α → List UInt8) : Option α → List UInt8
  | none => [0]
  | some v => 1 :: value v

/-! ## Parts of a key -/

def attributeType : AttributeType → List UInt8
  | .text => [0]
  | .number => [1]
  | .date => [2]
  | .boolean => [3]

def attributeBytes (declared : Attribute) : List UInt8 :=
  text declared.name ++ attributeType declared.type

def datasetBytes (dataset : Dataset) : List UInt8 :=
  text dataset.name ++ option text dataset.schema ++ text dataset.keyColumn
    ++ list attributeBytes dataset.attributes

def connectiveBytes : Connective → List UInt8
  | .all => [0]
  | .any => [1]

def operatorBytes : Operator → List UInt8
  | .equals => [0]
  | .notEquals => [1]
  | .contains => [2]
  | .notContains => [3]
  | .startsWith => [4]
  | .endsWith => [5]
  | .isNull => [6]
  | .isNotNull => [7]
  | .greaterThan => [8]
  | .lessThan => [9]
  | .between => [10]

def conditionBytes (condition : Condition) : List UInt8 :=
  text condition.field ++ operatorBytes condition.operator ++ option text condition.value
    ++ option text condition.upper

def segmentBytes (segment : SegmentRef) : List UInt8 :=
  text segment.id ++ text segment.name ++ number segment.count.toNat

def modeBytes : MembershipMode → List UInt8
  | .incl => [0]
  | .excl => [1]

mutual

/-- A node begins with the name of its kind. -/
def nodeBytes : Node → List UInt8
  | .condition c => text "attribute" ++ conditionBytes c
  | .group connective children =>
    text "group" ++ connectiveBytes connective ++ (number children.length ++ nodesBytes children)
  | .membership segment mode => text "membership" ++ segmentBytes segment ++ modeBytes mode

def nodesBytes : List Node → List UInt8
  | [] => []
  | node :: rest => nodeBytes node ++ nodesBytes rest

end

def groupBytes (group : Group) : List UInt8 :=
  connectiveBytes group.connective ++ list nodeBytes group.children

def membershipTableBytes (table : MembershipTable) : List UInt8 :=
  text table.table ++ text table.segmentColumn ++ text table.keyColumn

def dialectBytes : Sql.Dialect → List UInt8
  | .postgres => [0]
  | .positional => [1]

def capBytes : Sql.RowCap → List UInt8
  | .preview => [0]
  | .materialize limit => 1 :: number limit.toNat

/-- A key as bytes. -/
def encode (key : CacheKey) : List UInt8 :=
  datasetBytes key.dataset ++ connectiveBytes key.connective
    ++ list conditionBytes key.conditions ++ list groupBytes key.groups
    ++ list segmentBytes key.inclusions ++ list segmentBytes key.exclusions
    ++ membershipTableBytes key.membership ++ dialectBytes key.dialect ++ capBytes key.cap

def digest (key : CacheKey) : List UInt8 :=
  Blake3.hash key.encode

end CacheKey

end Segmentation
