import Segmentation.Compilation
import Segmentation.Proofs.Definition

/-!
# Rules of translation

Which test a condition stands for, and which one a membership, said apart from compilation.
Operators fall into four families, and a table says to which family each of them belongs.  Every
family has one rule for the test and its operands, and memberships have one of their own.
Compilation writes the tests that these rules ask for.
-/

namespace Segmentation

/-! ## Number fields -/

namespace Dataset

variable {dataset : Dataset} {field : String}

/-- A field is a number if the first attribute of its name is declared as one. -/
def IsNumber (dataset : Dataset) (field : String) : Prop :=
  ∃ before after, dataset.attributes = before ++ ⟨field, .number⟩ :: after ∧
    ∀ declared ∈ before, declared.name ≠ field

theorem typeOf_eq_number_iff : dataset.typeOf field = .number ↔ dataset.IsNumber field := by
  rw [typeOf]
  constructor
  · intro hnumber
    split at hnumber
    · contradiction
    · next declared hfind =>
        obtain ⟨hname, before, after, hattributes, hbefore⟩ :=
          List.find?_eq_some_iff_append.1 hfind
        obtain ⟨name, type⟩ := declared
        obtain rfl : name = field := eq_of_beq hname
        obtain rfl : type = .number := hnumber
        exact ⟨before, after, hattributes, by simpa using hbefore⟩
  · rintro ⟨before, after, hattributes, hbefore⟩
    have hfind : dataset.attributes.find? (fun declared => declared.name == field) =
        some ⟨field, .number⟩ :=
      List.find?_eq_some_iff_append.2
        ⟨beq_self_eq_true field, before, after, hattributes, by simpa using hbefore⟩
    rw [hfind]

instance (dataset : Dataset) (field : String) : Decidable (dataset.IsNumber field) :=
  decidable_of_iff _ typeOf_eq_number_iff

end Dataset

/-! ## Conditions -/

/-- The families of operators. -/
inductive Operator.Family
  | comparison (comparison : Sql.Comparison)
  /-- A pattern that is open at its start, at its end or at both, and may be ruled out. -/
  | pattern (openStart openEnd negated : Bool)
  | nullTest (negated : Bool)
  | range

def Operator.family : Operator → Family
  | .equals => .comparison .eq
  | .notEquals => .comparison .neq
  | .greaterThan => .comparison .gt
  | .lessThan => .comparison .lt
  | .contains => .pattern true true false
  | .notContains => .pattern true true true
  | .startsWith => .pattern false true false
  | .endsWith => .pattern true false false
  | .isNull => .nullTest false
  | .isNotNull => .nullTest true
  | .between => .range

namespace Condition

/-- An operand of the field of a condition: a number if the field is one, else the text itself. -/
def typedOperand (dataset : Dataset) (condition : Condition) (operand : Option String) :
    Sql.Value :=
  if dataset.IsNumber condition.field then .ofTyped (operand.getD "")
  else .text (operand.getD "")

/-- What stands for a character in a pattern: the character, behind the escape character if it
would mean something else there. -/
def patternChar (c : Char) : List Char :=
  if c ∈ ['%', '_', '\\'] then ['\\', c] else [c]

/-- The pattern for the value of a condition, with anything before it, after it, or both. -/
def pattern (openStart openEnd : Bool) (condition : Condition) : String :=
  let anything (isOpen : Bool) : List Char := if isOpen then ['%'] else []
  let value := (condition.value.getD "").toList
  String.ofList (anything openStart ++ value.flatMap patternChar ++ anything openEnd)

/-- The test that a condition stands for, by the family of its operator. -/
def test (dataset : Dataset) (condition : Condition) : Sql.Predicate :=
  match condition.operator.family with
  | .comparison comparison =>
    .compare condition.field comparison (condition.typedOperand dataset condition.value)
  | .pattern openStart openEnd negated =>
    .like condition.field (condition.pattern openStart openEnd) negated
  | .nullTest negated => .isNull condition.field negated
  | .range =>
    .between condition.field (condition.typedOperand dataset condition.value)
      (condition.typedOperand dataset condition.upper)

end Condition

/-! ## Memberships -/

namespace MembershipTable

/-- Where the members of a segment are listed. -/
def lookup (table : MembershipTable) (segment : SegmentRef) : Sql.MemberLookup where
  table := table.table
  segmentColumn := table.segmentColumn
  keyColumn := table.keyColumn
  segmentId := segment.id

/-- The test that a membership stands for: the key of a record has to be among the members of an
included segment, and must not be among those of an excluded one. -/
def test (table : MembershipTable) (key : String) : SegmentRef × MembershipMode → Sql.Predicate
  | (segment, .incl) => .member key (table.lookup segment) false
  | (segment, .excl) => .member key (table.lookup segment) true

end MembershipTable

/-! ## What compilation writes -/

namespace Compilation

variable (dataset : Dataset)

theorem typedValue_getD (condition : Condition) (operand : Option String) :
    typedValue (dataset.typeOf condition.field) (operand.getD "") =
      condition.typedOperand dataset operand := by
  simp only [typedValue, Condition.typedOperand, ← Dataset.typeOf_eq_number_iff]
  cases dataset.typeOf condition.field <;> rfl

theorem likePattern_getD (openStart openEnd : Bool) (condition : Condition) :
    likePattern openStart openEnd (condition.value.getD "") =
      condition.pattern openStart openEnd := by
  have hescape : escapePattern = List.flatMap Condition.patternChar := by
    funext raw
    rw [escapePattern]
    congr 1
    funext c
    have hmem : c ∈ ['%', '_', '\\'] ↔ c = '\\' ∨ c = '%' ∨ c = '_' := by
      simp only [List.mem_cons, List.not_mem_nil, or_false]
      grind
    simp only [Condition.patternChar, hmem]
  rw [likePattern, hescape, Condition.pattern]

theorem conditionPredicate_eq_test (condition : Condition) :
    conditionPredicate dataset condition = condition.test dataset := by
  unfold conditionPredicate Condition.test Operator.family
  simp only [Condition.presentValue, Condition.presentUpper, Condition.getD_present,
    typedValue_getD, likePattern_getD]
  cases condition.operator <;> rfl

theorem memberPredicate_eq_test (table : MembershipTable) (entry : SegmentRef × MembershipMode) :
    memberPredicate dataset table entry = table.test dataset.keyColumn entry := by
  obtain ⟨segment, mode⟩ := entry
  cases mode <;> rfl

end Compilation

end Segmentation
