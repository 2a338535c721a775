import Segmentation.Proofs.Sql.Token

/-!
# Reading statements

The grammar by which a bound statement is read back as a plan.  `AND` binds
tighter than `OR`, parentheses group, and a bare or quoted name is taken wherever
a table or a column is expected, even if it is spelled like a word of the
grammar.  The placeholders stand for the parameters in order, or for the
parameters that their numbers name.
-/

namespace Segmentation.Sql.Reading

/-! ## Placeholders -/

/-- The parameter for which a placeholder stands when `seen` placeholders precede it. -/
def parameter? (params : List Value) (seen : Nat) : Option Nat → Option Value
  | none => params[seen]?
  | some 0 => none
  | some (number + 1) => params[number]?

/-- The tokens with the parameters for which the placeholders stand. -/
def fill? (params : List Value) : Nat → List Token → Option (List Token)
  | _, [] => some []
  | seen, .mark number :: rest => do
    let value ← parameter? params seen number
    let later ← fill? params (seen + 1) rest
    some (.value value :: later)
  | seen, token :: rest => (fill? params seen rest).map (token :: ·)

/-! ## Conditions -/

/-- A token where a name is expected. -/
def name? : Token → Option String
  | .word text => some text
  | .name text => some text
  | _ => none

def comparison? : String → Option Comparison
  | "=" => some .eq
  | "!=" => some .neq
  | ">" => some .gt
  | "<" => some .lt
  | _ => none

/-- What follows `LIKE`. -/
def pattern? (column : String) (negated : Bool) : List Token → Option (Predicate × List Token)
  | .value (.text pattern) :: .word "ESCAPE" :: .text "\\" :: rest =>
    some (.like column pattern negated, rest)
  | _ => none

/-- What follows `IN`. -/
def lookup? (key : String) (negated : Bool) : List Token → Option (Predicate × List Token)
  | .symbol "(" :: .word "SELECT" :: keyColumn :: .word "FROM" :: table :: .word "WHERE"
      :: segmentColumn :: .symbol "=" :: .value (.text segmentId) :: .symbol ")" :: rest => do
    let keyColumn ← name? keyColumn
    let table ← name? table
    let segmentColumn ← name? segmentColumn
    some (.member key { table, segmentColumn, keyColumn, segmentId } negated, rest)
  | _ => none

/-- What follows the column of a condition. -/
def condition? (column : String) : List Token → Option (Predicate × List Token)
  | .symbol symbol :: .value value :: rest =>
    (comparison? symbol).map fun comparison => (.compare column comparison value, rest)
  | .word "BETWEEN" :: .value low :: .word "AND" :: .value high :: rest =>
    some (.between column low high, rest)
  | .word "IS" :: .word "NULL" :: rest => some (.isNull column false, rest)
  | .word "IS" :: .word "NOT" :: .word "NULL" :: rest => some (.isNull column true, rest)
  | .word "LIKE" :: rest => pattern? column false rest
  | .word "NOT" :: .word "LIKE" :: rest => pattern? column true rest
  | .word "IN" :: rest => lookup? column false rest
  | .word "NOT" :: .word "IN" :: rest => lookup? column true rest
  | _ => none

/-! ## Joins -/

/-- Operands with a word between them, at most `count` of them. -/
def operands? (word : String) (operand? : List Token → Option (Predicate × List Token)) :
    Nat → List Token → Option (List Predicate × List Token)
  | 0, _ => none
  | count + 1, tokens => do
    let (first, rest) ← operand? tokens
    if rest.head? = some (.word word) then
      let (later, rest) ← operands? word operand? count rest.tail
      some (first :: later, rest)
    else some ([first], rest)

/-- Operands joined by a word; a single operand is no join. -/
def join? (word : String) (join : List Predicate → Predicate)
    (operand? : List Token → Option (Predicate × List Token)) (tokens : List Token) :
    Option (Predicate × List Token) :=
  (operands? word operand? tokens.length tokens).map fun (parts, rest) =>
    (Predicate.collapse join parts, rest)

def disjunction? (operand? : List Token → Option (Predicate × List Token)) :
    List Token → Option (Predicate × List Token) :=
  join? "OR" .or (join? "AND" .and operand?)

/-- A condition or a disjunction in parentheses, nested less than `depth` times. -/
def operand? : Nat → List Token → Option (Predicate × List Token)
  | 0, _ => none
  | depth + 1, .symbol "(" :: rest => do
    let (predicate, rest) ← disjunction? (operand? depth) rest
    if rest.head? = some (.symbol ")") then some (predicate, rest.tail) else none
  | _ + 1, .number "1" :: .symbol "=" :: .number "1" :: rest => some (.always, rest)
  | _ + 1, column :: rest => do condition? (← name? column) rest
  | _ + 1, [] => none

/-! ## Statements -/

def table? : List Token → Option (TableRef × List Token)
  | schema :: .symbol "." :: name :: rest => do
    some ({ schema := some (← name? schema), name := ← name? name }, rest)
  | name :: rest => do some ({ schema := none, name := ← name? name }, rest)
  | [] => none

/-- A limit in decimal digits. -/
def limit? (text : String) : Option UInt32 :=
  let limit := Nat.ofDigitChars 10 text.toList 0
  if text.toList.all Char.isDigit && limit < UInt32.size then some (UInt32.ofNat limit) else none

def plan? : List Token → Option Plan
  | .word "SELECT" :: .symbol "*" :: .word "FROM" :: rest => do
    let (table, rest) ← table? rest
    if rest.head? = some (.word "WHERE") then
      let (predicate, rest) ← disjunction? (operand? rest.length) rest.tail
      match rest with
      | [.word "LIMIT", .number text] => some { table, predicate, limit := ← limit? text }
      | _ => none
    else none
  | _ => none

/-- The plan as which a bound statement is read. -/
def read? (sql : String) (params : List Value) : Option Plan := do
  plan? (← fill? params 0 (← tokenize? sql))

end Segmentation.Sql.Reading
