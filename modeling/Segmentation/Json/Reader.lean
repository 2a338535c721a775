import Segmentation.Json.Basic
import Segmentation.Number.Numeral

/-!
# Reading JSON

A reader takes the characters ahead and gives a value with what follows it, or
nothing.  Arrays and objects may lie at most `nestingLimit` deep in each other.
-/

namespace Segmentation.Json

/-- How deep arrays and objects may be nested. -/
def nestingLimit : Nat := 127

def isSpace (c : Char) : Bool :=
  c = ' ' || c = '\n' || c = '\t' || c = '\r'

def skipSpace (text : List Char) : List Char :=
  text.dropWhile isSpace

/-! ## Numbers -/

def maxSignificand : Nat := UInt64.size - 1

/-- The digits before a point as a significand and a power of ten: once a digit no
longer fits, it and all after it only raise the power. -/
def absorbWhole : Nat → List Char → Nat × Nat
  | significand, [] => (significand, 0)
  | significand, c :: rest =>
    let next := 10 * significand + (c.toNat - '0'.toNat)
    if next ≤ maxSignificand then absorbWhole next rest else (significand, rest.length + 1)

/-- The digits after a point: once a digit no longer fits, it and all after it are
dropped.  The count is that of the digits kept. -/
def absorbFraction : Nat → List Char → Nat × Nat
  | significand, [] => (significand, 0)
  | significand, c :: rest =>
    let next := 10 * significand + (c.toNat - '0'.toNat)
    if next ≤ maxSignificand then
      ((absorbFraction next rest).1, (absorbFraction next rest).2 + 1)
    else (significand, 0)

def powerOfTenRank (power : Nat) : Nat :=
  Double.nearestDecimalRank 1 power

/-- A significand times a power of ten, where the significand and the power are
rounded to doubles first.  A power below `10 ^ (-308)` is divided out in two steps;
a number too large for a double is refused. -/
def scaleRank? (significand : Nat) (power : Int) : Option Nat :=
  let rank := Double.nearestRank significand 1
  match power with
  | .ofNat p =>
    if p ≤ 308 then
      let product := Double.mulRank rank (powerOfTenRank p)
      if product < Double.infinityRank then some product else none
    else if significand = 0 then some 0
    else none
  | .negSucc p =>
    if p < 308 then some (Double.divRank rank (powerOfTenRank (p + 1)))
    else if p < 616 then
      some (Double.divRank (Double.divRank rank (powerOfTenRank 308)) (powerOfTenRank (p - 307)))
    else some 0

def real? (numeral : Numeral) : Option Json :=
  let (whole, raised) := absorbWhole 0 numeral.whole
  let (significand, lowered) := absorbFraction whole (numeral.fraction.getD [])
  let power := numeral.powerValue + raised - lowered
  (scaleRank? significand power).map fun rank => .real ⟨numeral.negative, rank⟩

/-- The value of a numeral: an integer if it is spelled as one, is not a negative
zero and has 64 bits. -/
def number? (numeral : Numeral) : Option Json :=
  if numeral.isInteger then
    let value := numeral.integerValue
    if numeral.negative then
      if value < 0 ∧ Int64.minValue.toInt ≤ value then some (.integer value) else real? numeral
    else if value ≤ maxSignificand then some (.integer value)
    else real? numeral
  else real? numeral

/-- The longest run of characters at the start that can belong to a numeral. -/
def numeralRun (text : List Char) : List Char × List Char :=
  let inNumeral (c : Char) : Bool :=
    c.isDigit || c = '-' || c = '+' || c = '.' || c = 'e' || c = 'E'
  (text.takeWhile inNumeral, text.dropWhile inNumeral)

/-- The spelling rules that are JSON's own: no plus sign in front, digits on both
sides of a point, and no zero before other digits. -/
def isStrict (spelling : List Char) (numeral : Numeral) : Bool :=
  spelling.head? != some '+' && !numeral.whole.isEmpty && numeral.fraction != some []
    && (numeral.whole.length ≤ 1 || numeral.whole.head? != some '0')

def readNumber? (text : List Char) : Option (Json × List Char) :=
  let (spelling, rest) := numeralRun text
  match Numeral.read? spelling with
  | none => none
  | some numeral =>
    if isStrict spelling numeral then (number? numeral).map fun value => (value, rest) else none

/-! ## Texts -/

def hexValue? (c : Char) : Option Nat :=
  if '0' ≤ c ∧ c ≤ '9' then some (c.toNat - '0'.toNat)
  else if 'a' ≤ c ∧ c ≤ 'f' then some (c.toNat - 'a'.toNat + 10)
  else if 'A' ≤ c ∧ c ≤ 'F' then some (c.toNat - 'A'.toNat + 10)
  else none

def codeUnit? (a b c d : Char) : Option Nat := do
  return ((← hexValue? a) * 16 + (← hexValue? b)) * 256 + ((← hexValue? c) * 16 + (← hexValue? d))

def simpleEscape? : Char → Option Char
  | '"' => some '"'
  | '\\' => some '\\'
  | '/' => some '/'
  | 'b' => some '\x08'
  | 'f' => some '\x0c'
  | 'n' => some '\n'
  | 'r' => some '\r'
  | 't' => some '\t'
  | _ => none

def isLeadingSurrogate (unit : Nat) : Bool :=
  0xd800 ≤ unit && unit < 0xdc00

def isTrailingSurrogate (unit : Nat) : Bool :=
  0xdc00 ≤ unit && unit < 0xe000

def addChar (c : Char) : Option (List Char × List Char) → Option (List Char × List Char)
  | none => none
  | some (text, rest) => some (c :: text, rest)

/-- The characters up to the closing quote, and what follows it. -/
def readText? : List Char → Option (List Char × List Char)
  | [] => none
  | '"' :: rest => some ([], rest)
  | '\\' :: 'u' :: a :: b :: c :: d :: rest =>
    match codeUnit? a b c d with
    | none => none
    | some unit =>
      if isTrailingSurrogate unit then none
      else if isLeadingSurrogate unit then
        match rest with
        | '\\' :: 'u' :: a' :: b' :: c' :: d' :: rest' =>
          match codeUnit? a' b' c' d' with
          | none => none
          | some unit' =>
            if isTrailingSurrogate unit' then
              let point := 0x10000 + (unit - 0xd800) * 0x400 + (unit' - 0xdc00)
              addChar (Char.ofNat point) (readText? rest')
            else none
        | _ => none
      else addChar (Char.ofNat unit) (readText? rest)
  | '\\' :: c :: rest =>
    match simpleEscape? c with
    | none => none
    | some plain => addChar plain (readText? rest)
  | c :: rest => if c.toNat < 0x20 then none else addChar c (readText? rest)

/-! ## Values -/

/-- Items separated by commas up to a closing character; the count bounds their number. -/
def readItems? {α : Type} (item : List Char → Option (α × List Char)) (close : Char) :
    Nat → List Char → Option (List α × List Char)
  | 0, _ => none
  | count + 1, text =>
    match item text with
    | none => none
    | some (value, rest) =>
      match skipSpace rest with
      | [] => none
      | c :: rest =>
        if c = close then some ([value], rest)
        else if c = ',' then
          (readItems? item close count rest).map fun (values, rest) => (value :: values, rest)
        else none

def readSequence? {α : Type} (item : List Char → Option (α × List Char)) (close : Char)
    (text : List Char) : Option (List α × List Char) :=
  match skipSpace text with
  | [] => none
  | c :: rest =>
    if c = close then some ([], rest) else readItems? item close (c :: rest).length (c :: rest)

def readMember? (value : List Char → Option (Json × List Char)) (text : List Char) :
    Option ((String × Json) × List Char) :=
  match skipSpace text with
  | '"' :: rest =>
    match readText? rest with
    | none => none
    | some (key, rest) =>
      match skipSpace rest with
      | ':' :: rest => (value rest).map fun (v, rest) => ((String.ofList key, v), rest)
      | _ => none
  | _ => none

def ofPairs (pairs : List (String × Json)) : Members :=
  pairs.foldl (fun members (key, value) => put members key value) []

/-- A value and what follows it; `depth` is how many arrays and objects may still be opened. -/
def readValue? : Nat → List Char → Option (Json × List Char)
  | depth, text =>
    match skipSpace text with
    | 'n' :: 'u' :: 'l' :: 'l' :: rest => some (.null, rest)
    | 't' :: 'r' :: 'u' :: 'e' :: rest => some (.bool true, rest)
    | 'f' :: 'a' :: 'l' :: 's' :: 'e' :: rest => some (.bool false, rest)
    | '"' :: rest => (readText? rest).map fun (chars, rest) => (.string (String.ofList chars), rest)
    | '[' :: rest =>
      match depth with
      | 0 => none
      | depth + 1 =>
        (readSequence? (readValue? depth) ']' rest).map fun (items, rest) => (.array items, rest)
    | '\x7b' :: rest =>
      match depth with
      | 0 => none
      | depth + 1 =>
        (readSequence? (readMember? (readValue? depth)) '\x7d' rest).map
          fun (pairs, rest) => (.object (ofPairs pairs), rest)
    | text => readNumber? text

/-- Reads a text that is one JSON value. -/
def parse? (text : String) : Option Json :=
  match readValue? nestingLimit text.toList with
  | none => none
  | some (value, rest) => if (skipSpace rest).isEmpty then some value else none

end Segmentation.Json
