import Segmentation.Condition
import Segmentation.Group
import Segmentation.Language.Reader
import Segmentation.Number.Numeral

/-!
# Lexemes

The words of the segment language: layout, keywords, names, texts, values,
operators and counts.  Identifiers and bare words reach as far as they can.
-/

namespace Segmentation.Language

/-! ## Layout -/

def isLayoutBlank (c : Char) : Bool :=
  c = ' ' || c = '\t' || c = '\n' || c = '\x0c' || c = '\r'

mutual

/-- What follows blanks and comments.  A comment runs from a hash to the end of its
line; a carriage return that does not end a line undoes it. -/
def skipLayout : List Char → List Char
  | [] => []
  | c :: rest =>
    if isLayoutBlank c then skipLayout rest
    else if c = '#' then skipComment (c :: rest) rest
    else c :: rest

/-- What follows the rest of a comment that began at `start`. -/
def skipComment (start : List Char) : List Char → List Char
  | [] => []
  | '\n' :: rest => skipLayout rest
  | '\r' :: '\n' :: rest => skipLayout rest
  | '\r' :: _ => start
  | _ :: rest => skipComment start rest

end

def layout : Reader Unit :=
  fun text => .accept () (skipLayout text)

/-! ## Fixed words -/

/-- What follows `word` at the start of a text. -/
def dropWord? : List Char → List Char → Option (List Char)
  | [], text => some text
  | _ :: _, [] => none
  | w :: word, c :: text => if w = c then dropWord? word text else none

def literal (word : String) : Reader Unit :=
  fun text =>
    match dropWord? word.toList text with
    | some rest => .accept () rest
    | none => .refuse text

def isWordChar (c : Char) : Bool :=
  c.isAlphanum || c = '_'

/-- Refuses where a character of a word is ahead. -/
def wordEnd : Reader Unit :=
  fun text =>
    match text with
    | [] => .accept () text
    | c :: _ => if isWordChar c then .refuse text else .accept () text

/-- A word that is not the beginning of a longer one. -/
def keyword (word : String) : Reader Unit := do
  literal word
  wordEnd

/-! ## Names, texts and values -/

def isIdentifierStart (c : Char) : Bool :=
  c.isAlpha || c = '_'

def isIdentifierRest (c : Char) : Bool :=
  c.isAlphanum || c = '_' || c = '.'

/-- The longest run of characters of a class, which must not be empty. -/
def run (inClass : Char → Bool) : Reader (List Char) :=
  fun text =>
    match text.takeWhile inClass with
    | [] => .refuse text
    | chars => .accept chars (text.dropWhile inClass)

def identifier : Reader String :=
  fun text =>
    match text with
    | [] => .refuse text
    | c :: rest =>
      if isIdentifierStart c then
        .accept (String.ofList (c :: rest.takeWhile isIdentifierRest))
          (rest.dropWhile isIdentifierRest)
      else .refuse text

/-- What a backslash and a character stand for. -/
def unescape : Char → List Char
  | '"' => ['"']
  | '\\' => ['\\']
  | 'n' => ['\n']
  | 't' => ['\t']
  | c => ['\\', c]

/-- The content up to the closing quote, and what follows it. -/
def quotedRest? : List Char → Option (List Char × List Char)
  | [] => none
  | '"' :: rest => some ([], rest)
  | ['\\'] => none
  | '\\' :: c :: rest =>
    (quotedRest? rest).map fun (content, rest) => (unescape c ++ content, rest)
  | c :: rest => (quotedRest? rest).map fun (content, rest) => (c :: content, rest)

/-- A quoted text; one that is not closed is refused at the end. -/
def quoted : Reader String :=
  fun text =>
    match text with
    | '"' :: rest =>
      match quotedRest? rest with
      | some (content, rest) => .accept (String.ofList content) rest
      | none => .refuse []
    | _ => .refuse text

/-- The name of a field or a dataset. -/
def name : Reader String :=
  quoted.orElse identifier

def isBareChar (c : Char) : Bool :=
  c.isAlphanum || c = '-' || c = '+' || c = '.' || c = '_' || c = ':' || c = '@'

def bareWord : Reader String := do
  let chars ← run isBareChar
  return String.ofList chars

/-- The operand of a condition. -/
def value : Reader String :=
  quoted.orElse bareWord

/-! ## Operators, connectives and counts -/

def symbol (word : String) (op : Operator) : Reader Operator := do
  literal word
  return op

/-- An operator by its name. -/
def operatorName : Reader Operator :=
  fun text =>
    match identifier text with
    | .accept word rest =>
      match Operator.ofName? word with
      | some op => .accept op rest
      | none => .refuse text
    | .refuse stop => .refuse stop
    | .fail stop expected => .fail stop expected

def operator : Reader Operator :=
  (symbol "!=" .notEquals).orElse <|
  (symbol "==" .equals).orElse <|
  (symbol "=" .equals).orElse <|
  (symbol ">" .greaterThan).orElse <|
  (symbol "<" .lessThan).orElse operatorName

def connective : Reader Connective :=
  Reader.orElse (do keyword "all"; return .all) (do keyword "any"; return .any)

def membershipMode : Reader MembershipMode :=
  Reader.orElse (do keyword "include"; return .incl) (do keyword "exclude"; return .excl)

/-- A number below `2 ^ 64` without a zero in front of other digits. -/
def count : Reader UInt64 :=
  fun text =>
    match text with
    | [] => .refuse text
    | c :: rest =>
      if c = '0' then .accept 0 rest
      else if c.isDigit then
        let value := Numeral.digitsValue (c :: rest.takeWhile Char.isDigit)
        if value < UInt64.size then .accept (UInt64.ofNat value) (rest.dropWhile Char.isDigit)
        else .refuse text
      else .refuse text

end Segmentation.Language
