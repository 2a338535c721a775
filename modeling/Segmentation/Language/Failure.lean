import Segmentation.Language.Grammar
import Segmentation.Text.Span

/-!
# Reading a segment

The entry to the language.  A text that is no segment is answered by a failure
that marks where reading stopped, shows the line and says what was expected.
-/

namespace Segmentation.Language

structure Failure where
  text : String
  /-- The bytes before the place where reading stopped. -/
  offset : Nat
  expected : Option Expectation
deriving DecidableEq

namespace Failure

def spaces (count : Nat) : String :=
  String.ofList (List.replicate count ' ')

/-- The characters before and from the one that a byte offset falls on; at the end
that is the last character. -/
def splitAtOffset (offset : Nat) (before : List Char) : List Char → List Char × List Char
  | [] => (before.reverse, [])
  | [c] => (before.reverse, [c])
  | c :: rest =>
    if offset < c.utf8Size then (before.reverse, c :: rest)
    else splitAtOffset (offset - c.utf8Size) (c :: before) rest

/-- The characters since the last line end. -/
def lineStart (before : List Char) : List Char :=
  (before.reverse.takeWhile (· != '\n')).reverse

/-- The mark under the character where reading stopped.  A character of several
bytes is counted in bytes, and the end of the text lies one place after its last
character. -/
def column (failure : Failure) (line ahead : List Char) : Nat :=
  if failure.text.utf8ByteSize ≤ failure.offset then line.length + 1
  else match ahead with
    | c :: _ => if c.utf8Size = 1 then line.length else Span.byteLength line
    | [] => line.length

/-- The line, and a mark under the place where reading stopped. -/
def excerpt (failure : Failure) : String :=
  let chars := failure.text.toList
  if chars.contains '\n' then
    let (before, ahead) := splitAtOffset failure.offset [] chars
    let line := lineStart before
    let number := toString (before.count '\n' + 1)
    let column := failure.column line ahead
    let margin := spaces number.length
    "parse error at line " ++ number ++ ", column " ++ toString (column + 1) ++ "\n"
      ++ margin ++ " |\n"
      ++ number ++ " | " ++ String.ofList (line ++ ahead.takeWhile (· != '\n')) ++ "\n"
      ++ margin ++ " | " ++ spaces column ++ "^\n"
  else failure.text ++ "\n" ++ spaces failure.offset ++ "^\n"

def message (failure : Failure) : String :=
  "parse error: " ++ failure.excerpt
    ++ match failure.expected with
      | none => ""
      | some expected => "expected " ++ expected.describe

end Failure

def failureAt (text : String) (stop : List Char) (expected : Option Expectation) : Failure where
  text := text
  offset := text.utf8ByteSize - Span.byteLength stop
  expected := expected

/-- The definition that a text describes. -/
def read (text : String) : Except Failure Definition :=
  match wholeText text.toList with
  | .accept definition _ => .ok definition
  | .refuse stop => .error (failureAt text stop none)
  | .fail stop expected => .error (failureAt text stop expected)

/-- Why a stored text gives no definition. -/
inductive SourceError
  | missing
  | notText
  | failure (failure : Failure)

/-- The definition in a stored text, which is UTF-8. -/
def readBytes (source : Option ByteArray) : Except SourceError Definition :=
  match source with
  | none => .error .missing
  | some bytes =>
    match String.fromUTF8? bytes with
    | none => .error .notText
    | some text =>
      match read text with
      | .ok definition => .ok definition
      | .error failure => .error (.failure failure)

end Segmentation.Language
