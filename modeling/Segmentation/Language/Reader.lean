/-!
# Readers

A reader looks at the characters ahead and accepts a value, refuses, or fails.
A refusal lets another alternative try from the same place; a failure is final
and carries what was expected.  Both say where the reader stood.
-/

namespace Segmentation.Language

/-- What a failed reader was looking for. -/
inductive Expectation
  | segmentKeyword
  | segmentName
  | openingBrace
  | statement
  | fieldName
  | operator
  | value
  | upperBound
  | segmentId
  | groupConnective
  | groupItem
deriving DecidableEq

namespace Expectation

def describe : Expectation → String
  | segmentKeyword => "`segment`"
  | segmentName => "segment name"
  | openingBrace => "`\x7b`"
  | statement => "statement or `\x7d`"
  | fieldName => "field name"
  | operator => "operator"
  | value => "value"
  | upperBound => "`and <upper bound>`"
  | segmentId => "segment id"
  | groupConnective => "`all` or `any`"
  | groupItem => "condition or `\x7d`"

end Expectation

inductive Outcome (α : Type)
  | accept (value : α) (rest : List Char)
  | refuse (stop : List Char)
  | fail (stop : List Char) (expected : Option Expectation)

def Reader (α : Type) : Type :=
  List Char → Outcome α

namespace Reader

def pure {α : Type} (value : α) : Reader α :=
  fun text => .accept value text

def bind {α β : Type} (first : Reader α) (next : α → Reader β) : Reader β :=
  fun text =>
    match first text with
    | .accept value rest => next value rest
    | .refuse stop => .refuse stop
    | .fail stop expected => .fail stop expected

instance : Monad Reader where
  pure := Reader.pure
  bind := Reader.bind

/-- Tries the second reader from the same place where the first one refuses. -/
def orElse {α : Type} (first second : Reader α) : Reader α :=
  fun text =>
    match first text with
    | .refuse _ => second text
    | outcome => outcome

/-- Makes a refusal final. -/
def must {α : Type} (expected : Option Expectation) (reader : Reader α) : Reader α :=
  fun text =>
    match reader text with
    | .refuse stop => .fail stop expected
    | outcome => outcome

/-- Accepts nothing where the reader refuses. -/
def optional {α : Type} (reader : Reader α) : Reader (Option α) :=
  fun text =>
    match reader text with
    | .accept value rest => .accept (some value) rest
    | .refuse _ => .accept none text
    | .fail stop expected => .fail stop expected

/-- At most `count` values, up to the first refusal. -/
def upTo {α : Type} (reader : Reader α) : Nat → Reader (List α)
  | 0 => Reader.pure []
  | count + 1 => fun text =>
    match reader text with
    | .accept value rest =>
      match upTo reader count rest with
      | .accept values rest => .accept (value :: values) rest
      | outcome => outcome
    | .refuse _ => .accept [] text
    | .fail stop expected => .fail stop expected

/-- Values up to the first refusal.  A reader that takes at least one character for
each value cannot give more values than there are characters. -/
def many {α : Type} (reader : Reader α) : Reader (List α) :=
  fun text => upTo reader text.length text

end Reader

end Segmentation.Language
