import Segmentation.Compilation
import Segmentation.Proofs.Definition
import Mathlib.Data.List.Infix

/-!
# Patterns

How a database answers a text test: in a pattern `%` stands for any text and `_` for any
character, and after a backslash a character stands for itself.  A pattern that ends in
such a backslash cannot be read.  The main statement is that a compiled text condition
asks whether its value, character for character, is in the text of its field, at the start
of it or at its end.
-/

namespace Segmentation

namespace Sql

/-- What a pattern asks of a text, from left to right. -/
inductive PatternPart
  | anyText
  | anyChar
  | only (c : Char)
deriving DecidableEq

namespace PatternPart

/-- The parts of a pattern, unless it ends where a character should follow a backslash. -/
def read? : List Char → Option (List PatternPart)
  | [] => some []
  | '\\' :: [] => none
  | '\\' :: c :: rest => (read? rest).map (.only c :: ·)
  | '%' :: rest => (read? rest).map (.anyText :: ·)
  | '_' :: rest => (read? rest).map (.anyChar :: ·)
  | c :: rest => (read? rest).map (.only c :: ·)

/-- Whether a text as a whole is what the parts ask for. -/
def accept : List PatternPart → List Char → Bool
  | [], text => text.isEmpty
  | .anyText :: parts, text => text.tails.any (accept parts)
  | .anyChar :: parts, text =>
    match text with
    | [] => false
    | _ :: rest => accept parts rest
  | .only c :: parts, text =>
    match text with
    | [] => false
    | first :: rest => first == c && accept parts rest

end PatternPart

/-- Whether a text test holds for a record, given by the texts of its fields. -/
def Predicate.testText? (fields : String → String) : Predicate → Option Bool
  | .like column pattern negated =>
    (PatternPart.read? pattern.toList).map fun parts =>
      PatternPart.accept parts (fields column).toList != negated
  | _ => none

namespace PatternPart

/-! ## Reading patterns -/

theorem read?_escape (c : Char) (rest : List Char) :
    read? ('\\' :: c :: rest) = (read? rest).map (.only c :: ·) := rfl

theorem read?_plain {c : Char} (h : ¬ (c = '\\' ∨ c = '%' ∨ c = '_')) (rest : List Char) :
    read? (c :: rest) = (read? rest).map (.only c :: ·) := by
  rw [not_or, not_or] at h
  obtain ⟨hescape, hpercent, hunderscore⟩ := h
  rw [read?]
  · exact fun heq _ => hescape heq
  · exact fun _ _ heq _ => hescape heq
  · exact hpercent
  · exact hunderscore

/-- An escaped value asks for its own characters, and the pattern goes on behind it. -/
theorem read?_escapePattern (value rest : List Char) :
    read? (Compilation.escapePattern value ++ rest) = (read? rest).map (value.map only ++ ·) := by
  induction value with
  | nil => exact Option.map_id'.symm
  | cons c value ih =>
      have hsplit : Compilation.escapePattern (c :: value) ++ rest =
          (if c = '\\' ∨ c = '%' ∨ c = '_' then ['\\', c] else [c]) ++
            (Compilation.escapePattern value ++ rest) := by
        rw [Compilation.escapePattern, List.flatMap_cons, List.append_assoc]
        rfl
      have hread : read? (Compilation.escapePattern (c :: value) ++ rest) =
          (read? (Compilation.escapePattern value ++ rest)).map (.only c :: ·) := by
        rw [hsplit]
        split
        · exact read?_escape c _
        · next hplain => exact read?_plain hplain _
      rw [hread, ih, Option.map_map]
      rfl

/-- The parts of a pattern for a value with anything before it, after it, or both. -/
theorem read?_likePattern (openStart openEnd : Bool) (value : String) :
    read? (Compilation.likePattern openStart openEnd value).toList =
      some ((if openStart then [anyText] else []) ++ (value.toList.map only ++
        if openEnd then [anyText] else [])) := by
  have hend : read? (if openEnd then ['%'] else []) =
      some (if openEnd then [anyText] else []) := by
    cases openEnd <;> rfl
  have hvalue := read?_escapePattern value.toList (if openEnd then ['%'] else [])
  rw [hend, Option.map_some] at hvalue
  rw [Compilation.likePattern, String.toList_ofList, List.append_assoc]
  cases openStart with
  | false => exact hvalue
  | true =>
      change (read? (Compilation.escapePattern value.toList ++ _)).map (anyText :: ·) = _
      rw [hvalue]
      rfl

/-! ## What patterns accept -/

theorem accept_nil_iff (text : List Char) : accept [] text ↔ text = [] :=
  List.isEmpty_iff

theorem accept_anyText_iff (parts : List PatternPart) (text : List Char) :
    accept (.anyText :: parts) text ↔ ∃ rest, rest <:+ text ∧ accept parts rest := by
  rw [accept, List.any_eq_true]
  simp only [List.mem_tails]

theorem accept_anyText_end (text : List Char) : accept [.anyText] text :=
  (accept_anyText_iff [] text).2 ⟨[], List.nil_suffix, rfl⟩

theorem accept_only_iff (value : List Char) (parts : List PatternPart) (text : List Char) :
    accept (value.map only ++ parts) text ↔ ∃ rest, value ++ rest = text ∧ accept parts rest := by
  induction value generalizing text with
  | nil => simp
  | cons c value ih =>
      cases text with
      | nil => simp [accept]
      | cons first text =>
          rw [List.map_cons, List.cons_append, accept, Bool.and_eq_true, beq_iff_eq, ih]
          simp only [List.cons_append, List.cons.injEq]
          constructor
          · rintro ⟨rfl, rest, hrest, haccept⟩
            exact ⟨rest, ⟨rfl, hrest⟩, haccept⟩
          · rintro ⟨rest, ⟨rfl, hrest⟩, haccept⟩
            exact ⟨rfl, rest, hrest, haccept⟩

theorem accept_start (value text : List Char) :
    accept (value.map only ++ [anyText]) text = decide (value <+: text) := by
  rw [Bool.eq_iff_iff, decide_eq_true_iff, accept_only_iff]
  constructor
  · rintro ⟨rest, hrest, _⟩
    exact ⟨rest, hrest⟩
  · rintro ⟨rest, hrest⟩
    exact ⟨rest, hrest, accept_anyText_end rest⟩

theorem accept_end (value text : List Char) :
    accept (anyText :: (value.map only ++ [])) text = decide (value <:+ text) := by
  have hvalue : ∀ rest, accept (value.map only ++ []) rest ↔ value = rest := by
    intro rest
    rw [accept_only_iff]
    simp only [accept_nil_iff, exists_eq_right, List.append_nil]
  rw [Bool.eq_iff_iff, decide_eq_true_iff, accept_anyText_iff]
  constructor
  · rintro ⟨rest, hsuffix, haccept⟩
    rw [(hvalue rest).1 haccept]
    exact hsuffix
  · intro hsuffix
    exact ⟨value, hsuffix, (hvalue value).2 rfl⟩

theorem accept_within (value text : List Char) :
    accept (anyText :: (value.map only ++ [anyText])) text = decide (value <:+: text) := by
  rw [Bool.eq_iff_iff, decide_eq_true_iff, accept_anyText_iff, List.infix_iff_prefix_suffix]
  simp only [accept_start, decide_eq_true_iff]
  constructor
  · rintro ⟨rest, hsuffix, hfirst⟩
    exact ⟨rest, hfirst, hsuffix⟩
  · rintro ⟨rest, hfirst, hsuffix⟩
    exact ⟨rest, hsuffix, hfirst⟩

end PatternPart

end Sql

/-! ## Text conditions -/

theorem Condition.getD_presentValue (field value : String) (operator : Operator)
    (upper : Option String) :
    (Condition.mk field operator (some value) upper).presentValue.getD "" = value := by
  exact getD_present (some value)

namespace Compilation

open Sql (PatternPart)

theorem testText?_likePattern (fields : String → String) (column value : String)
    (openStart openEnd negated : Bool) :
    (Sql.Predicate.like column (likePattern openStart openEnd value) negated).testText? fields =
      some (PatternPart.accept ((if openStart then [.anyText] else []) ++
        (value.toList.map .only ++ if openEnd then [.anyText] else []))
        (fields column).toList != negated) := by
  rw [Sql.Predicate.testText?, PatternPart.read?_likePattern, Option.map_some]

/-- A compiled text condition is a test whose pattern can be read, and it holds for a record
exactly if the value, character for character, is in the text of the field, is not in it, or
is the start or the end of it. -/
theorem testText?_conditionPredicate (dataset : Dataset) (fields : String → String)
    (field value : String) (upper : Option String) :
    (conditionPredicate dataset ⟨field, .contains, some value, upper⟩).testText? fields =
      some (decide (value.toList <:+: (fields field).toList)) ∧
    (conditionPredicate dataset ⟨field, .notContains, some value, upper⟩).testText? fields =
      some (!decide (value.toList <:+: (fields field).toList)) ∧
    (conditionPredicate dataset ⟨field, .startsWith, some value, upper⟩).testText? fields =
      some (decide (value.toList <+: (fields field).toList)) ∧
    (conditionPredicate dataset ⟨field, .endsWith, some value, upper⟩).testText? fields =
      some (decide (value.toList <:+ (fields field).toList)) := by
  have hwithin := PatternPart.accept_within value.toList (fields field).toList
  have hstart := PatternPart.accept_start value.toList (fields field).toList
  have hend := PatternPart.accept_end value.toList (fields field).toList
  simp only [conditionPredicate, Condition.getD_presentValue, testText?_likePattern]
  refine ⟨?_, ?_, ?_, ?_⟩
  · rw [← hwithin]
    exact congrArg some (Bool.bne_false _)
  · rw [← hwithin]
    exact congrArg some (Bool.bne_true _)
  · rw [← hstart]
    exact congrArg some (Bool.bne_false _)
  · rw [← hend]
    exact congrArg some (Bool.bne_false _)

/-- A wildcard in a value stands for itself. -/
example :
    ["50% off", "500 off"].map (fun text =>
      (conditionPredicate { name := "offers" } ⟨"title", .startsWith, some "50%", none⟩).testText?
        fun _ => text) = [some true, some false] := by
  cbv

end Compilation

end Segmentation
