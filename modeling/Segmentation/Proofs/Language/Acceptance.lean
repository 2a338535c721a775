import Segmentation.Language.Failure
import Segmentation.Proofs.Language.Groups
import Segmentation.Proofs.Language.Meaning

/-!
# Acceptance

A text is read exactly when it is written by the grammar, and the definition that is
read is the one its statements denote.  So what a text means depends on nothing that
the reader does, such as the order in which it tries the clauses.
-/

namespace Segmentation.Language

open Reader Written

variable {α β : Type} {text rest : List Char}

/-! ## Statements -/

/-- A keyword and an operand after it. -/
theorem operandOf_eq_accept_iff {word : String} {reader : Reader α} {rule : Rule α}
    {build : α → β} {found : β}
    (hreader : ∀ {text value rest},
      spaced reader text = .accept value rest ↔ Spaced rule text value rest) :
    (keyword word >>= fun _ => must none (spaced reader) >>= fun value =>
        Pure.pure (build value)) text = .accept found rest ↔
      ∃ after value, Keyword word text () after ∧ Spaced rule after value rest ∧
        build value = found := by
  constructor
  · intro h
    obtain ⟨_, after, hword, h⟩ := accept_of_bind h
    obtain ⟨value, hvalue, hfound⟩ := map_eq_accept_iff.1 h
    exact ⟨after, value, keyword_eq_accept_iff.1 hword,
      hreader.1 (must_eq_accept_iff.1 hvalue), hfound⟩
  · rintro ⟨after, value, hword, hvalue, hfound⟩
    rw [bind_of_accept (keyword_eq_accept_iff.2 hword)]
    exact map_eq_accept_iff.2 ⟨value, must_eq_accept_iff.2 (hreader.2 hvalue), hfound⟩

/-- Statements begin with a keyword and its operand, or are one of the clauses of groups. -/
theorem statement_eq :
    statement = spaced (
      Reader.orElse (do keyword "description"; return .description (← must none (spaced quoted))) <|
      Reader.orElse (do keyword "dataset"; return .dataset (← must none (spaced name))) <|
      Reader.orElse
        (do keyword "match"; return .connective (← must none (spaced connective))) <|
      clause Language.group .condition .group .membership) := by
  rfl

theorem needsKeyword_group : NeedsKeyword Language.group := by
  intro text h
  exact needsKeyword_groupUpTo text.length text h

theorem statement_of_accept {found : Statement} (h : statement text = .accept found rest) :
    Spaced Written.Statement text found rest := by
  refine ⟨skipLayout text, layout_skipLayout text, ?_⟩
  obtain h | h := accept_of_orElse h
  · obtain ⟨after, value, hword, hvalue, rfl⟩ :=
      (operandOf_eq_accept_iff spacedQuoted_eq_accept_iff).1 h
    exact .description hword hvalue
  obtain h | h := accept_of_orElse h
  · obtain ⟨after, value, hword, hvalue, rfl⟩ :=
      (operandOf_eq_accept_iff spacedName_eq_accept_iff).1 h
    exact .dataset hword hvalue
  obtain h | h := accept_of_orElse h
  · obtain ⟨after, value, hword, hvalue, rfl⟩ :=
      (operandOf_eq_accept_iff spacedConnective_eq_accept_iff).1 h
    exact .connective hword hvalue
  obtain ⟨condition, hwhere, rfl⟩ | ⟨group, hgroup, rfl⟩ | ⟨segment, mode, hmembership, rfl⟩ :=
    clause_cases h
  · exact .condition hwhere
  · exact .group (group_eq_accept_iff.1 hgroup)
  · exact .membership hmembership

theorem solid_statement : Solid Written.Statement where
  settled := by
    intro text found rest h
    cases h with
    | description hword _ => exact (solid_keyword rfl).settled hword
    | dataset hword _ => exact (solid_keyword rfl).settled hword
    | connective hword _ => exact (solid_keyword rfl).settled hword
    | condition h => exact solid_where.settled h
    | group h => exact solid_group.settled h
    | membership h => exact solid_membership.settled h
  shorter := by
    intro text found rest h
    cases h with
    | description hword hvalue =>
        exact Nat.lt_trans (solid_quoted.length_lt_of_spaced hvalue)
          ((solid_keyword rfl).shorter hword)
    | dataset hword hvalue =>
        exact Nat.lt_trans (solid_name.length_lt_of_spaced hvalue)
          ((solid_keyword rfl).shorter hword)
    | connective hword hvalue =>
        exact Nat.lt_trans (solid_connectiveWord.length_lt_of_spaced hvalue)
          ((solid_keyword rfl).shorter hword)
    | condition h => exact solid_where.shorter h
    | group h => exact solid_group.shorter h
    | membership h => exact solid_membership.shorter h

theorem exists_lead_of_statement {found : Statement} (h : Written.Statement text found rest) :
    ∃ word ∈ leads, ∃ after, Keyword word text () after := by
  cases h with
  | description hword _ => exact ⟨"description", by decide, _, hword⟩
  | dataset hword _ => exact ⟨"dataset", by decide, _, hword⟩
  | connective hword _ => exact ⟨"match", by decide, _, hword⟩
  | condition h =>
      obtain ⟨hword, _, _, _⟩ := h
      exact ⟨"where", by decide, _, hword⟩
  | group h =>
      obtain ⟨⟨hword, _, _⟩, _, _⟩ := h
      exact ⟨"group", by decide, _, hword⟩
  | membership h =>
      obtain ⟨word, hmode, after, hword⟩ := exists_keyword_of_membership h
      exact ⟨word, List.mem_append_right _ (mem_clauseLeads_of_mode hmode), after, hword⟩

/-- Where none of the three keywords is written, a statement is one of the clauses. -/
theorem statement_of_clause {inner : List Char} {found : Statement}
    (hskip : skipLayout text = inner)
    (hrefuse : ∀ word ∈ operandLeads, (keyword word).Refuses inner)
    (h : clause Language.group .condition .group .membership inner = .accept found rest) :
    statement text = .accept found rest := by
  rw [statement_eq, spaced_apply, hskip,
    (hrefuse "description" (by decide)).bind.orElse_eq,
    (hrefuse "dataset" (by decide)).bind.orElse_eq, (hrefuse "match" (by decide)).bind.orElse_eq]
  exact h

theorem statement_of_written {found : Statement} (h : Spaced Written.Statement text found rest)
    (hfollows : Follows rest) : statement text = .accept found rest := by
  obtain ⟨inner, hlayout, h⟩ := h
  have hskip := solid_statement.skipLayout_eq hlayout h
  -- Only the alternatives in front of the written one have to refuse.
  cases h with
  | description hword hvalue =>
      rw [statement_eq, spaced_apply, hskip]
      apply orElse_of_accept
      exact (operandOf_eq_accept_iff spacedQuoted_eq_accept_iff).2 ⟨_, _, hword, hvalue, rfl⟩
  | dataset hword hvalue =>
      have hdescription : (keyword "description").Refuses inner :=
        keyword_refuses_of_lead (by decide) (by decide) (by decide) hword
      rw [statement_eq, spaced_apply, hskip, hdescription.bind.orElse_eq]
      apply orElse_of_accept
      exact (operandOf_eq_accept_iff spacedName_eq_accept_iff).2 ⟨_, _, hword, hvalue, rfl⟩
  | connective hword hvalue =>
      have hdescription : (keyword "description").Refuses inner :=
        keyword_refuses_of_lead (by decide) (by decide) (by decide) hword
      have hdataset : (keyword "dataset").Refuses inner :=
        keyword_refuses_of_lead (by decide) (by decide) (by decide) hword
      rw [statement_eq, spaced_apply, hskip, hdescription.bind.orElse_eq,
        hdataset.bind.orElse_eq]
      apply orElse_of_accept
      exact (operandOf_eq_accept_iff spacedConnective_eq_accept_iff).2 ⟨_, _, hword, hvalue, rfl⟩
  | condition h =>
      obtain ⟨hword, _, _, _⟩ := id h
      exact statement_of_clause hskip (keyword_refuses_of_clauseLead (by decide) hword)
        (clause_of_where h)
  | group h =>
      obtain ⟨⟨hword, _, _⟩, _, _⟩ := id h
      exact statement_of_clause hskip (keyword_refuses_of_clauseLead (by decide) hword)
        (clause_of_group hword (group_eq_accept_iff.2 h))
  | membership h =>
      obtain ⟨word, hmode, after, hword⟩ := exists_keyword_of_membership h
      exact statement_of_clause hskip
        (keyword_refuses_of_clauseLead (mem_clauseLeads_of_mode hmode) hword)
        (clause_of_membership needsKeyword_group h hfollows)

/-! ## Segments -/

theorem statement_refuses_of_closing (h : Spaced (Mark "\x7d") text () rest) :
    statement.Refuses text := by
  rw [Refuses, statement_eq, spaced_apply, skipLayout_of_closing h]
  have hrefuse : ∀ word ∈ leads, (keyword word).Refuses ('\x7d' :: rest) :=
    fun word hword => keyword_refuses_of_head hword rfl rest
  exact (hrefuse "description" (by decide)).bind.orElse <|
    (hrefuse "dataset" (by decide)).bind.orElse <|
    (hrefuse "match" (by decide)).bind.orElse (clause_refuses needsKeyword_group hrefuse)

theorem follows_of_statements {statements : List Statement} {afterClose : List Char}
    (h : Statements text statements rest) (hclose : Spaced (Mark "\x7d") rest () afterClose) :
    Follows text := by
  cases h with
  | nil => exact follows_of_closing hclose
  | cons hfirst _ =>
      obtain ⟨inner, hlayout, hstatement⟩ := hfirst
      obtain ⟨word, hlead, after, hword⟩ := exists_lead_of_statement hstatement
      exact follows_of_keyword hlead hlayout hword

theorem statements_of_written {statements : List Statement} {afterClose : List Char} {count : Nat}
    (h : Statements text statements rest) (hclose : Spaced (Mark "\x7d") rest () afterClose)
    (hcount : text.length ≤ count) : upTo statement count text = .accept statements rest := by
  induction h generalizing count with
  | nil rest => exact (statement_refuses_of_closing hclose).upTo_eq count
  | cons hfirst hrest ih =>
      have hread := statement_of_written hfirst (follows_of_statements hrest hclose)
      have hshorter := solid_statement.length_lt_of_spaced hfirst
      exact upTo_of_shorter hread hshorter hcount fun hle => ih hclose hle

theorem manyStatements_of_written {statements : List Statement} {afterClose : List Char}
    (h : Statements text statements rest) (hclose : Spaced (Mark "\x7d") rest () afterClose) :
    many statement text = .accept statements rest :=
  statements_of_written h hclose (Nat.le_refl _)

theorem statements_of_accept {statements : List Statement} {count : Nat}
    (h : upTo statement count text = .accept statements rest) :
    Statements text statements rest :=
  upTo_induction (fun text => .nil text)
    (fun hfirst hrest => .cons (statement_of_accept hfirst) hrest) h

theorem segment_of_accept {definition : Definition} (h : segment text = .accept definition []) :
    ∃ name statements, Segment text name statements ∧ definition = denote name statements := by
  obtain ⟨_, afterWord, hsegment, h⟩ := accept_of_bind h
  obtain ⟨name, afterName, hname, h⟩ := accept_of_bind h
  obtain ⟨_, afterOpen, hopen, h⟩ := accept_of_bind h
  obtain ⟨statements, afterStatements, hstatements, h⟩ := accept_of_bind h
  obtain ⟨_, afterClose, hclose, h⟩ := accept_of_bind h
  obtain ⟨_, afterLayout, hlayout, h⟩ := accept_of_bind h
  obtain ⟨rfl, rfl⟩ := pure_eq_accept_iff.1 h
  obtain ⟨-, hend⟩ := Outcome.accept.inj hlayout
  refine ⟨name, statements, ?_, foldl_addTo name statements⟩
  refine .intro ((spacedKeyword_eq_accept_iff rfl).1 (must_eq_accept_iff.1 hsegment))
    (spacedQuoted_eq_accept_iff.1 (must_eq_accept_iff.1 hname))
    ((spacedMark_eq_accept_iff rfl).1 (must_eq_accept_iff.1 hopen))
    (statements_of_accept hstatements)
    ((spacedMark_eq_accept_iff rfl).1 (must_eq_accept_iff.1 hclose)) ?_
  rw [← hend]
  exact layout_skipLayout afterClose

theorem segment_of_written {name : String} {statements : List Statement}
    (h : Segment text name statements) : segment text = .accept (denote name statements) [] := by
  obtain ⟨hsegment, hname, hopen, hstatements, hclose, hend⟩ := h
  have hread := manyStatements_of_written hstatements hclose
  rw [segment,
    bind_of_accept (must_eq_accept_iff.2 ((spacedKeyword_eq_accept_iff rfl).2 hsegment)),
    bind_of_accept (must_eq_accept_iff.2 (spacedQuoted_eq_accept_iff.2 hname)),
    bind_of_accept (must_eq_accept_iff.2 ((spacedMark_eq_accept_iff rfl).2 hopen)),
    bind_of_accept hread,
    bind_of_accept (must_eq_accept_iff.2 ((spacedMark_eq_accept_iff rfl).2 hclose)),
    bind_apply, layout, skipLayout_of_layout hend settled_nil, foldl_addTo]
  rfl

theorem wholeText_eq_accept_iff {definition : Definition} :
    wholeText text = .accept definition rest ↔
      rest = [] ∧ ∃ name statements,
        Segment text name statements ∧ definition = denote name statements := by
  constructor
  · intro h
    obtain ⟨found, middle, hsegment, h⟩ := accept_of_bind h
    obtain ⟨_, _, hend, h⟩ := accept_of_bind h
    obtain ⟨rfl, rfl⟩ := pure_eq_accept_iff.1 h
    rw [endOfText] at hend
    split at hend
    · next hempty =>
        obtain rfl := List.isEmpty_iff.1 hempty
        obtain ⟨-, rfl⟩ := Outcome.accept.inj hend
        exact ⟨rfl, segment_of_accept hsegment⟩
    · contradiction
  · rintro ⟨rfl, name, statements, h, rfl⟩
    rw [wholeText, bind_of_accept (segment_of_written h)]
    rfl

/-- Reading succeeds where the whole text is accepted. -/
theorem read_eq_ok_iff_wholeText {text : String} {definition : Definition} :
    read text = .ok definition ↔ ∃ rest, wholeText text.toList = .accept definition rest := by
  rw [read]
  cases wholeText text.toList <;> simp

end Segmentation.Language
