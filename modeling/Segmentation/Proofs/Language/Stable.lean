import Mathlib.Logic.Relation
import Segmentation.Proofs.Language.Lexeme

/-!
# Replacing what follows

What is written at the beginning of a text stays written when another text follows it,
as long as the other one begins with the same character or with a line end: a word still
ends where it ended, and so does a comment.
-/

namespace Segmentation.Language

open Reader Written

variable {α : Type} {text inner middle rest tail : List Char} {c : Char}

/-! ## Texts in place of others -/

/-- A text may be followed by another one instead that begins with the same character, or
with a line end. -/
inductive Admits : List Char → List Char → Prop
  | line (rest tail : List Char) : Admits rest ('\n' :: tail)
  | same (c : Char) (rest tail : List Char) : Admits (c :: rest) (c :: tail)

theorem Admits.append (h : Admits rest tail) (taken : List Char) :
    Admits (taken ++ rest) (taken ++ tail) := by
  cases taken with
  | nil => exact h
  | cons c taken => exact .same c _ _

/-- A word that ended ends before the other text as well. -/
theorem Admits.stopsAt (h : Admits rest tail) {inClass : Char → Bool}
    (hline : inClass '\n' = false) (hstop : StopsAt inClass rest) : StopsAt inClass tail := by
  cases h with
  | line => exact stopsAt_cons hline _
  | same c => exact stopsAt_cons (hstop c _ rfl) _

/-- What is written up to `rest` is also written up to any text in its place. -/
def Persists (written : List Char → List Char → Prop) (text rest : List Char) : Prop :=
  ∃ taken, text = taken ++ rest ∧ ∀ tail, Admits rest tail → written (taken ++ tail) tail

namespace Persists

variable {first second : List Char → List Char → Prop}

theorem mono (h : Persists first text rest)
    (hle : ∀ text rest, first text rest → second text rest) : Persists second text rest := by
  obtain ⟨taken, htext, hwritten⟩ := h
  exact ⟨taken, htext, fun tail htail => hle _ _ (hwritten tail htail)⟩

/-- Two parts that persist do so one after the other. -/
theorem comp (hfirst : Persists first text middle) (hsecond : Persists second middle rest) :
    Persists (Relation.Comp first second) text rest := by
  obtain ⟨before, rfl, hbefore⟩ := hfirst
  obtain ⟨after, rfl, hafter⟩ := hsecond
  refine ⟨before ++ after, (List.append_assoc ..).symm, ?_⟩
  intro tail htail
  rw [List.append_assoc]
  exact ⟨after ++ tail, hbefore _ (htail.append after), hafter tail htail⟩

end Persists

/-- Whatever a rule writes persists. -/
structure Stable (rule : Rule α) : Prop where
  persists : ∀ {text value rest}, rule text value rest → Persists (rule · value ·) text rest

/-! ## Layout -/

/-- Skipped layout leaves no blank ahead. -/
theorem stopsAt_skipLayout (text : List Char) : StopsAt isLayoutBlank (skipLayout text) := by
  refine skipLayout.induct (fun text => StopsAt isLayoutBlank (skipLayout text))
    (fun start text => StopsAt isLayoutBlank start →
      StopsAt isLayoutBlank (skipComment start text))
    ?nil ?blank ?hash ?other ?finish ?line ?lines ?undone ?more text
  case nil => exact stopsAt_nil _
  case blank =>
    intro c rest hblank ih
    rw [skipLayout, if_pos hblank]
    exact ih
  case hash =>
    intro rest hblank ih
    rw [skipLayout, if_neg hblank, if_pos rfl]
    exact ih (stopsAt_cons rfl rest)
  case other =>
    intro c rest hblank hhash
    rw [skipLayout, if_neg hblank, if_neg hhash]
    exact stopsAt_cons (Bool.eq_false_iff.2 hblank) rest
  case finish =>
    intro start _
    exact stopsAt_nil _
  case line =>
    intro start rest ih _
    exact ih
  case lines =>
    intro start rest ih _
    exact ih
  case undone =>
    intro start tail hline hstart
    rw [skipComment]
    · exact hstart
    · exact hline
  case more =>
    intro start c rest hline hlines hreturn ih hstart
    rw [skipComment]
    · exact ih hstart
    all_goals assumption

/-- A comment at the end of what was taken ends there before the other text as well. -/
theorem lineEnds_append {taken : List Char} (hend : LineEnds (taken ++ rest))
    (hrest : StopsAt isLayoutBlank rest) (h : Admits rest tail) : LineEnds (taken ++ tail) := by
  have hblank : ∀ {c tail}, isLayoutBlank c → rest ≠ c :: tail := by
    intro c tail hc heq
    rw [hrest c tail heq] at hc
    contradiction
  cases taken with
  | nil =>
      cases h with
      | line _ tail => exact .inr (.inl ⟨tail, rfl⟩)
      | same c rest tail =>
          obtain hnil | ⟨_, heq⟩ | ⟨_, heq⟩ := hend
          · contradiction
          · exact absurd heq (hblank rfl)
          · exact absurd heq (hblank rfl)
  | cons c taken =>
      obtain hnil | ⟨_, heq⟩ | ⟨_, heq⟩ := hend
      · contradiction
      · obtain ⟨rfl, _⟩ := List.cons.inj heq
        exact .inr (.inl ⟨taken ++ tail, rfl⟩)
      · obtain ⟨rfl, hline⟩ := List.cons.inj heq
        -- The line feed was taken as well, since no blank is left ahead.
        cases taken with
        | nil => exact absurd hline (hblank rfl)
        | cons d taken =>
            obtain ⟨rfl, _⟩ := List.cons.inj hline
            exact .inr (.inr ⟨taken ++ tail, rfl⟩)

theorem persists_layout (h : Layout text inner) (hinner : StopsAt isLayoutBlank inner) :
    Persists Layout text inner := by
  induction h with
  | none => exact ⟨[], rfl, fun tail _ => .none tail⟩
  | blank hblank _ ih =>
      obtain ⟨taken, rfl, hlayout⟩ := ih hinner
      exact ⟨_ :: taken, rfl, fun tail htail => .blank hblank (hlayout tail htail)⟩
  | @comment content _ _ hcontent hend _ ih =>
      obtain ⟨taken, rfl, hlayout⟩ := ih hinner
      refine ⟨'#' :: (content ++ taken), by rw [List.cons_append, List.append_assoc], ?_⟩
      intro tail htail
      rw [List.cons_append, List.append_assoc]
      exact .comment hcontent (lineEnds_append hend hinner htail) (hlayout tail htail)

/-! ## Words -/

theorem stable_mark (word : String) : Stable (Mark word) where
  persists := by
    rintro _ _ rest rfl
    exact ⟨word.toList, rfl, fun _ _ => rfl⟩

theorem stable_keyword (word : String) : Stable (Keyword word) where
  persists := by
    rintro _ _ rest ⟨rfl, hstop⟩
    exact ⟨word.toList, rfl, fun _ htail => ⟨rfl, htail.stopsAt rfl hstop⟩⟩

theorem stable_quoted : Stable Quoted where
  persists := by
    rintro _ _ rest ⟨hcontent⟩
    refine ⟨'"' :: (_ ++ ['"']), by rw [List.cons_append, List.append_assoc]; rfl, ?_⟩
    intro tail _
    rw [List.cons_append, List.append_assoc]
    exact .intro hcontent

theorem stable_identifier : Stable Identifier where
  persists := by
    rintro _ _ rest ⟨hstart, hrest, hstop⟩
    exact ⟨_ :: _, rfl, fun _ htail => .intro hstart hrest (htail.stopsAt rfl hstop)⟩

theorem stable_bareWord : Stable BareWord where
  persists := by
    rintro _ _ rest ⟨hne, hclass, hstop⟩
    exact ⟨_, rfl, fun _ htail => .intro hne hclass (htail.stopsAt rfl hstop)⟩

theorem stable_count : Stable Count where
  persists := by
    rintro _ number _ ⟨_, rest⟩
    exact ⟨_, rfl, fun tail _ => .intro number tail⟩

/-- One of two stable rules is stable. -/
theorem Stable.or {first second : Rule α} (hfirst : Stable first) (hsecond : Stable second) :
    Stable fun text value rest => first text value rest ∨ second text value rest where
  persists := by
    rintro text value rest (h | h)
    · exact (hfirst.persists h).mono fun _ _ => .inl
    · exact (hsecond.persists h).mono fun _ _ => .inr

theorem stable_name : Stable Name :=
  stable_quoted.or stable_identifier

theorem stable_value : Stable Value :=
  stable_quoted.or stable_bareWord

theorem stable_operatorWord : Stable OperatorWord where
  persists := by
    intro text op rest h
    cases h with
    | symbol hmem => exact ⟨_, rfl, fun _ _ => .symbol hmem⟩
    | named h => exact (stable_identifier.persists h).mono fun _ _ => .named

end Segmentation.Language
