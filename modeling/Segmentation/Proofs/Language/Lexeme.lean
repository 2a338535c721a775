import Segmentation.Proofs.Language.Reader
import Segmentation.Proofs.Language.Written
import Segmentation.Proofs.Number.Digits

/-!
# Reading words

A reader of the words of the language accepts what is written and nothing else.
Each lexeme has a lemma for what is accepted and one for what is written; the second
needs that the reader stands where the layout ends, so it comes with the characters
at which layout ends.
-/

namespace Segmentation.Language

open Reader Written
open Numeral (digitsValue_toDigits toDigits_digitsValue isDigit_of_mem_toDigits head_toDigits_ne)

variable {α : Type} {text inner rest : List Char} {c : Char}

/-! ## Classes of characters -/

theorem stopsAt_nil (inClass : Char → Bool) : StopsAt inClass [] := by
  intro c tail h
  contradiction

theorem stopsAt_cons {inClass : Char → Bool} (h : inClass c = false) (tail : List Char) :
    StopsAt inClass (c :: tail) := by
  intro d _ heq
  rw [← (List.cons.inj heq).1]
  exact h

theorem stopsAt_dropWhile (inClass : Char → Bool) (text : List Char) :
    StopsAt inClass (text.dropWhile inClass) := by
  intro c tail h
  have hhead := List.head?_dropWhile_not inClass text
  rw [h] at hhead
  simpa using hhead

theorem takeWhile_append {inClass : Char → Bool} {word : List Char}
    (hword : ∀ c ∈ word, inClass c) (hstop : StopsAt inClass rest) :
    (word ++ rest).takeWhile inClass = word := by
  have hrest : rest.takeWhile inClass = [] := by
    cases rest with
    | nil => rfl
    | cons c tail => rw [List.takeWhile_cons_of_neg (by rw [hstop c tail rfl]; decide)]
  rw [List.takeWhile_append_of_pos hword, hrest, List.append_nil]

theorem dropWhile_append {inClass : Char → Bool} {word : List Char}
    (hword : ∀ c ∈ word, inClass c) (hstop : StopsAt inClass rest) :
    (word ++ rest).dropWhile inClass = rest := by
  have hrest : rest.dropWhile inClass = rest := by
    cases rest with
    | nil => rfl
    | cons c tail => rw [List.dropWhile_cons_of_neg (by rw [hstop c tail rfl]; decide)]
  rw [List.dropWhile_append_of_pos hword, hrest]

theorem mem_takeWhile {inClass : Char → Bool} (h : c ∈ text.takeWhile inClass) : inClass c := by
  exact List.all_eq_true.1 List.all_takeWhile c h

/-! ## Layout -/

/-- There is no layout in front of a text. -/
def Settled (text : List Char) : Prop :=
  skipLayout text = text

theorem settled_nil : Settled [] := by
  rfl

/-- The characters with which layout begins. -/
def layoutStarts : List Char :=
  [' ', '\t', '\n', '\x0c', '\r', '#']

theorem mem_layoutStarts_of_isLayoutBlank (h : isLayoutBlank c) : c ∈ layoutStarts := by
  simp only [isLayoutBlank, Bool.or_eq_true, decide_eq_true_eq] at h
  simp only [layoutStarts, List.mem_cons, List.not_mem_nil, or_false]
  tauto

theorem eq_false_of_mem_layoutStarts {inClass : Char → Bool}
    (hclass : layoutStarts.any inClass = false) (hc : c ∈ layoutStarts) : inClass c = false := by
  rw [← Bool.not_eq_true]
  exact List.any_eq_false.1 hclass c hc

/-- Layout does not begin with a character of a class that has no blanks and no hash. -/
theorem settled_cons {inClass : Char → Bool} (hclass : layoutStarts.any inClass = false)
    (hc : inClass c) (tail : List Char) : Settled (c :: tail) := by
  have hne : ∀ d ∈ layoutStarts, c ≠ d := by
    rintro d hd rfl
    rw [eq_false_of_mem_layoutStarts hclass hd] at hc
    contradiction
  simp only [layoutStarts, List.mem_cons, List.not_mem_nil, or_false, forall_eq_or_imp,
    forall_eq] at hne
  simp [Settled, skipLayout, isLayoutBlank, hne]

/-- Skipping goes over layout; a comment whose content has begun reaches to the end of its
line, and one that has none is not begun. -/
theorem layout_skipLayout (text : List Char) : Layout text (skipLayout text) := by
  -- In a comment, `content` is what was passed of it since its hash.
  refine skipLayout.induct (fun text => Layout text (skipLayout text))
    (fun start text => ∀ content, start = '#' :: (content ++ text) →
      (∀ c ∈ content, c ≠ '\n' ∧ c ≠ '\r') → Layout start (skipComment start text))
    ?nil ?blank ?hash ?other ?finish ?line ?lines ?undone ?more text
  case nil => exact .none []
  case blank =>
    intro c rest hblank ih
    rw [skipLayout, if_pos hblank]
    exact .blank hblank ih
  case hash =>
    intro rest hblank ih
    rw [skipLayout, if_neg hblank, if_pos rfl]
    exact ih [] rfl nofun
  case other =>
    intro c rest hblank hhash
    rw [skipLayout, if_neg hblank, if_neg hhash]
    exact .none _
  case finish =>
    rintro start content rfl hcontent
    exact .comment hcontent (.inl rfl) (.none [])
  case line =>
    rintro start rest ih content rfl hcontent
    exact .comment hcontent (.inr (.inl ⟨rest, rfl⟩)) (.blank rfl ih)
  case lines =>
    rintro start rest ih content rfl hcontent
    exact .comment hcontent (.inr (.inr ⟨rest, rfl⟩)) (.blank rfl (.blank rfl ih))
  case undone =>
    intro start tail hline content _ _
    rw [skipComment]
    · exact .none start
    · exact hline
  case more =>
    rintro start c rest hline hlines hreturn ih content rfl hcontent
    rw [skipComment]
    · apply ih (content ++ [c])
      · rw [List.append_assoc]
        rfl
      · intro d hd
        obtain hd | hd := List.mem_append.1 hd
        · exact hcontent d hd
        · rw [List.mem_singleton.1 hd]
          exact ⟨hline, hreturn⟩
    all_goals assumption

theorem skipComment_append {content : List Char} (start : List Char)
    (hcontent : ∀ c ∈ content, c ≠ '\n' ∧ c ≠ '\r') (text : List Char) :
    skipComment start (content ++ text) = skipComment start text := by
  induction content with
  | nil => rfl
  | cons c content ih =>
      obtain ⟨hline, hreturn⟩ := hcontent c List.mem_cons_self
      rw [List.cons_append, skipComment, ih fun d hd => hcontent d (List.mem_cons_of_mem c hd)]
      · exact hline
      · intro _ hc _
        exact hreturn hc
      · exact hreturn

/-- Layout up to where it ends is all that is skipped. -/
theorem skipLayout_of_layout (h : Layout text rest) (hrest : Settled rest) :
    skipLayout text = rest := by
  induction h with
  | none rest => exact hrest
  | blank hblank h ih =>
      rw [skipLayout, if_pos hblank]
      exact ih hrest
  | @comment content text rest hcontent hend h ih =>
      have hskip : skipComment ('#' :: (content ++ text)) text = skipLayout text := by
        obtain rfl | ⟨tail, rfl⟩ | ⟨tail, rfl⟩ := hend
        · rfl
        · rw [skipComment, skipLayout, if_pos (by rfl)]
        · rw [skipComment, skipLayout, if_pos (by rfl), skipLayout, if_pos (by rfl)]
      rw [skipLayout, if_neg (by decide), if_pos rfl, skipComment_append _ hcontent, hskip]
      exact ih hrest

theorem spaced_apply (reader : Reader α) (text : List Char) :
    spaced reader text = reader (skipLayout text) := by
  rfl

theorem spaced_of_accept {reader : Reader α} {rule : Rule α} {value : α}
    (hsound : ∀ {text value rest}, reader text = .accept value rest → rule text value rest)
    (h : spaced reader text = .accept value rest) : Spaced rule text value rest := by
  exact ⟨skipLayout text, layout_skipLayout text, hsound h⟩

/-! ## Fixed words -/

theorem dropWord?_eq_some_iff {word : List Char} :
    dropWord? word text = some rest ↔ text = word ++ rest := by
  fun_induction dropWord? word text with
  | case1 text => simp
  | case2 w word => simp
  | case3 word c text ih => simpa using ih
  | case4 w word c text hne =>
      simp only [reduceCtorEq, List.cons_append, List.cons.injEq, false_iff, not_and]
      intro h
      exact absurd h.symm hne

theorem literal_eq_accept_iff {word : String} {value : Unit} :
    literal word text = .accept value rest ↔ Mark word text value rest := by
  rw [literal, Mark, ← dropWord?_eq_some_iff]
  cases dropWord? word.toList text <;> simp

theorem literal_refuses {word : String} (h : ∀ rest, ¬ Mark word text () rest) :
    (literal word).Refuses text := by
  refine ⟨text, ?_⟩
  rw [literal]
  cases hdrop : dropWord? word.toList text with
  | none => rfl
  | some rest => exact absurd (dropWord?_eq_some_iff.1 hdrop) (h rest)

theorem wordEnd_eq_accept_iff {value : Unit} :
    wordEnd text = .accept value rest ↔ text = rest ∧ StopsAt isWordChar text := by
  unfold wordEnd
  cases text with
  | nil =>
      simp only [Outcome.accept.injEq, true_and]
      exact ⟨fun h => ⟨h, stopsAt_nil _⟩, And.left⟩
  | cons c tail =>
      cases hc : isWordChar c with
      | true =>
          simp only [hc, if_true, reduceCtorEq, false_iff, not_and]
          intro _ hstop
          rw [hstop c tail rfl] at hc
          contradiction
      | false =>
          simp only [hc, Bool.false_eq_true, if_false, Outcome.accept.injEq, true_and]
          exact ⟨fun h => ⟨h, stopsAt_cons hc tail⟩, And.left⟩

theorem keyword_eq_accept_iff {word : String} {value : Unit} :
    keyword word text = .accept value rest ↔ Keyword word text value rest := by
  constructor
  · intro h
    obtain ⟨_, middle, hliteral, hend⟩ := accept_of_bind h
    obtain ⟨rfl, hstop⟩ := wordEnd_eq_accept_iff.1 hend
    exact ⟨literal_eq_accept_iff.1 hliteral, hstop⟩
  · rintro ⟨rfl, hstop⟩
    have hliteral : literal word (word.toList ++ rest) = .accept () rest :=
      literal_eq_accept_iff.2 rfl
    rw [keyword, bind_of_accept hliteral]
    exact wordEnd_eq_accept_iff.2 ⟨rfl, hstop⟩

theorem keyword_refuses {word : String} (h : ∀ rest, ¬ Keyword word text () rest) :
    (keyword word).Refuses text := by
  cases hliteral : literal word text with
  | accept value rest =>
      cases hend : wordEnd rest with
      | accept value' rest' =>
          obtain ⟨rfl, hstop⟩ := wordEnd_eq_accept_iff.1 hend
          exact absurd ⟨literal_eq_accept_iff.1 hliteral, hstop⟩ (h rest)
      | refuse stop =>
          refine ⟨stop, ?_⟩
          rw [keyword, bind_of_accept hliteral, hend]
      | fail stop expected =>
          unfold wordEnd at hend
          split at hend
          · contradiction
          · split at hend <;> contradiction
  | refuse stop => exact Refuses.bind ⟨stop, hliteral⟩
  | fail stop expected =>
      rw [literal] at hliteral
      split at hliteral <;> contradiction

/-- Two keywords are not written at one place. -/
theorem keyword_unique {word other : String} {value : Unit} (hword : word.toList.all isWordChar)
    (hother : other.toList.all isWordChar) (h : Keyword word text value rest)
    {tail : List Char} (h' : Keyword other text value tail) : word = other := by
  obtain ⟨rfl, hstop⟩ := h
  obtain ⟨heq, hstop'⟩ := h'
  have hrun := takeWhile_append (List.all_eq_true.1 hword) hstop
  rw [heq, takeWhile_append (List.all_eq_true.1 hother) hstop'] at hrun
  exact String.toList_inj.1 hrun.symm

/-! ## Names, texts and values -/

theorem identifier_eq_accept_iff {value : String} :
    identifier text = .accept value rest ↔ Identifier text value rest := by
  constructor
  · intro h
    unfold identifier at h
    split at h
    · contradiction
    · next c tail =>
        split at h
        · next hstart =>
            obtain ⟨rfl, rfl⟩ := Outcome.accept.inj h
            have hsplit := List.takeWhile_append_dropWhile (p := isIdentifierRest) (l := tail)
            have hrest : ∀ d ∈ tail.takeWhile isIdentifierRest, isIdentifierRest d :=
              fun d hd => mem_takeWhile hd
            have hidentifier := Identifier.intro hstart hrest
              (stopsAt_dropWhile isIdentifierRest tail)
            rwa [hsplit] at hidentifier
        · contradiction
  · rintro ⟨hstart, hrest, hstop⟩
    rw [identifier]
    simp only [hstart, if_true, takeWhile_append hrest hstop, dropWhile_append hrest hstop]

theorem quotedRest?_of_content {written content : List Char} (h : Content written content)
    (rest : List Char) : quotedRest? (written ++ '"' :: rest) = some (content, rest) := by
  induction h with
  | nil => rfl
  | plain hquote hescape h ih =>
      rw [List.cons_append, quotedRest?, ih]
      · rfl
      · exact hquote
      · intro hc
        exact absurd hc hescape
      · intro _ _ hc
        exact absurd hc hescape
  | escape h ih =>
      rw [List.cons_append, List.cons_append, quotedRest?, ih]
      rfl

theorem content_of_quotedRest? {content : List Char}
    (h : quotedRest? text = some (content, rest)) :
    ∃ written, Content written content ∧ text = written ++ '"' :: rest := by
  fun_induction quotedRest? text generalizing content rest with
  | case1 => contradiction
  | case2 tail =>
      obtain ⟨rfl, rfl⟩ := Prod.mk.inj (Option.some.inj h)
      exact ⟨[], .nil, rfl⟩
  | case3 => contradiction
  | case4 c tail ih =>
      obtain ⟨⟨inside, after⟩, htail, heq⟩ := Option.map_eq_some_iff.1 h
      obtain ⟨rfl, rfl⟩ := Prod.mk.inj heq
      obtain ⟨written, hcontent, rfl⟩ := ih htail
      exact ⟨'\\' :: c :: written, .escape hcontent, rfl⟩
  | case5 c tail hquote hlone hescape ih =>
      obtain ⟨⟨inside, after⟩, htail, heq⟩ := Option.map_eq_some_iff.1 h
      obtain ⟨rfl, rfl⟩ := Prod.mk.inj heq
      obtain ⟨written, hcontent, rfl⟩ := ih htail
      refine ⟨c :: written, .plain hquote ?_ hcontent, rfl⟩
      rintro rfl
      cases written with
      | nil => exact hescape '"' after rfl rfl
      | cons d written => exact hescape d _ rfl rfl

theorem quoted_eq_accept_iff {value : String} :
    quoted text = .accept value rest ↔ Quoted text value rest := by
  constructor
  · intro h
    unfold quoted at h
    split at h
    · split at h
      · next content tail hquoted =>
          obtain ⟨rfl, rfl⟩ := Outcome.accept.inj h
          obtain ⟨written, hcontent, rfl⟩ := content_of_quotedRest? hquoted
          exact .intro hcontent
      · contradiction
    · contradiction
  · rintro ⟨hcontent⟩
    rw [quoted]
    simp only [quotedRest?_of_content hcontent]

theorem quoted_refuses (h : ∀ tail, text ≠ '"' :: tail) : quoted.Refuses text := by
  refine ⟨text, ?_⟩
  rw [quoted]
  exact h

theorem run_eq_accept_iff {inClass : Char → Bool} {word : List Char} :
    run inClass text = .accept word rest ↔
      word ≠ [] ∧ (∀ c ∈ word, inClass c) ∧ StopsAt inClass rest ∧ text = word ++ rest := by
  rw [run]
  constructor
  · intro h
    split at h
    · contradiction
    · next hne =>
        obtain ⟨rfl, rfl⟩ := Outcome.accept.inj h
        exact ⟨hne, fun c hc => mem_takeWhile hc, stopsAt_dropWhile inClass text,
          List.takeWhile_append_dropWhile.symm⟩
  · rintro ⟨hne, hword, hstop, rfl⟩
    rw [takeWhile_append hword hstop, dropWhile_append hword hstop]
    split
    · contradiction
    · rfl

theorem bareWord_eq_accept_iff {value : String} :
    bareWord text = .accept value rest ↔ BareWord text value rest := by
  constructor
  · intro h
    obtain ⟨word, middle, hrun, hpure⟩ := accept_of_bind h
    obtain ⟨hne, hword, hstop, rfl⟩ := run_eq_accept_iff.1 hrun
    obtain ⟨rfl, rfl⟩ := pure_eq_accept_iff.1 hpure
    exact .intro hne hword hstop
  · rintro ⟨hne, hword, hstop⟩
    rw [bareWord, bind_of_accept (run_eq_accept_iff.2 ⟨hne, hword, hstop, rfl⟩)]
    rfl

/-- A word that a bare reader takes does not begin like a quoted text. -/
theorem quoted_refuses_of_class {inClass : Char → Bool} (hquote : inClass '"' = false)
    (hc : inClass c) (tail : List Char) : quoted.Refuses (c :: tail) := by
  apply quoted_refuses
  intro _ h
  obtain ⟨rfl, _⟩ := List.cons.inj h
  rw [hquote] at hc
  contradiction

theorem name_eq_accept_iff {value : String} :
    name text = .accept value rest ↔ Name text value rest := by
  constructor
  · intro h
    obtain h | h := accept_of_orElse h
    · exact .inl (quoted_eq_accept_iff.1 h)
    · exact .inr (identifier_eq_accept_iff.1 h)
  · rintro (h | h)
    · exact orElse_of_accept (quoted_eq_accept_iff.2 h)
    · rw [name, Refuses.orElse_eq]
      · exact identifier_eq_accept_iff.2 h
      · obtain ⟨hstart, _, _⟩ := h
        exact quoted_refuses_of_class (by decide) hstart _

theorem value_eq_accept_iff {operand : String} :
    value text = .accept operand rest ↔ Value text operand rest := by
  constructor
  · intro h
    obtain h | h := accept_of_orElse h
    · exact .inl (quoted_eq_accept_iff.1 h)
    · exact .inr (bareWord_eq_accept_iff.1 h)
  · rintro (h | h)
    · exact orElse_of_accept (quoted_eq_accept_iff.2 h)
    · rw [value, Refuses.orElse_eq]
      · exact bareWord_eq_accept_iff.2 h
      · obtain ⟨hne, hclass, _⟩ := h
        obtain ⟨c, cs, rfl⟩ := List.exists_cons_of_ne_nil hne
        exact quoted_refuses_of_class (by decide) (hclass c List.mem_cons_self) _

/-! ## Counts -/

theorem count_of_accept {value : UInt64} (h : count text = .accept value rest) :
    Count text value rest := by
  unfold count at h
  split at h
  · contradiction
  · next c tail =>
      split at h
      · next hzero =>
          obtain ⟨rfl, rfl⟩ := Outcome.accept.inj h
          rw [hzero]
          exact .intro 0 tail
      · next hzero =>
          split at h
          · next hdigit =>
              have hdigits : ∀ d ∈ tail.takeWhile Char.isDigit, d.isDigit :=
                fun d hd => mem_takeWhile hd
              obtain ⟨_, hwritten⟩ := toDigits_digitsValue hdigit hzero hdigits
              dsimp only at h
              split at h
              · next hbound =>
                  obtain ⟨rfl, rfl⟩ := Outcome.accept.inj h
                  have hcount := Count.intro (UInt64.ofNat (Numeral.digitsValue
                    (c :: tail.takeWhile Char.isDigit))) (tail.dropWhile Char.isDigit)
                  rw [UInt64.toNat_ofNat', Nat.mod_eq_of_lt hbound, hwritten, List.cons_append,
                    List.takeWhile_append_dropWhile] at hcount
                  exact hcount
              · contradiction
          · contradiction

/-- A written count is accepted where no further digit follows. -/
theorem count_of_written {value : UInt64} (h : Count text value rest)
    (hstop : StopsAt Char.isDigit rest) : count text = .accept value rest := by
  obtain ⟨value, rest⟩ := h
  by_cases hzero : value = 0
  · subst hzero
    rfl
  · obtain ⟨first, digits, hdigits⟩ := List.exists_cons_of_ne_nil
      (Nat.toDigits_ne_nil : Nat.toDigits 10 value.toNat ≠ [])
    have hne : value.toNat ≠ 0 := by
      intro h
      exact hzero (UInt64.toNat_inj.1 h)
    have hdigit : ∀ d ∈ first :: digits, d.isDigit := by
      intro d hd
      rw [← hdigits] at hd
      exact isDigit_of_mem_toDigits hd
    have hvalue : Numeral.digitsValue (first :: digits) = value.toNat := by
      rw [← hdigits, digitsValue_toDigits]
    have htail : ∀ d ∈ digits, d.isDigit := fun d hd => hdigit d (List.mem_cons_of_mem _ hd)
    rw [hdigits, List.cons_append]
    unfold count
    simp only [if_neg (head_toDigits_ne hne hdigits), if_pos (hdigit first List.mem_cons_self),
      takeWhile_append htail hstop, dropWhile_append htail hstop, hvalue, value.toNat_lt, if_true,
      UInt64.ofNat_toNat]

theorem count_refuses (h : StopsAt Char.isDigit text) : count.Refuses text := by
  refine ⟨text, ?_⟩
  unfold count
  split
  · rfl
  · next c tail =>
      have hdigit := h c tail rfl
      have hzero : c ≠ '0' := by
        rintro rfl
        contradiction
      rw [if_neg hzero, hdigit]
      rfl

/-! ## Operators, connectives and modes -/

theorem symbol_eq_accept_iff {word : String} {op found : Operator} :
    symbol word op text = .accept found rest ↔ Mark word text () rest ∧ found = op := by
  constructor
  · intro h
    obtain ⟨_, middle, hliteral, hpure⟩ := accept_of_bind h
    obtain ⟨rfl, rfl⟩ := pure_eq_accept_iff.1 hpure
    exact ⟨literal_eq_accept_iff.1 hliteral, rfl⟩
  · rintro ⟨hmark, rfl⟩
    rw [symbol, bind_of_accept (literal_eq_accept_iff.2 hmark)]
    rfl

theorem symbol_refuses {word : String} {op : Operator} (h : ∀ rest, ¬ Mark word text () rest) :
    (symbol word op).Refuses text := by
  exact Refuses.bind (literal_refuses h)

theorem symbol_refuses_of_head {word : String} {op : Operator} {w : Char} {ws tail : List Char}
    (hword : word.toList = w :: ws) (hne : c ≠ w) : (symbol word op).Refuses (c :: tail) := by
  apply symbol_refuses
  intro rest hmark
  rw [Mark, hword, List.cons_append, List.cons.injEq] at hmark
  exact hne hmark.1

theorem ofName?_eq_some_iff {word : String} {op : Operator} :
    Operator.ofName? word = some op ↔ word = op.name := by
  constructor
  · intro h
    obtain ⟨before, after, hnamed, _⟩ := List.lookup_eq_some_iff.1 h
    have hmem : (word, op) ∈ Operator.named := by
      rw [hnamed]
      exact List.mem_append_right _ List.mem_cons_self
    obtain ⟨other, _, heq⟩ := List.mem_map.1 hmem
    obtain ⟨rfl, rfl⟩ := Prod.mk.inj heq
    rfl
  · rintro rfl
    cases op <;> decide

theorem operatorName_eq_accept_iff {op : Operator} :
    operatorName text = .accept op rest ↔ Identifier text op.name rest := by
  constructor
  · intro h
    unfold operatorName at h
    split at h
    · next word tail hidentifier =>
        split at h
        · next found hname =>
            obtain ⟨rfl, rfl⟩ := Outcome.accept.inj h
            rw [← ofName?_eq_some_iff.1 hname]
            exact identifier_eq_accept_iff.1 hidentifier
        · contradiction
    · contradiction
    · contradiction
  · intro h
    unfold operatorName
    simp only [identifier_eq_accept_iff.2 h, ofName?_eq_some_iff.2 rfl]

theorem operatorWord_of_accept {op : Operator} (h : operator text = .accept op rest) :
    OperatorWord text op rest := by
  have hsymbol : ∀ {word : String} {other : Operator}, (word, other) ∈ symbols →
      symbol word other text = .accept op rest → OperatorWord text op rest := by
    intro word other hmem haccept
    obtain ⟨rfl, rfl⟩ := symbol_eq_accept_iff.1 haccept
    exact .symbol hmem
  obtain h | h := accept_of_orElse h
  · exact hsymbol (by decide) h
  obtain h | h := accept_of_orElse h
  · exact hsymbol (by decide) h
  obtain h | h := accept_of_orElse h
  · exact hsymbol (by decide) h
  obtain h | h := accept_of_orElse h
  · exact hsymbol (by decide) h
  obtain h | h := accept_of_orElse h
  · exact hsymbol (by decide) h
  · exact .named (operatorName_eq_accept_iff.1 h)

/-- A text that does not begin like the symbols with an equals sign is left to the others. -/
theorem operator_of_head (hnot : c ≠ '!') (hequals : c ≠ '=') (tail : List Char) :
    operator (c :: tail) =
      ((symbol ">" .greaterThan).orElse <|
        (symbol "<" .lessThan).orElse operatorName) (c :: tail) := by
  have hnotEquals : (symbol "!=" .notEquals).Refuses (c :: tail) :=
    symbol_refuses_of_head (w := '!') rfl hnot
  have hdouble : (symbol "==" .equals).Refuses (c :: tail) :=
    symbol_refuses_of_head (w := '=') rfl hequals
  have hsingle : (symbol "=" .equals).Refuses (c :: tail) :=
    symbol_refuses_of_head (w := '=') rfl hequals
  rw [operator, hnotEquals.orElse_eq, hdouble.orElse_eq, hsingle.orElse_eq]

/-- A written operator is accepted; after a symbol no equals sign may follow. -/
theorem operator_of_written {op : Operator} (h : OperatorWord text op rest)
    (hstop : op.needsValue = true → StopsAt (· = '=') rest) : operator text = .accept op rest := by
  have haccept : ∀ {word : String} {op : Operator},
      symbol word op (word.toList ++ rest) = .accept op rest :=
    symbol_eq_accept_iff.2 ⟨rfl, rfl⟩
  cases h with
  | symbol hmem =>
      simp only [symbols, List.mem_cons, Prod.mk.injEq, List.not_mem_nil, or_false] at hmem
      obtain ⟨rfl, rfl⟩ | ⟨rfl, rfl⟩ | ⟨rfl, rfl⟩ | ⟨rfl, rfl⟩ | ⟨rfl, rfl⟩ := hmem
      · have hnot : (symbol "!=" .notEquals).Refuses ("=".toList ++ rest) :=
          symbol_refuses_of_head (w := '!') rfl (by decide)
        have hdouble : (symbol "==" .equals).Refuses ("=".toList ++ rest) := by
          apply symbol_refuses
          intro tail hmark
          have hcons : rest = '=' :: tail := (List.cons.inj hmark).2
          have := hstop rfl '=' tail hcons
          contradiction
        rw [operator, hnot.orElse_eq, hdouble.orElse_eq]
        exact orElse_of_accept haccept
      · have hnot : (symbol "!=" .notEquals).Refuses ("==".toList ++ rest) :=
          symbol_refuses_of_head (w := '!') rfl (by decide)
        rw [operator, hnot.orElse_eq]
        exact orElse_of_accept haccept
      · exact orElse_of_accept haccept
      · refine (operator_of_head (c := '>') (by decide) (by decide) rest).trans ?_
        exact orElse_of_accept haccept
      · have hgreater : (symbol ">" .greaterThan).Refuses ('<' :: rest) :=
          symbol_refuses_of_head (w := '>') rfl (by decide)
        refine (operator_of_head (c := '<') (by decide) (by decide) rest).trans ?_
        rw [hgreater.orElse_eq]
        exact orElse_of_accept haccept
  | named h =>
      obtain ⟨c, tail, rfl, hstart⟩ : ∃ c tail, text = c :: tail ∧ isIdentifierStart c := by
        generalize op.name = word at h
        obtain ⟨hstart, _, _⟩ := h
        exact ⟨_, _, rfl, hstart⟩
      have hne : ∀ d, isIdentifierStart d = false → c ≠ d := by
        rintro d hd rfl
        rw [hd] at hstart
        contradiction
      have hgreater : (symbol ">" .greaterThan).Refuses (c :: tail) :=
        symbol_refuses_of_head (w := '>') rfl (hne '>' (by decide))
      have hless : (symbol "<" .lessThan).Refuses (c :: tail) :=
        symbol_refuses_of_head (w := '<') rfl (hne '<' (by decide))
      rw [operator_of_head (hne '!' (by decide)) (hne '=' (by decide)), hgreater.orElse_eq,
        hless.orElse_eq]
      exact operatorName_eq_accept_iff.2 h

end Segmentation.Language
